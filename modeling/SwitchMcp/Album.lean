import SwitchMcp.Debug
import SwitchMcp.HexIds
import SwitchMcp.HostTools
/-!
# Album — the capture album (agent/source/handlers/album.cpp, tools/system.py, clients/agentd.py)

An entry's fields leave `AlbumList` as JSON, come back as the arguments of `album_download`, and go into a message whose own
`id` is the client's request counter.  `album_id_returns_iff` says when `AlbumDownload` rebuilds the file id they came from.
-/
namespace SwitchMcp
namespace Agent

open Json (Value ofPy toPy)
open PyJson (dictGet dictSet)

/-! ## The agent's side -/

/-- `CapsAlbumFileDateTime`. -/
structure AlbumDateTime where
  year : UInt16
  month : UInt8
  day : UInt8
  hour : UInt8
  minute : UInt8
  second : UInt8
  id : UInt8
deriving DecidableEq

/-- `CapsAlbumFileId`. -/
structure AlbumFileId where
  applicationId : UInt64
  datetime : AlbumDateTime
  storage : UInt8
  content : UInt8
deriving DecidableEq

/-- `capsa` as the handlers use it: the number of files, the entries, and a file that fits the buffer. -/
structure AlbumService where
  count : UInt32 → Option Nat
  entries : UInt32 → Nat → Option (List (UInt64 × AlbumFileId))
  load : AlbumFileId → Option Bytes

def kStorageSd : Int64 := 1

/-- `CapsAlbumFileContents_ScreenShot`, `_Movie`, `_ExtraScreenShot` and `_ExtraMovie` are 0 to 3. -/
def contentName (c : UInt8) : Bytes :=
  if c = 0 then str "screenshot" else if c = 1 then str "movie" else if c = 2 then str "extra_screenshot"
  else if c = 3 then str "extra_movie" else str "unknown"

/-- `%0wu`. -/
def padU (w n : Nat) : Bytes := List.replicate (w - (fmtU n).length) (ch '0') ++ fmtU n

/-- The text of a date, in a buffer of 24 bytes. -/
def dateText (d : AlbumDateTime) : Bytes :=
  (padU 4 d.year.toNat ++ ch '-' :: (padU 2 d.month.toNat ++ ch '-' :: (padU 2 d.day.toNat ++ ch ' ' ::
    (padU 2 d.hour.toNat ++ ch ':' :: (padU 2 d.minute.toNat ++ ch ':' :: padU 2 d.second.toNat))))).take 23

def fieldInt (n : Nat) : Value := .int (Int64.ofNat n)

def albumEntry (size : UInt64) (f : AlbumFileId) : Value :=
  let d := f.datetime
  let e := setHex64 ((Value.object []).set (str "size") (.int size.toInt64)) "application_id" f.applicationId
  let e := (e.set (str "content") (.string (contentName f.content))).set (str "storage") (fieldInt f.storage.toNat)
  let e := ((e.set (str "year") (fieldInt d.year.toNat)).set (str "month") (fieldInt d.month.toNat)).set (str "day")
    (fieldInt d.day.toNat)
  let e := ((e.set (str "hour") (fieldInt d.hour.toNat)).set (str "minute") (fieldInt d.minute.toNat)).set (str "second")
    (fieldInt d.second.toNat)
  (e.set (str "id") (fieldInt d.id.toNat)).set (str "datetime") (.string (dateText d))

def albumList (svc : AlbumService) (req : Request) : Bool × Reply :=
  let storage := ((req.get "storage").asInt kStorageSd).toUInt64.toUInt32
  match svc.count storage with
  | none => (false, fail "caps_failed" (str "cannot count album files"))
  | some n =>
    match (if min n 1000 = 0 then some [] else svc.entries storage (min n 1000)) with
    | none => (false, fail "caps_failed" (str "cannot list album files"))
    | some entries =>
      (true, (({} : Reply).set "files" (.array (entries.map (fun e => albumEntry e.1 e.2)))).set "count"
        (.int (Int64.ofNat entries.length)))

def reqU8 (req : Request) (k : String) (d : Int64) : UInt8 := (asU64 (req.get k) d).toUInt8

/-- The file id that `AlbumDownload` rebuilds. -/
def albumFileId (req : Request) : AlbumFileId where
  applicationId := strtoull16 ((req.get "application_id").asString (str "0"))
  storage := reqU8 req "storage" kStorageSd
  content := reqU8 req "content_type" 0
  datetime := {
    year := (asU64 (req.get "year") 0).toUInt16
    month := reqU8 req "month" 0
    day := reqU8 req "day" 0
    hour := reqU8 req "hour" 0
    minute := reqU8 req "minute" 0
    second := reqU8 req "second" 0
    id := reqU8 req "id" 0 }

def albumDownload (svc : AlbumService) (req : Request) : Bool × Reply :=
  let f := albumFileId req
  match svc.load f with
  | none =>
    if f.content = 1 then (false, fail "too_large" (str "movies exceed the 1 MiB transfer cap"))
    else (false, fail "caps_failed" (str "cannot load album file"))
  | some data => (true, { ({} : Reply).set "jpeg" (.bool (decide (f.content = 0))) with out := data })

/-! ## The client's side -/

def strField (d : PyDict) (k : String) : Option PyStr :=
  match dictGet d (py k) with
  | some (.str s) => some s
  | _ => none

def intField (d : PyDict) (k : String) : Option Int :=
  match dictGet d (py k) with
  | some (.int n) => some n
  | _ => none

/-- The arguments of `album_download` for an entry of `album.list`, with the number of its content. -/
def albumArgs (d : PyDict) (contentType : Int) : Option Guards.AlbumEntry := do
  let applicationId ← strField d "application_id"
  let year ← intField d "year"
  let month ← intField d "month"
  let day ← intField d "day"
  let hour ← intField d "hour"
  let minute ← intField d "minute"
  let second ← intField d "second"
  let id ← intField d "id"
  let storage ← intField d "storage"
  return ⟨applicationId, year, month, day, hour, minute, second, id, contentType, storage⟩

/-- The file id that reaches `capsaLoadAlbumFile` when an entry is listed and then downloaded, by a client that has sent
`counter` requests. -/
def downloadedId (size : UInt64) (f : AlbumFileId) (counter : Nat) : Option AlbumFileId :=
  match toPy (albumEntry size f) with
  | .dict d => do
    let args ← albumArgs d f.content.toNat
    let msg ← Json.parse (requestText (counter + 1) (callMsg (py "album.download") args.params) [])
    return albumFileId ⟨msg, []⟩
  | _ => none

/-! ## What comes back -/

/-- The low byte of a request's number as `as_int` reads it: past the range of `int64_t` the number saturates. -/
def counterByte (n : Nat) : UInt8 := if n < 2 ^ 63 then UInt8.ofNat n else 255

theorem ofPy_int_lt {n : Nat} (h : n < 2 ^ 63) (d : Int64) : asU64 (ofPy (.int n)) d = UInt64.ofNat n := by
  rw [ofPy, asU64, Value.asInt, Json.saturate_of_lt h, Int64.toUInt64_ofNat']

theorem reqU8_byte {req : Request} {k : String} {b : UInt8} (h : req.get k = ofPy (.int b.toNat)) (d : Int64) :
    reqU8 req k d = b := by
  have hb := b.toNat_lt
  rw [reqU8, h, ofPy_int_lt (by omega), UInt64.toUInt8_ofNat', UInt8.ofNat_toNat]

theorem reqU8_counter {req : Request} {k : String} {n : Nat} (h : req.get k = ofPy (.int n)) (d : Int64) :
    reqU8 req k d = counterByte n := by
  unfold counterByte
  split
  · rename_i hn
    rw [reqU8, h, ofPy_int_lt hn, UInt64.toUInt8_ofNat']
  · rename_i hn
    rw [reqU8, h, ofPy, asU64, Value.asInt, Json.saturate_of_ge (by omega)]
    rfl

theorem toPy_fieldInt {n : Nat} (h : n < 2 ^ 63) : toPy (fieldInt n) = .int n := by
  rw [fieldInt, toPy, Int64.toInt_ofNat_of_lt h]

/-- An entry as the client has it. -/
def albumDict (size : UInt64) (f : AlbumFileId) : PyDict :=
  let d := f.datetime
  [(py "application_id", .str (Json.decoded (fmtHex 16 f.applicationId.toNat))),
    (py "content", .str (Json.decoded (contentName f.content))), (py "datetime", .str (Json.decoded (dateText d))),
    (py "day", .int d.day.toNat), (py "hour", .int d.hour.toNat), (py "id", .int d.id.toNat),
    (py "minute", .int d.minute.toNat), (py "month", .int d.month.toNat), (py "second", .int d.second.toNat),
    (py "size", .int size.toInt64.toInt), (py "storage", .int f.storage.toNat), (py "year", .int d.year.toNat)]

theorem albumEntry_eq (size : UInt64) (f : AlbumFileId) : albumEntry size f = .object
    [(str "application_id", .string (fmtHex 16 f.applicationId.toNat)), (str "content", .string (contentName f.content)),
      (str "datetime", .string (dateText f.datetime)), (str "day", fieldInt f.datetime.day.toNat),
      (str "hour", fieldInt f.datetime.hour.toNat), (str "id", fieldInt f.datetime.id.toNat),
      (str "minute", fieldInt f.datetime.minute.toNat), (str "month", fieldInt f.datetime.month.toNat),
      (str "second", fieldInt f.datetime.second.toNat), (str "size", .int size.toInt64),
      (str "storage", fieldInt f.storage.toNat), (str "year", fieldInt f.datetime.year.toNat)] := rfl

theorem toPy_albumEntry (size : UInt64) (f : AlbumFileId) : toPy (albumEntry size f) = .dict (albumDict size f) := by
  have byte : ∀ b : UInt8, toPy (fieldInt b.toNat) = .int b.toNat := fun b =>
    toPy_fieldInt (by have := b.toNat_lt; omega)
  have hyear : toPy (fieldInt f.datetime.year.toNat) = .int f.datetime.year.toNat :=
    toPy_fieldInt (by have := f.datetime.year.toNat_lt; omega)
  rw [albumEntry_eq, toPy]
  simp only [Json.toPyObject, byte, hyear, toPy, Json.decoded_str _ (show asciiOnly "application_id" = true by decide),
    Json.decoded_str _ (show asciiOnly "content" = true by decide), Json.decoded_str _ (show asciiOnly "datetime" = true by decide),
    Json.decoded_str _ (show asciiOnly "day" = true by decide), Json.decoded_str _ (show asciiOnly "hour" = true by decide),
    Json.decoded_str _ (show asciiOnly "id" = true by decide), Json.decoded_str _ (show asciiOnly "minute" = true by decide),
    Json.decoded_str _ (show asciiOnly "month" = true by decide), Json.decoded_str _ (show asciiOnly "second" = true by decide),
    Json.decoded_str _ (show asciiOnly "size" = true by decide), Json.decoded_str _ (show asciiOnly "storage" = true by decide),
    Json.decoded_str _ (show asciiOnly "year" = true by decide)]
  rfl

/-- The arguments that the listing gives. -/
def listedArgs (f : AlbumFileId) : Guards.AlbumEntry :=
  let d := f.datetime
  ⟨Json.decoded (fmtHex 16 f.applicationId.toNat), d.year.toNat, d.month.toNat, d.day.toNat, d.hour.toNat, d.minute.toNat,
    d.second.toNat, d.id.toNat, f.content.toNat, f.storage.toNat⟩

theorem albumArgs_albumDict (size : UInt64) (f : AlbumFileId) :
    albumArgs (albumDict size f) f.content.toNat = some (listedArgs f) := rfl

theorem downloadMsg_wellFormed (e : Guards.AlbumEntry) : Json.Distinct (.dict (callMsg (py "album.download") e.params)) ∧
    Json.isFinite (.dict (callMsg (py "album.download") e.params)) = true := by
  refine ⟨⟨?_, trivial, trivial, trivial, trivial, trivial, trivial, trivial, trivial, trivial, trivial, trivial, trivial⟩, rfl⟩
  show (List.map Prod.fst (callMsg (py "album.download") e.params)).Nodup
  simp only [callMsg, Guards.AlbumEntry.params, List.map_cons, List.map_nil]
  decide

theorem get_listedArgs (f : AlbumFileId) :
    dictGet (listedArgs f).params (py "application_id") = some (toPy (.string (fmtHex 16 f.applicationId.toNat))) ∧
    dictGet (listedArgs f).params (py "storage") = some (.int f.storage.toNat) ∧
    dictGet (listedArgs f).params (py "content_type") = some (.int f.content.toNat) ∧
    dictGet (listedArgs f).params (py "year") = some (.int f.datetime.year.toNat) ∧
    dictGet (listedArgs f).params (py "month") = some (.int f.datetime.month.toNat) ∧
    dictGet (listedArgs f).params (py "day") = some (.int f.datetime.day.toNat) ∧
    dictGet (listedArgs f).params (py "hour") = some (.int f.datetime.hour.toNat) ∧
    dictGet (listedArgs f).params (py "minute") = some (.int f.datetime.minute.toNat) ∧
    dictGet (listedArgs f).params (py "second") = some (.int f.datetime.second.toNat) := by
  simp +decide only [listedArgs, Guards.AlbumEntry.params, PyJson.dictGet_cons, if_true, if_false, toPy, and_self]

/-- **What `AlbumDownload` rebuilds is the entry's id, but for the number within the second**: that one is the request's. -/
theorem downloadedId_eq (size : UInt64) (f : AlbumFileId) (counter : Nat) :
    downloadedId size f counter = some { f with datetime := { f.datetime with id := counterByte (counter + 1) } } := by
  obtain ⟨hd, hf⟩ := downloadMsg_wellFormed (listedArgs f)
  obtain ⟨msg, hmsg, hget⟩ := request_get (counter + 1) [] hd hf
  have field : ∀ k, asciiOnly k = true → py k ≠ py "id" → py k ≠ py "cmd" →
      (⟨msg, []⟩ : Request).get k = ((dictGet (listedArgs f).params (py k)).map ofPy).getD .null := by
    intro k hk hid hcmd
    have hmsgk : dictGet (roundtripMsg (counter + 1) (callMsg (py "album.download") (listedArgs f).params) []) (py k) =
        dictGet (listedArgs f).params (py k) := by
      rw [roundtripMsg, if_pos rfl, PyJson.dictGet_dictSet, if_neg (Ne.symm hid), callMsg, PyJson.dictGet_cons,
        if_neg (Ne.symm hcmd)]
    rw [Request.get, hget k hk, hmsgk]
  have hid : (⟨msg, []⟩ : Request).get "id" = ofPy (.int (counter + 1 : Nat)) := by
    rw [Request.get, hget "id" (by decide), dictGet_roundtripMsg_id]
    rfl
  obtain ⟨happ, hstorage, hcontent, hyear, hmonth, hday, hhour, hminute, hsecond⟩ := get_listedArgs f
  have byte : ∀ (k : String) (b : UInt8) (d : Int64), asciiOnly k = true → py k ≠ py "id" → py k ≠ py "cmd" →
      dictGet (listedArgs f).params (py k) = some (.int b.toNat) → reqU8 ⟨msg, []⟩ k d = b := by
    intro k b d hk h1 h2 h
    refine reqU8_byte ?_ d
    rw [field k hk h1 h2, h]
    rfl
  have happ' : strtoull16 (((⟨msg, []⟩ : Request).get "application_id").asString (str "0")) = f.applicationId := by
    rw [field "application_id" (by decide) (by decide) (by decide), happ, Option.map_some, Option.getD_some,
      ofPy_toPy_fmtHex, Value.asString, strtoull16_fmtHex]
  have hyear' : (asU64 ((⟨msg, []⟩ : Request).get "year") 0).toUInt16 = f.datetime.year := by
    have hy := f.datetime.year.toNat_lt
    rw [field "year" (by decide) (by decide) (by decide), hyear, Option.map_some, Option.getD_some,
      ofPy_int_lt (by omega), UInt64.toUInt16_ofNat', UInt16.ofNat_toNat]
  unfold downloadedId
  rw [toPy_albumEntry]
  dsimp only
  rw [albumArgs_albumDict, Option.bind_eq_bind, Option.bind_some, hmsg]
  refine congrArg some ?_
  unfold albumFileId
  rw [happ', hyear', byte "storage" f.storage _ (by decide) (by decide) (by decide) hstorage,
    byte "content_type" f.content _ (by decide) (by decide) (by decide) hcontent,
    byte "month" f.datetime.month _ (by decide) (by decide) (by decide) hmonth,
    byte "day" f.datetime.day _ (by decide) (by decide) (by decide) hday,
    byte "hour" f.datetime.hour _ (by decide) (by decide) (by decide) hhour,
    byte "minute" f.datetime.minute _ (by decide) (by decide) (by decide) hminute,
    byte "second" f.datetime.second _ (by decide) (by decide) (by decide) hsecond, reqU8_counter hid]

/-- **An album entry that is listed and downloaded is rebuilt as it was exactly when its number within the second is the low
byte of the request's id.** -/
theorem album_id_returns_iff (size : UInt64) (f : AlbumFileId) (counter : Nat) :
    downloadedId size f counter = some f ↔ counterByte (counter + 1) = f.datetime.id := by
  rw [downloadedId_eq, Option.some.injEq]
  constructor
  · intro h
    exact congrArg (fun g : AlbumFileId => g.datetime.id) h
  · intro h
    rw [h]

/-- **The first screenshot of a second, downloaded by a client's third request, is looked up as the third.** -/
theorem album_id_lost : downloadedId 1 ⟨1, ⟨2026, 1, 2, 3, 4, 5, 0⟩, 1, 0⟩ 2 = some ⟨1, ⟨2026, 1, 2, 3, 4, 5, 3⟩, 1, 0⟩ := by
  rw [downloadedId_eq]
  rfl

end Agent
end SwitchMcp

import SwitchMcp.Fields
/-!
# Frame — the frame codec of both sides (agent/source/server.cpp, clients/agentd.py)

`ReadFrame` reads a socket that hands out bytes in segments of any size, with interrupted calls and receive timeouts in
between.  Segments and interruptions do not matter: a read depends on the bytes and on where among them a timeout fires
(`readExactEx_marks`).  `readFrame_client` and `readReply_server`: each side reads exactly the frame the other side wrote
and leaves what follows it.
-/
namespace SwitchMcp
namespace Agent

open Json (Value Ordered Utf8Value ofPy toPy decoded)
open PyJson (dictGet dictSet)

/-! ## The socket -/

/-- What a `recv` meets: bytes that arrived together, an interrupted call, or a receive timeout. -/
inductive Arrival
  | seg (b : UInt8) (bs : Bytes)
  | eintr
  | idle
deriving DecidableEq

inductive IoResult (α : Type)
  | ok (a : α)
  | timeout
  | closed
deriving DecidableEq

/-- The part of a segment that was not asked for stays. -/
def putBack : Bytes → List Arrival → List Arrival
  | [], s => s
  | b :: bs, s => .seg b bs :: s

/-- The loop of `ReadExactEx`: `n` bytes are still wanted, `got` are there.  A socket with nothing left is closed. -/
def readExactEx : Nat → Bytes → List Arrival → IoResult Bytes × List Arrival
  | 0, got, s => (.ok got, s)
  | _ + 1, _, [] => (.closed, [])
  | n + 1, got, .eintr :: s => readExactEx (n + 1) got s
  | _ + 1, got, .idle :: s => if got = [] then (.timeout, s) else (.closed, s)
  | n + 1, got, .seg b bs :: s =>
    if bs.length ≤ n then readExactEx (n - bs.length) (got ++ b :: bs) s
    else (.ok (got ++ (b :: bs).take (n + 1)), putBack ((b :: bs).drop (n + 1)) s)

/-- A byte, or a place where a timeout fires. -/
abbrev Mark := Option UInt8

def marks : List Arrival → List Mark
  | [] => []
  | .seg b bs :: s => some b :: (bs.map some ++ marks s)
  | .eintr :: s => marks s
  | .idle :: s => none :: marks s

/-- `n` more bytes of a marked stream. -/
def takeMarks : Nat → Bytes → List Mark → IoResult Bytes × List Mark
  | 0, got, t => (.ok got, t)
  | _ + 1, _, [] => (.closed, [])
  | _ + 1, got, none :: t => if got = [] then (.timeout, t) else (.closed, t)
  | n + 1, got, some b :: t => takeMarks n (got ++ [b]) t

theorem marks_putBack (l : Bytes) (s : List Arrival) : marks (putBack l s) = l.map some ++ marks s := by
  cases l <;> rfl

theorem takeMarks_all : ∀ (l : Bytes) (n : Nat) (got : Bytes) (t : List Mark), l.length ≤ n →
    takeMarks n got (l.map some ++ t) = takeMarks (n - l.length) (got ++ l) t
  | [], n, got, t, _ => by simp
  | b :: l, 0, got, t, h => by simp at h
  | b :: l, n + 1, got, t, h => by
    rw [List.length_cons] at h
    rw [List.map_cons, List.cons_append, takeMarks, takeMarks_all l n _ t (by omega), List.length_cons,
      Nat.add_sub_add_right, List.append_assoc, List.singleton_append]

theorem takeMarks_some : ∀ (l : Bytes) (n : Nat) (got : Bytes) (t : List Mark), n ≤ l.length →
    takeMarks n got (l.map some ++ t) = (.ok (got ++ l.take n), (l.drop n).map some ++ t)
  | l, 0, got, t, _ => by simp [takeMarks]
  | [], n + 1, got, t, h => by simp at h
  | b :: l, n + 1, got, t, h => by
    rw [List.length_cons] at h
    rw [List.map_cons, List.cons_append, takeMarks, takeMarks_some l n _ t (by omega)]
    simp

/-- **Segments and interrupted calls do not matter to a read.** -/
theorem readExactEx_marks : ∀ (s : List Arrival) (n : Nat) (got : Bytes),
    takeMarks n got (marks s) = ((readExactEx n got s).1, marks (readExactEx n got s).2)
  | s, 0, got => by rw [readExactEx, takeMarks]
  | [], n + 1, got => by rw [readExactEx, marks, takeMarks]
  | .eintr :: s, n + 1, got => by rw [readExactEx, marks, readExactEx_marks s (n + 1) got]
  | .idle :: s, n + 1, got => by
    rw [readExactEx, marks, takeMarks]
    split <;> rfl
  | .seg b bs :: s, n + 1, got => by
    have hm : marks (.seg b bs :: s) = (b :: bs).map some ++ marks s := rfl
    rw [hm, readExactEx]
    split
    · rename_i h
      rw [takeMarks_all _ _ _ _ (by simpa using h), List.length_cons, Nat.add_sub_add_right, readExactEx_marks s]
    · rename_i h
      rw [takeMarks_some _ _ _ _ (by simp; omega), marks_putBack]

/-! ## `ReadFrame` -/

def kMaxJson : Nat := 64 * 1024

def kMaxBinary : Nat := 1 <<< 20

/-- `ReadFrame` on any stream that can be read from: a message and its payload. -/
def readFrameWith {σ : Type} (read : Nat → σ → IoResult Bytes × σ) (s : σ) : IoResult (Value × Bytes) × σ :=
  match read 4 s with
  | (.timeout, s) => (.timeout, s)
  | (.closed, s) => (.closed, s)
  | (.ok jlen, s) =>
    if leNat jlen = 0 ∨ kMaxJson < leNat jlen then (.closed, s)
    else
      match read (leNat jlen) s with
      | (.ok text, s) =>
        match Json.parse text with
        | none => (.closed, s)
        | some msg =>
          if msg.has (str "bin") then
            let blen := ((msg.get (str "bin")).asInt (-1)).toInt
            if blen < 0 ∨ kMaxBinary < blen then (.closed, s)
            else
              match read 8 s with
              | (.ok wireLen, s) =>
                if (leNat wireLen : Int) ≠ blen ∨ kMaxBinary < leNat wireLen then (.closed, s)
                else if leNat wireLen = 0 then (.ok (msg, []), s)
                else
                  match read (leNat wireLen) s with
                  | (.ok payload, s) => (.ok (msg, payload), s)
                  | (_, s) => (.closed, s)
              | (_, s) => (.closed, s)
          else (.ok (msg, []), s)
      | (_, s) => (.closed, s)

def readFrame (s : List Arrival) : IoResult (Value × Bytes) × List Arrival := readFrameWith (readExactEx · []) s

/-- **`ReadFrame` on a stream is `ReadFrame` on what the stream's reads depend on.** -/
theorem readFrameWith_map {σ τ : Type} (f : σ → τ) (read : Nat → σ → IoResult Bytes × σ)
    (read' : Nat → τ → IoResult Bytes × τ) (h : ∀ n s, read' n (f s) = ((read n s).1, f (read n s).2)) (s : σ) :
    readFrameWith read' (f s) = ((readFrameWith read s).1, f (readFrameWith read s).2) := by
  unfold readFrameWith
  rw [h]
  rcases read 4 s with ⟨jlen | _ | _, s⟩ <;> try rfl
  dsimp only
  split; · rfl
  rw [h]
  rcases read (leNat jlen) s with ⟨text | _ | _, s⟩ <;> try rfl
  dsimp only
  split; · rfl
  split
  · split; · rfl
    rw [h]
    rcases read 8 s with ⟨wireLen | _ | _, s⟩ <;> try rfl
    dsimp only
    split; · rfl
    split; · rfl
    rw [h]
    rcases read (leNat wireLen) s with ⟨payload | _ | _, s⟩ <;> rfl
  · rfl

theorem readFrame_marks (s : List Arrival) :
    readFrameWith (takeMarks · []) (marks s) = ((readFrame s).1, marks (readFrame s).2) :=
  readFrameWith_map marks _ _ (fun n s => readExactEx_marks s n []) s

/-- A read of exactly the bytes that come next. -/
theorem takeMarks_bytes {n : Nat} (l : Bytes) (t : List Mark) (h : l.length = n) :
    takeMarks n [] (l.map some ++ t) = (.ok l, t) := by
  subst h
  rw [takeMarks_some l _ [] t le_rfl]
  simp

/-- A frame on the wire: the length of the text and the text, and, where there is a payload, its length and it. -/
def frameBytes (text payload : Bytes) : Bytes :=
  leBytes 4 text.length ++ (text ++ (if payload = [] then [] else leBytes 8 payload.length ++ payload))

/-! ## Requests -/

/-- `MAX_JSON`. -/
def maxJson : Nat := 64 * 1024

/-- `CHUNK`. -/
def chunk : Nat := 1 <<< 20

/-- `msg["id"] = self._id` and, with a payload, `msg["bin"] = len(payload)`. -/
def roundtripMsg (id : Nat) (msg : PyDict) (payload : Bytes) : PyDict :=
  let msg := dictSet msg (py "id") (.int id)
  if payload = [] then msg else dictSet msg (py "bin") (.int payload.length)

def requestText (id : Nat) (msg : PyDict) (payload : Bytes) : Bytes := PyJson.dumps (.dict (roundtripMsg id msg payload))

theorem keys_dictSet : ∀ (d : PyDict) (k : PyStr) (v : PyJson) (k' : PyStr),
    k' ∈ (dictSet d k v).map Prod.fst → k' = k ∨ k' ∈ d.map Prod.fst
  | [], k, v, k', h => Or.inl (by simpa [dictSet] using h)
  | (k0, v0) :: d, k, v, k', h => by
    unfold dictSet at h
    split at h
    · exact Or.inr h
    · rw [List.map_cons, List.mem_cons] at h ⊢
      rcases h with h | h
      · exact Or.inr (Or.inl h)
      · exact (keys_dictSet d k v k' h).imp_right Or.inr

theorem nodup_dictSet : ∀ (d : PyDict) (k : PyStr) (v : PyJson), (d.map Prod.fst).Nodup →
    ((dictSet d k v).map Prod.fst).Nodup
  | [], k, v, _ => by simp [dictSet]
  | (k0, v0) :: d, k, v, h => by
    unfold dictSet
    split
    · exact h
    · rename_i hne
      rw [List.map_cons, List.nodup_cons] at h ⊢
      exact ⟨fun hm => (keys_dictSet d k v k0 hm).elim hne h.1, nodup_dictSet d k v h.2⟩

theorem distinct_dictSet : ∀ (d : PyDict) (k : PyStr) (v : PyJson), Json.DistinctDict d → Json.Distinct v →
    Json.DistinctDict (dictSet d k v)
  | [], k, v, _, hv => ⟨hv, trivial⟩
  | (k0, v0) :: d, k, v, h, hv => by
    unfold dictSet
    split
    · exact ⟨hv, h.2⟩
    · exact ⟨h.1, distinct_dictSet d k v h.2 hv⟩

theorem finite_dictSet : ∀ (d : PyDict) (k : PyStr) (v : PyJson), Json.isFiniteDict d = true → Json.isFinite v = true →
    Json.isFiniteDict (dictSet d k v) = true
  | [], k, v, _, hv => by simp [dictSet, Json.isFiniteDict, hv]
  | (k0, v0) :: d, k, v, h, hv => by
    simp only [Json.isFiniteDict, Bool.and_eq_true] at h
    unfold dictSet
    split
    · simp [Json.isFiniteDict, hv, h.2]
    · simp [Json.isFiniteDict, h.1, finite_dictSet d k v h.2 hv]

theorem distinct_roundtripMsg {msg : PyDict} (id : Nat) (payload : Bytes) (hd : Json.Distinct (.dict msg)) :
    Json.Distinct (.dict (roundtripMsg id msg payload)) := by
  unfold roundtripMsg
  have h1 := nodup_dictSet msg (py "id") (.int id) hd.1
  have h2 := distinct_dictSet msg (py "id") (.int id) hd.2 trivial
  dsimp only
  split
  · exact ⟨h1, h2⟩
  · exact ⟨nodup_dictSet _ _ _ h1, distinct_dictSet _ _ _ h2 trivial⟩

theorem finite_roundtripMsg {msg : PyDict} (id : Nat) (payload : Bytes) (hf : Json.isFinite (.dict msg) = true) :
    Json.isFinite (.dict (roundtripMsg id msg payload)) = true := by
  unfold roundtripMsg
  have h1 := finite_dictSet msg (py "id") (.int id) (by rwa [Json.isFinite] at hf) rfl
  dsimp only
  split
  · rwa [Json.isFinite]
  · rw [Json.isFinite]; exact finite_dictSet _ _ _ h1 rfl

theorem dictGet_roundtripMsg_id (id : Nat) (msg : PyDict) (payload : Bytes) :
    dictGet (roundtripMsg id msg payload) (py "id") = some (.int id) := by
  unfold roundtripMsg
  dsimp only
  split
  · rw [PyJson.dictGet_dictSet, if_pos rfl]
  · rw [PyJson.dictGet_dictSet, if_neg (by decide), PyJson.dictGet_dictSet, if_pos rfl]

theorem dictGet_roundtripMsg_ne (id : Nat) (msg : PyDict) (payload : Bytes) {k : PyStr} (hid : k ≠ py "id")
    (hbin : k ≠ py "bin") : dictGet (roundtripMsg id msg payload) k = dictGet msg k := by
  unfold roundtripMsg
  dsimp only
  split
  · rw [PyJson.dictGet_dictSet, if_neg (Ne.symm hid)]
  · rw [PyJson.dictGet_dictSet, if_neg (Ne.symm hbin), PyJson.dictGet_dictSet, if_neg (Ne.symm hid)]

/-- **The agent reads the fields of the message that `_roundtrip` sends.** -/
theorem request_get {msg : PyDict} (id : Nat) (payload : Bytes) (hd : Json.Distinct (.dict msg))
    (hf : Json.isFinite (.dict msg) = true) :
    ∃ v, Json.parse (requestText id msg payload) = some v ∧ ∀ k : String, asciiOnly k = true →
      v.get (str k) = ((dictGet (roundtripMsg id msg payload) (py k)).map ofPy).getD .null := by
  refine ⟨_, Json.parse_dumps _ (finite_roundtripMsg id payload hf), fun k hk => ?_⟩
  rw [← Json.agentStr_py k hk, Json.get_ofPy _ _ (distinct_roundtripMsg id payload hd).1 (Json.isAscii_py k hk)]

/-- **The agent reads a request's fields as the client wrote them.** -/
theorem request_fields {msg : PyDict} (id : Nat) (payload : Bytes) (hd : Json.Distinct (.dict msg))
    (hf : Json.isFinite (.dict msg) = true) :
    ∃ v, Json.parse (requestText id msg payload) = some v ∧
      ∀ k : String, asciiOnly k = true → py k ≠ py "id" → py k ≠ py "bin" →
        v.get (str k) = ((dictGet msg (py k)).map ofPy).getD .null := by
  obtain ⟨v, hv, hget⟩ := request_get id payload hd hf
  refine ⟨v, hv, fun k hk hid hbin => ?_⟩
  rw [hget k hk, dictGet_roundtripMsg_ne id msg payload hid hbin]

/-- What a caller can hand to `_roundtrip` and it sends: a message with no key twice, no NaN or infinity and no `bin`, a
text that is not too long, and a payload of at most a chunk. -/
structure Outgoing where
  id : Nat
  msg : PyDict
  payload : Bytes
  distinct : Json.Distinct (.dict msg)
  finite : Json.isFinite (.dict msg) = true
  no_bin : dictGet msg (py "bin") = none
  text_le : (requestText id msg payload).length ≤ maxJson
  payload_le : payload.length ≤ chunk

namespace Outgoing

variable (o : Outgoing)

def items : PyDict := roundtripMsg o.id o.msg o.payload

def text : Bytes := requestText o.id o.msg o.payload

/-- What `exchange()` writes. -/
def bytes : Bytes := frameBytes o.text o.payload

/-- The agent's value of the text. -/
def value : Value := ofPy (.dict o.items)

theorem items_distinct : Json.Distinct (.dict o.items) := distinct_roundtripMsg o.id o.payload o.distinct

theorem items_finite : Json.isFinite (.dict o.items) = true := finite_roundtripMsg o.id o.payload o.finite

theorem parse_text : Json.parse o.text = some o.value := Json.parse_dumps _ o.items_finite

theorem text_pos : 0 < o.text.length := by
  unfold text requestText
  rw [PyJson.dumps, List.length_cons]
  omega

theorem dictGet_bin :
    dictGet o.items (py "bin") = if o.payload = [] then none else some (.int o.payload.length) := by
  have hne : py "id" ≠ py "bin" := by decide
  unfold items roundtripMsg
  dsimp only
  split
  · rw [PyJson.dictGet_dictSet, if_neg hne, o.no_bin]
  · rw [PyJson.dictGet_dictSet, if_pos rfl]

theorem bin_key : Json.agentStr (py "bin") = str "bin" := Json.agentStr_py "bin" (by decide)

theorem has_bin : o.value.has (str "bin") = decide (o.payload ≠ []) := by
  rw [value, ← bin_key, Json.has_ofPy _ _ o.items_distinct.1 (Json.isAscii_py "bin" (by decide)), dictGet_bin]
  split <;> rename_i h <;> simp [h]

theorem get_bin (h : o.payload ≠ []) : ((o.value.get (str "bin")).asInt (-1)).toInt = o.payload.length := by
  have hle := o.payload_le
  have hs : Json.saturate o.payload.length = Int64.ofInt o.payload.length :=
    Json.saturate_of_lt (by simp only [chunk] at hle; omega)
  rw [value, ← bin_key, Json.get_ofPy _ _ o.items_distinct.1 (Json.isAscii_py "bin" (by decide)), dictGet_bin, if_neg h]
  rw [Option.map_some, Option.getD_some, ofPy, Value.asInt, hs, Int64.toInt_ofInt_of_le (by omega)]
  simp only [chunk] at hle; omega

end Outgoing

/-- **`ReadFrame` reads exactly the frame the client wrote.** -/
theorem readFrame_client (o : Outgoing) (t : List Mark) :
    readFrameWith (takeMarks · []) (o.bytes.map some ++ t) = (.ok (o.value, o.payload), t) := by
  have hlen := o.text_le
  have hpay := o.payload_le
  have hpos := o.text_pos
  have h4 : leNat (leBytes 4 o.text.length) = o.text.length := leNat_leBytes 4 _ (by
    simp only [maxJson] at hlen; unfold Outgoing.text; omega)
  have hbad : ¬(o.text.length = 0 ∨ kMaxJson < o.text.length) := by
    simp only [maxJson] at hlen
    unfold Outgoing.text at *
    simp only [kMaxJson]; omega
  have e : o.bytes.map some ++ t = (leBytes 4 o.text.length).map some ++ (o.text.map some ++
      ((if o.payload = [] then [] else leBytes 8 o.payload.length ++ o.payload).map some ++ t)) := by
    simp [Outgoing.bytes, frameBytes]
  rw [e]
  simp only [readFrameWith, takeMarks_bytes _ _ (length_leBytes 4 _), h4, if_neg hbad, takeMarks_bytes o.text _ rfl,
    o.parse_text, o.has_bin]
  by_cases hp : o.payload = []
  · simp [hp]
  · have h8 : leNat (leBytes 8 o.payload.length) = o.payload.length := leNat_leBytes 8 _ (by
      simp only [chunk] at hpay; omega)
    have hne : o.payload.length ≠ 0 := fun h => hp (List.length_eq_zero_iff.1 h)
    have hb1 : ¬((o.payload.length : Int) < 0 ∨ (kMaxBinary : Int) < o.payload.length) := by
      simp only [chunk] at hpay; simp only [kMaxBinary]; omega
    have hb2 : ¬kMaxBinary < o.payload.length := by
      simp only [chunk] at hpay; simp only [kMaxBinary]; omega
    simp only [hp, ne_eq, not_false_eq_true, decide_true, if_true, if_false, o.get_bin hp, if_neg hb1, List.map_append,
      List.append_assoc, takeMarks_bytes _ _ (length_leBytes 8 _), h8, not_true_eq_false,
      false_or, if_neg hb2, if_neg hne,
      takeMarks_bytes o.payload _ rfl]

/-! ## Replies -/

/-- What `ServeConnection` makes of a handler's reply before it writes it. -/
def finishReply (id : Int64) (r : Reply) : Value :=
  let json := r.json.set (str "id") (.int id)
  if r.out = [] then json else json.set (str "bin") (.int (Int64.ofNat r.out.length))

/-- The bytes `WriteFrame` writes. -/
def writeFrame (msg : Value) (payload : Bytes) : Bytes := frameBytes (Json.dump msg) payload

/-- What `exchange()` reads off the stream: a reply, or why there is none. -/
inductive ReplyRead
  | reply (r : PyDict) (blob : Bytes)
  | incomplete
  | undecodable
  | malformed

/-- The reading half of `exchange()`. -/
def readReply (rx : Bytes) : ReplyRead × Bytes :=
  match takeExact 4 rx with
  | none => (.incomplete, rx)
  | some (jlen, rx) =>
    match takeExact (leNat jlen) rx with
    | none => (.incomplete, rx)
    | some (text, rx) =>
      match PyJson.loads text with
      | none => (.undecodable, rx)
      | some (.dict reply) =>
        if (dictGet reply (py "bin")).isSome then
          match takeExact 8 rx with
          | none => (.incomplete, rx)
          | some (blen, rx) =>
            match takeExact (leNat blen) rx with
            | none => (.incomplete, rx)
            | some (blob, rx) => (.reply reply blob, rx)
        else (.reply reply [], rx)
      | some _ => (.malformed, rx)

/-- A handler's reply that the client can read: its strings are UTF-8, it has no `bin` of its own, and its text and its
payload are no longer than their length fields can say. -/
structure Served where
  id : Int64
  reply : Reply
  ordered : Ordered reply.json
  utf8 : Utf8Value reply.json
  no_bin : reply.json.has (str "bin") = false
  text_lt : (Json.dump (finishReply id reply)).length < 2 ^ 32
  out_lt : reply.out.length < 2 ^ 64

namespace Served

variable (v : Served)

def final : Value := finishReply v.id v.reply

def bytes : Bytes := writeFrame v.final v.reply.out

theorem final_utf8 : Utf8Value v.final := by
  unfold final finishReply
  have h1 := Json.utf8Value_set _ (str "id") (.int v.id) v.utf8 (Json.isUtf8_str "id" (by decide)) trivial
  dsimp only
  split
  · exact h1
  · exact Json.utf8Value_set _ _ _ h1 (Json.isUtf8_str "bin" (by decide)) trivial

theorem final_ordered : Ordered v.final := by
  unfold final finishReply
  have h1 := Json.ordered_set _ (str "id") (.int v.id) v.ordered trivial
  dsimp only
  split
  · exact h1
  · exact Json.ordered_set _ _ _ h1 trivial

theorem final_has_bin : v.final.has (str "bin") = decide (v.reply.out ≠ []) := by
  have hne : str "id" ≠ str "bin" := by decide
  unfold final finishReply
  dsimp only
  split <;> rename_i h <;> simp [h, hne, v.no_bin]

/-- The client's `dict` of the reply. -/
def items : PyDict :=
  match toPy v.final with
  | .dict d => d
  | _ => []

theorem toPy_final : ∃ o, v.final = .object o ∧ toPy v.final = .dict v.items := by
  have hset : ∀ (x y : Value) (k : Bytes), ∃ o, x.set k y = .object o := fun x y k => by
    cases x <;> exact ⟨_, rfl⟩
  have hobj : ∃ o, v.final = .object o := by
    unfold final finishReply
    dsimp only
    split
    · exact hset _ _ _
    · exact hset _ _ _
  obtain ⟨o, ho⟩ := hobj
  exact ⟨o, ho, by rw [items, ho, toPy]⟩

/-- **The client finds a field of a reply under its name.** -/
theorem dictGet_items (k : String) (hk : asciiOnly k = true) :
    dictGet v.items (py k) = if v.final.has (str k) = true then some (toPy (v.final.get (str k))) else none := by
  obtain ⟨o, ho, hpy⟩ := v.toPy_final
  have hu := v.final_utf8
  have hord := v.final_ordered
  rw [ho] at hu hord ⊢
  rw [ho, toPy, PyJson.dict.injEq] at hpy
  rw [← hpy, Json.dictGet_toPy hord hu k hk, Value.has, Value.get]
  cases Json.mapFind o (str k) <;> simp

theorem items_bin : (dictGet v.items (py "bin")).isSome = decide (v.reply.out ≠ []) := by
  rw [v.dictGet_items "bin" (by decide), v.final_has_bin]
  by_cases h : v.reply.out = [] <;> simp [h]

theorem loads_text : PyJson.loads (Json.dump v.final) = some (.dict v.items) := by
  obtain ⟨o, -, hpy⟩ := v.toPy_final
  rw [Json.loads_dump _ v.final_utf8, hpy]

end Served

/-- **`exchange()` reads exactly the frame the server wrote.** -/
theorem readReply_server (v : Served) (rx : Bytes) : readReply (v.bytes ++ rx) = (.reply v.items v.reply.out, rx) := by
  have h4 : leNat (leBytes 4 (Json.dump v.final).length) = (Json.dump v.final).length :=
    leNat_leBytes 4 _ (by have := v.text_lt; unfold Served.final; omega)
  have h8 : leNat (leBytes 8 v.reply.out.length) = v.reply.out.length :=
    leNat_leBytes 8 _ (by have := v.out_lt; omega)
  unfold Served.bytes writeFrame frameBytes
  rw [List.append_assoc, List.append_assoc]
  simp only [readReply, takeExact_append_of_length _ _ (length_leBytes 4 _), h4, takeExact_append, v.loads_text,
    v.items_bin]
  by_cases hout : v.reply.out = []
  · simp [hout]
  · simp only [hout, ne_eq, not_false_eq_true, decide_true, if_true, if_false, List.append_assoc,
      takeExact_append_of_length _ _ (length_leBytes 8 _), h8, takeExact_append]

/-! ## Sessions -/

/-- What happens on a connection as the agent sees it: a receive timeout between frames, or a frame. -/
inductive Beat
  | idle
  | frame (o : Outgoing)

def beatMarks : List Beat → List Mark
  | [] => []
  | .idle :: l => none :: beatMarks l
  | .frame o :: l => o.bytes.map some ++ beatMarks l

/-- The bytes of the frames. -/
def beatBytes : List Beat → Bytes
  | [] => []
  | .idle :: l => beatBytes l
  | .frame o :: l => o.bytes ++ beatBytes l

def unread (s : List Arrival) : Bytes := (marks s).filterMap id

/-- Repeated `ReadFrame` until it reports the connection closed: each result, and the bytes not read yet. -/
def readFrames : Nat → List Arrival → List (IoResult (Value × Bytes) × Bytes)
  | 0, _ => []
  | n + 1, s =>
    (match readFrame s with
    | (.closed, s) => [(.closed, unread s)]
    | (r, s) => (r, unread s) :: readFrames n s)

/-- What the agent is to make of a connection. -/
def readings : List Beat → List (IoResult (Value × Bytes) × Bytes)
  | [] => [(.closed, [])]
  | .idle :: l => (.timeout, beatBytes l) :: readings l
  | .frame o :: l => (.ok (o.value, o.payload), beatBytes l) :: readings l

theorem filterMap_beatMarks : ∀ l : List Beat, (beatMarks l).filterMap id = beatBytes l
  | [] => rfl
  | .idle :: l => by rw [beatMarks, beatBytes, List.filterMap_cons_none rfl, filterMap_beatMarks l]
  | .frame o :: l => by
    rw [beatMarks, beatBytes, List.filterMap_append, filterMap_beatMarks l, List.filterMap_map]
    simp

theorem marks_pair {s : List Arrival} {r : IoResult (Value × Bytes)} {t : List Mark}
    (h : readFrameWith (takeMarks · []) (marks s) = (r, t)) : (readFrame s).1 = r ∧ marks (readFrame s).2 = t := by
  rw [readFrame_marks, Prod.mk.injEq] at h
  exact h

/-- **However the bytes are cut into segments, repeated `ReadFrame` gives the client's frames in order, a timeout where one
fired between them, and each time leaves what follows.** -/
theorem readFrames_client : ∀ (l : List Beat) (s : List Arrival) (n : Nat), marks s = beatMarks l → l.length < n →
    readFrames n s = readings l
  | _, _, 0, _, h => by omega
  | [], s, n + 1, hs, _ => by
    have hr : readFrameWith (takeMarks · []) (marks s) = (.closed, []) := by rw [hs]; rfl
    obtain ⟨h1, h2⟩ := marks_pair hr
    rw [readFrames, readings]
    rcases hf : readFrame s with ⟨r, s'⟩
    rw [hf] at h1 h2
    subst h1
    simp [unread, h2]
  | .idle :: l, s, n + 1, hs, hn => by
    have hr : readFrameWith (takeMarks · []) (marks s) = (.timeout, beatMarks l) := by rw [hs]; rfl
    obtain ⟨h1, h2⟩ := marks_pair hr
    rw [readFrames, readings]
    rcases hf : readFrame s with ⟨r, s'⟩
    rw [hf] at h1 h2
    subst h1
    rw [List.length_cons] at hn
    simp only [unread, h2, filterMap_beatMarks, readFrames_client l s' n h2 (by omega)]
  | .frame o :: l, s, n + 1, hs, hn => by
    have hr : readFrameWith (takeMarks · []) (marks s) = (.ok (o.value, o.payload), beatMarks l) := by
      rw [hs]; exact readFrame_client o (beatMarks l)
    obtain ⟨h1, h2⟩ := marks_pair hr
    rw [readFrames, readings]
    rcases hf : readFrame s with ⟨r, s'⟩
    rw [hf] at h1 h2
    subst h1
    rw [List.length_cons] at hn
    simp only [unread, h2, filterMap_beatMarks, readFrames_client l s' n h2 (by omega)]

/-- Repeated `exchange()`: each reply, and the bytes not read yet. -/
def readReplies : Nat → Bytes → List (ReplyRead × Bytes)
  | 0, _ => []
  | n + 1, rx => (readReply rx) :: readReplies n (readReply rx).2

/-- What the client is to make of a connection. -/
def replyReadings : List Served → List (ReplyRead × Bytes)
  | [] => []
  | v :: l => (.reply v.items v.reply.out, l.flatMap Served.bytes) :: replyReadings l

theorem readReplies_server : ∀ l : List Served, readReplies l.length (l.flatMap Served.bytes) = replyReadings l
  | [] => rfl
  | v :: l => by
    rw [List.length_cons, readReplies, replyReadings, List.flatMap_cons, readReply_server, readReplies_server l]

/-- **The two codecs agree**: whatever the segments, the agent reads the client's frames, each to its end, and times out
only between them; and the client reads the agent's replies, each to its end, when their strings are UTF-8. -/
theorem codecs_agree :
    (∀ (l : List Beat) (s : List Arrival) (n : Nat), marks s = beatMarks l → l.length < n →
      readFrames n s = readings l) ∧
    (∀ o : Outgoing, Json.parse o.text = some o.value) ∧
    (∀ l : List Served, readReplies l.length (l.flatMap Served.bytes) = replyReadings l) ∧
    (∀ v : Served, toPy (finishReply v.id v.reply) = .dict v.items) :=
  ⟨readFrames_client, Outgoing.parse_text, readReplies_server, fun v => v.toPy_final.choose_spec.2⟩

/-- A request with a payload. -/
def ping : Outgoing where
  id := 1
  msg := [(py "cmd", .str (py "fs.write"))]
  payload := [1, 2, 3]
  distinct := ⟨by decide, trivial, trivial⟩
  finite := rfl
  no_bin := rfl
  text_le := by decide +kernel
  payload_le := by decide

/-- A reply with a payload. -/
def pong : Served where
  id := 1
  reply := ⟨.object [(str "ok", .bool true)], [7]⟩
  ordered := ⟨List.pairwise_singleton _ _, trivial, trivial⟩
  utf8 := ⟨Json.isUtf8_str "ok" (by decide), trivial, trivial⟩
  no_bin := rfl
  text_lt := by decide +kernel
  out_lt := by decide

theorem codecs_agree_ping :
    readFrames 3 (putBack (ping.bytes.take 3) (.eintr :: putBack (ping.bytes.drop 3) [.idle]))
      = readings [.frame ping, .idle] ∧
    readReplies 2 (pong.bytes ++ (pong.bytes ++ [])) = replyReadings [pong, pong] := by
  obtain ⟨h1, -, h3, -⟩ := codecs_agree
  refine ⟨h1 [.frame ping, .idle] _ 3 ?_ (by decide), h3 [pong, pong]⟩
  rw [marks_putBack, marks, marks_putBack, ← List.append_assoc, ← List.map_append, List.take_append_drop]
  rfl

/-- **A reply with a string that is not UTF-8 is framed and read to its end, and the client cannot decode it.** -/
theorem raw_byte_undecodable :
    (readReply (writeFrame (finishReply 1 ⟨.object [(str "text", .string [0xFF])], []⟩) [])).1 = .undecodable ∧
    (readReply (writeFrame (finishReply 1 ⟨.object [(str "text", .string [0xFF])], []⟩) [])).2 = [] :=
  ⟨rfl, rfl⟩

end Agent
end SwitchMcp

import SwitchMcp.Card
import SwitchMcp.Pieces
/-!
# CardFiles — what a file command does to the card, and what the client reads (handlers/fs.cpp)

`serve_write`, `serve_read` and `serve_hash` are about the frames that the client writes for a file: the command is refused
and the card is as before, or the reply has no error and says what the handler did.  A frame of a handshake leaves the
files alone.
-/
namespace SwitchMcp
namespace Agent

open Json (Value ofPy toPy agentStr)
open PyJson (dictGet)

/-! ## The requests -/

def readParams (path : PyStr) (offset : Nat) : PyDict :=
  [(py "path", .str path), (py "offset", .int offset), (py "len", .int chunk)]

def writeParams (path : PyStr) (offset : Nat) : PyDict := [(py "path", .str path), (py "offset", .int offset)]

def hashParams (path : PyStr) : PyDict := [(py "path", .str path), (py "algo", .str (py "sha256"))]

theorem readParams_wellFormed (path : PyStr) (offset : Nat) :
    Json.Distinct (.dict (callMsg (py "fs.read") (readParams path offset))) ∧
      Json.isFinite (.dict (callMsg (py "fs.read") (readParams path offset))) = true :=
  ⟨⟨by show (List.map Prod.fst _).Nodup; simp only [callMsg, readParams, List.map_cons, List.map_nil]; decide,
    trivial, trivial, trivial, trivial, trivial⟩, rfl⟩

theorem writeParams_wellFormed (path : PyStr) (offset : Nat) :
    Json.Distinct (.dict (callMsg (py "fs.write") (writeParams path offset))) ∧
      Json.isFinite (.dict (callMsg (py "fs.write") (writeParams path offset))) = true :=
  ⟨⟨by show (List.map Prod.fst _).Nodup; simp only [callMsg, writeParams, List.map_cons, List.map_nil]; decide,
    trivial, trivial, trivial, trivial⟩, rfl⟩

theorem hashParams_wellFormed (path : PyStr) :
    Json.Distinct (.dict (callMsg (py "fs.hash") (hashParams path))) ∧
      Json.isFinite (.dict (callMsg (py "fs.hash") (hashParams path))) = true :=
  ⟨⟨by show (List.map Prod.fst _).Nodup; simp only [callMsg, hashParams, List.map_cons, List.map_nil]; decide,
    trivial, trivial, trivial, trivial⟩, rfl⟩

theorem lookup_write : lookup (str "fs.write") = some ⟨"fs.write", .fsWrite, .control, true⟩ := by decide +kernel

theorem lookup_read : lookup (str "fs.read") = some ⟨"fs.read", .fsRead, .observe, false⟩ := by decide +kernel

theorem lookup_hash : lookup (str "fs.hash") = some ⟨"fs.hash", .fsHash, .observe, false⟩ := by decide +kernel

/-! ## Paths -/

/-- The path that the agent opens for a client's path. -/
def cardPath (path : PyStr) : Option Bytes := (resolveSdPath (agentStr path)).map cStr

def Card.fileAt (st : Card) (path : PyStr) : Option Bytes := (cardPath path).bind st.files

theorem resolveDevicePath_sd (saveMounted : Bool) (p : Bytes) :
    resolveDevicePath saveMounted (str "sd") p = (resolveSdPath p).map (fun d => (d, true)) := by
  unfold resolveDevicePath resolveSdPath
  cases normalizePath p with
  | none => rfl
  | some norm =>
    dsimp only
    rw [if_pos (Or.inr (Or.inl rfl))]
    rfl

/-- A request that names a path and no device. -/
structure NamesPath (req : Request) (path : PyStr) : Prop where
  path : req.get "path" = .string (agentStr path)
  no_device : req.get "device" = .null

theorem readable_path {req : Request} {path : PyStr} (h : NamesPath req path) (saveMounted : Bool) (code message : String) :
    readable saveMounted req ((req.get "path").asString []) code message =
      (resolveSdPath (agentStr path)).elim (.error (fail code (str message))) (fun dev => .ok ⟨agentStr path, dev⟩) := by
  have hdev : (req.get "device").asString (str "sd") = str "sd" := by rw [h.no_device]; rfl
  have hpath : (req.get "path").asString [] = agentStr path := by rw [h.path]; rfl
  unfold readable
  rw [hdev, hpath, resolveDevicePath_sd]
  cases resolveSdPath (agentStr path) <;> rfl

theorem writable_path {req : Request} {path : PyStr} (h : NamesPath req path) :
    requireWritableSd req = (resolveSdPath (agentStr path)).elim
      (.error (fail "bad_path" (str "invalid or unsafe path"))) (fun dev => .ok ⟨agentStr path, dev⟩) := by
  have hdev : (req.get "device").asString (str "sd") = str "sd" := by rw [h.no_device]; rfl
  have hpath : (req.get "path").asString [] = agentStr path := by rw [h.path]; rfl
  unfold requireWritableSd
  rw [hdev, hpath]
  refine (if_neg fun h => h.1 rfl).trans ?_
  cases resolveSdPath (agentStr path) <;> rfl

/-! ## What a client reads -/

/-- **An error reply is read as one.** -/
theorem Refuses.reads {r : Reply} (h : Refuses r) (id : Int64) :
    ∃ d, PyJson.loads (replyFrame (finishReply id r) r.out).text = some (.dict d) ∧ dictGet d (py "error") ≠ none := by
  obtain ⟨n, hn, hs⟩ := h.sendable
  obtain ⟨d, hl, -, hget⟩ := hs.reads hn id
  refine ⟨d, hl, ?_⟩
  rw [hget "error" (by decide) (by decide) (by decide), if_pos h.error]
  simp

/-! ## `fs.write` -/

/-- The content that one `FsWrite` leaves, when the file opens. -/
def writeStep (fault : WriteFault) (offset : Nat) (data : Bytes) (file : Option Bytes) : Option Bytes :=
  (openForWrite fault (Int64.ofNat offset) file).map
    (fun content => overwrite content offset (data.take (min fault.stored (min fault.written data.length))))

theorem seekPos_ofNat {offset : Nat} (h : offset < 2 ^ 63) : seekPos (Int64.ofNat offset) = offset := by
  have hi : (Int64.ofNat offset).toInt = offset := by
    rw [Int64.toInt_ofNat', show Int64.size = 2 ^ 64 from rfl]
    exact Int.bmod_eq_of_le (by omega) (by omega)
  rw [seekPos, hi]
  rfl

theorem cleanText_literal {s : String} (h : (s.toList.all fun c => decide (0 < c.toNat ∧ c.toNat < 0x80)) = true)
    (hl : s.toList.length ≤ 64) (code : String) (hc : asciiOnly code = true) (hcl : (str code).length ≤ 2 ^ 20) :
    Refuses (fail code (str s)) := refuses_fail hc hcl (cleanText_str h (by omega))

/-- **`FsWrite` on a request of the client**: the file has new content, or nothing happened. -/
theorem fsWrite_cases (fault : WriteFault) (fs : Files) {req : Request} {path : PyStr} (hp : NamesPath req path) {offset : Nat}
    (ho : offset < 2 ^ 63) (hoff : req.get "offset" = ofPy (.int offset)) :
    (∃ p content, cardPath path = some p ∧ writeStep fault offset req.payload (fs p) = some content ∧
      ∃ n : Int64, fsWrite fault fs req = ((true, ({} : Reply).set "written" (.int n)), fs.put p content)) ∨
    ((∀ p, cardPath path = some p → writeStep fault offset req.payload (fs p) = none) ∧
      ∃ r, Refuses r ∧ fsWrite fault fs req = ((false, r), fs)) := by
  have hasInt : (req.get "offset").asInt 0 = Int64.ofNat offset := by
    rw [hoff, ofPy, Value.asInt, Json.saturate_of_lt ho]
  unfold fsWrite fsWritePath cardPath
  rw [writable_path hp]
  cases hdev : resolveSdPath (agentStr path) with
  | none =>
    refine Or.inr ⟨fun p h => (by cases h), _, ?_, rfl⟩
    exact cleanText_literal (by decide) (by decide) _ (by decide) (by decide)
  | some dev =>
    dsimp only [Option.elim_some]
    rw [hasInt, seekPos_ofNat ho, Option.map_some]
    unfold writeStep
    cases hopen : openForWrite fault (Int64.ofNat offset) (fs (cStr dev)) with
    | none =>
      refine Or.inr ⟨fun p h => ?_, _, ?_, rfl⟩
      · cases h
        rw [hopen]
        rfl
      · exact cleanText_literal (by decide) (by decide) _ (by decide) (by decide)
    | some content => exact Or.inl ⟨_, _, rfl, by rw [hopen, Option.map_some], _, rfl⟩

section
variable (b : Build)

/-- **A frame of a file command**: the handler answers it, or it is refused and the card is as before. -/
theorem serve_file (cmd : String) (hclean : CleanText (str cmd)) (hascii : asciiOnly cmd = true) (hlen : (str cmd).length ≤ 64)
    (hhello : str cmd ≠ str "hello") (hauth : str cmd ≠ str "auth") {c : Command} (hlook : lookup (str cmd) = some c)
    {params : PyDict} (hwell : Json.Distinct (.dict (callMsg (py cmd) params)) ∧
      Json.isFinite (.dict (callMsg (py cmd) params)) = true) {path : PyStr}
    (hpath : dictGet params (py "path") = some (.str path)) (hdevice : dictGet params (py "device") = none)
    (hdry : dictGet params (py "dry_run") = none) (id : Nat) (data : Bytes) (fault : CardFault) (st : Card) :
    ∃ (msg : Value) (rid : Int64), NamesPath ⟨msg, data⟩ path ∧
      (∀ k : String, asciiOnly k = true → py k ≠ py "cmd" → py k ≠ py "id" → py k ≠ py "bin" →
        msg.get (str k) = ((dictGet params (py k)).map ofPy).getD .null) ∧
      ((b.permits (str cmd) = true ∧ b.serve fault (requestText id (callMsg (py cmd) params) data) data st =
          (replyFrame (finishReply rid (b.exec fault c.fn ⟨msg, data⟩ st).1.2) (b.exec fault c.fn ⟨msg, data⟩ st).1.2.out,
            (b.exec fault c.fn ⟨msg, data⟩ st).2)) ∨
        (b.permits (str cmd) = false ∧ ∃ d, PyJson.loads
          (b.serve fault (requestText id (callMsg (py cmd) params) data) data st).1.text = some (.dict d) ∧
          dictGet d (py "error") ≠ none ∧
          (b.serve fault (requestText id (callMsg (py cmd) params) data) data st).2 = st)) := by
  obtain ⟨msg, hcmd, hget, hserve⟩ := serve_command b hascii hhello hauth hwell.1 hwell.2 id data fault st
  have hnull : msg.get (str "dry_run") = .null := by
    rw [hget "dry_run" (by decide) (by decide) (by decide) (by decide), hdry]
    rfl
  refine ⟨msg, (msg.get (str "id")).asInt 0, ⟨?_, ?_⟩, hget, ?_⟩
  · rw [Request.get, hget "path" (by decide) (by decide) (by decide) (by decide), hpath]
    rfl
  · rw [Request.get, hget "device" (by decide) (by decide) (by decide) (by decide), hdevice]
    rfl
  · rcases reply_cases b hclean hlen hlook hcmd hnull fault data st with ⟨hp, hreply⟩ | ⟨hp, r, hr, hreply⟩
    · exact Or.inl ⟨hp, by rw [hserve, hreply]⟩
    · obtain ⟨d, hl, he⟩ := hr.reads ((msg.get (str "id")).asInt 0)
      refine Or.inr ⟨hp, d, ?_, he, ?_⟩
      · rw [hserve, hreply]
        exact hl
      · rw [hserve, hreply]

/-- The agent lets the client write to the path. -/
def Build.writes (path : PyStr) : Prop := b.permits (str "fs.write") = true ∧ (cardPath path).isSome = true

/-- **A frame of `fs.write`**: the file has what the handler left, and the reply has no error; or the card is as before, and
the reply is an error. -/
theorem serve_write (id : Nat) {offset : Nat} (ho : offset < 2 ^ 63) (path : PyStr) (data : Bytes) (fault : CardFault)
    (st : Card) {r : ReplyFrame × Card}
    (hr : r = b.serve fault (requestText id (callMsg (py "fs.write") (writeParams path offset)) data) data st) :
    ∃ d, PyJson.loads r.1.text = some (.dict d) ∧
      ((∃ content, b.writes path ∧ writeStep fault.write offset data (st.fileAt path) = some content ∧
          r.2.fileAt path = some content ∧ dictGet d (py "error") = none) ∨
        ((b.writes path → writeStep fault.write offset data (st.fileAt path) = none) ∧ r.2 = st ∧
          dictGet d (py "error") ≠ none)) := by
  obtain ⟨msg, rid, hnames, hget, ⟨hp, hserve⟩ | ⟨hp, d, hl, he, hst⟩⟩ := serve_file b "fs.write"
    (cleanText_str (by decide) (by decide)) (by decide) (by decide) (by decide) (by decide) lookup_write
    (writeParams_wellFormed path offset) rfl rfl rfl id data fault st
  · have hoff : (⟨msg, data⟩ : Request).get "offset" = ofPy (.int offset) := by
      rw [Request.get, hget "offset" (by decide) (by decide) (by decide) (by decide)]
      rfl
    have hexec : b.exec fault .fsWrite ⟨msg, data⟩ st =
        ((fsWrite fault.write st.files ⟨msg, data⟩).1, { st with files := (fsWrite fault.write st.files ⟨msg, data⟩).2 }) := rfl
    rw [hserve] at hr
    dsimp only at hr
    rw [hexec] at hr
    rcases fsWrite_cases fault.write st.files hnames ho hoff with ⟨p, content, hpath, hstep, n, hw⟩ | ⟨hnone, x, hx, hw⟩
    · rw [hw] at hr
      subst hr
      have hs := sendable_empty.set (k := "written") (v := .int n) (by decide) (by decide) trivial trivial
      have hn : 2 + (6 * (str "written").length + 4 + weight (.int n)) < 2 ^ 31 := by rw [weight]; decide
      obtain ⟨d, hl, -, hg⟩ := hs.reads hn rid
      refine ⟨d, hl, Or.inl ⟨content, ⟨hp, by rw [hpath]; rfl⟩, ?_, ?_, ?_⟩⟩
      · rw [Card.fileAt, hpath]
        exact hstep
      · rw [Card.fileAt, hpath, Option.bind_some]
        exact Files.put_self _ _ _
      · rw [hg "error" (by decide) (by decide) (by decide), if_neg]
        rw [Reply.set, Value.has_set, has_empty]
        decide
    · rw [hw] at hr
      subst hr
      obtain ⟨d, hl, he⟩ := hx.reads rid
      refine ⟨d, hl, Or.inr ⟨fun hwrites => ?_, rfl, he⟩⟩
      obtain ⟨p, hpath⟩ := Option.isSome_iff_exists.1 hwrites.2
      rw [Card.fileAt, hpath]
      exact hnone p hpath
  · rw [hr]
    refine ⟨d, hl, Or.inr ⟨fun hwrites => ?_, hst, he⟩⟩
    rw [hwrites.1] at hp
    cases hp

/-! ## `fs.read` -/

theorem length_fread (fault : ReadFault) (left : Bytes) (len : Nat) : (fread fault left len).1.length ≤ len := by
  unfold fread
  repeat' split
  all_goals simp only [List.length_take]; omega

/-- **A frame of `fs.read`** leaves the card as it is; the reply is an error, or it carries what `fread` got from the file
and says whether that was less than it asked for. -/
theorem serve_read (id : Nat) {offset : Nat} (ho : offset < 2 ^ 63) (path : PyStr) (fault : CardFault) (st : Card)
    {r : ReplyFrame × Card} (hr : r = b.serve fault (requestText id (callMsg (py "fs.read") (readParams path offset)) []) [] st) :
    r.2 = st ∧ ∃ d, PyJson.loads r.1.text = some (.dict d) ∧
      (dictGet d (py "error") ≠ none ∨ (dictGet d (py "error") = none ∧ ∃ content, st.fileAt path = some content ∧
        r.1.blob = (fread fault.read (content.drop offset) chunk).1 ∧
        dictGet d (py "eof") = some (.bool ((fread fault.read (content.drop offset) chunk).2 ||
          decide ((fread fault.read (content.drop offset) chunk).1.length < chunk))))) := by
  obtain ⟨msg, rid, hnames, hget, ⟨hp, hserve⟩ | ⟨hp, d, hl, he, hst⟩⟩ := serve_file b "fs.read"
    (cleanText_str (by decide) (by decide)) (by decide) (by decide) (by decide) (by decide) lookup_read
    (readParams_wellFormed path offset) rfl rfl rfl id [] fault st
  · have hoff : ((⟨msg, []⟩ : Request).get "offset").asInt 0 = Int64.ofNat offset := by
      rw [Request.get, hget "offset" (by decide) (by decide) (by decide) (by decide)]
      show Value.asInt 0 (ofPy (.int offset)) = _
      rw [ofPy, Value.asInt, Json.saturate_of_lt ho]
    have hlen : readLen ⟨msg, []⟩ = chunk := by
      have : ((⟨msg, []⟩ : Request).get "len").asInt (Int64.ofNat kChunk) = Int64.ofNat chunk := by
        rw [Request.get, hget "len" (by decide) (by decide) (by decide) (by decide)]
        show Value.asInt _ (ofPy (.int chunk)) = _
        rw [ofPy, Value.asInt, Json.saturate_of_lt (by decide)]
      rw [readLen, this]
      decide
    have hexec : b.exec fault .fsRead ⟨msg, []⟩ st = (fsRead st.saveMounted fault.read st.files ⟨msg, []⟩, st) := rfl
    rw [hserve] at hr
    dsimp only at hr
    rw [hexec] at hr
    subst hr
    refine ⟨rfl, ?_⟩
    dsimp only
    unfold fsRead fsReadPath
    rw [readable_path hnames, hlen, hoff, seekPos_ofNat ho]
    unfold Card.fileAt cardPath
    cases hdev : resolveSdPath (agentStr path) with
    | none =>
      obtain ⟨d, hl, he⟩ := (cleanText_literal (s := "invalid path, or unknown/unmounted device") (by decide) (by decide)
        "bad_path" (by decide) (by decide)).reads rid
      exact ⟨d, hl, Or.inl he⟩
    | some dev =>
      dsimp only [Option.elim_some]
      cases hfile : (if fault.read.openRb then st.files (cStr dev) else none) with
      | none =>
        obtain ⟨d, hl, he⟩ := (cleanText_literal (s := "cannot open file") (by decide) (by decide) "not_found" (by decide)
          (by decide)).reads rid
        exact ⟨d, hl, Or.inl he⟩
      | some content =>
        have hopen : st.files (cStr dev) = some content := by
          split at hfile
          · exact hfile
          · cases hfile
        dsimp only
        generalize hgot : fread fault.read (content.drop offset) chunk = got
        have hout : got.1.length ≤ kMaxBinary := by
          rw [← hgot]
          exact length_fread _ _ _
        have hs := (sendable_empty.set (k := "eof") (v := .bool (got.2 || decide (got.1.length < chunk))) (by decide)
          (by decide) trivial trivial).with_out hout
        have hn : 2 + (6 * (str "eof").length + 4 + weight (.bool (got.2 || decide (got.1.length < chunk)))) < 2 ^ 31 := by
          rw [weight]; decide
        obtain ⟨d, hl, hb, hg⟩ := hs.reads hn rid
        refine ⟨d, hl, Or.inr ⟨?_, content, ?_, ?_, ?_⟩⟩
        · rw [hg "error" (by decide) (by decide) (by decide), if_neg]
          rw [Reply.set, Value.has_set, has_empty]
          decide
        · rw [Option.map_some, Option.bind_some, hopen]
        · rw [hgot]
          exact hb
        · rw [hgot, hg "eof" (by decide) (by decide) (by decide), if_pos]
          · rw [Reply.set, Value.get_set, if_pos rfl]
            rfl
          · rw [Reply.set, Value.has_set]
            rfl
  · rw [hr]
    exact ⟨hst, d, hl, Or.inl he⟩

/-! ## `fs.hash` -/

theorem hexdigest_byte (x : UInt8) :
    utf8 [Guards.hexCp (x.toNat / 16), Guards.hexCp (x.toNat % 16)] =
      [(JsonText.lowHex (x.toNat / 16)).byte, (JsonText.lowHex (x.toNat % 16)).byte] := by
  have h : ∀ n : Fin 16, utf8Char (Guards.hexCp n.val).val = [(JsonText.lowHex n.val).byte] := by decide
  have h1 := h ⟨x.toNat / 16, by have := x.toNat_lt; omega⟩
  have h2 := h ⟨x.toNat % 16, by omega⟩
  dsimp only at h1 h2
  rw [utf8_cons, utf8_cons, h1, h2]
  rfl

/-- **The agent's digest text is the client's.** -/
theorem hexBytes_eq (d : Bytes) : hexBytes d = utf8 (Guards.hexdigest d) := by
  unfold hexBytes Guards.hexdigest
  induction d with
  | nil => rfl
  | cons x d ih => rw [List.flatMap_cons, List.flatMap_cons, utf8_append, ← ih, hexdigest_byte]

/-- The parameters of a request for the SHA-256 of a path's file. -/
structure HashesPath (params : PyDict) (path : PyStr) : Prop where
  wellFormed : Json.Distinct (.dict (callMsg (py "fs.hash") params)) ∧
    Json.isFinite (.dict (callMsg (py "fs.hash") params)) = true
  path : dictGet params (py "path") = some (.str path)
  no_device : dictGet params (py "device") = none
  no_dry_run : dictGet params (py "dry_run") = none
  algo : dictGet params (py "algo") = none ∨ dictGet params (py "algo") = some (.str (py "sha256"))

/-- **A frame of `fs.hash`** leaves the card as it is; the reply is an error, or it has the digest of the whole file. -/
theorem serve_hash_of {params : PyDict} {path : PyStr} (h : HashesPath params path) (id : Nat) (fault : CardFault) (st : Card)
    {r : ReplyFrame × Card} (hr : r = b.serve fault (requestText id (callMsg (py "fs.hash") params) []) [] st) :
    r.2 = st ∧ ∃ d, PyJson.loads r.1.text = some (.dict d) ∧
      (dictGet d (py "error") ≠ none ∨ (dictGet d (py "error") = none ∧ ∃ content, st.fileAt path = some content ∧
        dictGet d (py "sha256") = some (.str (Guards.hexdigest (b.sha256 content).val)))) := by
  obtain ⟨msg, rid, hnames, hget, ⟨hp, hserve⟩ | ⟨hp, d, hl, he, hst⟩⟩ := serve_file b "fs.hash"
    (cleanText_str (by decide) (by decide)) (by decide) (by decide) (by decide) (by decide) lookup_hash
    h.wellFormed h.path h.no_device h.no_dry_run id [] fault st
  · have halgo : ((⟨msg, []⟩ : Request).get "algo").asString (str "sha256") = str "sha256" := by
      rw [Request.get, hget "algo" (by decide) (by decide) (by decide) (by decide)]
      rcases h.algo with halgo | halgo
      · rw [halgo]
        rfl
      · rw [halgo]
        show Value.asString _ (ofPy (.str (py "sha256"))) = _
        rw [ofPy, Value.asString, Json.agentStr_py "sha256" (by decide)]
    have hexec : b.exec fault .fsHash ⟨msg, []⟩ st = (fsHash b.sha256 st.saveMounted fault.read st.files ⟨msg, []⟩, st) := rfl
    rw [hserve] at hr
    dsimp only at hr
    rw [hexec] at hr
    subst hr
    refine ⟨rfl, ?_⟩
    dsimp only
    unfold fsHash fsHashPath
    rw [readable_path hnames, halgo]
    unfold Card.fileAt cardPath
    cases hdev : resolveSdPath (agentStr path) with
    | none =>
      obtain ⟨d, hl, he⟩ := (cleanText_literal (s := "invalid path, or unknown/unmounted device") (by decide) (by decide)
        "bad_path" (by decide) (by decide)).reads rid
      exact ⟨d, hl, Or.inl he⟩
    | some dev =>
      dsimp only [Option.elim_some]
      rw [if_neg (fun h => h rfl)]
      cases hfile : (if fault.read.openRb then st.files (cStr dev) else none) with
      | none =>
        obtain ⟨d, hl, he⟩ := (cleanText_literal (s := "cannot open file") (by decide) (by decide) "not_found" (by decide)
          (by decide)).reads rid
        exact ⟨d, hl, Or.inl he⟩
      | some content =>
        have hopen : st.files (cStr dev) = some content := by
          split at hfile
          · exact hfile
          · cases hfile
        dsimp only
        cases hfail : (hashLoop fault.read (content.length + 1) 0 content).2 with
        | true =>
          rw [if_pos rfl]
          obtain ⟨d, hl, he⟩ := (cleanText_literal (s := "read failed while hashing") (by decide) (by decide) "io_error"
            (by decide) (by decide)).reads rid
          exact ⟨d, hl, Or.inl he⟩
        | false =>
          rw [if_neg Bool.false_ne_true, hashLoop_whole fault.read _ _ _ (Nat.lt_succ_self _) hfail]
          have hu : Json.IsUtf8 (hexBytes (b.sha256 content).val) := ⟨_, hexBytes_eq _⟩
          have hs := ((sendable_empty.set (k := "ok") (v := .bool true) (by decide) (by decide) trivial trivial).set
            (k := "sha256") (v := .string (hexBytes (b.sha256 content).val)) (by decide) (by decide) trivial hu).set
            (k := "size") (v := .int (Int64.ofNat content.length)) (by decide) (by decide) trivial trivial
          have hhex : (hexBytes (b.sha256 content).val).length = 64 := by
            rw [length_hexBytes, (b.sha256 content).property]
          have hlen : (str "ok").length = 2 ∧ (str "sha256").length = 6 ∧ (str "size").length = 4 := by decide
          obtain ⟨d, hl, -, hg⟩ := hs.reads (by simp only [weight, hlen]; omega) rid
          refine ⟨d, hl, Or.inr ⟨?_, content, ?_, ?_⟩⟩
          · rw [hg "error" (by decide) (by decide) (by decide), if_neg]
            simp only [Reply.set, Value.has_set]
            decide
          · rw [Option.map_some, Option.bind_some, hopen]
          · rw [hg "sha256" (by decide) (by decide) (by decide), if_pos]
            · rw [Reply.set, Value.get_set, if_neg (by decide), Reply.set, Value.get_set, if_pos rfl, toPy, hexBytes_eq,
                Json.decoded_utf8]
            · simp only [Reply.set, Value.has_set]
              decide
  · rw [hr]
    exact ⟨hst, d, hl, Or.inl he⟩

theorem hashParams_hashes (path : PyStr) : HashesPath (hashParams path) path :=
  ⟨hashParams_wellFormed path, rfl, rfl, rfl, Or.inr rfl⟩

theorem serve_hash (id : Nat) (path : PyStr) (fault : CardFault) (st : Card)
    {r : ReplyFrame × Card} (hr : r = b.serve fault (requestText id (callMsg (py "fs.hash") (hashParams path)) []) [] st) :
    r.2 = st ∧ ∃ d, PyJson.loads r.1.text = some (.dict d) ∧
      (dictGet d (py "error") ≠ none ∨ (dictGet d (py "error") = none ∧ ∃ content, st.fileAt path = some content ∧
        dictGet d (py "sha256") = some (.str (Guards.hexdigest (b.sha256 content).val)))) :=
  serve_hash_of b (hashParams_hashes path) id fault st hr

/-! ## Handshakes -/

theorem handshakeMsg_reads {token : PyStr} {kind : Kind} {msg : PyDict} (h : HandshakeMsg token kind msg) :
    (Json.Distinct (.dict msg) ∧ Json.isFinite (.dict msg) = true) ∧
      (dictGet msg (py "cmd") = some (.str (py "hello")) ∨ dictGet msg (py "cmd") = some (.str (py "auth"))) := by
  cases h with
  | hello => exact ⟨⟨⟨by decide, trivial, trivial, trivial, trivial⟩, rfl⟩, Or.inl rfl⟩
  | auth mac =>
    refine ⟨⟨⟨?_, trivial, trivial, trivial⟩, rfl⟩, Or.inr rfl⟩
    show (List.map Prod.fst (authMsg mac)).Nodup
    simp only [authMsg, List.map_cons, List.map_nil]
    decide
  | legacy =>
    refine ⟨⟨⟨?_, trivial, trivial, trivial, trivial⟩, rfl⟩, Or.inl rfl⟩
    show (List.map Prod.fst (legacyMsg token)).Nodup
    simp only [legacyMsg, List.map_cons, List.map_nil]
    decide

/-- **A frame of a handshake is greeted.** -/
theorem serve_greets {token : PyStr} {e : Sent CardFault} (he : IsHandshake token e) :
    ∃ msg, ∀ st, b.serve e.fault e.text e.payload st =
      (replyFrame (b.greet e.fault msg st).1 [], (b.greet e.fault msg st).2) := by
  obtain ⟨hpay, id, msg, hmsg, hkind⟩ := he
  obtain ⟨hwell, hname⟩ := handshakeMsg_reads hkind
  obtain ⟨v, hparse, hget⟩ := request_fields id [] hwell.1 hwell.2
  have hcmd : (v.get (str "cmd")).asString [] = str "hello" ∨ (v.get (str "cmd")).asString [] = str "auth" := by
    rw [hget "cmd" (by decide) (by decide) (by decide)]
    rcases hname with h | h
    · rw [h]
      exact Or.inl (Json.agentStr_py "hello" (by decide))
    · rw [h]
      exact Or.inr (Json.agentStr_py "auth" (by decide))
  have htext : e.text = requestText id msg [] := by rw [Sent.text, hmsg, requestText]
  refine ⟨v, fun st => ?_⟩
  rw [htext, Build.serve, hparse]
  dsimp only
  rw [if_pos hcmd]

/-- **A frame of a handshake leaves the files alone.** -/
theorem serve_handshake {token : PyStr} {e : Sent CardFault} (he : IsHandshake token e) (st : Card) :
    (b.serve e.fault e.text e.payload st).2.files = st.files := by
  obtain ⟨msg, hserve⟩ := serve_greets b he
  rw [hserve st]
  unfold Build.greet
  dsimp only
  repeat' split
  all_goals rfl

end

end Agent
end SwitchMcp

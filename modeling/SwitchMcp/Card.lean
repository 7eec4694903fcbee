import SwitchMcp.Confirm
import SwitchMcp.Fs
import SwitchMcp.History
import SwitchMcp.Replies
import SwitchMcp.Server
/-!
# Card — the agent as it serves the files of its card (agent/source/server.cpp, handlers/fs.cpp)

`Build.serve` answers one frame: a handshake's, or a command's through the dispatcher.  What stdio does wrong in it is the
frame's fault.  A command is refused without touching the card, or its handler runs (`serve_command`); `serve_write`,
`serve_read` and `serve_hash` say what the client reads and what the card holds then.
-/
namespace SwitchMcp
namespace Agent

open Json (Value ofPy Utf8Value Ordered)
open PyJson (dictGet)

/-! ## `FsHash` -/

def kHashBuffer : Nat := 64 * 1024

/-- What `ferror` says after an `fread`. -/
def ferror (fault : ReadFault) (left : Bytes) (len : Nat) : Bool :=
  match fault.readError with
  | some k => decide (k < len ∧ k ≤ left.length)
  | none => false

/-- The loop of `FsHash` from a place of the file: what it hashes of what is left, and whether reading failed.  A place that
cannot be read cannot be read again. -/
def hashLoop (fault : ReadFault) : Nat → Nat → Bytes → Bytes × Bool
  | 0, _, _ => ([], false)
  | n + 1, pos, left =>
    let here : ReadFault := { fault with readError := fault.readError.map (· - pos) }
    let got := (fread here left kHashBuffer).1
    let failed := ferror here left kHashBuffer
    if got = [] then ([], failed)
    else
      let rest := hashLoop fault n (pos + got.length) (left.drop got.length)
      (got ++ rest.1, failed || rest.2)

def fsHash (sha256 : Guards.Sha256) (saveMounted : Bool) (fault : ReadFault) (fs : Files) (req : Request) : Bool × Reply :=
  match fsHashPath saveMounted req with
  | .error r => (false, r)
  | .ok p =>
    if (req.get "algo").asString (str "sha256") ≠ str "sha256" then (false, fail "bad_arg" (str "only sha256 is supported"))
    else
      match (if fault.openRb then fs (cStr p.dev) else none) with
      | none => (false, fail "not_found" (str "cannot open file"))
      | some content =>
        let h := hashLoop fault (content.length + 1) 0 content
        if h.2 then (false, fail "io_error" (str "read failed while hashing"))
        else (true, ((({} : Reply).set "ok" (.bool true)).set "sha256" (.string (hexBytes (sha256 h.1).val))).set "size"
          (.int (Int64.ofNat h.1.length)))

theorem fread_of_not_ferror {fault : ReadFault} {left : Bytes} {len : Nat} (h : ferror fault left len = false) :
    (fread fault left len).1 = left.take len := by
  unfold ferror at h
  unfold fread
  cases hk : fault.readError with
  | none => rfl
  | some k =>
    rw [hk] at h
    dsimp only at h ⊢
    rw [if_neg (of_decide_eq_false h)]

/-- **When no read failed, the whole file was hashed.** -/
theorem hashLoop_whole (fault : ReadFault) : ∀ (n pos : Nat) (left : Bytes), left.length < n →
    (hashLoop fault n pos left).2 = false → (hashLoop fault n pos left).1 = left
  | 0, _, left, hn, _ => absurd hn (Nat.not_lt_zero _)
  | n + 1, pos, left, hn, h => by
    unfold hashLoop at h ⊢
    dsimp only at h ⊢
    have hlen : 0 < kHashBuffer := by decide
    split at h
    · rename_i hgot
      rw [if_pos hgot]
      rw [fread_of_not_ferror h] at hgot
      rcases List.take_eq_nil_iff.1 hgot with hz | hz
      · omega
      · exact hz.symm
    · rename_i hgot
      rw [Bool.or_eq_false_iff] at h
      rw [if_neg hgot]
      rw [fread_of_not_ferror h.1] at h hgot ⊢
      have hne : left ≠ [] := fun hz => hgot (by rw [hz, List.take_nil])
      have hpos := List.length_pos_of_ne_nil hne
      have ih := hashLoop_whole fault n _ _ (by rw [List.length_drop, List.length_take]; omega) h.2
      rw [ih]
      have hdrop : left.drop (left.take kHashBuffer).length = left.drop kHashBuffer := by
        rw [List.length_take]
        rcases Nat.le_total kHashBuffer left.length with hle | hle
        · rw [Nat.min_eq_left hle]
        · rw [Nat.min_eq_right hle, List.drop_length, List.drop_of_length_le hle]
      rw [hdrop, List.take_append_drop]

/-! ## The agent -/

/-- What goes wrong while the agent answers a frame, and the nonce it draws then. -/
structure CardFault where
  read : ReadFault
  write : WriteFault
  nonce : Bytes
deriving DecidableEq

/-- The files of the card, whether a save is mounted, and the nonce of the last challenge. -/
structure Card where
  files : Files
  saveMounted : Bool
  nonce : Bytes

/-- A build of the agent: its configuration, the commands it knows, and the handlers that are not modelled here. -/
structure Build where
  config : AgentConfig
  has : Bytes → Bool
  sha256 : Guards.Sha256
  hmacSha256 : Bytes → Bytes → Bytes
  fw : Nat × Nat × Nat
  others : CardFault → Handler → Request → Card → (Bool × Reply) × Card

namespace Build

variable (b : Build)

def exec (fault : CardFault) : Handler → Request → Card → (Bool × Reply) × Card
  | .fsRead, req, st => (Agent.fsRead st.saveMounted fault.read st.files req, st)
  | .fsWrite, req, st =>
    let r := Agent.fsWrite fault.write st.files req
    (r.1, { st with files := r.2 })
  | .fsHash, req, st => (Agent.fsHash b.sha256 st.saveMounted fault.read st.files req, st)
  | h, req, st => b.others fault h req st

/-- What `Authenticate` answers to a hello, or to the response to its challenge. -/
def greet (fault : CardFault) (msg : Value) (st : Card) : Value × Card :=
  let id := (msg.get (str "id")).asInt 0
  let letIn (env : AuthEnv) (ok : Bool) : Value := if ok then welcome b.config env id else rejection id
  if (msg.get (str "cmd")).asString [] = str "hello" then
    if (msg.get (str "auth")).asString [] = str "hmac" then (challenge id fault.nonce, { st with nonce := fault.nonce })
    else (letIn ⟨st.nonce, b.hmacSha256, b.fw⟩ (!b.config.requireHmacAuth && (decide (b.config.token ≠ []) &&
      secureEqual ((msg.get (str "token")).asString []) b.config.token)), st)
  else
    let env : AuthEnv := ⟨st.nonce, b.hmacSha256, b.fw⟩
    (letIn env (checkMac b.config env ((msg.get (str "hmac")).asString [])), st)

/-- What the loop of `ServeConnection` answers. -/
def reply (fault : CardFault) (cmd : Bytes) (msg : Value) (payload : Bytes) (st : Card) : Reply × Card :=
  if b.has cmd then
    let a := answer b.config (b.exec fault) msg payload st
    (a.1, a.2.2)
  else (fail "unknown_command" cmd, st)

/-- The agent's answer to a frame. -/
def serve (fault : CardFault) (text payload : Bytes) (st : Card) : ReplyFrame × Card :=
  match Json.parse text with
  | none => (blankFrame, st)
  | some msg =>
    let cmd := (msg.get (str "cmd")).asString []
    if cmd = str "hello" ∨ cmd = str "auth" then
      let g := b.greet fault msg st
      (replyFrame g.1 [], g.2)
    else
      let r := b.reply fault cmd msg payload st
      (replyFrame (finishReply ((msg.get (str "id")).asInt 0) r.1) r.1.out, r.2)

/-- The build knows the command, and its tier lets it through. -/
def permits (cmd : Bytes) : Bool := b.has cmd && (lookup cmd).elim false (fun c => (checkTier cmd c b.config).isNone)

end Build

/-! ## Refusals -/

/-- A text that the client can read and C functions see whole. -/
structure CleanText (m : Bytes) : Prop where
  utf8 : Json.IsUtf8 m
  no_nul : 0 ∉ m
  length : m.length ≤ 2 ^ 20

/-- An error reply that the client can read. -/
structure Refuses (r : Reply) : Prop where
  sendable : ∃ n, n < 2 ^ 31 ∧ Sendable n r
  error : r.json.has (str "error") = true

theorem refuses_fail {code : String} {message : Bytes} (hc : asciiOnly code = true) (hl : (str code).length ≤ 2 ^ 20)
    (hm : CleanText message) : Refuses (fail code message) where
  sendable := ⟨_, by have := hm.length; omega, sendable_fail hc hm.utf8 hm.no_nul⟩
  error := by simp [fail]

theorem cleanText_str {s : String} (h : (s.toList.all fun c => decide (0 < c.toNat ∧ c.toNat < 0x80)) = true)
    (hl : s.toList.length ≤ 2 ^ 20) : CleanText (str s) where
  utf8 := by
    refine Json.isUtf8_str s (List.all_eq_true.2 fun c hc => decide_eq_true ?_)
    exact (of_decide_eq_true (List.all_eq_true.1 h c hc)).2
  no_nul := by
    intro h0
    obtain ⟨c, hc, hz⟩ := List.mem_map.1 h0
    have hlt := of_decide_eq_true (List.all_eq_true.1 h c hc)
    have hn := congrArg UInt8.toNat hz
    rw [ch, Nat.toUInt8_eq, toNat_ofNat_lt (by omega)] at hn
    exact absurd hn (by simp; omega)
  length := by rwa [str, List.length_map]

theorem cleanText_append {a b : Bytes} (ha : CleanText a) (hb : CleanText b) (hl : a.length + b.length ≤ 2 ^ 20) :
    CleanText (a ++ b) where
  utf8 := by
    obtain ⟨l, rfl⟩ := ha.utf8
    obtain ⟨m, rfl⟩ := hb.utf8
    exact ⟨l ++ m, (utf8_append l m).symm⟩
  no_nul h := (List.mem_append.1 h).elim ha.no_nul hb.no_nul
  length := by rwa [List.length_append]

theorem cleanText_tierName (t : Tier) : CleanText (tierName t) ∧ (tierName t).length ≤ 8 := by
  cases t
  · exact ⟨cleanText_str (s := "observe") (by decide) (by decide), by decide⟩
  · exact ⟨cleanText_str (s := "control") (by decide) (by decide), by decide⟩
  · exact ⟨cleanText_str (s := "invasive") (by decide) (by decide), by decide⟩

/-- **What the tier check refuses, it refuses with an error.** -/
theorem checkTier_refuses {cmd : Bytes} (hc : CleanText cmd) (hl : cmd.length ≤ 64) {c : Command} {cfg : AgentConfig}
    {r : Reply} (h : checkTier cmd c cfg = some r) : Refuses r := by
  obtain ⟨ht, htl⟩ := cleanText_tierName c.tier
  obtain ⟨ht', htl'⟩ := cleanText_tierName cfg.tier
  have hquote := cleanText_str (s := "'") (by decide) (by decide)
  have lquote : (str "'").length = 1 := by decide
  unfold checkTier at h
  split at h
  · cases h
    have h1 := cleanText_str (s := "' requires tier=") (by decide) (by decide)
    have h2 := cleanText_str (s := " but the agent is configured for tier=") (by decide) (by decide)
    have h3 := cleanText_str (s := ". Raise `tier` in sd:/config/switch-agentd/config.ini and restart the agent.")
      (by decide) (by decide)
    have l1 : (str "' requires tier=").length = 16 := by decide
    have l2 : (str " but the agent is configured for tier=").length = 38 := by decide
    have l3 : (str ". Raise `tier` in sd:/config/switch-agentd/config.ini and restart the agent.").length = 76 := by decide
    refine refuses_fail (by decide) (by decide) ?_
    refine cleanText_append (cleanText_append (cleanText_append (cleanText_append (cleanText_append (cleanText_append
      hquote hc ?_) h1 ?_) ht ?_) h2 ?_) ht' ?_) h3 ?_ <;>
    simp only [List.length_append, lquote, l1, l2, l3] <;> omega
  · split at h
    · cases h
      exact refuses_fail (by decide) (by decide) (cleanText_str (by decide) (by decide))
    · split at h
      · cases h
        exact refuses_fail (by decide) (by decide) (cleanText_str (by decide) (by decide))
      · split at h
        · cases h
          have h1 := cleanText_str (s := "' writes to NAND and requires allow_nand_write=true in config") (by decide) (by decide)
          have l1 : (str "' writes to NAND and requires allow_nand_write=true in config").length = 61 := by decide
          refine refuses_fail (by decide) (by decide) ?_
          refine cleanText_append (cleanText_append hquote hc ?_) h1 ?_ <;>
          simp only [List.length_append, lquote, l1] <;> omega
        · cases h

/-! ## A command -/

section
variable (b : Build)

/-- **A command that is not permitted is refused without touching the card; one that is runs its handler.** -/
theorem reply_cases {cmd : Bytes} (hc : CleanText cmd) (hl : cmd.length ≤ 64) {c : Command} (hlook : lookup cmd = some c)
    {msg : Value} (hcmd : msg.get (str "cmd") = .string cmd) (hdry : msg.get (str "dry_run") = .null) (fault : CardFault)
    (payload : Bytes) (st : Card) :
    (b.permits cmd = true ∧ b.reply fault cmd msg payload st =
      ((b.exec fault c.fn ⟨msg, payload⟩ st).1.2, (b.exec fault c.fn ⟨msg, payload⟩ st).2)) ∨
    (b.permits cmd = false ∧ ∃ r, Refuses r ∧ b.reply fault cmd msg payload st = (r, st)) := by
  have hasString : (msg.get (str "cmd")).asString [] = cmd := by rw [hcmd]; rfl
  have hnodry : isDryRun msg = false := by
    rw [isDryRun, hdry]
    rfl
  unfold Build.reply Build.permits
  cases hhas : b.has cmd with
  | false =>
    have hr : Refuses (fail "unknown_command" cmd) := refuses_fail (by decide) (by decide) hc
    exact Or.inr ⟨rfl, _, hr, by rw [if_neg Bool.false_ne_true]⟩
  | true =>
    rw [if_pos rfl, hlook, Option.elim_some, Bool.true_and]
    simp only [answer, hasString, hlook]
    cases ht : checkTier cmd c b.config with
    | some r => exact Or.inr ⟨rfl, r, checkTier_refuses hc hl ht, rfl⟩
    | none =>
      refine Or.inl ⟨rfl, ?_⟩
      dsimp only
      rw [hnodry, Bool.and_false, if_neg Bool.false_ne_true]

/-- **What the agent makes of a command's frame.** -/
theorem serve_command {cmd : String} (hc : asciiOnly cmd = true) (hhello : str cmd ≠ str "hello")
    (hauth : str cmd ≠ str "auth") {params : PyDict} (hd : Json.Distinct (.dict (callMsg (py cmd) params)))
    (hf : Json.isFinite (.dict (callMsg (py cmd) params)) = true) (id : Nat) (payload : Bytes) (fault : CardFault) (st : Card) :
    ∃ msg, msg.get (str "cmd") = .string (str cmd) ∧
      (∀ k : String, asciiOnly k = true → py k ≠ py "cmd" → py k ≠ py "id" → py k ≠ py "bin" →
        msg.get (str k) = ((dictGet params (py k)).map ofPy).getD .null) ∧
      b.serve fault (requestText id (callMsg (py cmd) params) payload) payload st =
        (replyFrame (finishReply ((msg.get (str "id")).asInt 0) (b.reply fault (str cmd) msg payload st).1)
          (b.reply fault (str cmd) msg payload st).1.out, (b.reply fault (str cmd) msg payload st).2) := by
  obtain ⟨msg, hparse, hget⟩ := request_fields id payload hd hf
  have hcmd : msg.get (str "cmd") = .string (str cmd) := by
    rw [hget "cmd" (by decide) (by decide) (by decide), callMsg, PyJson.dictGet_cons, if_pos rfl, Option.map_some,
      Option.getD_some, ofPy, Json.agentStr_py cmd hc]
  refine ⟨msg, hcmd, fun k hk hkc hki hkb => ?_, ?_⟩
  · rw [hget k hk hki hkb, callMsg, PyJson.dictGet_cons, if_neg (Ne.symm hkc)]
  · have hasString : (msg.get (str "cmd")).asString [] = str cmd := by rw [hcmd]; rfl
    rw [Build.serve, hparse]
    dsimp only
    rw [hasString, if_neg (not_or.2 ⟨hhello, hauth⟩)]

end

end Agent
end SwitchMcp

import SwitchMcp.Unread
import SwitchMcp.UpdateAgent
/-!
# Deploy — what is checked before the console is restarted (tools/deploy.py)

The script over the client and the agent as they are.  Each try has a client of its own; a try that fails in its first hash goes
on with the connection that this left (`call_read`).  `restart_verified` is about every run, whatever fails in it and how often:
a restart is asked for only after the agent hashed the module and it was the image, and since then only restarts were.
-/
namespace SwitchMcp
namespace Deploy

open Agent
open Guards (Restarts BeforeRestart digestText)
open PyJson (dictGet)
open Prog (Ends Moves)

/-! ## The script -/

def remote : PyStr := py "/atmosphere/contents/420000000000AE57/exefs.nsp"

/-- What `from_env` reads; the port as `int()` reads it. -/
structure Environ where
  host : Option PyStr
  port : Option (Option Nat)
  token : Option PyStr

/-- The client that `from_env` makes, if it does not raise. -/
def Environ.config (environ : Environ) : Option ClientConfig :=
  match environ.host with
  | none => none
  | some host => if host = [] then none else
    (environ.port.getD (some 6060)).map fun port => ⟨host, port, environ.token.getD []⟩

inductive Failure
  | client (e : Raised)
  /-- `RuntimeError` or `ValueError` of `from_env`, `OSError` of `read_bytes`. -/
  | environment
  /-- `KeyError`, `TypeError` or `AttributeError`: a reply of another shape. -/
  | shape
  /-- `RuntimeError`: the hash is another after the upload. -/
  | mismatch (size : PyJson)
  /-- A sleep was cancelled. -/
  | cancelled
  /-- `SystemExit`. -/
  | gaveUp (what : String)

/-- `except Exception`. -/
def Failure.caught : Failure → Bool
  | .client e => decide (e.exc ≠ .cancelled)
  | .cancelled | .gaveUp _ => false
  | _ => true

/-- How the calls go, how a client closes after so many of them, and which sleeps are cancelled. -/
structure Schedule where
  calls : Nat → CallScript CardFault
  drops : Nat → DropScript
  interrupted : String → Nat → Bool

section
variable (environ : Environ) (hmacHex : Bytes → Bytes → PyStr) (b : Build) (sched : Schedule)

/-- `AgentClient.from_env`: a client without a connection. -/
def fromEnv : Prog Session Failure ClientConfig :=
  match environ.config with
  | none => throw .environment
  | some cfg => do
    modify fun s => { s with world := { (World.fresh s.world.agent : World Card CardFault) with log := s.world.log } }
    return cfg

/-- What the client does, in the script. -/
def onClient {α : Type} (p : Prog Session Raised α) : Prog Session Failure α := .of fun s =>
  match p.exec s with
  | (.ok a, s) => (.ok a, s)
  | (.error e, s) => (.error (.client e), s)

def clientCall (cfg : ClientConfig) (cmd : String) (params : PyDict) : Prog Session Failure PyDict := do
  let r ← onClient (callNext cfg hmacHex b sched.calls (py cmd) [] params)
  return r.1

def aclose : Prog Session Failure Unit := onClient (.of fun s =>
  let r := (discardConnection (sched.drops s.turn) : Prog (World Card CardFault) Raised Unit).exec s.world
  (r.1, { s with world := r.2 }))

/-- `asyncio.sleep`, after the `i`-th try of something. -/
def sleep (what : String) (i : Nat) : Prog Session Failure Unit :=
  if sched.interrupted what i then throw .cancelled else pure ()

def withRetry {α : Type} (fn : Prog Session Failure α) (what : String) (tries : Nat) : Prog Session Failure α :=
  Prog.retry fn Failure.caught (sleep sched what) (.gaveUp what) tries 1

def hashParams : PyDict := [(py "path", .str remote)]

/-- `h["sha256"] == want`. -/
def sameHash (want : PyStr) (h : PyDict) : Prog Session Failure Bool :=
  match dictGet h (py "sha256") with
  | none => throw .shape
  | some v => return decide (v = .str want)

/-- The first hash of a try, whose exceptions are passed over. -/
def upToDate (cfg : ClientConfig) (want : PyStr) : Prog Session Failure Bool :=
  tryCatch (do
    let h ← clientCall hmacHex b sched cfg "fs.hash" hashParams
    sameHash want h) (fun e => if e.caught then return false else throw e)

/-- The hash after the upload. -/
def verify (cfg : ClientConfig) (want : PyStr) : Prog Session Failure Unit := do
  let h ← clientCall hmacHex b sched cfg "fs.hash" hashParams
  if ← sameHash want h then return ()
  else
    match dictGet h (py "size") with
    | none => throw .shape
    | some size => throw (.mismatch size)

def uploadAndVerify (data : Bytes) : Prog Session Failure Unit := do
  let cfg ← fromEnv environ
  Prog.ensure (do
    if ← upToDate hmacHex b sched cfg (digestText b.sha256 data) then return ()
    else
      let _ ← onClient (clientWriteFile cfg hmacHex b sched.calls remote data)
      verify hmacHex b sched cfg (digestText b.sha256 data)) (aclose sched)

def restart : Prog Session Failure Unit := do
  let cfg ← fromEnv environ
  Prog.ensure (do
    let _ ← clientCall hmacHex b sched cfg "agent.restart" []
    return ()) (aclose sched)

/-- The client stays open when the agent answers. -/
def waitBack : Prog Session Failure (ClientConfig × PyDict) := do
  let cfg ← fromEnv environ
  tryCatch (do
    let info ← clientCall hmacHex b sched cfg "agent.info" []
    return (cfg, info)) (fun e => if e.caught then do aclose sched; throw e else throw e)

/-- The line about the agent that is up: `info['agent_version']`, and `len` of the commands it stored. -/
def upLine (info : PyDict) : Prog Session Failure Unit :=
  if (dictGet info (py "agent_version")).isNone then throw .shape
  else do
    let s ← get
    match dictGet s.world.capabilities (py "commands") with
    | none | some (.list _) | some (.dict _) | some (.str _) => return ()
    | _ => throw .shape

/-- `c.call("input", ...)` with the button B. -/
def pressB (cfg : ClientConfig) : Prog Session Failure PyDict :=
  clientCall hmacHex b sched cfg "input" [(py "buttons", .list [.str (py "B")]), (py "hold_ms", .int 120),
    (py "sticks", .dict [(py "lx", .int 0), (py "ly", .int 0), (py "rx", .int 0), (py "ry", .int 0)])]

/-- `lg["content"].splitlines()`. -/
def logLines (lg : PyDict) : Prog Session Failure Unit :=
  match dictGet lg (py "content") with
  | some (.str _) => return ()
  | _ => throw .shape

/-- `main` after the restart. -/
def afterRestart : Prog Session Failure Unit := do
  sleep sched "boot" 0
  let r ← withRetry sched (waitBack environ hmacHex b sched) "reconnect" 120
  upLine r.2
  tryCatch (do
    let _ ← pressB hmacHex b sched r.1
    sleep sched "press" 0
    let _ ← pressB hmacHex b sched r.1
    sleep sched "press" 1) (fun e => if e.caught then return () else throw e)
  let lg ← clientCall hmacHex b sched r.1 "read_log" [(py "max_bytes", .int 2000)]
  logLines lg
  aclose sched

/-- `main`, with what `LOCAL` holds if it can be read. -/
def main (noReboot : Bool) (image : Option Bytes) : Prog Session Failure Unit :=
  match image with
  | none => throw .environment
  | some data => do
    withRetry sched (uploadAndVerify environ hmacHex b sched data) "upload" 40
    if noReboot then return ()
    else
      withRetry sched (restart environ hmacHex b sched) "restart" 10
      afterRestart environ hmacHex b sched

end

/-! ## What the steps write -/

/-- The frames of a step. -/
def Does (b : Build) (P : Sent CardFault → Prop) (s s' : Session) : Prop := Extends b.serve P s.world s'.world

/-- A frame of a handshake, or one that asks for the restart. -/
def OfRestart (f : Sent CardFault) : Prop := (∃ token, IsHandshake token f) ∨ Restarts f

/-- Frames that ask for no restart. -/
abbrev Quiet (b : Build) : Session → Session → Prop := Does b fun f => ¬Restarts f

section
variable {b : Build} {P : Sent CardFault → Prop}

theorem does_refl (s : Session) : Does b P s s := Extends.refl_of rfl rfl

theorem does_trans (s s1 s2 : Session) (h : Does b P s s1) (h' : Does b P s1 s2) : Does b P s s2 := Extends.trans h h'

theorem moves_pure {α : Type} (a : α) : Moves (Does b P) (pure a : Prog Session Failure α) := fun s =>
  (Prog.ends_pure a).2 (does_refl s)

theorem moves_throw {α : Type} (e : Failure) : Moves (Does b P) (throw e : Prog Session Failure α) := fun s =>
  (Prog.ends_throw e).2 (does_refl s)

theorem ends_onClient {α : Type} {p : Prog Session Raised α} {s : Session} {Q : α → Session → Prop}
    {E : Failure → Session → Prop} (h : Ends p s Q (fun e s' => E (.client e) s')) : Ends (onClient p) s Q E := by
  rcases hx : p.exec s with ⟨e | a, s'⟩
  · exact (Prog.ends_iff_error (by rw [onClient, Prog.exec_of, hx])).2 (h.error hx)
  · exact (Prog.ends_iff_ok (by rw [onClient, Prog.exec_of, hx])).2 (h.ok hx)

theorem moves_onClient {α : Type} {p : Prog Session Raised α} {R : Session → Session → Prop} (h : Moves R p) :
    Moves R (onClient p) := fun s => ends_onClient (h s)

theorem fromEnv_moves (environ : Environ) : Moves (Does b P) (fromEnv environ) := by
  unfold fromEnv
  split
  · exact moves_throw _
  · exact Moves.bind does_trans (fun s => (Prog.ends_modify _).2 (Extends.refl_of rfl rfl)) fun _ => moves_pure _

theorem sleep_moves (sched : Schedule) (what : String) (i : Nat) : Moves (Does b P) (sleep sched what i) := by
  unfold sleep
  split
  · exact moves_throw _
  · exact moves_pure _

theorem aclose_moves (sched : Schedule) : Moves (Does b P) (aclose sched) := by
  refine moves_onClient (Prog.Moves.of fun s => ?_)
  have h := discardConnection_ends (sched.drops s.turn) s.world
  rcases hx : (discardConnection (sched.drops s.turn) : Prog (World Card CardFault) Raised Unit).exec s.world with ⟨e | r, w⟩
  · show Extends b.serve P s.world w
    rw [(h.error hx).2]
    exact Extends.refl_of rfl rfl
  · show Extends b.serve P s.world w
    rw [h.ok hx]
    exact Extends.refl_of rfl rfl

theorem moves_ensure {α : Type} {p : Prog Session Failure α} {q : Prog Session Failure Unit} (hp : Moves (Does b P) p)
    (hq : Moves (Does b P) q) : Moves (Does b P) (Prog.ensure p q) := by
  refine Moves.bind does_trans (hp.tryCatch does_trans fun e => ?_) fun a => ?_
  · exact hq.bind does_trans fun _ => moves_throw e
  · exact hq.bind does_trans fun _ => moves_pure a

variable {cfg : ClientConfig} {hmacHex : Bytes → Bytes → PyStr} {sched : Schedule}

/-- **A call writes its own frames only.** -/
theorem callNext_moves {cmd : PyStr} {payload : Bytes} {params : PyDict}
    (hP : ∀ f, OfCall cfg.token cmd payload params f → P f) :
    Moves (Does b P) (callNext cfg hmacHex b sched.calls cmd payload params) := fun s =>
  callNext_of_call ((call_extends cfg hmacHex b.serve cmd payload params (sched.calls s.turn) s.world).mono
    (fun _ _ h => h.mono hP) (fun _ _ h => h.mono hP))

theorem clientCall_moves {cmd : String} {params : PyDict} (hP : ∀ f, OfCall cfg.token (py cmd) [] params f → P f) :
    Moves (Does b P) (clientCall hmacHex b sched cfg cmd params) :=
  (moves_onClient (callNext_moves hP)).bind does_trans fun _ => moves_pure _

theorem quiet_of_call {cmd : PyStr} {payload : Bytes} {params : PyDict} (hne : cmd ≠ py "agent.restart")
    (f : Sent CardFault) (hf : OfCall cfg.token cmd payload params f) : ¬Restarts f :=
  Guards.not_restarts (commands_of_call (l := [f]) (fun g hg => by rwa [List.mem_singleton.1 hg])) hne f
    (List.mem_singleton.2 rfl)

theorem ofRestart_of_call (f : Sent CardFault) (hf : OfCall cfg.token (py "agent.restart") [] [] f) : OfRestart f := by
  rcases hf with hf | hf
  · exact Or.inl ⟨_, hf⟩
  · obtain ⟨id, hmsg⟩ := hf.msg
    exact Or.inr ⟨hf.kind, command_of_msg hmsg⟩

theorem writeLoop_moves (path : PyStr) (data : Bytes) : ∀ n offset, data.length - offset < n →
    Moves (Quiet b) (writeLoop cfg hmacHex b sched.calls path data offset)
  | 0, _, hn => absurd hn (Nat.not_lt_zero _)
  | n + 1, offset, hn => by
    rw [writeLoop]
    by_cases hgo : offset < data.length ∨ offset = 0
    · rw [if_pos hgo]
      refine Moves.bind does_trans (callNext_moves (quiet_of_call (by decide))) fun _ => ?_
      by_cases hpart : (data.drop offset).take chunk = []
      · rw [if_pos hpart]
        exact fun s => (Prog.ends_pure _).2 (does_refl s)
      · rw [if_neg hpart]
        have hpos := List.length_pos_of_ne_nil hpart
        refine writeLoop_moves path data n _ ?_
        rw [List.length_take, List.length_drop] at hpos ⊢
        omega
    · rw [if_neg hgo]
      exact fun s => (Prog.ends_pure _).2 (does_refl s)

/-- **`write_file` asks for no restart.** -/
theorem clientWriteFile_moves (path : PyStr) (data : Bytes) :
    Moves (Quiet b) (clientWriteFile cfg hmacHex b sched.calls path data) :=
  (writeLoop_moves path data _ 0 (Nat.lt_succ_self _)).bind does_trans fun _ s => (Prog.ends_pure _).2 (does_refl s)

theorem sameHash_moves (want : PyStr) (h : PyDict) : Moves (Does b P) (sameHash want h) := by
  unfold sameHash
  split
  · exact moves_throw _
  · exact moves_pure _

theorem upToDate_moves (want : PyStr) : Moves (Quiet b) (upToDate hmacHex b sched cfg want) := by
  unfold upToDate
  refine Moves.tryCatch does_trans ?_ fun e => ?_
  · exact (clientCall_moves (quiet_of_call (by decide))).bind does_trans fun h => sameHash_moves want h
  · split
    · exact moves_pure _
    · exact moves_throw _

theorem verify_moves (want : PyStr) : Moves (Quiet b) (verify hmacHex b sched cfg want) := by
  unfold verify
  refine Moves.bind does_trans (clientCall_moves (quiet_of_call (by decide))) fun h => ?_
  refine (sameHash_moves want h).bind does_trans fun same => ?_
  repeat' split
  all_goals first | exact moves_pure _ | exact moves_throw _

theorem uploadAndVerify_moves (environ : Environ) (data : Bytes) :
    Moves (Quiet b) (uploadAndVerify environ hmacHex b sched data) := by
  unfold uploadAndVerify
  refine (fromEnv_moves environ).bind does_trans fun cfg => moves_ensure ?_ (aclose_moves sched)
  refine (upToDate_moves _).bind does_trans fun fresh => ?_
  split
  · exact moves_pure _
  · exact (moves_onClient (clientWriteFile_moves _ _)).bind does_trans fun _ => verify_moves _

theorem restart_moves (environ : Environ) : Moves (Does b OfRestart) (restart environ hmacHex b sched) := by
  unfold restart
  refine (fromEnv_moves environ).bind does_trans fun cfg => moves_ensure ?_ (aclose_moves sched)
  exact (clientCall_moves fun f hf => ofRestart_of_call f hf).bind does_trans fun _ => moves_pure _

theorem waitBack_moves (environ : Environ) : Moves (Quiet b) (waitBack environ hmacHex b sched) := by
  unfold waitBack
  refine (fromEnv_moves environ).bind does_trans fun cfg => Moves.tryCatch does_trans ?_ fun e => ?_
  · exact (clientCall_moves (quiet_of_call (by decide))).bind does_trans fun _ => moves_pure _
  · split
    · exact (aclose_moves sched).bind does_trans fun _ => moves_throw _
    · exact moves_throw _

theorem withRetry_moves {α : Type} {fn : Prog Session Failure α} (h : Moves (Does b P) fn) (what : String) (tries : Nat) :
    Moves (Does b P) (withRetry sched fn what tries) :=
  Prog.ends_retry (T := fun s _ s' => Does b P s s') does_refl does_trans (fun s s1 _ s2 => does_trans s s1 s2) h _
    (sleep_moves sched what) _ tries 1

/-- **After the restart, no other is asked for.** -/
theorem afterRestart_moves (environ : Environ) : Moves (Quiet b) (afterRestart environ hmacHex b sched) := by
  have hpress : ∀ cfg, Moves (Quiet b) (pressB hmacHex b sched cfg) := fun cfg =>
    clientCall_moves (quiet_of_call (by decide))
  have hline : ∀ info, Moves (Quiet b) (upLine info) := by
    intro info
    unfold upLine
    split
    · exact moves_throw _
    · refine Moves.bind does_trans (fun s => Prog.ends_get.2 (does_refl s)) fun s => ?_
      split
      all_goals first | exact moves_pure _ | exact moves_throw _
  have hlog : ∀ lg, Moves (Quiet b) (logLines lg) := by
    intro lg
    unfold logLines
    split
    · exact moves_pure _
    · exact moves_throw _
  unfold afterRestart
  refine (sleep_moves sched _ _).bind does_trans fun _ => ?_
  refine (withRetry_moves (waitBack_moves environ) _ _).bind does_trans fun r => ?_
  refine (hline r.2).bind does_trans fun _ => ?_
  refine Moves.bind does_trans (Moves.tryCatch does_trans ?_ fun e => ?_) fun _ => ?_
  · refine (hpress r.1).bind does_trans fun _ => (sleep_moves sched _ _).bind does_trans fun _ => ?_
    exact (hpress r.1).bind does_trans fun _ => sleep_moves sched _ _
  · split
    · exact moves_pure _
    · exact moves_throw _
  · refine (clientCall_moves (quiet_of_call (by decide))).bind does_trans fun lg => ?_
    exact (hlog lg).bind does_trans fun _ => aclose_moves sched

end

/-! ## What a try that returns has checked -/

/-- The agent answered the hash of the module, which was this. -/
structure Hashes (st : Card) (content : Bytes) (f : Sent CardFault) : Prop where
  kind : f.kind = .command
  command : f.command = some (.str (py "fs.hash"))
  answered : f.delivered = true ∧ f.answered = true
  file : st.fileAt remote = some content

/-- A step asked for no restart; its last frame had the module hashed, which was this then and is now. -/
def HashedLast (b : Build) (content : Bytes) (s s' : Session) : Prop :=
  ∃ pre f, s'.world.log = s.world.log ++ (pre ++ [f]) ∧ s'.world.agent = agentAfter b.serve (pre ++ [f]) s.world.agent ∧
    (∀ g ∈ pre ++ [f], ¬Restarts g) ∧ Hashes (agentAfter b.serve pre s.world.agent) content f ∧
    s'.world.agent.fileAt remote = some content

section
variable {b : Build} {cfg : ClientConfig} {hmacHex : Bytes → Bytes → PyStr} {sched : Schedule} {content : Bytes}
  {s s1 s2 : Session}

theorem HashedLast.after (h : Quiet b s s1) (h' : HashedLast b content s1 s2) : HashedLast b content s s2 := by
  obtain ⟨new, hlog, hagent, hnew⟩ := h
  obtain ⟨pre, f, hlog', hagent', hquiet, hf, hfile⟩ := h'
  rw [hagent] at hf hagent'
  refine ⟨new ++ pre, f, ?_, ?_, fun g hg => ?_, ?_, hfile⟩
  · rw [hlog', hlog, List.append_assoc, List.append_assoc]
  · rw [hagent', List.append_assoc, agentAfter_append new]
  · rw [List.append_assoc] at hg
    exact (List.mem_append.1 hg).elim (hnew g) (hquiet g)
  · rwa [agentAfter_append]

/-- A step that writes nothing. -/
theorem unwritten (h : Does b (fun _ => False) s s1) : s1.world.log = s.world.log ∧ s1.world.agent = s.world.agent := by
  obtain ⟨new, hlog, hagent, hnew⟩ := h
  obtain rfl : new = [] := List.eq_nil_iff_forall_not_mem.2 hnew
  exact ⟨by rw [hlog, List.append_nil], hagent⟩

theorem HashedLast.then (h : HashedLast b content s s1) (h' : Does b (fun _ => False) s1 s2) : HashedLast b content s s2 := by
  obtain ⟨hlog, hagent⟩ := unwritten h'
  obtain ⟨pre, f, hlog', hagent', hquiet, hf, hfile⟩ := h
  exact ⟨pre, f, hlog.trans hlog', hagent.trans hagent', hquiet, hf, by rwa [hagent]⟩

theorem hashParams_hashes : HashesPath hashParams remote where
  wellFormed := ⟨⟨by decide, trivial, trivial, trivial⟩, rfl⟩
  path := rfl
  no_device := rfl
  no_dry_run := rfl
  algo := Or.inl rfl

theorem blob_replyFrame (v : Json.Value) : (replyFrame v []).blob = [] := by
  unfold replyFrame
  split <;> rfl

/-- The replies to the frames of a hash are plain. -/
theorem hash_plain (token : PyStr) : PlainReplies b.serve (OfCall token (py "fs.hash") [] hashParams) := by
  intro f st hf hl
  rcases hf with hf | hf
  · obtain ⟨msg, hserve⟩ := serve_greets b hf
    rw [hserve]
    exact blob_replyFrame _
  · obtain ⟨id, hmsg⟩ := hf.msg
    obtain ⟨-, d, hd, -⟩ := serve_hash_of b hashParams_hashes id f.fault st rfl
    rw [Sent.text, hmsg, hf.with_payload, ← requestText, hd] at hl
    cases hl

/-- **A hash from a client that has read all**: it returns the digest of the module as it is, and only a cancellation leaves
anything unread. -/
theorem hash_ends (hs : AllRead s.world) :
    Ends (clientCall hmacHex b sched cfg "fs.hash" hashParams) s
      (fun h s' => AllRead s'.world ∧ ∃ content, HashedLast b content s s' ∧
        dictGet h (py "sha256") = some (.str (digestText b.sha256 content)))
      (fun e s' => e.caught = true → AllRead s'.world) := by
  unfold clientCall
  rw [Prog.ends_bind]
  refine ends_onClient (callNext_of_call ((call_read hmacHex (py "fs.hash") [] hashParams (sched.calls s.turn) hs).mono
    (fun r w h => ?_) (fun e w h hcaught => h.1 (Or.inr (Or.inr ⟨of_decide_eq_true hcaught, fun _ => hash_plain _⟩)))))
  obtain ⟨hread, hr⟩ := h
  obtain ⟨⟨pre, f, ha⟩, herr⟩ := hr.resolve_right fun ⟨_, _, hgone⟩ => absurd hgone.fires (by decide)
  rw [Prog.ends_pure]
  refine ⟨hread, ?_⟩
  obtain ⟨hst, d, hl, hd | ⟨-, content, hcontent, hsha⟩⟩ := serve_hash_of b hashParams_hashes w.id f.fault
    (agentAfter b.serve pre s.world.agent) (r := b.serve f.fault f.text f.payload (agentAfter b.serve pre s.world.agent))
    (by rw [Sent.text, ha.of_msg, ha.of_payload, requestText])
  · have hdr := ha.replied.decodes
    rw [hl] at hdr
    cases hdr
    exact absurd herr hd
  · have hdr := ha.replied.decodes
    rw [hl] at hdr
    cases hdr
    have hsame : w.agent = agentAfter b.serve pre s.world.agent := by
      rw [ha.agent, agentAfter_append]
      show agentStep b.serve _ f = _
      rw [agentStep, if_pos ha.replied.delivered, hst]
    refine ⟨content, ⟨pre, f, ha.log, ha.agent, ?_, ?_, ?_⟩, hsha⟩
    · exact Guards.not_restarts (commands_of_call ha.of_call) (by decide)
    · exact ⟨ha.of_kind, command_of_msg ha.of_msg, ⟨ha.replied.delivered, ha.replied.answered⟩, hcontent⟩
    · rw [hsame]
      exact hcontent

theorem sameHash_ends (want : PyStr) (h : PyDict) :
    Ends (sameHash want h) s (fun same s' => s' = s ∧ (same = true → dictGet h (py "sha256") = some (.str want)))
      (fun _ s' => s' = s) := by
  unfold sameHash
  split
  · exact (Prog.ends_throw _).2 rfl
  · rename_i v hv
    refine (Prog.ends_pure _).2 ⟨rfl, fun hsame => ?_⟩
    rw [hv, of_decide_eq_true hsame]

theorem digest_eq {sha256 : Guards.Sha256} {data : Bytes} (hinj : ∀ c, sha256 c = sha256 data → c = data)
    (h : digestText sha256 content = digestText sha256 data) : content = data :=
  hinj content (Subtype.ext (Guards.hexdigest_injective h))

/-- **The first hash of a try**: whether it fails or not, all is read, and the module is the image where it says so. -/
theorem upToDate_ends {data : Bytes} (hinj : ∀ c, b.sha256 c = b.sha256 data → c = data) (hs : AllRead s.world) :
    Ends (upToDate hmacHex b sched cfg (digestText b.sha256 data)) s
      (fun same s' => AllRead s'.world ∧ (same = true → HashedLast b data s s')) (fun _ _ => True) := by
  have hpass : ∀ (e : Failure) (s1 : Session), (e.caught = true → AllRead s1.world) →
      Ends (if e.caught then return false else throw e : Prog Session Failure Bool) s1
        (fun same s' => AllRead s'.world ∧ (same = true → HashedLast b data s s')) (fun _ _ => True) := by
    intro e s1 h1
    split
    · rename_i hcaught
      exact (Prog.ends_pure _).2 ⟨h1 hcaught, fun h => by cases h⟩
    · exact (Prog.ends_throw _).2 trivial
  unfold upToDate
  rw [Prog.ends_tryCatch, Prog.ends_bind]
  refine (hash_ends hs).mono (fun h s1 h1 => ?_) (fun e s1 h1 => hpass e s1 h1)
  obtain ⟨hread, content, hhashed, hsha⟩ := h1
  refine (sameHash_ends _ h).mono (fun same s2 h2 => ?_) (fun e s2 h2 => ?_)
  · obtain ⟨rfl, hsame⟩ := h2
    refine ⟨hread, fun htrue => ?_⟩
    rw [hsha, Option.some.injEq, PyJson.str.injEq] at hsame
    rwa [← digest_eq hinj (hsame htrue)]
  · rw [h2]
    exact hpass e s1 fun _ => hread

/-- **The hash after the upload.** -/
theorem verify_ends {data : Bytes} (hinj : ∀ c, b.sha256 c = b.sha256 data → c = data) (hs : AllRead s.world) :
    Ends (verify hmacHex b sched cfg (digestText b.sha256 data)) s (fun _ s' => HashedLast b data s s')
      (fun _ _ => True) := by
  unfold verify
  rw [Prog.ends_bind]
  refine (hash_ends hs).mono (fun h s1 h1 => ?_) (fun _ _ _ => trivial)
  obtain ⟨-, content, hhashed, hsha⟩ := h1
  rw [Prog.ends_bind]
  refine (sameHash_ends _ h).mono (fun same s2 h2 => ?_) (fun _ _ _ => trivial)
  obtain ⟨rfl, hsame⟩ := h2
  split
  · rename_i htrue
    rw [hsha, Option.some.injEq, PyJson.str.injEq] at hsame
    rw [Prog.ends_pure, ← digest_eq hinj (hsame htrue)]
    exact hhashed
  · split
    · exact (Prog.ends_throw _).2 trivial
    · exact (Prog.ends_throw _).2 trivial

theorem writeLoop_read (path : PyStr) (data : Bytes) : ∀ n offset, data.length - offset < n → ∀ {s : Session},
    AllRead s.world → Ends (writeLoop cfg hmacHex b sched.calls path data offset) s (fun _ s' => AllRead s'.world)
      (fun _ _ => True)
  | 0, _, hn, _, _ => absurd hn (Nat.not_lt_zero _)
  | n + 1, offset, hn, s, hs => by
    rw [writeLoop]
    by_cases hgo : offset < data.length ∨ offset = 0
    · rw [if_pos hgo]
      dsimp only
      rw [Prog.ends_bind]
      refine callNext_of_call ((call_read hmacHex _ _ _ (sched.calls s.turn) hs).mono (fun r w h => ?_)
        (fun _ _ _ => trivial))
      by_cases hpart : (data.drop offset).take chunk = []
      · rw [if_pos hpart, Prog.ends_pure]
        exact h.1
      · rw [if_neg hpart]
        have hpos := List.length_pos_of_ne_nil hpart
        refine writeLoop_read path data n _ ?_ h.1
        rw [List.length_take, List.length_drop] at hpos ⊢
        omega
    · rw [if_neg hgo, Prog.ends_pure]
      exact hs

/-- **`write_file` leaves nothing unread** when it returns. -/
theorem clientWriteFile_read (path : PyStr) (data : Bytes) (hs : AllRead s.world) :
    Ends (clientWriteFile cfg hmacHex b sched.calls path data) s (fun _ s' => AllRead s'.world) (fun _ _ => True) := by
  rw [clientWriteFile, Prog.ends_bind]
  exact (writeLoop_read path data _ 0 (Nat.lt_succ_self _) hs).mono (fun _ _ h => (Prog.ends_pure _).2 h) (fun _ _ h => h)

/-- **Each try begins with a client of its own.** -/
theorem fromEnv_ends (environ : Environ) (s : Session) :
    Ends (fromEnv environ) s (fun _ s' => AllRead s'.world) (fun _ _ => True) := by
  unfold fromEnv
  split
  · exact (Prog.ends_throw _).2 trivial
  · rw [Prog.ends_bind, Prog.ends_modify, Prog.ends_pure]
    exact allRead_of_none rfl

/-- **A try that returns had the module hashed last, and it was the image.** -/
theorem uploadAndVerify_ends (environ : Environ) {data : Bytes} (hinj : ∀ c, b.sha256 c = b.sha256 data → c = data)
    (s : Session) :
    Ends (uploadAndVerify environ hmacHex b sched data) s (fun _ s' => HashedLast b data s s') (fun _ s' => Quiet b s s') := by
  have hquiet : Ends (uploadAndVerify environ hmacHex b sched data) s (fun _ _ => True) (fun _ s' => Quiet b s s') :=
    (uploadAndVerify_moves environ data s).mono (fun _ _ _ => trivial) (fun _ _ h => h)
  have hhashed : Ends (uploadAndVerify environ hmacHex b sched data) s (fun _ s' => HashedLast b data s s')
      (fun _ _ => True) := by
    have hclose : ∀ {s1}, HashedLast b data s s1 →
        Ends (aclose sched) s1 (fun _ s' => HashedLast b data s s') (fun _ _ => True) := fun h1 =>
      (aclose_moves sched _).mono (fun _ _ h => h1.then h) (fun _ _ _ => trivial)
    have hfailed : ∀ {s1 : Session}, Ends (aclose sched) s1 (fun _ _ => True) (fun _ _ => True) :=
      ⟨fun _ => trivial, fun _ => trivial⟩
    unfold uploadAndVerify
    rw [Prog.ends_bind]
    have hopens : Moves (Quiet b) (fromEnv environ) := fromEnv_moves environ
    refine ((fromEnv_ends environ s).and (hopens s)).mono (fun cfg s1 h1 => ?_) (fun _ _ _ => trivial)
    obtain ⟨hread, hquiet⟩ := h1
    rw [Prog.ends_ensure, Prog.ends_bind]
    refine ((upToDate_ends hinj hread).and (upToDate_moves _ s1)).mono (fun same s2 h2 => ?_) (fun _ _ _ => hfailed)
    obtain ⟨⟨hread, hsame⟩, hquiet2⟩ := h2
    split
    · rename_i htrue
      exact (Prog.ends_pure _).2 (hclose ((hsame htrue).after hquiet))
    · rw [Prog.ends_bind]
      refine ends_onClient (((clientWriteFile_read remote data hread).and (clientWriteFile_moves remote data s2)).mono
        (fun _ s3 h3 => ?_) (fun _ _ _ => hfailed))
      obtain ⟨hread, hquiet3⟩ := h3
      refine (verify_ends hinj hread).mono (fun _ s4 h4 => hclose ?_) (fun _ _ _ => hfailed)
      exact ((h4.after hquiet3).after hquiet2).after hquiet
  exact (hhashed.and hquiet).mono (fun _ _ h => h.1) (fun _ _ h => h.2)

end

/-! ## Every restart that a run asks for -/

/-- What the frames before a restart show: the agent hashed the module and it was this; since then only restarts were asked for;
and at the first of them the module still is this. -/
structure Checked (b : Build) (st : Card) (data : Bytes) (before : List (Sent CardFault)) : Prop where
  hashed : ∃ pre f post, before = pre ++ f :: post ∧ Hashes (agentAfter b.serve pre st) data f ∧
    ∀ g ∈ post, g.kind = .command → Restarts g
  first : (∀ g ∈ before, ¬Restarts g) → (agentAfter b.serve before st).fileAt remote = some data

/-- An element that the first and the last part of a list do not have splits the middle one. -/
theorem split_between {α : Type} {R : α → Prop} {q l r before after : List α} {g : α} (hq : ∀ x ∈ q, ¬R x)
    (hr : ∀ x ∈ r, ¬R x) (hg : R g) (h : q ++ (l ++ r) = before ++ g :: after) :
    ∃ l1 l2, before = q ++ l1 ∧ l = l1 ++ g :: l2 := by
  have hmem : ∀ {l' : List α}, g :: after = l' ++ r → ∃ l2, l' = g :: l2 := by
    intro l' h
    cases l' with
    | nil => exact absurd hg (hr g (by rw [← List.nil_append r, ← h]; exact List.mem_cons_self))
    | cons x l' =>
      rw [List.cons_append, List.cons.injEq] at h
      exact ⟨l', by rw [h.1]⟩
  rcases List.append_eq_append_iff.1 h with ⟨a, hbefore, htail⟩ | ⟨c, hc, htail⟩
  · rcases List.append_eq_append_iff.1 htail with ⟨c, -, hc⟩ | ⟨c, hl, hc⟩
    · exact absurd hg (hr g (by rw [hc]; simp))
    · obtain ⟨l2, rfl⟩ := hmem hc
      exact ⟨a, l2, hbefore, hl⟩
  · cases c with
    | nil =>
      obtain ⟨l2, rfl⟩ := hmem (by rw [htail, List.nil_append])
      exact ⟨[], l2, by rw [hc, List.append_nil, List.append_nil], rfl⟩
    | cons x c =>
      rw [List.cons_append, List.cons.injEq] at htail
      exact absurd hg (hq g (by rw [hc, htail.1]; simp))

section
variable {b : Build}

theorem files_handshakes : ∀ (l : List (Sent CardFault)) (st : Card), (∀ g ∈ l, ∃ token, IsHandshake token g) →
    (agentAfter b.serve l st).files = st.files
  | [], _, _ => rfl
  | f :: l, st, hl => by
    rw [← List.singleton_append (l := l), agentAfter_append,
      files_handshakes l _ fun g hg => hl g (List.mem_cons_of_mem f hg)]
    show (agentStep b.serve st f).files = st.files
    unfold agentStep
    split
    · obtain ⟨token, hf⟩ := hl f List.mem_cons_self
      exact serve_handshake b hf st
    · rfl

theorem OfRestart.handshake {f : Sent CardFault} (hf : OfRestart f) (h : ¬Restarts f) : ∃ token, IsHandshake token f :=
  hf.resolve_right h

/-- **The restarts after a hash that was checked.** -/
theorem HashedLast.beforeRestart {data : Bytes} {s s1 s2 s3 : Session} (h : HashedLast b data s s1)
    (h1 : Does b OfRestart s1 s2) (h2 : Quiet b s2 s3) :
    BeforeRestart s.world s3.world (Checked b s.world.agent data) := by
  obtain ⟨pre, f, hlog, hagent, hquiet, hf, hfile⟩ := h
  obtain ⟨l, hlog1, -, hl⟩ := h1
  obtain ⟨r, hlog2, -, hr⟩ := h2
  refine ⟨(pre ++ [f]) ++ (l ++ r), ?_, fun before g after hnew hg => ?_⟩
  · rw [hlog2, hlog1, hlog, List.append_assoc, List.append_assoc]
  · obtain ⟨l1, l2, rfl, rfl⟩ := split_between hquiet hr hg hnew
    refine ⟨⟨pre, f, l1, by rw [List.append_assoc]; rfl, hf, fun x hx hk => ?_⟩, fun hno => ?_⟩
    · rcases hl x (List.mem_append_left _ hx) with ⟨token, hx⟩ | hx
      · exact absurd hk hx.kind_ne
      · exact hx
    · rw [agentAfter_append, ← hagent, fileAt_congr (files_handshakes l1 _ fun x hx => ?_), hfile]
      exact (hl x (List.mem_append_left _ hx)).handshake (hno x (List.mem_append_right _ hx))

end

/-- **A run of the script**, however its calls, its sleeps and the agent's card fail: each restart that it asks for comes after
the agent hashed the module and it was the image, with nothing but earlier restarts asked for in between, and never with
`--no-reboot`; with it, when the script returns the module is the image. -/
theorem restart_verified (environ : Environ) (hmacHex : Bytes → Bytes → PyStr) (b : Build) (sched : Schedule)
    (noReboot : Bool) (image : Option Bytes) (hinj : ∀ data, image = some data → ∀ c, b.sha256 c = b.sha256 data → c = data)
    (s : Session) :
    Ends (main environ hmacHex b sched noReboot image) s
      (fun _ s' => BeforeRestart s.world s'.world (fun before => noReboot = false ∧ ∃ data, image = some data ∧
          Checked b s.world.agent data before) ∧
        (noReboot = true → ∃ data, image = some data ∧ s'.world.agent.fileAt remote = some data))
      (fun _ s' => BeforeRestart s.world s'.world (fun before => noReboot = false ∧ ∃ data, image = some data ∧
          Checked b s.world.agent data before)) := by
  have hquiet : ∀ {P : List (Sent CardFault) → Prop} {s' : Session}, Quiet b s s' → BeforeRestart s.world s'.world P := by
    rintro P s' ⟨new, hlog, -, hnew⟩
    exact Guards.beforeRestart_quiet hlog hnew
  unfold main
  split
  · exact (Prog.ends_throw _).2 (hquiet (does_refl s))
  · rename_i data
    rw [Prog.ends_bind]
    have hupload : Ends (withRetry sched (uploadAndVerify environ hmacHex b sched data) "upload" 40) s
        (fun _ s' => HashedLast b data s s') (fun _ s' => Quiet b s s') :=
      Prog.ends_retry (T := fun s _ s' => HashedLast b data s s') does_refl does_trans
        (fun _ _ _ _ h h' => h'.after h) (uploadAndVerify_ends environ (hinj data rfl)) _ (sleep_moves sched _) _ 40 1 s
    refine hupload.mono (fun _ s1 h1 => ?_) (fun _ _ h => hquiet h)
    split
    · rename_i hno
      rw [Prog.ends_pure]
      obtain ⟨pre, f, hlog, hagent, hq, hf, hfile⟩ := h1
      exact ⟨Guards.beforeRestart_quiet hlog hq, fun _ => ⟨data, rfl, hfile⟩⟩
    · rename_i hno
      have hdone : ∀ {s2 s3 : Session}, Does b OfRestart s1 s2 → Quiet b s2 s3 → BeforeRestart s.world s3.world
          (fun before => noReboot = false ∧ ∃ d, some data = some d ∧ Checked b s.world.agent d before) := by
        intro s2 s3 h2 h3
        obtain ⟨new, hlog, hall⟩ := h1.beforeRestart h2 h3
        exact ⟨new, hlog, fun before f after hnew hf => ⟨by simpa using hno, data, rfl, hall before f after hnew hf⟩⟩
      rw [Prog.ends_bind]
      refine (withRetry_moves (restart_moves environ) _ _ s1).mono (fun _ s2 h2 => ?_) (fun _ s2 h2 => ?_)
      · exact (afterRestart_moves environ s2).mono (fun _ s3 h3 => ⟨hdone h2 h3, fun h => absurd h hno⟩)
          (fun _ s3 h3 => hdone h2 h3)
      · exact hdone h2 (does_refl s2)

/-! ## A run -/

/-- An image of one chunk is uploaded in one call. -/
theorem uploadAndVerify_small {environ : Environ} {hmacHex : Bytes → Bytes → PyStr} {b : Build} {sched : Schedule}
    {data : Bytes} (hne : data ≠ []) (hlen : data.length ≤ chunk) :
    uploadAndVerify environ hmacHex b sched data = (do
      let cfg ← fromEnv environ
      Prog.ensure (do
        if ← upToDate hmacHex b sched cfg (digestText b.sha256 data) then return ()
        else
          let _ ← onClient (do
            let _ ← callNext cfg hmacHex b sched.calls (py "fs.write") data (writeParams remote 0)
            return data.length)
          verify hmacHex b sched cfg (digestText b.sha256 data)) (aclose sched)) := by
  unfold uploadAndVerify
  simp only [clientWriteFile_small hne hlen]

/-- The environment, with the default port. -/
def switchEnviron : Environ := ⟨some (py "switch"), none, some (py "k")⟩

/-- A build whose other commands answer with what the script reads of `agent.info` and `read_log`. -/
def infoBuild : Build := { Guards.letterBuild with
  others := fun _ _ _ st =>
    ((true, (({} : Reply).set "agent_version" (.string (str "0.2.0"))).set "content" (.string [])), st) }

/-- The letter A is deployed to an empty card, and nothing fails. -/
def letterRun : Except Failure Unit × Session :=
  (main switchEnviron noHash infoBuild ⟨sampleScripts (answeredWith .none (storing chunk)), fun _ => dropped, fun _ _ => false⟩
    false (some [65])).exec (sampleSession noFiles)

theorem restart_verified_letter : letterRun.1.isOk = true ∧
    (letterRun.2.world.log.filter fun f => decide (f.kind = .command)).filterMap Sent.command =
      ["fs.hash", "fs.write", "fs.hash", "agent.restart", "agent.info", "input", "input", "read_log"].map
        (fun cmd => .str (py cmd)) ∧
    BeforeRestart (sampleSession noFiles).world letterRun.2.world (fun before => false = false ∧
      ∃ data, some [65] = some data ∧ Checked infoBuild (sampleSession noFiles).world.agent data before) := by
  rw [← and_assoc]
  constructor
  · unfold letterRun main
    dsimp only
    rw [uploadAndVerify_small (List.cons_ne_nil _ _) (by decide)]
    decide +kernel
  · have hinj : ∀ data, some [65] = some data → ∀ c, infoBuild.sha256 c = infoBuild.sha256 data → c = data := by
      intro data hdata c hc
      obtain rfl := Option.some.inj hdata
      exact Guards.letterSha_letter c hc
    have h := restart_verified switchEnviron noHash infoBuild
      ⟨sampleScripts (answeredWith .none (storing chunk)), fun _ => dropped, fun _ _ => false⟩ false (some [65]) hinj
      (sampleSession noFiles)
    rcases hrun : letterRun with ⟨e | r, s'⟩
    · exact h.error hrun
    · exact (h.ok hrun).1

end Deploy
end SwitchMcp

import SwitchMcp.CallErrors
import SwitchMcp.HostTools
import SwitchMcp.Replay
import SwitchMcp.Transfer
/-!
# UpdateAgent — what is checked before the agent is restarted (tools/system.py, `update_agent`)

The tool over the client and the agent as they are: the confirmation, the upload in chunks, the hash on the console, the
restart.  `restart_checked` is about every run from a client that has read all, whatever goes wrong during it.  Another client
reads the reply to another request as that to its hash: without a digest, it is taken for an agent that has no `fs.hash`.
-/
namespace SwitchMcp
namespace Guards

open Agent
open Json (toPy)
open PyJson (dictGet)
open Prog (Ends)

section
variable (cfg : ClientConfig) (hmacHex : Bytes → Bytes → PyStr) (b : Build) (scripts : Nat → CallScript CardFault)
  (readFile : PyStr → Prog Session Raised Bytes)

/-- The client, for the tools. -/
def agentClient : SwitchClient Session Raised where
  call := callNext cfg hmacHex b scripts
  readFile := readFile
  writeFile := clientWriteFile cfg hmacHex b scripts
  code e := e.exc.code

end

/-! ## What is to hold before a restart -/

/-- A frame that asks for the restart. -/
def Restarts (f : Sent CardFault) : Prop := f.kind = .command ∧ f.command = some (.str (py "agent.restart"))

/-- What `update_agent` uploads: the name and the content of the local file. -/
def Uploads (h : Host) (env : ServerEnv) (path name : PyStr) (data : Bytes) : Prop :=
  ∃ q, resolveLocalPath h env path false = .ok q ∧ name = HostPath.name ⟨true, q⟩ ∧
    (h.openAt ⟨true, q⟩ false).bind h.contentAt = some data

/-- The token was issued for this effect. -/
def IssuedFor (env : Process) (confirmations : List Call) (confirm : Option PyStr) (detail : PyStr) : Prop :=
  ∃ before i after k, confirmations = before ++ i :: after ∧ confirm = some k ∧ i.detail = detail ∧
    outcome env before i = .blocked (.issued i.operation detail k)

/-- The agent was asked for the hash of its module: what it had was the data, or it answered that it knows no `fs.hash`. -/
structure Checked (b : Build) (st : Card) (data : Bytes) (f : Sent CardFault) : Prop where
  kind : f.kind = .command
  msg : ∃ id, f.msg = roundtripMsg id (callMsg (py "fs.hash") (hashParams agentPath)) []
  answered : f.delivered = true ∧ f.answered = true
  known : st.fileAt agentPath = some data ∨ ∃ d message,
    PyJson.loads (b.serve f.fault f.text f.payload st).1.text = some (.dict d) ∧
      checkError d = .error (.clientError unknownCommand message)

/-- What the frames before a restart are to show: they carried the chunks of the local file and no other bytes, the token was
issued for these, and the hash was checked. -/
def Permitted (b : Build) (proc : ServerProcess) (path : PyStr) (confirm : Option PyStr) (s : ToolState Session)
    (before : List (Sent CardFault)) : Prop :=
  ∃ name data, Uploads s.host proc.env path name data ∧ Sends agentPath data (ChunkOf data) before ∧
    IssuedFor proc.guard s.confirmations confirm (updateDetail proc.guard.sha256 name data) ∧
    ∃ pre f post, before = pre ++ f :: post ∧ Checked b (agentAfter b.serve pre s.device.world.agent) data f

/-- Before each restart that a run asks for, `P` holds of the frames before it. -/
def BeforeRestart (w w' : World Card CardFault) (P : List (Sent CardFault) → Prop) : Prop :=
  ∃ new, w'.log = w.log ++ new ∧ ∀ before f after, new = before ++ f :: after → Restarts f → P before

theorem not_restarts {cmd : PyStr} {l : List (Sent CardFault)} (h : Commands cmd l) (hne : cmd ≠ py "agent.restart") :
    ∀ f ∈ l, ¬Restarts f := by
  intro f hf hr
  have hc := h f hf hr.1
  rw [hr.2, Option.some.injEq, PyJson.str.injEq] at hc
  exact hne hc.symm

theorem beforeRestart_quiet {w w' : World Card CardFault} {P : List (Sent CardFault) → Prop} {new : List (Sent CardFault)}
    (hlog : w'.log = w.log ++ new) (h : ∀ f ∈ new, ¬Restarts f) : BeforeRestart w w' P :=
  ⟨new, hlog, fun before f after hnew hr => absurd hr (h f (by rw [hnew]; simp))⟩

/-- What holds after frames that ask for no restart holds before the restarts after them. -/
theorem beforeRestart_append {w w' : World Card CardFault} {P : List (Sent CardFault) → Prop}
    {l l' : List (Sent CardFault)} (hlog : w'.log = w.log ++ (l ++ l')) (h : ∀ f ∈ l, ¬Restarts f)
    (hP : ∀ r, r <+: l' → P (l ++ r)) : BeforeRestart w w' P := by
  refine ⟨l ++ l', hlog, fun before f after hnew hr => ?_⟩
  rcases List.append_eq_append_iff.1 hnew with ⟨r, rfl, hr'⟩ | ⟨r, hl, htail⟩
  · exact hP r ⟨_, hr'.symm⟩
  · cases r with
    | nil =>
      have hb := hP [] List.nil_prefix
      rwa [hl, List.append_nil, List.append_nil] at hb
    | cons g r =>
      rw [List.cons_append, List.cons.injEq] at htail
      exact absurd hr (h f (by rw [hl, htail.1]; simp))

/-! ## Digests -/

theorem hexdigest_injective : Function.Injective hexdigest := fun x y h =>
  hexBytes_injective (by rw [hexBytes_eq, hexBytes_eq, h])

theorem lower_hexdigest (d : Bytes) : lower (hexdigest d) = hexdigest d := by
  have hcp : ∀ n : Fin 16, (if 65 ≤ (hexCp n.val).val ∧ (hexCp n.val).val ≤ 90 then cp ((hexCp n.val).val + 32)
      else hexCp n.val) = hexCp n.val := by decide
  unfold hexdigest lower
  rw [List.map_flatMap]
  congr 1
  funext x
  have hx := x.toNat_lt
  rw [List.map_cons, List.map_singleton, hcp ⟨x.toNat / 16, by omega⟩, hcp ⟨x.toNat % 16, by omega⟩]

theorem truthy_hexdigest (sha256 : Sha256) (data : Bytes) : truthy (.str (hexdigest (sha256 data).val)) = true := by
  refine decide_eq_true fun h => ?_
  have hlen := congrArg List.length h
  rw [length_hexdigest, (sha256 data).property] at hlen
  cases hlen

/-! ## The steps of the tool -/

section
variable {ω ε α : Type}

theorem ends_onDevice {p : Prog ω ε α} {s : ToolState ω} {Q : α → ToolState ω → Prop}
    {E : ToolError ε → ToolState ω → Prop} (h : Ends p s.device (fun a d => Q a { s with device := d }) (fun e d => E (.client e) { s with device := d })) :
    Ends (onDevice p) s Q E := by
  rcases hx : p.exec s.device with ⟨e | a, d⟩
  · exact (Prog.ends_iff_error (by rw [onDevice, Prog.exec_of, hx])).2 (h.error hx)
  · exact (Prog.ends_iff_ok (by rw [onDevice, Prog.exec_of, hx])).2 (h.ok hx)

theorem ends_confirmStep (env : Process) (c : Call) (s : ToolState ω) :
    Ends (confirmStep env c : Prog (ToolState ω) (ToolError ε) Unit) s
      (fun _ s' => outcome env s.confirmations c = .proceeds ∧ s'.device = s.device) (fun _ s' => s'.device = s.device) := by
  unfold confirmStep
  constructor
  · intro _ s' h
    rw [Prog.exec_of] at h
    split at h
    · rename_i ho
      cases h
      exact ⟨ho, rfl⟩
    · cases h
    · cases h
  · intro _ s' h
    rw [Prog.exec_of] at h
    split at h
    · cases h
    · cases h
      rfl
    · cases h
      rfl

/-- The console and the confirmations are as they were. -/
def Untouched (s s' : ToolState ω) : Prop :=
  s'.device = s.device ∧ s'.confirmations = s.confirmations ∧ s'.host = s.host

theorem ends_resolvePath (env : ServerEnv) (path : PyStr) (s : ToolState ω) :
    Ends (resolvePath env path false : Prog (ToolState ω) (ToolError ε) HostPath) s
      (fun p s' => Untouched s s' ∧ ∃ q, resolveLocalPath s.host env path false = .ok q ∧ p = ⟨true, q⟩)
      (fun _ s' => Untouched s s') := by
  unfold resolvePath
  constructor
  · intro p s' h
    rw [Prog.exec_of] at h
    split at h
    · rename_i q hq
      cases h
      exact ⟨⟨rfl, rfl, rfl⟩, q, hq, rfl⟩
    · cases h
    · cases h
  · intro _ s' h
    rw [Prog.exec_of] at h
    split at h
    · cases h
    · cases h
      exact ⟨rfl, rfl, rfl⟩
    · cases h
      exact ⟨rfl, rfl, rfl⟩

theorem ends_readBytes (p : HostPath) (s : ToolState ω) :
    Ends (readBytes p : Prog (ToolState ω) (ToolError ε) Bytes) s
      (fun data s' => Untouched s s' ∧ (s.host.openAt p false).bind s.host.contentAt = some data)
      (fun _ s' => Untouched s s') := by
  unfold readBytes
  constructor
  · intro data s' h
    rw [Prog.exec_of] at h
    split at h
    · rename_i hdata
      cases h
      exact ⟨⟨rfl, rfl, rfl⟩, hdata⟩
    · cases h
  · intro _ s' h
    rw [Prog.exec_of] at h
    split at h
    · cases h
    · cases h
      exact ⟨rfl, rfl, rfl⟩

end

section
variable {cfg : ClientConfig} {hmacHex : Bytes → Bytes → PyStr} {b : Build} {scripts : Nat → CallScript CardFault}
  {readFile : PyStr → Prog Session Raised Bytes}

/-- What the tool has done before a call: frames without a restart. -/
structure Ready (b : Build) (w : World Card CardFault) (s : Session) (new : List (Sent CardFault)) : Prop where
  read : AllRead s.world
  log : s.world.log = w.log ++ new
  agent : s.world.agent = agentAfter b.serve new w.agent
  quiet : ∀ f ∈ new, ¬Restarts f

/-- The restart is asked for after these frames. -/
theorem restart_ends {w : World Card CardFault} {P : List (Sent CardFault) → Prop} (n : Nat) (verified : String)
    {s : ToolState Session} {new : List (Sent CardFault)} (hlog : s.device.world.log = w.log ++ new)
    (hquiet : ∀ f ∈ new, ¬Restarts f) (hP : ∀ r, Commands (py "agent.restart") r → P (new ++ r)) :
    Ends (restart (agentClient cfg hmacHex b scripts readFile) n verified) s
      (fun _ s' => BeforeRestart w s'.device.world P) (fun _ s' => BeforeRestart w s'.device.world P) := by
  have hend : ∀ d : Session, Logged (py "agent.restart") s.device d → BeforeRestart w d.world P := by
    rintro d ⟨l, hl, hcmd⟩
    refine beforeRestart_append (by rw [hl, hlog, List.append_assoc]) hquiet fun r hr => ?_
    exact hP r fun f hf => hcmd f (hr.subset hf)
  unfold restart
  rw [Prog.ends_bind]
  refine ends_onDevice ((callNext_logged (py "agent.restart") [] [] s.device).mono (fun _ d h => ?_) (fun _ d h => hend d h))
  exact (Prog.ends_pure _).2 (hend d h)

/-- The two ways in which the hash lets the restart through. -/
def Hashed (b : Build) (w : World Card CardFault) (v : PyJson) (l : List (Sent CardFault)) : Prop :=
  (v = .null ∧ ∀ data, ∃ pre f, l = pre ++ [f] ∧ Checked b (agentAfter b.serve pre w.agent) data f) ∨
  ∃ content, v = .str (hexdigest (b.sha256 content).val) ∧
    ∃ pre f, l = pre ++ [f] ∧ Checked b (agentAfter b.serve pre w.agent) content f

/-- **The hash on the console**: the digest of the module as it is, or nothing and the agent's answer that it knows no
`fs.hash`. -/
theorem hashRemote_ends {w : World Card CardFault} {s : ToolState Session} {new : List (Sent CardFault)}
    (h : Ready b w s.device new) :
    Ends (hashRemote (agentClient cfg hmacHex b scripts readFile)) s
      (fun v s' => ∃ l, s'.device.world.log = w.log ++ (new ++ l) ∧ Commands (py "fs.hash") l ∧ Hashed b w v (new ++ l))
      (fun _ s' => ∃ l, s'.device.world.log = w.log ++ l ∧ ∀ f ∈ l, ¬Restarts f) := by
  have hquiet : ∀ l, Commands (py "fs.hash") l → ∀ f ∈ new ++ l, ¬Restarts f := by
    intro l hl f hf
    rcases List.mem_append.1 hf with hf | hf
    · exact h.quiet f hf
    · exact not_restarts hl (by decide) f hf
  have hraises : Ends (callNext cfg hmacHex b scripts (py "fs.hash") [] (hashParams agentPath)) s.device (fun _ _ => True)
      (fun e s' => e.exc.code = some unknownCommand →
        Refused b.serve cfg (py "fs.hash") [] (hashParams agentPath) s.device.world s'.world e.exc) :=
    callNext_of_call (call_raises hmacHex (knows_serve b) (scripts s.device.turn) h.read)
  unfold hashRemote
  rw [Prog.ends_tryCatch, Prog.ends_bind]
  refine ends_onDevice (((callNext_ends (by decide) [] (hashParams agentPath) h.read).and hraises).and
    (callNext_logged (py "fs.hash") [] (hashParams agentPath) s.device) |>.mono (fun r d h' => ?_) (fun e d h' => ?_))
  · obtain ⟨⟨⟨-, ⟨pre, f, ha⟩, herr⟩, -⟩, -⟩ := h'
    obtain ⟨-, dict, hl, hd | ⟨-, content, hcontent, hsha⟩⟩ := serve_hash b d.world.id agentPath f.fault
      (agentAfter b.serve pre s.device.world.agent) (r := b.serve f.fault f.text f.payload
        (agentAfter b.serve pre s.device.world.agent)) (by rw [Sent.text, ha.of_msg, ha.of_payload, requestText])
    · have hdr := ha.replied.decodes
      rw [hl] at hdr
      cases hdr
      exact absurd herr hd
    · have hdr := ha.replied.decodes
      rw [hl] at hdr
      cases hdr
      rw [h.agent, ← agentAfter_append] at hcontent
      have hdigest : digestOf r.1 = .str (hexdigest (b.sha256 content).val) := by
        rw [digestOf, hsha]
        exact if_pos (truthy_hexdigest b.sha256 content)
      rw [Prog.ends_pure]
      refine ⟨pre ++ [f], by rw [ha.log, h.log, List.append_assoc], commands_of_call ha.of_call, Or.inr
        ⟨content, hdigest, new ++ pre, f, (List.append_assoc _ _ _).symm, ?_⟩⟩
      exact ⟨ha.of_kind, ⟨_, ha.of_msg⟩, ⟨ha.replied.delivered, ha.replied.answered⟩, Or.inl hcontent⟩
  · obtain ⟨⟨-, hrefused⟩, l, hlog, hl⟩ := h'
    have hlast : ∃ l, d.world.log = w.log ++ l ∧ ∀ f ∈ l, ¬Restarts f :=
      ⟨new ++ l, by rw [hlog, h.log, List.append_assoc], hquiet l hl⟩
    unfold withoutHash
    dsimp only
    split
    · rename_i hcode
      obtain ⟨r, ⟨pre, f, ha⟩, herr⟩ := hrefused hcode
      rw [Prog.ends_pure]
      refine ⟨pre ++ [f], by rw [ha.log, h.log, List.append_assoc], commands_of_call ha.of_call, Or.inl
        ⟨rfl, fun data => ⟨new ++ pre, f, (List.append_assoc _ _ _).symm, ?_⟩⟩⟩
      refine ⟨ha.of_kind, ⟨_, ha.of_msg⟩, ⟨ha.replied.delivered, ha.replied.answered⟩, Or.inr ?_⟩
      obtain ⟨exc, stage⟩ := e
      cases exc with
      | clientError code message =>
        cases hcode
        rw [agentAfter_append, ← h.agent]
        exact ⟨r.1, message, ha.replied.decodes, herr⟩
      | _ => cases hcode
    · exact (Prog.ends_throw _).2 hlast

/-- **After the upload, the restart comes after a hash that was checked.** -/
theorem verifyAndRestart_ends {proc : ServerProcess} (hsha : proc.guard.sha256 = b.sha256) {data : Bytes}
    (hinj : ∀ c, b.sha256 c = b.sha256 data → c = data) {w : World Card CardFault} {s : ToolState Session}
    {new : List (Sent CardFault)} (h : Ready b w s.device new) (hsent : Sends agentPath data (ChunkOf data) new)
    {P : List (Sent CardFault) → Prop} (hP : ∀ pre f r, Sends agentPath data (ChunkOf data) (pre ++ f :: r) →
      Checked b (agentAfter b.serve pre w.agent) data f → P (pre ++ f :: r)) :
    Ends (verifyAndRestart (agentClient cfg hmacHex b scripts readFile) proc data) s
      (fun _ s' => BeforeRestart w s'.device.world P) (fun _ s' => BeforeRestart w s'.device.world P) := by
  have hchecked : ∀ {l}, Commands (py "fs.hash") l →
      (∃ pre f, new ++ l = pre ++ [f] ∧ Checked b (agentAfter b.serve pre w.agent) data f) →
      ∀ r, Commands (py "agent.restart") r → P (new ++ l ++ r) := by
    rintro l hl ⟨pre, f, hnew, hf⟩ r hr
    have hall : Sends agentPath data (ChunkOf data) (new ++ l ++ r) := (hsent.other hl (by decide)).other hr (by decide)
    rw [hnew, List.append_assoc] at hall ⊢
    exact hP pre f r hall hf
  have hquiet : ∀ {l}, Commands (py "fs.hash") l → ∀ f ∈ new ++ l, ¬Restarts f := fun hl f hf =>
    (List.mem_append.1 hf).elim (h.quiet f) (not_restarts hl (by decide) f)
  unfold verifyAndRestart
  rw [Prog.ends_bind]
  refine (hashRemote_ends h).mono (fun v s1 h1 => ?_) (fun _ s1 h1 => ?_)
  · obtain ⟨l, hlog, hcmd, ⟨rfl, hl⟩ | ⟨content, rfl, hl⟩⟩ := h1
    · rw [if_neg (by decide)]
      exact restart_ends _ _ hlog (hquiet hcmd) (hchecked hcmd (hl data))
    · rw [if_pos (truthy_hexdigest _ _)]
      dsimp only
      split
      · exact (Prog.ends_pure _).2 (beforeRestart_quiet hlog (hquiet hcmd))
      · rename_i hsame
        rw [lower_hexdigest, digestText, hsha, not_not] at hsame
        obtain rfl := hinj content (Subtype.ext (hexdigest_injective hsame))
        exact restart_ends _ _ hlog (hquiet hcmd) (hchecked hcmd hl)
  · obtain ⟨l, hlog, hquiet⟩ := h1
    exact beforeRestart_quiet hlog hquiet

theorem confirmAndUpdate_ends {proc : ServerProcess} (hd : proc.guard.allowDestructive = none)
    (hsha : proc.guard.sha256 = b.sha256) {name : PyStr} {data : Bytes} (hlen : data.length < 2 ^ 63)
    (hinj : ∀ c, b.sha256 c = b.sha256 data → c = data) {confirm : Option PyStr} (at_ : Moment) {s : ToolState Session}
    (hs : AllRead s.device.world) {P : List (Sent CardFault) → Prop}
    (hP : IssuedFor proc.guard s.confirmations confirm (updateDetail proc.guard.sha256 name data) →
      ∀ pre f r, Sends agentPath data (ChunkOf data) (pre ++ f :: r) →
        Checked b (agentAfter b.serve pre s.device.world.agent) data f → P (pre ++ f :: r)) :
    Ends (confirmAndUpdate (agentClient cfg hmacHex b scripts readFile) proc name confirm at_ data) s
      (fun _ s' => BeforeRestart s.device.world s'.device.world P)
      (fun _ s' => BeforeRestart s.device.world s'.device.world P) := by
  unfold confirmAndUpdate
  rw [Prog.ends_bind]
  refine (ends_confirmStep _ _ s).mono (fun _ s1 h1 => ?_) (fun _ s1 h1 => ?_)
  · obtain ⟨hproceeds, hdev⟩ := h1
    obtain ⟨k, _, before, i, after, hk, hw, -⟩ := waits_of_proceeds hd hproceeds
    have hissued : IssuedFor proc.guard s.confirmations confirm (updateDetail proc.guard.sha256 name data) :=
      ⟨before, i, after, k, hw.run, hk, hw.detail, hw.issued⟩
    have h0 : WriteProgress b agentPath data s.device.world 0 s1.device [] := by
      rw [hdev]
      exact ⟨hs, (List.append_nil _).symm, rfl, fun p hp => (nomatch hp), fun h => absurd rfl h, Or.inl rfl,
        fun f hf => (nomatch hf)⟩
    rw [Prog.ends_bind]
    refine ends_onDevice ?_
    show Ends (clientWriteFile cfg hmacHex b scripts agentPath data) s1.device _ _
    rw [clientWriteFile, Prog.ends_bind]
    refine (writeLoop_ends hlen _ 0 (Nat.lt_succ_self _) (Nat.zero_le _) (Or.inl (Nat.dvd_zero _)) h0 sends_nil).mono
      (fun _ d h2 => ?_) (fun _ d h2 => ?_)
    · obtain ⟨new, h2, -, hsent⟩ := h2
      rw [Prog.ends_pure]
      have hready : Ready b s.device.world d new :=
        ⟨h2.read, h2.log, h2.agent, not_restarts h2.commands (by decide)⟩
      exact verifyAndRestart_ends hsha hinj hready hsent (hP hissued)
    · obtain ⟨new, hlog, hnew⟩ := h2
      exact beforeRestart_quiet hlog (not_restarts hnew (by decide))
  · rw [h1]
    exact beforeRestart_quiet (List.append_nil _).symm fun f hf => (nomatch hf)

/-- **A run of `update_agent` from a client that has read all**: before any restart that it asks for, the chunks of the local
file were sent to the agent's module, each answered, and nothing else was; the token was issued for the name, the length and
the digest of these bytes; and the module was these bytes when the agent hashed it, or the agent answered that it knows no
`fs.hash`. -/
theorem restart_checked (cfg : ClientConfig) (hmacHex : Bytes → Bytes → PyStr) (b : Build)
    (scripts : Nat → CallScript CardFault) (readFile : PyStr → Prog Session Raised Bytes) (proc : ServerProcess)
    (path : PyStr) (confirm : Option PyStr) (at_ : Moment) (hd : proc.guard.allowDestructive = none)
    (hsha : proc.guard.sha256 = b.sha256) {s : ToolState Session} (hs : AllRead s.device.world)
    (hdata : ∀ name data, Uploads s.host proc.env path name data →
      data.length < 2 ^ 63 ∧ ∀ c, b.sha256 c = b.sha256 data → c = data) :
    BeforeRestart s.device.world
      ((updateAgent (agentClient cfg hmacHex b scripts readFile) proc path confirm at_).exec s).2.device.world
      (Permitted b proc path confirm s) := by
  have hquiet : ∀ {s' : ToolState Session}, Untouched s s' →
      BeforeRestart s.device.world s'.device.world (Permitted b proc path confirm s) := by
    intro s' h
    rw [h.1]
    exact beforeRestart_quiet (List.append_nil _).symm fun f hf => (nomatch hf)
  have hrun : Ends (updateAgent (agentClient cfg hmacHex b scripts readFile) proc path confirm at_) s
      (fun _ s' => BeforeRestart s.device.world s'.device.world (Permitted b proc path confirm s))
      (fun _ s' => BeforeRestart s.device.world s'.device.world (Permitted b proc path confirm s)) := by
    unfold updateAgent
    rw [Prog.ends_bind]
    refine (ends_resolvePath proc.env path s).mono (fun p s1 h1 => ?_) (fun _ s1 h1 => hquiet h1)
    obtain ⟨h1, q, hq, rfl⟩ := h1
    rw [Prog.ends_bind]
    refine (ends_readBytes _ s1).mono (fun data s2 h2 => ?_) (fun _ s2 h2 => ?_)
    · obtain ⟨h2, hread⟩ := h2
      rw [h1.2.2] at hread
      have hup : Uploads s.host proc.env path (HostPath.name ⟨true, q⟩) data := ⟨q, hq, rfl, hread⟩
      have hdev : s2.device = s.device := h2.1.trans h1.1
      have hconf : s2.confirmations = s.confirmations := h2.2.1.trans h1.2.1
      obtain ⟨hlen, hinj⟩ := hdata _ data hup
      have hs2 : AllRead s2.device.world := by rwa [hdev]
      rw [← hdev]
      refine confirmAndUpdate_ends hd hsha hlen hinj at_ hs2 fun hissued pre f r hsent hf => ?_
      rw [hconf] at hissued
      rw [hdev] at hf
      exact ⟨_, data, hup, hsent, hissued, pre, f, r, rfl, hf⟩
    · exact hquiet ⟨h2.1.trans h1.1, h2.2.1.trans h1.2.1, h2.2.2.trans h1.2.2⟩
  rcases hx : (updateAgent (agentClient cfg hmacHex b scripts readFile) proc path confirm at_).exec s with ⟨e | r, s'⟩
  · exact hrun.error hx
  · exact hrun.ok hx

end

/-! ## A run -/

/-- A hash function that tells the letter A from all else. -/
def letterSha : Sha256 := fun x => ⟨List.replicate 32 (if x = [65] then 1 else 0), List.length_replicate⟩

theorem letterSha_letter (c : Bytes) (h : letterSha c = letterSha [65]) : c = [65] := by
  by_contra hc
  have hd := congrArg Subtype.val h
  rw [letterSha, letterSha, if_neg hc] at hd
  cases hd

def letterBuild : Build := { sampleBuild with sha256 := letterSha }

theorem a_lt : 0 < 26 := by decide

theorem r_lt : 17 < 26 := by decide

/-- The file `/r/a`, which holds the letter A. -/
def moduleHost : Host :=
  ⟨plant (plant .empty [letter ⟨17, r_lt⟩] .dir) [letter ⟨17, r_lt⟩, letter ⟨0, a_lt⟩] (.file (.file [65])), [],
    Volume.entryAt_nil _, 8⟩

def moduleProcess : ServerProcess := ⟨rootedEnv, ⟨none, 7, letterSha⟩⟩

/-- The token was issued. -/
def moduleState (d : Session) : ToolState Session :=
  ⟨moduleHost, [⟨py "update_agent", updateDetail letterSha (py "a") [65], none, 0, py "0.5"⟩], d, []⟩

def moduleToken : Option PyStr := some (py "000000000000")

/-- `update_agent` for `/r/a`, over calls that go as the schedule says. -/
def updateRun (scripts : Nat → CallScript CardFault) (d : Session) : Except (ToolError Raised) PyStr × ToolState Session :=
  (updateAgent (agentClient sampleConfig noHash letterBuild scripts fun _ => pure []) moduleProcess (py "/r/a") moduleToken
    ⟨1, py "1.5"⟩).exec (moduleState d)

theorem module_resolved : resolveLocalPath moduleHost rootedEnv (py "/r/a") false = .ok [py "r", py "a"] := by decide

theorem module_read : (moduleHost.openAt ⟨true, [py "r", py "a"]⟩ false).bind moduleHost.contentAt = some [65] := by
  decide

/-- The client, as it writes a file of one chunk. -/
def oneChunkClient (scripts : Nat → CallScript CardFault) : SwitchClient Session Raised :=
  { agentClient sampleConfig noHash letterBuild scripts (fun _ => pure []) with
    writeFile := fun path data => do
      let _ ← callNext sampleConfig noHash letterBuild scripts (py "fs.write") data (writeParams path 0)
      return data.length }

theorem updateRun_eq (scripts : Nat → CallScript CardFault) (d : Session) : updateRun scripts d =
    (confirmAndUpdate (oneChunkClient scripts) moduleProcess (py "a") moduleToken ⟨1, py "1.5"⟩ [65]).exec
      { moduleState d with
        accesses := [.resolved (py "/r/a") false [py "r", py "a"], .opened ⟨true, [py "r", py "a"]⟩ false] } := by
  have hres : resolveLocalPath (moduleState d).host moduleProcess.env (py "/r/a") false = .ok [py "r", py "a"] :=
    module_resolved
  have hread : ((moduleState d).host.openAt ⟨true, [py "r", py "a"]⟩ false).bind (moduleState d).host.contentAt = some [65] :=
    module_read
  have hname : HostPath.name ⟨true, [py "r", py "a"]⟩ = py "a" := rfl
  unfold updateRun updateAgent
  rw [Prog.exec_bind, resolvePath, Prog.exec_of, hres]
  dsimp only
  rw [Prog.exec_bind, readBytes, Prog.exec_of]
  dsimp only
  rw [hread]
  dsimp only
  rw [hname]
  unfold confirmAndUpdate agentClient
  dsimp only
  rw [clientWriteFile_small (List.cons_ne_nil _ _) (by decide)]
  rfl

def goodScripts : Nat → CallScript CardFault := sampleScripts (answeredWith .none (storing chunk))

theorem module_uploads {name : PyStr} {data : Bytes} (h : Uploads moduleHost rootedEnv (py "/r/a") name data) :
    data = [65] := by
  obtain ⟨q, hq, -, hread⟩ := h
  obtain rfl : [py "r", py "a"] = q := Except.ok.inj (module_resolved.symm.trans hq)
  exact (Option.some.inj (module_read.symm.trans hread)).symm

theorem restart_checked_verified :
    (updateRun goodScripts (sampleSession noFiles)).1.toOption = some (updatedText 1 "verified") ∧
    BeforeRestart (sampleSession noFiles).world (updateRun goodScripts (sampleSession noFiles)).2.device.world
      (Permitted letterBuild moduleProcess (py "/r/a") moduleToken (moduleState (sampleSession noFiles))) := by
  refine ⟨by rw [updateRun_eq]; decide +kernel, ?_⟩
  refine restart_checked sampleConfig noHash letterBuild goodScripts (fun _ => pure []) moduleProcess (py "/r/a") moduleToken
    ⟨1, py "1.5"⟩ rfl rfl (sampleSession_allRead noFiles) fun name data h => ?_
  obtain rfl := module_uploads h
  exact ⟨by decide, letterSha_letter⟩

/-! ## A client with a reply unread -/

def fullScripts : Nat → CallScript CardFault := sampleScripts (answeredWith .none (storing 0))

/-- What a cancelled `ps` leaves: its reply, unread. -/
def cancelledSession : Session :=
  ((callNext sampleConfig noHash letterBuild (sampleScripts { answeredWith .none (storing 0) with head := .cancelled })
    (py "ps") [] []).exec (sampleSession noFiles)).2

/-- The frames of the run from there. -/
def cancelledFrames : List (Sent CardFault) := (updateRun fullScripts cancelledSession).2.device.world.log.drop 1

/-- The card when it is hashed. -/
def cancelledCard : Card := agentAfter letterBuild.serve (cancelledFrames.take 1) cancelledSession.world.agent

/-- Whether the agent took a command. -/
def takes (b : Build) (st : Card) (f : Sent CardFault) : Bool :=
  match PyJson.loads (b.serve f.fault f.text f.payload st).1.text with
  | some (.dict d) => (checkError d).isOk
  | _ => false

theorem not_takes {b : Build} {st : Card} {f : Sent CardFault} {d : PyDict} {e : Exc}
    (h : PyJson.loads (b.serve f.fault f.text f.payload st).1.text = some (.dict d)) (he : checkError d = .error e) :
    takes b st f = false := by
  rw [takes, h]
  dsimp only
  rw [he]
  rfl

theorem cancelled_frames : cancelledSession.world.log.length = 1 ∧ cancelledFrames.map Sent.command =
    [some (.str (py "fs.write")), some (.str (py "fs.hash")), some (.str (py "agent.restart"))] ∧
    cancelledFrames.map Sent.kind = [.command, .command, .command] ∧
    cancelledCard.fileAt agentPath = some [] ∧ cancelledFrames.map (takes letterBuild cancelledCard) = [true, true, true] := by
  rw [cancelledCard, cancelledFrames, updateRun_eq]
  decide +kernel

/-- **A client that reads another request's reply restarts the agent**, with an empty module and its hash unread. -/
theorem unread_reply_restarts :
    (updateRun fullScripts cancelledSession).1.toOption = some (updatedText 1 "UNVERIFIED (agent lacks fs.hash)") ∧
    cancelledCard.fileAt agentPath = some [] ∧
    ¬BeforeRestart cancelledSession.world (updateRun fullScripts cancelledSession).2.device.world
      (Permitted letterBuild moduleProcess (py "/r/a") moduleToken (moduleState cancelledSession)) := by
  obtain ⟨hone, hcmd, hkind, hfile, htakes⟩ := cancelled_frames
  refine ⟨by rw [updateRun_eq]; decide +kernel, hfile, ?_⟩
  obtain ⟨w, h, r, hf⟩ := List.length_eq_three.1 ((List.length_map _).symm.trans (congrArg List.length hcmd))
  rw [hf] at hcmd hkind htakes
  have hcard : cancelledCard = agentAfter letterBuild.serve [w] cancelledSession.world.agent := by
    rw [cancelledCard, hf]
    rfl
  rintro ⟨new, hlog, hall⟩
  have hnew : new = [w, h] ++ r :: [] := by
    rw [List.cons_append, List.singleton_append, ← hf, cancelledFrames, hlog, List.drop_append, hone,
      List.drop_of_length_le hone.le]
    rfl
  obtain ⟨name, data, ⟨q, hq, -, hread⟩, -, -, pre, f, post, hbefore, hf⟩ :=
    hall [w, h] r [] hnew ⟨(List.cons.inj (List.cons.inj (List.cons.inj hkind).2).2).1,
      (List.cons.inj (List.cons.inj (List.cons.inj hcmd).2).2).1⟩
  obtain rfl : [py "r", py "a"] = q := Except.ok.inj (module_resolved.symm.trans hq)
  obtain rfl : [65] = data := Option.some.inj (module_read.symm.trans hread)
  rcases pre with _ | ⟨x, _ | ⟨y, pre⟩⟩
  · -- The upload is no hash.
    obtain ⟨id, hmsg⟩ := hf.msg
    rw [List.nil_append, List.cons.injEq] at hbefore
    rw [← hbefore.1] at hmsg
    exact absurd ((List.cons.inj hcmd).1.symm.trans (command_of_msg hmsg)) (by decide +kernel)
  · simp only [List.cons_append, List.nil_append, List.cons.injEq] at hbefore
    obtain ⟨rfl, rfl, -⟩ := hbefore
    have hknown := hf.known
    rw [show (moduleState cancelledSession).device = cancelledSession from rfl, ← hcard, hfile] at hknown
    rcases hknown with hk | ⟨d, message, hl, he⟩
    · cases hk
    · have htrue := (List.cons.inj (List.cons.inj htakes).2).1
      rw [not_takes hl he] at htrue
      cases htrue
  · have hlen := congrArg List.length hbefore
    simp at hlen

end Guards
end SwitchMcp

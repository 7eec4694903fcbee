import SwitchMcp.Client
import SwitchMcp.LocalPaths
/-!
# HostTools — the tools that move host files (tools/fs.py, tools/system.py)

`fs_download`, `fs_upload`, `update_agent` and `album_download` over the host, the confirmations of the process and any
`SwitchClient`.  A run records what `resolve_local_path` returned and what was given to `open`.  `tool_guarded_iff` says when
every file that a tool opens is one that `resolve_local_path` returned for it, and lies inside the roots: `album_download`
opens its path itself.
-/
namespace SwitchMcp
namespace Guards

open Agent (Name truthy)
open PyJson (dictGet)

/-! ## The server -/

/-- `SwitchClient`: what a tool asks of the console. -/
structure SwitchClient (ω ε : Type) where
  call : PyStr → Bytes → PyDict → Prog ω ε (PyDict × Bytes)
  readFile : PyStr → Prog ω ε Bytes
  writeFile : PyStr → Bytes → Prog ω ε Nat
  /-- `e.code` of a `ClientError`. -/
  code : ε → Option PyJson

/-- What a run does with host paths. -/
inductive Access
  | resolved (path : PyStr) (forWrite : Bool) (q : List PyStr)
  | opened (p : HostPath) (forWrite : Bool)
deriving DecidableEq

/-- The host, the calls of `require_confirmation` so far, the console with the client's connection, and the record. -/
structure ToolState (ω : Type) where
  host : Host
  confirmations : List Call
  device : ω
  accesses : List Access

inductive ToolError (ε : Type)
  | blocked (message : PyStr)
  /-- An `OSError`, or an exception of pathlib. -/
  | host
  | client (e : ε)
  /-- `UnicodeEncodeError` or `AttributeError`. -/
  | value

/-- What the server reads from its process. -/
structure ServerProcess where
  env : ServerEnv
  guard : Process

/-- The file that `open(p)` reads, or overwrites or creates. -/
def Host.openAt (h : Host) (p : HostPath) (forWrite : Bool) : Option (List Name) :=
  h.opened forWrite (h.follow maxLinks ((h.base p).map Comp.name) (p.parts.map segOf))

theorem store_cwd {h : Host} {loc : List Name} (hf : h.tree.Free loc) (data : Bytes) :
    (h.tree.put loc (.file (.file data)) hf).entryAt (h.cwd.map Comp.name) = some .dir := by
  rw [Volume.entryAt_put, if_neg, h.cwd_dir]
  intro he
  exact hf.2.2 (he ▸ h.cwd_dir)

/-- A file with new content. -/
def Host.store (h : Host) (loc : List Name) (data : Bytes) : Option Host :=
  if hf : h.tree.Free loc then some ⟨h.tree.put loc (.file (.file data)) hf, h.cwd, store_cwd hf data, h.calls⟩ else none

section
variable {ω ε α : Type}

/-- What a tool awaits of its client. -/
def onDevice (p : Prog ω ε α) : Prog (ToolState ω) (ToolError ε) α := .of fun s =>
  match p.exec s.device with
  | (.ok a, d) => (.ok a, { s with device := d })
  | (.error e, d) => (.error (.client e), { s with device := d })

/-- `resolve_local_path`, in a tool. -/
def resolvePath (env : ServerEnv) (path : PyStr) (forWrite : Bool) : Prog (ToolState ω) (ToolError ε) HostPath := .of fun s =>
  match resolveLocalPath s.host env path forWrite with
  | .ok q => (.ok ⟨true, q⟩, { s with accesses := s.accesses ++ [.resolved path forWrite q] })
  | .error (.blocked m) => (.error (.blocked m), s)
  | .error .raised => (.error .host, s)

/-- The content of the file at a place. -/
def Host.contentAt (h : Host) (loc : List Name) : Option Bytes :=
  match h.tree.entryAt loc with
  | some (.file (.file data)) => some data
  | _ => none

/-- `p.read_bytes()`. -/
def readBytes (p : HostPath) : Prog (ToolState ω) (ToolError ε) Bytes := .of fun s =>
  match (s.host.openAt p false).bind s.host.contentAt with
  | some data => (.ok data, { s with accesses := s.accesses ++ [.opened p false] })
  | none => (.error .host, { s with accesses := s.accesses ++ [.opened p false] })

/-- `p.write_bytes(data)`. -/
def writeBytes (p : HostPath) (data : Bytes) : Prog (ToolState ω) (ToolError ε) Unit := .of fun s =>
  match (s.host.openAt p true).bind (fun loc => s.host.store loc data) with
  | some host => (.ok (), { s with host := host, accesses := s.accesses ++ [.opened p true] })
  | none => (.error .host, { s with accesses := s.accesses ++ [.opened p true] })

/-- `require_confirmation`, in a tool. -/
def confirmStep (env : Process) (c : Call) : Prog (ToolState ω) (ToolError ε) Unit := .of fun s =>
  match outcome env s.confirmations c with
  | .proceeds => (.ok (), { s with confirmations := s.confirmations ++ [c] })
  | .blocked r => (.error (.blocked r.message), { s with confirmations := s.confirmations ++ [c] })
  | .encodeError => (.error .value, { s with confirmations := s.confirmations ++ [c] })

end

/-! ## The tools -/

/-- The fields of `album_list` that name a file. -/
structure AlbumEntry where
  applicationId : PyStr
  year : Int
  month : Int
  day : Int
  hour : Int
  minute : Int
  second : Int
  id : Int
  contentType : Int
  storage : Int

def AlbumEntry.params (e : AlbumEntry) : PyDict := [(py "application_id", .str e.applicationId), (py "year", .int e.year),
  (py "month", .int e.month), (py "day", .int e.day), (py "hour", .int e.hour), (py "minute", .int e.minute),
  (py "second", .int e.second), (py "id", .int e.id), (py "content_type", .int e.contentType), (py "storage", .int e.storage)]

/-- The time that `require_confirmation` reads, and the text of the one that `_token_for` reads. -/
structure Moment where
  now : ℚ
  clock : PyStr

/-- `remote` of `update_agent`. -/
def agentPath : PyStr := py "/atmosphere/contents/420000000000AE57/exefs.nsp"

def digestText (sha256 : Sha256) (data : Bytes) : PyStr := hexdigest (sha256 data).val

/-- The detail that `update_agent` asks to confirm. -/
def updateDetail (sha256 : Sha256) (name : PyStr) (data : Bytes) : PyStr :=
  py "replace the on-device agent with " ++ name ++ py " (" ++ pyNat data.length ++ py " bytes, sha256 " ++
    (digestText sha256 data).take 16 ++ py "…) and reboot the console"

/-- `reply.get("sha256") or reply.get("hash")`. -/
def digestOf (reply : PyDict) : PyJson :=
  let first := (dictGet reply (py "sha256")).getD .null
  if truthy first then first else (dictGet reply (py "hash")).getD .null

def abortedText (digest remoteDigest : PyStr) : PyStr :=
  py "ABORTED — upload verification failed.\nlocal sha256:  " ++ digest ++ py "\ndevice sha256: " ++ remoteDigest ++
    py "\nThe console was NOT rebooted, so the running agent is untouched. Re-run update_agent to retry the upload."

def updatedText (n : Nat) (verified : String) : PyStr :=
  py "Uploaded " ++ pyNat n ++ py " bytes to " ++ agentPath ++ py " (" ++ py verified ++ py "); rebooting to load it."

section
variable {ω ε : Type} (client : SwitchClient ω ε) (proc : ServerProcess)

def fsDownload (remotePath localPath : PyStr) : Prog (ToolState ω) (ToolError ε) PyStr := do
  let dest ← resolvePath proc.env localPath true
  let data ← onDevice (client.readFile remotePath)
  writeBytes dest data
  return py "Downloaded " ++ pyNat data.length ++ py " bytes to " ++ pathText dest.parts

def fsUpload (localPath remotePath : PyStr) : Prog (ToolState ω) (ToolError ε) PyStr := do
  let src ← resolvePath proc.env localPath false
  let data ← readBytes src
  let _ ← onDevice (client.writeFile remotePath data)
  return py "Uploaded " ++ pyNat data.length ++ py " bytes to " ++ remotePath

/-- The `except` around the hash: an agent that does not know the command is taken for an old one. -/
def withoutHash (e : ToolError ε) : Prog (ToolState ω) (ToolError ε) PyJson :=
  match e with
  | .client e => if client.code e = some (.str (py "unknown_command")) then return .null else throw (.client e)
  | e => throw e

/-- The `try` around the hash; `None` is null. -/
def hashRemote : Prog (ToolState ω) (ToolError ε) PyJson :=
  tryCatch (do
    let r ← onDevice (client.call (py "fs.hash") [] [(py "path", .str agentPath), (py "algo", .str (py "sha256"))])
    return digestOf r.1) (withoutHash client)

def restart (n : Nat) (verified : String) : Prog (ToolState ω) (ToolError ε) PyStr := do
  let _ ← onDevice (client.call (py "agent.restart") [] [])
  return updatedText n verified

/-- `update_agent` after the upload. -/
def verifyAndRestart (data : Bytes) : Prog (ToolState ω) (ToolError ε) PyStr := do
  let remoteDigest ← hashRemote client
  if truthy remoteDigest then
    match remoteDigest with
    | .str d =>
      if lower d ≠ digestText proc.guard.sha256 data then return abortedText (digestText proc.guard.sha256 data) d
      else restart client data.length "verified"
    | _ => throw .value
  else restart client data.length "UNVERIFIED (agent lacks fs.hash)"

/-- `update_agent` after the file is read. -/
def confirmAndUpdate (name : PyStr) (confirm : Option PyStr) (at_ : Moment) (data : Bytes) :
    Prog (ToolState ω) (ToolError ε) PyStr := do
  confirmStep proc.guard ⟨py "update_agent", updateDetail proc.guard.sha256 name data, confirm, at_.now, at_.clock⟩
  let _ ← onDevice (client.writeFile agentPath data)
  verifyAndRestart client proc data

def updateAgent (localNspPath : PyStr) (confirm : Option PyStr) (at_ : Moment) : Prog (ToolState ω) (ToolError ε) PyStr := do
  let src ← resolvePath proc.env localNspPath false
  let data ← readBytes src
  confirmAndUpdate client proc src.name confirm at_ data

/-- `Path(local_path).expanduser()`. -/
def expandPath (env : ServerEnv) (path : PyStr) : Prog (ToolState ω) (ToolError ε) HostPath :=
  match (HostPath.ofText path).expanduser env with
  | some p => return p
  | none => throw .host

def albumDownload (e : AlbumEntry) (localPath : Option PyStr) : Prog (ToolState ω) (ToolError ε) PyStr := do
  let r ← onDevice (client.call (py "album.download") [] e.params)
  match localPath with
  | none => return py "Downloaded " ++ pyNat r.2.length ++ py " bytes (pass local_path to save)"
  | some path =>
    if path = [] then return py "Downloaded " ++ pyNat r.2.length ++ py " bytes (pass local_path to save)"
    else do
      let p ← expandPath proc.env path
      writeBytes p r.2
      return py "Saved " ++ pyNat r.2.length ++ py " bytes to " ++ path

/-- A call of a tool that takes a host path. -/
inductive HostTool
  | fsDownload (remotePath localPath : PyStr)
  | fsUpload (localPath remotePath : PyStr)
  | updateAgent (localNspPath : PyStr) (confirm : Option PyStr) (at_ : Moment)
  | albumDownload (e : AlbumEntry) (localPath : Option PyStr)

def runTool : HostTool → Prog (ToolState ω) (ToolError ε) PyStr
  | .fsDownload remotePath localPath => fsDownload client proc remotePath localPath
  | .fsUpload localPath remotePath => fsUpload client proc localPath remotePath
  | .updateAgent localNspPath confirm at_ => updateAgent client proc localNspPath confirm at_
  | .albumDownload e localPath => albumDownload client proc e localPath

end

/-- The host path that a tool is given. -/
def HostTool.path : HostTool → PyStr
  | .fsDownload _ localPath => localPath
  | .fsUpload localPath _ => localPath
  | .updateAgent localNspPath _ _ => localNspPath
  | .albumDownload _ localPath => localPath.getD []

/-- Whether a tool writes its host file. -/
def HostTool.forWrite : HostTool → Bool
  | .fsDownload _ _ | .albumDownload _ _ => true
  | .fsUpload _ _ | .updateAgent _ _ _ => false

/-! ## What is opened -/

/-- Every file that was given to `open` is what `resolve_local_path` returned for the path before, for the same purpose; with
roots it is inside them, and over a network transport without roots it is not opened for writing. -/
structure HostGuarded (h : Host) (env : ServerEnv) (path : PyStr) (l : List Access) : Prop where
  resolved : ∀ before p w after, l = before ++ .opened p w :: after →
    ∃ q, .resolved path w q ∈ before ∧ resolveLocalPath h env path w = .ok q ∧ p = ⟨true, q⟩
  inside : ∀ roots, allowedRoots h env = .ok (some roots) → ∀ p w, .opened p w ∈ l → ∀ loc, h.openAt p w = some loc →
    ∃ r ∈ roots, Inside r loc
  no_write : allowedRoots h env = .ok none → isRemoteTransport env = true → ∀ p w, .opened p w ∈ l → w = false

section
variable {ω ε α β : Type}

/-- The tool gets past what it awaits before it opens its file. -/
def HostTool.Reaches (client : SwitchClient ω ε) (device : ω) : HostTool → Prop
  | .fsDownload remotePath _ => ((client.readFile remotePath).exec device).1.isOk = true
  | .albumDownload e _ => ((client.call (py "album.download") [] e.params).exec device).1.isOk = true
  | _ => True

/-- `album_download`, with a path to save to. -/
def HostTool.Saves (env : ServerEnv) : HostTool → Prop
  | .albumDownload _ (some path) => path ≠ [] ∧ ((HostPath.ofText path).expanduser env).isSome = true
  | _ => False

variable {h : Host} {env : ServerEnv} {path : PyStr} {w : Bool}

theorem guarded_nil : HostGuarded h env path [] where
  resolved before p w after hl := by cases before <;> cases hl
  inside _ _ p w hm := by cases hm
  no_write _ _ p w hm := by cases hm

theorem guarded_unopened (q : List PyStr) : HostGuarded h env path [.resolved path w q] where
  resolved before p w after hl := by
    rcases before with _ | ⟨a, before⟩
    · cases hl
    · cases before <;> cases hl
  inside _ _ p w hm := by cases List.mem_singleton.1 hm
  no_write _ _ p w hm := by cases List.mem_singleton.1 hm

theorem opened_mem_pair {q : List PyStr} {p : HostPath} {w' : Bool}
    (hm : Access.opened p w' ∈ [.resolved path w q, .opened ⟨true, q⟩ w]) : p = ⟨true, q⟩ ∧ w' = w := by
  rcases List.mem_cons.1 hm with e | hm
  · cases e
  · cases List.mem_singleton.1 hm
    exact ⟨rfl, rfl⟩

theorem openAt_absolute (q : List PyStr) : h.openAt ⟨true, q⟩ w = h.opens q w := rfl

/-- **A tool that opens what was resolved is guarded unless a link leads out.** -/
theorem guarded_opened_iff {q : List PyStr} (hq : resolveLocalPath h env path w = .ok q) :
    HostGuarded h env path [.resolved path w q, .opened ⟨true, q⟩ w] ↔
      ∀ roots, allowedRoots h env = .ok (some roots) → ¬LinkLeadsOut h env roots path w := by
  constructor
  · intro hg roots hroots hlink
    obtain ⟨q', hq', hc⟩ := unconfined_of_link hroots hlink
    obtain rfl : q = q' := by rw [hq] at hq'; cases hq'; rfl
    refine hc fun loc hloc => hg.inside roots hroots ⟨true, q⟩ w ?_ loc hloc
    exact List.mem_cons_of_mem _ List.mem_cons_self
  · intro hno
    refine ⟨fun before p w' after hl => ?_, fun roots hroots p w' hm loc hloc => ?_, fun hnone hremote p w' hm => ?_⟩
    · rcases before with _ | ⟨a, before⟩
      · cases hl
      · rw [List.cons_append, List.cons.injEq] at hl
        obtain ⟨rfl, hl⟩ := hl
        rcases before with _ | ⟨b, before⟩
        · cases hl
          exact ⟨q, List.mem_cons_self, hq, rfl⟩
        · cases before <;> cases hl
    · obtain ⟨rfl, rfl⟩ := opened_mem_pair hm
      rw [openAt_absolute] at hloc
      exact confined_of_no_link hroots (hno roots hroots) hq loc hloc
    · obtain ⟨-, rfl⟩ := opened_mem_pair hm
      by_contra hw
      rw [Bool.not_eq_false] at hw
      unfold resolveLocalPath at hq
      split at hq
      · cases hq
      · rw [hnone, hremote, hw] at hq
        cases hq

theorem not_guarded_unresolved (p : HostPath) : ¬HostGuarded h env path [.opened p w] := by
  intro hg
  obtain ⟨q, hm, -⟩ := hg.resolved [] p w [] rfl
  cases hm

/-- What a tool that resolves its path first leaves: it opens the resolved path when it reaches that. -/
def Follows (h : Host) (env : ServerEnv) (path : PyStr) (w : Bool) (reaches : Prop) (l : List Access) : Prop :=
  (∃ q, resolveLocalPath h env path w = .ok q ∧ ((reaches ∧ l = [.resolved path w q, .opened ⟨true, q⟩ w]) ∨
    (¬reaches ∧ l = [.resolved path w q]))) ∨
  ((∀ q, resolveLocalPath h env path w ≠ .ok q) ∧ l = [])

theorem Follows.guarded_iff {reaches : Prop} {l : List Access} (hf : Follows h env path w reaches l) :
    HostGuarded h env path l ↔
      (reaches → ∀ roots, allowedRoots h env = .ok (some roots) → ¬LinkLeadsOut h env roots path w) := by
  rcases hf with ⟨q, hq, ⟨hr, rfl⟩ | ⟨hr, rfl⟩⟩ | ⟨hnone, rfl⟩
  · rw [guarded_opened_iff hq]
    exact ⟨fun h _ => h, fun h => h hr⟩
  · exact ⟨fun _ h => absurd h hr, fun _ => guarded_unopened q⟩
  · refine ⟨fun _ _ roots hroots hlink => ?_, fun _ => guarded_nil⟩
    obtain ⟨q, hq, -⟩ := unconfined_of_link hroots hlink
    exact hnone q hq

/-! ## What each step records -/

/-- A program that touches no host file. -/
def Quiet (p : Prog (ToolState ω) (ToolError ε) α) : Prop := Prog.Moves (fun s s' => s'.accesses = s.accesses) p

theorem Quiet.bind {p : Prog (ToolState ω) (ToolError ε) α} {f : α → Prog (ToolState ω) (ToolError ε) β} (hp : Quiet p)
    (hf : ∀ a, Quiet (f a)) : Quiet (p >>= f) := Prog.Moves.bind (fun _ _ _ h h' => h'.trans h) hp hf

theorem quiet_pure (a : α) : Quiet (pure a : Prog (ToolState ω) (ToolError ε) α) := fun _ => (Prog.ends_pure a).2 rfl

theorem quiet_throw (e : ToolError ε) : Quiet (throw e : Prog (ToolState ω) (ToolError ε) α) := fun _ =>
  (Prog.ends_throw e).2 rfl

theorem quiet_onDevice (p : Prog ω ε α) : Quiet (onDevice p) := Prog.Moves.of fun s => by split <;> rfl

theorem quiet_confirmStep (proc : Process) (c : Call) :
    Quiet (confirmStep proc c : Prog (ToolState ω) (ToolError ε) Unit) := Prog.Moves.of fun s => by split <;> rfl

variable (client : SwitchClient ω ε) (proc : ServerProcess)

theorem quiet_restart (n : Nat) (verified : String) : Quiet (restart client n verified) :=
  (quiet_onDevice _).bind fun _ => quiet_pure _

theorem quiet_hashRemote : Quiet (hashRemote client) := by
  refine Prog.Moves.tryCatch (fun _ _ _ h h' => h'.trans h) ((quiet_onDevice _).bind fun _ => quiet_pure _) fun e => ?_
  unfold withoutHash
  split
  · split
    · exact quiet_pure _
    · exact quiet_throw _
  · exact quiet_throw _

theorem quiet_verifyAndRestart (data : Bytes) : Quiet (verifyAndRestart client proc data) := by
  refine (quiet_hashRemote client).bind fun d => ?_
  split
  · split
    · split
      · exact quiet_pure _
      · exact quiet_restart _ _ _
    · exact quiet_throw _
  · exact quiet_restart _ _ _

theorem quiet_confirmAndUpdate (name : PyStr) (confirm : Option PyStr) (at_ : Moment) (data : Bytes) :
    Quiet (confirmAndUpdate client proc name confirm at_ data) := by
  refine (quiet_confirmStep _ _).bind fun _ => ?_
  refine (quiet_onDevice _).bind fun _ => ?_
  exact quiet_verifyAndRestart _ _ _

/-- A program that first gives `p` to `open`, and then nothing more. -/
theorem opened_then {o : Prog (ToolState ω) (ToolError ε) α} {p : HostPath}
    (ho : ∀ s, (o.exec s).2.accesses = s.accesses ++ [.opened p w]) {f : α → Prog (ToolState ω) (ToolError ε) β}
    (hf : ∀ a, Quiet (f a)) (s : ToolState ω) : ((o >>= f).exec s).2.accesses = s.accesses ++ [.opened p w] := by
  have h1 := ho s
  rw [Prog.exec_bind]
  rcases hx : o.exec s with ⟨e | a, s1⟩ <;> rw [hx] at h1
  · exact h1
  · exact ((hf a).state s1).trans h1

theorem readBytes_opened (p : HostPath) (s : ToolState ω) :
    ((readBytes p : Prog (ToolState ω) (ToolError ε) Bytes).exec s).2.accesses = s.accesses ++ [.opened p false] := by
  unfold readBytes
  rw [Prog.exec_of]
  split <;> rfl

theorem writeBytes_opened (p : HostPath) (data : Bytes) (s : ToolState ω) :
    ((writeBytes p data : Prog (ToolState ω) (ToolError ε) Unit).exec s).2.accesses = s.accesses ++ [.opened p true] := by
  unfold writeBytes
  rw [Prog.exec_of]
  split <;> rfl

/-- **A tool that resolves its path and then opens it, when it reaches that, follows.** -/
theorem follows_resolve {f : HostPath → Prog (ToolState ω) (ToolError ε) α} {s : ToolState ω} (hs : s.accesses = [])
    {reaches : Prop}
    (hopen : reaches → ∀ p (s' : ToolState ω), s'.device = s.device →
      ((f p).exec s').2.accesses = s'.accesses ++ [.opened p w])
    (hmiss : ¬reaches → ∀ p (s' : ToolState ω), s'.device = s.device → ((f p).exec s').2.accesses = s'.accesses) :
    Follows s.host env path w reaches ((resolvePath env path w >>= f).exec s).2.accesses := by
  rw [Prog.exec_bind, resolvePath, Prog.exec_of]
  cases hq : resolveLocalPath s.host env path w with
  | ok q =>
    refine Or.inl ⟨q, hq, ?_⟩
    by_cases hr : reaches
    · have ha := hopen hr ⟨true, q⟩ { s with accesses := s.accesses ++ [.resolved path w q] } rfl
      exact Or.inl ⟨hr, ha.trans (by rw [hs]; rfl)⟩
    · have ha := hmiss hr ⟨true, q⟩ { s with accesses := s.accesses ++ [.resolved path w q] } rfl
      exact Or.inr ⟨hr, ha.trans (by rw [hs]; rfl)⟩
  | error e =>
    refine Or.inr ⟨fun q h => ?_, ?_⟩
    · rw [hq] at h
      cases h
    · cases e <;> exact hs

theorem onDevice_ok {p : Prog ω ε α} {s : ToolState ω} (h : (p.exec s.device).1.isOk = true) :
    ∃ a d, (onDevice p).exec s = (.ok a, { s with device := d }) := by
  rw [onDevice, Prog.exec_of]
  rcases hx : p.exec s.device with ⟨e | a, d⟩
  · rw [hx] at h
    cases h
  · exact ⟨a, d, rfl⟩

theorem onDevice_error {p : Prog ω ε α} {s : ToolState ω} (h : ¬(p.exec s.device).1.isOk = true) :
    ∃ e d, (onDevice p).exec s = (.error e, { s with device := d }) := by
  rw [onDevice, Prog.exec_of]
  rcases hx : p.exec s.device with ⟨e | a, d⟩
  · exact ⟨_, d, rfl⟩
  · rw [hx] at h
    exact absurd rfl h

/-! ## The tools are guarded -/

theorem fsDownload_follows (remotePath localPath : PyStr) {s : ToolState ω} (hs : s.accesses = []) :
    Follows s.host proc.env localPath true (((client.readFile remotePath).exec s.device).1.isOk = true)
      ((fsDownload client proc remotePath localPath).exec s).2.accesses := by
  refine follows_resolve hs (fun hr p s' hd => ?_) (fun hr p s' hd => ?_)
  · rw [← hd] at hr
    obtain ⟨data, d, hx⟩ := onDevice_ok hr
    rw [Prog.exec_bind, hx]
    exact opened_then (writeBytes_opened p data) (fun _ => quiet_pure _) _
  · rw [← hd] at hr
    obtain ⟨e, d, hx⟩ := onDevice_error hr
    rw [Prog.exec_bind, hx]

theorem fsUpload_follows (localPath remotePath : PyStr) {s : ToolState ω} (hs : s.accesses = []) :
    Follows s.host proc.env localPath false True ((fsUpload client proc localPath remotePath).exec s).2.accesses := by
  refine follows_resolve hs (fun _ p s' _ => ?_) (fun hr => absurd trivial hr)
  exact opened_then (readBytes_opened p) (fun _ => (quiet_onDevice _).bind fun _ => quiet_pure _) s'

theorem updateAgent_follows (localNspPath : PyStr) (confirm : Option PyStr) (at_ : Moment) {s : ToolState ω}
    (hs : s.accesses = []) :
    Follows s.host proc.env localNspPath false True ((updateAgent client proc localNspPath confirm at_).exec s).2.accesses := by
  refine follows_resolve hs (fun _ p s' _ => ?_) (fun hr => absurd trivial hr)
  exact opened_then (readBytes_opened p) (fun _ => quiet_confirmAndUpdate _ _ _ _ _ _) s'

/-- **`album_download` opens its path as it is.** -/
theorem albumDownload_accesses (e : AlbumEntry) (localPath : Option PyStr) {s : ToolState ω} (hs : s.accesses = []) :
    (∃ p, (HostTool.albumDownload e localPath).Reaches client s.device ∧ (HostTool.albumDownload e localPath).Saves proc.env ∧
      ((albumDownload client proc e localPath).exec s).2.accesses = [.opened p true]) ∨
    (¬((HostTool.albumDownload e localPath).Reaches client s.device ∧ (HostTool.albumDownload e localPath).Saves proc.env) ∧
      ((albumDownload client proc e localPath).exec s).2.accesses = []) := by
  unfold albumDownload HostTool.Reaches
  rw [Prog.exec_bind]
  by_cases hr : ((client.call (py "album.download") [] e.params).exec s.device).1.isOk = true
  · obtain ⟨r, d, hx⟩ := onDevice_ok hr
    rw [hx]
    dsimp only
    cases localPath with
    | none => exact Or.inr ⟨fun h => h.2, hs⟩
    | some path =>
      dsimp only
      by_cases hp : path = []
      · rw [if_pos hp]
        exact Or.inr ⟨fun h => h.2.1 hp, hs⟩
      · rw [if_neg hp, expandPath]
        cases hex : (HostPath.ofText path).expanduser proc.env with
        | none =>
          refine Or.inr ⟨fun h => ?_, hs⟩
          have hsome := h.2.2
          rw [hex] at hsome
          cases hsome
        | some p =>
          refine Or.inl ⟨p, hr, ⟨hp, by rw [hex]; rfl⟩, ?_⟩
          have ho := opened_then (f := fun _ => (pure (py "Saved " ++ pyNat r.2.length ++ py " bytes to " ++ path) :
            Prog (ToolState ω) (ToolError ε) PyStr)) (writeBytes_opened p r.2) (fun _ => quiet_pure _) { s with device := d }
          dsimp only
          rw [Prog.exec_bind, Prog.exec_pure]
          exact ho.trans (by rw [hs]; rfl)
  · obtain ⟨x, d, hx⟩ := onDevice_error hr
    rw [hx]
    exact Or.inr ⟨fun h => hr h.1, hs⟩

/-- A link leads out only below a path that has a last part. -/
theorem no_link_of_unsaved {e : AlbumEntry} {localPath : Option PyStr} {roots : List (List Comp)}
    (hs : ¬(HostTool.albumDownload e localPath).Saves env) :
    ¬LinkLeadsOut h env roots (HostTool.albumDownload e localPath).path w := by
  rintro ⟨p, dir, c, hp, -, hlast, -⟩
  cases localPath with
  | none =>
    have hnil : (HostPath.ofText []).expanduser env = some ⟨false, []⟩ := rfl
    rw [HostTool.path, Option.getD_none, hnil] at hp
    cases hp
    cases hlast
  | some path =>
    rw [HostTool.path, Option.getD_some] at hp
    by_cases hpath : path = []
    · subst hpath
      have hnil : (HostPath.ofText []).expanduser env = some ⟨false, []⟩ := rfl
      rw [hnil] at hp
      cases hp
      cases hlast
    · exact hs ⟨hpath, by rw [hp]; rfl⟩

/-- **A tool opens only what resolve_local_path returned for it, inside the roots and never for writing over a network
without them**, exactly when, on reaching its open, it is not `album_download` with a path to save to, and no link leads
out of the roots. -/
theorem tool_guarded_iff (t : HostTool) (s : ToolState ω) :
    HostGuarded s.host proc.env t.path ((runTool client proc t).exec { s with accesses := [] }).2.accesses ↔
      (t.Reaches client s.device → ¬t.Saves proc.env ∧
        ∀ roots, allowedRoots s.host proc.env = .ok (some roots) → ¬LinkLeadsOut s.host proc.env roots t.path t.forWrite) := by
  have hs : ({ s with accesses := [] } : ToolState ω).accesses = [] := rfl
  have hsaves : ∀ {P : Prop}, ¬False ∧ P ↔ P := by simp
  cases t with
  | fsDownload remotePath localPath =>
    exact (fsDownload_follows client proc remotePath localPath hs).guarded_iff.trans (imp_congr_right fun _ => hsaves.symm)
  | fsUpload localPath remotePath =>
    exact (fsUpload_follows client proc localPath remotePath hs).guarded_iff.trans (imp_congr_right fun _ => hsaves.symm)
  | updateAgent localNspPath confirm at_ =>
    exact (updateAgent_follows client proc localNspPath confirm at_ hs).guarded_iff.trans (imp_congr_right fun _ => hsaves.symm)
  | albumDownload e localPath =>
    rcases albumDownload_accesses client proc e localPath hs with ⟨p, hr, hsv, ha⟩ | ⟨hno, ha⟩
    · rw [runTool, ha]
      exact ⟨fun hg => absurd hg (not_guarded_unresolved p), fun hc => absurd hsv (hc hr).1⟩
    · rw [runTool, ha]
      refine ⟨fun _ hr => ?_, fun _ => guarded_nil⟩
      have hsv : ¬(HostTool.albumDownload e localPath).Saves proc.env := fun hsv => hno ⟨hr, hsv⟩
      exact ⟨hsv, fun roots _ => no_link_of_unsaved hsv⟩

end

/-! ## A tool that opens its path itself -/

/-- A client whose calls are all answered with one byte. -/
def oneByteClient : SwitchClient Unit Unit where
  call _ _ _ := pure ([], [1])
  readFile _ := pure [1]
  writeFile _ data := pure data.length
  code _ := none

/-- A server over HTTP whose one root is `/r`. -/
def httpProcess : ServerProcess := ⟨{ rootedEnv with transport := some (py "streamable-http") }, sampleProcess⟩

def saveOutside : HostTool := .albumDownload ⟨[], 0, 0, 0, 0, 0, 0, 0, 0, 1⟩ (some (py "/o/f"))

def danglingState : ToolState Unit := ⟨danglingHost, [], (), []⟩

/-- **`album_download` writes a file outside the roots**, over HTTP. -/
theorem album_download_escapes :
    ((runTool oneByteClient httpProcess saveOutside).exec danglingState).2.accesses = [.opened ⟨true, [py "o", py "f"]⟩ true] ∧
    danglingHost.openAt ⟨true, [py "o", py "f"]⟩ true = some [(letter 14).name, (letter 5).name] ∧
    allowedRoots danglingHost httpProcess.env = .ok (some [[letter 17]]) ∧
    ¬Inside [letter 17] [(letter 14).name, (letter 5).name] ∧
    ¬HostGuarded danglingHost httpProcess.env saveOutside.path
      ((runTool oneByteClient httpProcess saveOutside).exec danglingState).2.accesses := by
  have ha : ((runTool oneByteClient httpProcess saveOutside).exec danglingState).2.accesses =
      [.opened ⟨true, [py "o", py "f"]⟩ true] := by decide +kernel
  refine ⟨ha, by decide +kernel, by decide +kernel, by decide +kernel, ?_⟩
  rw [ha]
  exact not_guarded_unresolved _

end Guards
end SwitchMcp

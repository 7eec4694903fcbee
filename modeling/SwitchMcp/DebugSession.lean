import SwitchMcp.MemoryMap
import SwitchMcp.Trace
/-!
# DebugSession — one process at a time under the debugger (agent/source/handlers/debug.cpp)

`g_debug` and `g_pid` beside the debug objects that the kernel keeps for the agent: attaching opens one and stops its process,
closing the handle lets it run again.  What each call is answered is an input, and so are the events that processes raise.
`debug_session` says that no handle is ever leaked, so that nothing but the current target is stopped; `events_once` that a
session's events are reported once each, in order.
-/
namespace SwitchMcp
namespace Agent
namespace Debugger

open Json (Value)

/-! ## The kernel's side -/

/-- What `DrainEvents` reads of a `DebugEventInfo`. -/
structure DebugEventInfo where
  type : UInt32
  threadId : UInt64
  exceptionType : UInt32
  userBreakAddress : UInt64
  exitReason : UInt32

/-- An open debug handle: its process, whether that is stopped, and the events that are queued. -/
structure DebugObject where
  handle : Nat
  pid : UInt64
  stopped : Bool
  queue : List DebugEventInfo

/-- `g_debug` (`none` for `INVALID_HANDLE`), `g_pid`, and what the kernel keeps. -/
structure Console where
  gDebug : Option Nat := none
  gPid : UInt64 := 0
  objects : List DebugObject := []
  nextHandle : Nat := 1

/-- What the calls of one command are answered: the foreground application, the events of a process that is debugged from
now on, its memory, and whether it can be continued and broken into. -/
structure Answers where
  application : Option UInt64
  admits : Option (List DebugEventInfo)
  space : MemorySpace
  continues : Bool
  breaks : Bool

/-- A call on the object of a handle. -/
def Console.onHandle (c : Console) (h : Nat) (f : DebugObject → DebugObject) : Console :=
  { c with objects := c.objects.map fun o => if o.handle = h then f o else o }

/-- `svcCloseHandle`, and `g_debug = INVALID_HANDLE`. -/
def Console.close (c : Console) (h : Nat) : Console :=
  { c with gDebug := none, objects := c.objects.filter fun o => decide (o.handle ≠ h) }

/-- `svcDebugActiveProcess` where it succeeds, and what `DebugAttach` remembers. -/
def Console.debug (c : Console) (pid : UInt64) (events : List DebugEventInfo) : Console :=
  { gDebug := some c.nextHandle
    gPid := pid
    objects := c.objects ++ [⟨c.nextHandle, pid, true, events⟩]
    nextHandle := c.nextHandle + 1 }

/-- The events of a handle that are queued. -/
def Console.queued (c : Console) (h : Nat) : List DebugEventInfo :=
  (c.objects.filter fun o => decide (o.handle = h)).flatMap DebugObject.queue

/-- `svcGetDebugEvent` until it fails. -/
def Console.drained (c : Console) (h : Nat) : Console := c.onHandle h fun o => { o with queue := [] }

/-- `ContinueAll`; its result is not looked at. -/
def Console.continueAll (c : Console) (a : Answers) (h : Nat) : Console :=
  if a.continues then c.onHandle h fun o => { o with stopped := false } else c

/-! ## The handlers -/

def debugEventName (t : UInt32) : String :=
  if t = 0 then "create_process" else if t = 1 then "create_thread" else if t = 2 then "exit_process"
  else if t = 3 then "exit_thread" else if t = 4 then "exception" else "unknown"

def exceptionName (t : UInt32) : String :=
  if t = 0 then "undefined_instruction" else if t = 1 then "instruction_abort" else if t = 2 then "data_abort"
  else if t = 3 then "alignment_fault" else if t = 4 then "debugger_attached" else if t = 5 then "breakpoint"
  else if t = 6 then "user_break" else if t = 7 then "debugger_break" else if t = 8 then "undefined_syscall"
  else if t = 9 then "memory_system_error" else "other"

/-- An event, as `DrainEvents` pushes it. -/
def eventEntry (ev : DebugEventInfo) : Value :=
  let e := ((Value.object []).set (str "event") (.string (str (debugEventName ev.type)))).set (str "thread_id")
    (.int ev.threadId.toInt64)
  if ev.type = 4 then
    let e := e.set (str "exception") (.string (str (exceptionName ev.exceptionType)))
    if ev.exceptionType = 6 then e.set (str "address") (addressText ev.userBreakAddress) else e
  else if ev.type = 2 then e.set (str "reason") (.int ev.exitReason.toUInt64.toInt64)
  else e

def notAttached : Bool × Reply := (false, fail "not_attached" (str "no debug session; call debug.attach first"))

/-- The process that a request means. -/
def targetOf (a : Answers) (req : Request) : Option UInt64 :=
  let pid := asU64 (req.get "pid") 0
  if pid = 0 then a.application.bind (fun pid => if pid = 0 then none else some pid) else some pid

def debugAttach (a : Answers) (req : Request) (c : Console) : (Bool × Reply) × Console :=
  let c := match c.gDebug with
    | some h => c.close h
    | none => c
  match targetOf a req with
  | none => ((false, fail "no_app" (str "no pid given and no foreground app")), c)
  | some pid =>
    match a.admits with
    | none => ((false, fail "attach_failed" (str "svcDebugActiveProcess failed")), c)
    | some events =>
      let h := c.nextHandle
      let c := c.debug pid events
      let pause := (req.get "pause").asBool true
      ((true, attachedReply a.space pid pause), if pause then c else (c.drained h).continueAll a h)

def debugPollEvents (a : Answers) (req : Request) (c : Console) : (Bool × Reply) × Console :=
  match c.gDebug with
  | none => (notAttached, c)
  | some h =>
    let events := (c.queued h).map eventEntry
    let c := c.drained h
    ((true, ({} : Reply).set "events" (.array events)),
      if (req.get "resume").asBool true then c.continueAll a h else c)

def debugContinue (a : Answers) (c : Console) : (Bool × Reply) × Console :=
  match c.gDebug with
  | none => (notAttached, c)
  | some h => ((true, ({} : Reply).set "ok" (.bool true)), c.continueAll a h)

def debugBreak (a : Answers) (c : Console) : (Bool × Reply) × Console :=
  match c.gDebug with
  | none => (notAttached, c)
  | some h =>
    if a.breaks then ((true, ({} : Reply).set "ok" (.bool true)), c.onHandle h fun o => { o with stopped := true })
    else ((false, fail "break_failed" (str "svcBreakDebugProcess failed")), c)

def debugDetach (c : Console) : (Bool × Reply) × Console :=
  ((true, ({} : Reply).set "ok" (.bool true)), match c.gDebug with
    | some h => { c.close h with gPid := 0 }
    | none => c)

/-! ## Runs -/

/-- A command with its answers, or an event that a process raises. -/
inductive Input
  | attach (req : Request) (a : Answers)
  | poll (req : Request) (a : Answers)
  | resume (a : Answers)
  | brk (a : Answers)
  | detach
  | raises (pid : UInt64) (ev : DebugEventInfo)

/-- An event of a process under the debugger is queued, and stops it. -/
def DebugObject.raise (pid : UInt64) (ev : DebugEventInfo) (o : DebugObject) : DebugObject :=
  if o.pid = pid then { o with stopped := true, queue := o.queue ++ [ev] } else o

def step (c : Console) : Input → (Bool × Reply) × Console
  | .attach req a => debugAttach a req c
  | .poll req a => debugPollEvents a req c
  | .resume a => debugContinue a c
  | .brk a => debugBreak a c
  | .detach => debugDetach c
  | .raises pid ev => ((true, {}), { c with objects := c.objects.map (DebugObject.raise pid ev) })

/-- The console after some inputs, from the start of the agent. -/
def after (inputs : List Input) : Console := Trace.run step {} inputs

/-- A process is stopped by the debugger. -/
def Console.Stops (c : Console) (pid : UInt64) : Prop := ∃ o ∈ c.objects, o.pid = pid ∧ o.stopped = true

/-- There is no handle, and the kernel keeps nothing for the agent. -/
def Console.Idle (c : Console) : Prop := c.gDebug = none ∧ c.objects = []

def Input.bounds : Input → Prop
  | .attach _ _ | .detach => True
  | _ => False

/-! ## The objects are those of the session -/

/-- The kernel's objects are those that `g_debug` and `g_pid` speak of: none, or one. -/
def Console.Owned (c : Console) : Prop :=
  c.Idle ∨ ∃ o : DebugObject, c.gDebug = some o.handle ∧ c.gPid = o.pid ∧ c.objects = [o]

section
variable {c : Console}

theorem Console.Idle.not_stops (h : c.Idle) (pid : UInt64) : ¬c.Stops pid := by
  rintro ⟨o, ho, -, -⟩
  rw [h.2] at ho
  cases ho

theorem Console.Owned.of_none (h : c.Owned) (hg : c.gDebug = none) : c.objects = [] := by
  rcases h with ⟨-, ho⟩ | ⟨o, hg', -⟩
  · exact ho
  · rw [hg] at hg'
    cases hg'

theorem Console.Owned.of_some (h : c.Owned) {n : Nat} (hg : c.gDebug = some n) :
    ∃ o : DebugObject, o.handle = n ∧ c.gPid = o.pid ∧ c.objects = [o] := by
  rcases h with ⟨hg', -⟩ | ⟨o, hg', hp, ho⟩
  · rw [hg] at hg'
    cases hg'
  · rw [hg] at hg'
    exact ⟨o, (Option.some.inj hg').symm, hp, ho⟩

theorem Console.onHandle_owned {n : Nat} {o : DebugObject} (ho : c.objects = [o]) (hn : o.handle = n)
    (f : DebugObject → DebugObject) : (c.onHandle n f).objects = [f o] := by
  simp only [Console.onHandle, ho, List.map_cons, List.map_nil, if_pos hn]

theorem Console.Owned.onHandle (h : c.Owned) {n : Nat} (hg : c.gDebug = some n) {f : DebugObject → DebugObject}
    (hh : ∀ o, (f o).handle = o.handle) (hp : ∀ o, (f o).pid = o.pid) : (c.onHandle n f).Owned := by
  obtain ⟨o, hn, hpid, ho⟩ := h.of_some hg
  refine Or.inr ⟨f o, ?_, ?_, Console.onHandle_owned ho hn f⟩
  · rw [hh, hn]
    exact hg
  · rw [hp]
    exact hpid

theorem Console.Owned.continueAll (h : c.Owned) {n : Nat} (hg : c.gDebug = some n) (a : Answers) :
    (c.continueAll a n).Owned := by
  unfold Console.continueAll
  split
  · exact h.onHandle hg (fun _ => rfl) fun _ => rfl
  · exact h

theorem Console.Owned.drained (h : c.Owned) {n : Nat} (hg : c.gDebug = some n) : (c.drained n).Owned :=
  h.onHandle hg (fun _ => rfl) fun _ => rfl

/-- **Closing the session's handle leaves nothing.** -/
theorem Console.Owned.close (h : c.Owned) {n : Nat} (hg : c.gDebug = some n) : (c.close n).objects = [] := by
  obtain ⟨o, hn, -, ho⟩ := h.of_some hg
  simp [Console.close, ho, hn]

theorem owned_debug (ho : c.objects = []) (pid : UInt64) (events : List DebugEventInfo) : (c.debug pid events).Owned :=
  Or.inr ⟨⟨c.nextHandle, pid, true, events⟩, rfl, rfl, by rw [Console.debug, ho, List.nil_append]⟩

/-- What attaching starts from: the session that was is gone. -/
theorem Console.Owned.closed (h : c.Owned) :
    ∃ c' : Console, (match c.gDebug with | some n => c.close n | none => c) = c' ∧ c'.Idle := by
  cases hg : c.gDebug with
  | none => exact ⟨c, rfl, hg, h.of_none hg⟩
  | some n => exact ⟨c.close n, rfl, rfl, h.close hg⟩

/-- **Attaching**: it fails and leaves no session, or the one on the process it replies. -/
theorem debugAttach_owned (h : c.Owned) (a : Answers) (req : Request) :
    (debugAttach a req c).2.Owned ∧ ((debugAttach a req c).1.1 = false → (debugAttach a req c).2.Idle) := by
  obtain ⟨c', hc', hidle⟩ := h.closed
  unfold debugAttach
  rw [hc']
  dsimp only
  split
  · exact ⟨Or.inl hidle, fun _ => hidle⟩
  · rename_i pid _
    split
    · exact ⟨Or.inl hidle, fun _ => hidle⟩
    · rename_i events _
      refine ⟨?_, fun hfalse => nomatch hfalse⟩
      have hnew := owned_debug hidle.2 pid events
      split
      · exact hnew
      · exact (hnew.drained rfl).continueAll rfl a

theorem debugDetach_idle (h : c.Owned) : (debugDetach c).2.Idle := by
  unfold debugDetach
  cases hg : c.gDebug with
  | none => exact ⟨hg, h.of_none hg⟩
  | some n => exact ⟨rfl, h.close hg⟩

theorem owned_raises (h : c.Owned) (pid : UInt64) (ev : DebugEventInfo) :
    ({ c with objects := c.objects.map (DebugObject.raise pid ev) } : Console).Owned := by
  rcases h with ⟨hg, ho⟩ | ⟨o, hg, hp, ho⟩
  · exact Or.inl ⟨hg, by rw [ho]; rfl⟩
  · have hsame : (o.raise pid ev).handle = o.handle ∧ (o.raise pid ev).pid = o.pid := by
      unfold DebugObject.raise
      split <;> exact ⟨rfl, rfl⟩
    exact Or.inr ⟨o.raise pid ev, by rw [hsame.1]; exact hg, by rw [hsame.2]; exact hp, by rw [ho]; rfl⟩

theorem step_owned (h : c.Owned) (i : Input) : (step c i).2.Owned := by
  cases i with
  | attach req a => exact (debugAttach_owned h a req).1
  | detach => exact Or.inl (debugDetach_idle h)
  | raises pid ev => exact owned_raises h pid ev
  | poll req a =>
    unfold step debugPollEvents
    cases hg : c.gDebug with
    | none => exact h
    | some n =>
      dsimp only
      split
      · exact (h.drained hg).continueAll hg a
      · exact h.drained hg
  | resume a =>
    unfold step debugContinue
    cases hg : c.gDebug with
    | none => exact h
    | some n => exact h.continueAll hg a
  | brk a =>
    unfold step debugBreak
    cases hg : c.gDebug with
    | none => exact h
    | some n =>
      dsimp only
      split
      · exact h.onHandle hg (fun _ => rfl) fun _ => rfl
      · exact h

end

theorem after_owned (inputs : List Input) : (after inputs).Owned := by
  induction inputs using List.reverseRecOn with
  | nil => exact Or.inl ⟨rfl, rfl⟩
  | append_singleton inputs i ih =>
    rw [after, Trace.run_snoc]
    exact step_owned ih i

/-- **One session, and nothing else stopped.**  After any commands, whatever the kernel answers them, and any events: the
kernel keeps at most one debug object for the agent, that of `g_debug` on the process `g_pid`, and none where `g_debug` is
invalid.  So no process but the current target is stopped; and after a `debug.detach`, or a `debug.attach` that fails, there
is no handle and nothing is. -/
theorem debug_session (inputs : List Input) :
    ((after inputs).gDebug = none → (after inputs).objects = []) ∧
    (∀ h, (after inputs).gDebug = some h →
      ∃ o, (after inputs).objects = [o] ∧ o.handle = h ∧ o.pid = (after inputs).gPid) ∧
    (∀ pid, (after inputs).Stops pid → (after inputs).gDebug.isSome = true ∧ pid = (after inputs).gPid) ∧
    ((after (inputs ++ [.detach])).Idle ∧ ∀ pid, ¬(after (inputs ++ [.detach])).Stops pid) ∧
    (∀ req a, (debugAttach a req (after inputs)).1.1 = false →
      (after (inputs ++ [.attach req a])).Idle ∧ ∀ pid, ¬(after (inputs ++ [.attach req a])).Stops pid) := by
  have h := after_owned inputs
  refine ⟨h.of_none, ?_, ?_, ?_, ?_⟩
  · intro n hn
    obtain ⟨o, ho, hp, hobj⟩ := h.of_some hn
    exact ⟨o, hobj, ho, hp.symm⟩
  · rintro pid ⟨o, ho, rfl, hs⟩
    rcases h with ⟨hg, hobj⟩ | ⟨o', hg, hp, hobj⟩
    · rw [hobj] at ho
      cases ho
    · rw [hobj] at ho
      rw [List.mem_singleton.1 ho, hg, hp]
      exact ⟨rfl, rfl⟩
  · have hidle : (after (inputs ++ [.detach])).Idle := by
      rw [after, Trace.run_snoc]
      exact debugDetach_idle h
    exact ⟨hidle, hidle.not_stops⟩
  · intro req a hfail
    have hidle : (after (inputs ++ [.attach req a])).Idle := by
      rw [after, Trace.run_snoc]
      exact (debugAttach_owned h a req).2 hfail
    exact ⟨hidle, hidle.not_stops⟩

/-! ## Events -/

def eventsOf (r : Reply) : List Value :=
  match r.json.get (str "events") with
  | .array l => l
  | _ => []

/-- The events of a process that an input raises. -/
def Input.raised (pid : UInt64) : Input → List DebugEventInfo
  | .raises p ev => if p = pid then [ev] else []
  | _ => []

/-- The events that the replies of some inputs report. -/
def reported (c : Console) (inputs : List Input) : List Value :=
  (Trace.log step c inputs).flatMap fun e => eventsOf e.output.2

/-- The events that the current target has queued. -/
def Console.pending (c : Console) : List DebugEventInfo := c.objects.flatMap DebugObject.queue

section
variable {c : Console}

theorem queued_eq {n : Nat} {o : DebugObject} (ho : c.objects = [o]) (hn : o.handle = n) : c.queued n = c.pending := by
  simp [Console.queued, Console.pending, ho, hn]

theorem pending_onHandle {n : Nat} {o : DebugObject} (ho : c.objects = [o]) (hn : o.handle = n)
    (f : DebugObject → DebugObject) : (c.onHandle n f).pending = (f o).queue := by
  rw [Console.pending, Console.onHandle_owned ho hn, List.flatMap_singleton]

theorem pending_continueAll (h : c.Owned) {n : Nat} (hg : c.gDebug = some n) (a : Answers) :
    (c.continueAll a n).pending = c.pending := by
  obtain ⟨o, hn, -, ho⟩ := h.of_some hg
  unfold Console.continueAll
  split
  · rw [pending_onHandle ho hn, Console.pending, ho, List.flatMap_singleton]
  · rfl

theorem continueAll_same (a : Answers) (n : Nat) :
    (c.continueAll a n).gDebug = c.gDebug ∧ (c.continueAll a n).gPid = c.gPid := by
  unfold Console.continueAll
  split <;> exact ⟨rfl, rfl⟩

theorem pending_drained (h : c.Owned) {n : Nat} (hg : c.gDebug = some n) : (c.drained n).pending = [] := by
  obtain ⟨o, hn, -, ho⟩ := h.of_some hg
  rw [Console.drained, pending_onHandle ho hn]

theorem pending_raises (h : c.Owned) {n : Nat} (hg : c.gDebug = some n) (pid : UInt64) (ev : DebugEventInfo) :
    ({ c with objects := c.objects.map (DebugObject.raise pid ev) } : Console).pending =
      c.pending ++ (Input.raises pid ev).raised c.gPid := by
  obtain ⟨o, -, hp, ho⟩ := h.of_some hg
  simp only [Console.pending, ho, List.map_cons, List.map_nil, List.flatMap_singleton, Input.raised, hp, DebugObject.raise,
    eq_comm (a := pid)]
  split
  · rfl
  · rw [List.append_nil]

/-- **One input within a session**: what it reports and what is then queued are what was queued and what it raised. -/
theorem step_events (h : c.Owned) {n : Nat} (hg : c.gDebug = some n) (i : Input) (hi : ¬i.bounds) :
    ((step c i).2.gDebug = some n ∧ (step c i).2.gPid = c.gPid) ∧
      eventsOf (step c i).1.2 ++ (step c i).2.pending.map eventEntry = (c.pending ++ i.raised c.gPid).map eventEntry := by
  obtain ⟨o, hn, -, ho⟩ := h.of_some hg
  have hok : eventsOf (({} : Reply).set "ok" (.bool true)) = [] := rfl
  have hfail : eventsOf (fail "break_failed" (str "svcBreakDebugProcess failed")) = [] := rfl
  cases i with
  | attach req a => exact absurd trivial hi
  | detach => exact absurd trivial hi
  | raises pid ev =>
    refine ⟨⟨hg, rfl⟩, ?_⟩
    show ([] : List Value) ++ _ = _
    rw [List.nil_append, ← pending_raises h hg]
    rfl
  | poll req a =>
    have hevents : eventsOf (({} : Reply).set "events" (.array ((c.queued n).map eventEntry))) = c.pending.map eventEntry := by
      rw [queued_eq ho hn]
      simp [eventsOf, Reply.set]
    unfold step debugPollEvents
    rw [hg]
    dsimp only
    rw [hevents, show (Input.poll req a).raised c.gPid = [] from rfl, List.append_nil]
    split
    · have hc := pending_continueAll (h.drained hg) hg a
      have hs := continueAll_same (c := c.drained n) a n
      refine ⟨⟨hs.1.trans hg, hs.2⟩, ?_⟩
      rw [hc, pending_drained h hg, List.map_nil, List.append_nil]
    · refine ⟨⟨hg, rfl⟩, ?_⟩
      rw [pending_drained h hg, List.map_nil, List.append_nil]
  | resume a =>
    have hs := continueAll_same (c := c) a n
    unfold step debugContinue
    rw [hg]
    dsimp only
    refine ⟨⟨hs.1.trans hg, hs.2⟩, ?_⟩
    rw [hok, List.nil_append, pending_continueAll h hg, show (Input.resume a).raised c.gPid = [] from rfl, List.append_nil]
  | brk a =>
    unfold step debugBreak
    rw [hg]
    dsimp only
    rw [show (Input.brk a).raised c.gPid = [] from rfl, List.append_nil]
    split
    · refine ⟨⟨hg, rfl⟩, ?_⟩
      rw [hok, List.nil_append, pending_onHandle ho hn, Console.pending, ho, List.flatMap_singleton]
    · refine ⟨⟨hg, rfl⟩, ?_⟩
      rw [hfail, List.nil_append]

/-- **A poll leaves nothing queued.** -/
theorem pending_poll (h : c.Owned) {n : Nat} (hg : c.gDebug = some n) (req : Request) (a : Answers) :
    (step c (.poll req a)).2.pending = [] := by
  unfold step debugPollEvents
  rw [hg]
  dsimp only
  split
  · rw [pending_continueAll (h.drained hg) hg, pending_drained h hg]
  · exact pending_drained h hg

theorem run_events : ∀ (inputs : List Input) (c : Console), c.Owned → ∀ {n : Nat}, c.gDebug = some n →
    (∀ i ∈ inputs, ¬i.bounds) →
      (Trace.run step c inputs).gDebug = some n ∧
      reported c inputs ++ (Trace.run step c inputs).pending.map eventEntry =
        (c.pending ++ inputs.flatMap (Input.raised c.gPid)).map eventEntry
  | [], c, _, _, hg, _ => by
    rw [List.flatMap_nil, List.append_nil]
    exact ⟨hg, rfl⟩
  | i :: inputs, c, h, n, hg, hi => by
    obtain ⟨⟨hg', hp'⟩, hstep⟩ := step_events h hg i (hi i List.mem_cons_self)
    obtain ⟨hrun, ih⟩ := run_events inputs (step c i).2 (step_owned h i) hg' fun j hj => hi j (List.mem_cons_of_mem _ hj)
    have hcons : reported c (i :: inputs) = eventsOf (step c i).1.2 ++ reported (step c i).2 inputs := List.flatMap_cons
    rw [hp'] at ih
    refine ⟨hrun, ?_⟩
    rw [hcons, Trace.run_cons, List.append_assoc, ih, List.map_append, ← List.append_assoc, hstep, List.flatMap_cons,
      ← List.map_append, List.append_assoc]

end

/-- **Each event once, in order.**  Within a session, from any point of it on and whatever is polled, continued or broken
into: what the replies report, and then what is still queued, is what was queued and then what the target raised.  Events
of other processes are not reported, and a poll leaves nothing queued. -/
theorem events_once (before inputs : List Input) (h : (after before).gDebug ≠ none) (hin : ∀ i ∈ inputs, ¬i.bounds) :
    reported (after before) inputs ++ (after (before ++ inputs)).pending.map eventEntry =
      ((after before).pending ++ inputs.flatMap (Input.raised (after before).gPid)).map eventEntry ∧
    ∀ req a, (after (before ++ inputs ++ [.poll req a])).pending = [] := by
  obtain ⟨n, hn⟩ := Option.ne_none_iff_exists'.1 h
  have hafter : after (before ++ inputs) = Trace.run step (after before) inputs := List.foldl_append
  obtain ⟨hrun, hevents⟩ := run_events inputs _ (after_owned before) hn hin
  rw [← hafter] at hrun hevents
  refine ⟨hevents, fun req a => ?_⟩
  rw [after, Trace.run_snoc]
  exact pending_poll (after_owned (before ++ inputs)) hrun req a

/-- What an agent is answered that may debug process 5. -/
def onFive : Answers := ⟨none, some [⟨0, 5, 0, 0, 0⟩], ⟨[], by decide⟩, true, true⟩

def attachFive : Input := .attach ⟨.object [(str "pid", .int 5)], []⟩ onFive

def pollFive : Input := .poll ⟨.object [], []⟩ onFive

/-- A fault of process 5. -/
def faultFive : DebugEventInfo := ⟨4, 5, 2, 0, 0⟩

theorem events_once_fault : reported (after [attachFive]) [pollFive, .raises 5 faultFive, pollFive] ++
      (after [attachFive, pollFive, .raises 5 faultFive, pollFive]).pending.map eventEntry =
    [eventEntry ⟨0, 5, 0, 0, 0⟩, eventEntry faultFive] :=
  (events_once [attachFive] [pollFive, .raises 5 faultFive, pollFive] (fun h => nomatch h) (by
    intro i hi
    simp only [List.mem_cons, List.not_mem_nil, or_false] at hi
    rcases hi with rfl | rfl | rfl <;> exact id)).1

end Debugger
end Agent
end SwitchMcp

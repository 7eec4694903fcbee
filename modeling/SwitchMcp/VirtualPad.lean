import SwitchMcp.Protocol
/-!
# VirtualPad — two threads on one virtual controller (agent/source/handlers/input.cpp, lockscreen.cpp, server.cpp)

The service thread presses, holds and releases what an `input` asks for, and lets the pad go when its client leaves; the
lockscreen worker presses B of its own accord and lets the pad go after that.  Each `vpad` call and each sleep is one step of
one of them, in any order.  `pad_held_iff` says in which runs a client's input stays as it was asked for while it is held.
-/
namespace SwitchMcp
namespace Agent

open Json (Value)

/-! ## `vpad` -/

/-- The buttons and the sticks of `HiddbgHdlsState`. -/
structure PadState where
  buttons : UInt64 := 0
  lx : Int32 := 0
  ly : Int32 := 0
  rx : Int32 := 0
  ry : Int32 := 0
deriving DecidableEq

def neutral : PadState := {}

/-- `HidNpadButton_B` alone. -/
def pressB : PadState := { buttons := 2 }

/-- The sticks are centred. -/
def PadState.Centred (p : PadState) : Prop := p.lx = 0 ∧ p.ly = 0 ∧ p.rx = 0 ∧ p.ry = 0

instance (p : PadState) : Decidable p.Centred := inferInstanceAs (Decidable (_ ∧ _ ∧ _ ∧ _))

/-- `g_attached` and `g_state`, what the virtual device holds while it is attached, and what it was set to so far. -/
structure Pad where
  attached : Bool
  state : PadState
  device : Option PadState
  sets : List PadState
deriving DecidableEq

/-- What the `hiddbg` calls inside one `vpad` call answer. -/
structure Hiddbg where
  attachBuffer : Bool
  attachDevice : Bool
  setState : Bool

/-- `hiddbgSetHdlsState(g_handle, &g_state)`. -/
def Pad.put (pad : Pad) (ok : Bool) : Pad :=
  { pad with device := if ok then some pad.state else pad.device, sets := pad.sets ++ [pad.state] }

/-- `vpad::Ensure`; a device that was just attached holds nothing. -/
def Pad.ensure (pad : Pad) (h : Hiddbg) : Bool × Pad :=
  if pad.attached then (true, pad)
  else if !h.attachBuffer then (false, pad)
  else if !h.attachDevice then (false, pad)
  else (true, { pad with attached := true, device := some neutral })

/-- `vpad::Release`: only the buttons are cleared. -/
def Pad.release (pad : Pad) (h : Hiddbg) : Pad :=
  if pad.attached then
    { ({ pad with state := { pad.state with buttons := 0 } } : Pad).put h.setState with attached := false, device := none }
  else pad

/-- `vpad::SetButtons`. -/
def Pad.setButtons (pad : Pad) (p : PadState) (h : Hiddbg) : Pad :=
  if (pad.ensure h).1 then ({ (pad.ensure h).2 with state := p } : Pad).put h.setState else (pad.ensure h).2

/-! ## The threads -/

/-- Where the service thread is in an `input` for a state: before the press, before the sleep, before the release. -/
inductive ServiceAt
  | idle
  | press (p : PadState)
  | sleep (p : PadState)
  | release (p : PadState)
deriving DecidableEq

/-- What is held for the client. -/
def ServiceAt.held : ServiceAt → Option PadState
  | .sleep p | .release p => some p
  | _ => none

/-- A press of the worker: one of those at boot, or one that keeps the console awake. -/
inductive Round
  | boot (i : Nat)
  | awake
deriving DecidableEq

/-- Where the worker is: `wait`, `check` and `drop` are in `Worker`, the others in `PressB`. -/
inductive WorkerAt
  | wait (r : Round)
  | check
  | ensure (r : Round)
  | press (r : Round)
  | sleep (r : Round)
  | release (r : Round)
  | drop (r : Round)
  | done
deriving DecidableEq

structure Threads where
  pad : Pad
  service : ServiceAt
  worker : WorkerAt
  /-- What the worker set the pad to. -/
  workerSets : List PadState
deriving DecidableEq

inductive Act
  /-- An `input` begins: `Ensure`. -/
  | input (p : PadState) (h : Hiddbg)
  | service (h : Hiddbg)
  /-- The client leaves: `Release`. -/
  | disconnect (h : Hiddbg)
  | worker (h : Hiddbg) (appRunning : Bool)

def kPresses : Nat := 3

/-- Where the worker goes after `PressB`. -/
def afterPress : Round → WorkerAt
  | .boot i => if i + 1 < kPresses then .wait (.boot (i + 1)) else .drop (.boot i)
  | .awake => .drop .awake

/-- The worker with its next place and what its call did to the pad. -/
def Threads.workerTo (s : Threads) (pad : Pad) (at_ : WorkerAt) : Threads :=
  { s with pad := pad, worker := at_, workerSets := s.workerSets ++ pad.sets.drop s.pad.sets.length }

/-- A step of the service thread inside an `input`. -/
def stepService (s : Threads) (h : Hiddbg) : Threads :=
  match s.service with
  | .idle => s
  | .press p => { s with pad := s.pad.setButtons p h, service := .sleep p }
  | .sleep p => { s with service := .release p }
  | .release _ => { s with pad := s.pad.setButtons neutral h, service := .idle }

/-- A step of the worker. -/
def stepWorker (keepAwake : Bool) (s : Threads) (h : Hiddbg) (appRunning : Bool) : Threads :=
  match s.worker with
  | .wait (.boot i) => { s with worker := .ensure (.boot i) }
  | .wait .awake => { s with worker := .check }
  | .check => { s with worker := if appRunning then .wait .awake else .ensure .awake }
  | .ensure r => s.workerTo (s.pad.ensure h).2 (if (s.pad.ensure h).1 then .press r else afterPress r)
  | .press r => s.workerTo (s.pad.setButtons pressB h) (.sleep r)
  | .sleep r => { s with worker := .release r }
  | .release r => s.workerTo (s.pad.setButtons neutral h) (afterPress r)
  | .drop (.boot _) => s.workerTo (s.pad.release h) (if keepAwake then .wait .awake else .done)
  | .drop .awake => s.workerTo (s.pad.release h) (.wait .awake)
  | .done => s

/-- One step; an act that its thread cannot take leaves everything as it is. -/
def step (keepAwake : Bool) (s : Threads) : Act → Threads
  | .input p h =>
    match s.service with
    | .idle => { s with pad := (s.pad.ensure h).2, service := if (s.pad.ensure h).1 then .press p else .idle }
    | _ => s
  | .service h => stepService s h
  | .disconnect h =>
    match s.service with
    | .idle => { s with pad := s.pad.release h }
    | _ => s
  | .worker h appRunning => stepWorker keepAwake s h appRunning

/-- The threads as the agent starts, with the worker or without. -/
def started (scheduled : Bool) : Threads :=
  ⟨⟨false, neutral, none, []⟩, .idle, if scheduled then .wait (.boot 0) else .done, []⟩

def runActs (scheduled keepAwake : Bool) (acts : List Act) : Threads :=
  acts.foldl (step keepAwake) (started scheduled)

/-! ## What a client may rely on -/

/-- What is held for a client is what the attached pad holds, and the worker set nothing but its own press and neutral. -/
structure PadHeld (s : Threads) : Prop where
  held : ∀ p, s.service.held = some p → s.pad.attached = true ∧ s.pad.device = some p
  own : ∀ p ∈ s.workerSets, p = pressB ∨ p = neutral

/-- A press takes: the pad is attached or can be, and takes the state or has it already. -/
def PressTakes (s : Threads) (p : PadState) (h : Hiddbg) : Prop :=
  if s.pad.attached then h.setState = true ∨ s.pad.device = some p
  else h.attachBuffer = true ∧ h.attachDevice = true ∧ (h.setState = true ∨ p = neutral)

/-- The worker's next call does nothing to a pad that holds `p`. -/
def WorkerSpares (at_ : WorkerAt) (p : PadState) (h : Hiddbg) : Prop :=
  match at_ with
  | .press _ => h.setState = true → p = pressB
  | .release _ => h.setState = true → p = neutral
  | .drop _ => False
  | _ => True

/-- The service thread's press takes, and the worker spares what is held for a client. -/
def Undisturbed (s : Threads) : Act → Prop
  | .service h => ∀ p, s.service = .press p → PressTakes s p h
  | .worker h _ => ∀ p, s.service.held = some p → WorkerSpares s.worker p h
  | _ => True

/-! ## What a call does to the pad -/

theorem ensure_of_attached {pad : Pad} (ha : pad.attached = true) (h : Hiddbg) : pad.ensure h = (true, pad) := by
  rw [Pad.ensure, if_pos ha]

theorem ensure_keeps (pad : Pad) (h : Hiddbg) : (pad.ensure h).2.state = pad.state ∧ (pad.ensure h).2.sets = pad.sets := by
  unfold Pad.ensure
  split
  · exact ⟨rfl, rfl⟩
  · split
    · exact ⟨rfl, rfl⟩
    · split <;> exact ⟨rfl, rfl⟩

theorem setButtons_of_attached {pad : Pad} (ha : pad.attached = true) (p : PadState) (h : Hiddbg) :
    (pad.setButtons p h).attached = true ∧
      (pad.setButtons p h).device = (if h.setState then some p else pad.device) ∧ (pad.setButtons p h).state = p := by
  unfold Pad.setButtons
  rw [ensure_of_attached ha, if_pos rfl]
  exact ⟨ha, rfl, rfl⟩

/-- A call of `SetButtons` sets the pad to what it was given, if to anything. -/
theorem setButtons_sets (pad : Pad) (p : PadState) (h : Hiddbg) :
    ((pad.setButtons p h).sets = pad.sets ++ [p] ∧ (pad.setButtons p h).state = p) ∨
      ((pad.setButtons p h).sets = pad.sets ∧ (pad.setButtons p h).state = pad.state) := by
  unfold Pad.setButtons
  split
  · exact Or.inl ⟨by simp only [Pad.put, (ensure_keeps pad h).2], rfl⟩
  · exact Or.inr ⟨(ensure_keeps pad h).2, (ensure_keeps pad h).1⟩

/-- **A press takes exactly when the pad holds its state afterwards.** -/
theorem pressTakes_iff (s : Threads) (p : PadState) (h : Hiddbg) :
    PressTakes s p h ↔ (s.pad.setButtons p h).attached = true ∧ (s.pad.setButtons p h).device = some p := by
  unfold PressTakes
  by_cases ha : s.pad.attached = true
  · obtain ⟨h1, h2, -⟩ := setButtons_of_attached ha p h
    rw [if_pos ha, h1, h2]
    cases h.setState <;> simp
  · have hf := Bool.eq_false_iff.2 ha
    rw [if_neg ha]
    unfold Pad.setButtons Pad.ensure
    rw [if_neg ha]
    cases h.attachBuffer with
    | false => simp [hf]
    | true =>
      cases h.attachDevice with
      | false => simp [hf]
      | true => cases h.setState <;> simp [Pad.put, eq_comm]

/-- **Letting a centred pad go sets it to neutral, if to anything.** -/
theorem release_sets {pad : Pad} (hc : pad.state.Centred) (h : Hiddbg) :
    (pad.release h).state.Centred ∧ ((pad.release h).sets = pad.sets ++ [neutral] ∨ (pad.release h).sets = pad.sets) := by
  obtain ⟨h1, h2, h3, h4⟩ := hc
  unfold Pad.release
  split
  · refine ⟨⟨h1, h2, h3, h4⟩, Or.inl ?_⟩
    simp only [Pad.put, h1, h2, h3, h4]
    rfl
  · exact ⟨⟨h1, h2, h3, h4⟩, Or.inr rfl⟩

theorem release_attached (pad : Pad) (h : Hiddbg) : (pad.release h).attached = false := by
  unfold Pad.release
  split
  · rfl
  · rename_i ha
    exact Bool.eq_false_iff.2 ha

/-! ## Every run -/

/-- What holds in a run as long as nobody was disturbed: the sticks are centred while nothing is held. -/
structure PadInv (s : Threads) : Prop extends PadHeld s where
  centred : s.service.held = none → s.pad.state.Centred

/-- What the worker set, after a step that took it to `pad`. -/
theorem own_workerTo {s : Threads} {pad : Pad} (ho : ∀ p ∈ s.workerSets, p = pressB ∨ p = neutral) (at_ : WorkerAt)
    (hs : pad.sets = s.pad.sets ∨ pad.sets = s.pad.sets ++ [pressB] ∨ pad.sets = s.pad.sets ++ [neutral]) :
    ∀ p ∈ (s.workerTo pad at_).workerSets, p = pressB ∨ p = neutral := by
  intro p hp
  rcases List.mem_append.1 hp with h | h
  · exact ho p h
  · rcases hs with hs | hs | hs
    · rw [hs, List.drop_length] at h
      cases h
    · rw [hs, List.drop_left] at h
      exact Or.inl (List.mem_singleton.1 h)
    · rw [hs, List.drop_left] at h
      exact Or.inr (List.mem_singleton.1 h)

/-- The worker sets the pad to `q`, one of its own two states. -/
theorem workerTo_setButtons {s : Threads} (hi : PadInv s) {q : PadState} (hq : q = pressB ∨ q = neutral) (h : Hiddbg)
    (at_ : WorkerAt) :
    (PadHeld (s.workerTo (s.pad.setButtons q h) at_) ↔ ∀ p, s.service.held = some p → h.setState = true → p = q) ∧
      (PadHeld (s.workerTo (s.pad.setButtons q h) at_) → PadInv (s.workerTo (s.pad.setButtons q h) at_)) := by
  have hc : q.Centred := by rcases hq with rfl | rfl <;> decide
  have hsets : (s.pad.setButtons q h).sets = s.pad.sets ∨ (s.pad.setButtons q h).sets = s.pad.sets ++ [pressB] ∨
      (s.pad.setButtons q h).sets = s.pad.sets ++ [neutral] := by
    rcases setButtons_sets s.pad q h with ⟨hs, -⟩ | ⟨hs, -⟩
    · rcases hq with rfl | rfl
      · exact Or.inr (Or.inl hs)
      · exact Or.inr (Or.inr hs)
    · exact Or.inl hs
  have hown := own_workerTo hi.own at_ hsets
  constructor
  · constructor
    · intro hh p hp hset
      obtain ⟨-, hd⟩ := hh.held p hp
      have hdev := (setButtons_of_attached (hi.held p hp).1 q h).2.1
      rw [hset, if_pos rfl] at hdev
      exact (Option.some.inj (hdev.symm.trans hd)).symm
    · intro hh
      refine ⟨fun p hp => ?_, hown⟩
      obtain ⟨ha, hd⟩ := hi.held p hp
      obtain ⟨h1, h2, -⟩ := setButtons_of_attached ha q h
      refine ⟨h1, ?_⟩
      show (s.pad.setButtons q h).device = some p
      rw [h2]
      split
      · rename_i hset
        rw [hh p hp hset]
      · exact hd
  · intro hh
    refine ⟨hh, fun hn => ?_⟩
    show (s.pad.setButtons q h).state.Centred
    rcases setButtons_sets s.pad q h with ⟨-, hst⟩ | ⟨-, hst⟩
    · rw [hst]
      exact hc
    · rw [hst]
      exact hi.centred hn

/-- A step that changes neither the pad nor what is held for a client, nor what the worker set. -/
theorem quiet_step {s s' : Threads} (hi : PadInv s) (hp : s'.pad = s.pad) (hh : s'.service.held = s.service.held)
    (hw : s'.workerSets = s.workerSets) : PadInv s' where
  held p h := by
    rw [hp]
    exact hi.held p (by rw [← hh, h])
  own := by
    rw [hw]
    exact hi.own
  centred h := by
    rw [hp]
    exact hi.centred (by rw [← hh, h])

/-- Both halves of a step that leaves the invariant and asks for nothing. -/
theorem spared {s : Threads} {P : Prop} (hi : PadInv s) (h : P) : (PadHeld s ↔ P) ∧ (PadHeld s → PadInv s) :=
  ⟨iff_of_true hi.toPadHeld h, fun _ => hi⟩

theorem stepService_inv {s : Threads} (hi : PadInv s) (h : Hiddbg) :
    (PadHeld (stepService s h) ↔ ∀ p, s.service = .press p → PressTakes s p h) ∧
      (PadHeld (stepService s h) → PadInv (stepService s h)) := by
  unfold stepService
  cases hs : s.service with
  | idle => exact spared hi fun p hp => nomatch hp
  | sleep p => exact spared (quiet_step hi rfl (by rw [hs]; rfl) rfl) fun p hp => nomatch hp
  | press p =>
    constructor
    · simp only [ServiceAt.press.injEq, forall_eq']
      rw [pressTakes_iff]
      refine ⟨fun hh => hh.held p rfl, fun hh => ⟨fun p' hp' => ?_, hi.own⟩⟩
      cases hp'
      exact hh
    · exact fun hh => ⟨hh, fun hn => nomatch hn⟩
  | release p =>
    have ha := (hi.held p (by rw [hs]; rfl)).1
    have hc : (s.pad.setButtons neutral h).state.Centred := by
      rw [(setButtons_of_attached ha neutral h).2.2]
      decide
    exact spared { held := fun _ hp => (nomatch hp), own := hi.own, centred := fun _ => hc } fun _ hp => nomatch hp

theorem stepWorker_inv (keepAwake : Bool) {s : Threads} (hi : PadInv s) (h : Hiddbg) (appRunning : Bool) :
    (PadHeld (stepWorker keepAwake s h appRunning) ↔ ∀ p, s.service.held = some p → WorkerSpares s.worker p h) ∧
      (PadHeld (stepWorker keepAwake s h appRunning) → PadInv (stepWorker keepAwake s h appRunning)) := by
  have drop : ∀ (r : Round) (at_ : WorkerAt),
      (PadHeld (s.workerTo (s.pad.release h) at_) ↔ ∀ p, s.service.held = some p → WorkerSpares (.drop r) p h) ∧
        (PadHeld (s.workerTo (s.pad.release h) at_) → PadInv (s.workerTo (s.pad.release h) at_)) := by
    intro r at_
    cases hh : s.service.held with
    | some p =>
      have hno : ¬PadHeld (s.workerTo (s.pad.release h) at_) := fun hp => by
        have := (hp.held p hh).1
        rw [Threads.workerTo, release_attached] at this
        cases this
      exact ⟨iff_of_false hno fun hall => hall p rfl, fun hp => absurd hp hno⟩
    | none =>
      obtain ⟨hc, hsets⟩ := release_sets (hi.centred hh) h
      have hown := own_workerTo hi.own at_ (hsets.elim (fun e => Or.inr (Or.inr e)) Or.inl)
      refine spared { held := fun p hp => ?_, own := hown, centred := fun _ => hc } fun p hp => nomatch hp
      cases hh.symm.trans hp
  unfold stepWorker
  cases hw : s.worker with
  | wait r =>
    cases r with
    | boot i => exact spared (quiet_step hi rfl rfl rfl) fun _ _ => trivial
    | awake => exact spared (quiet_step hi rfl rfl rfl) fun _ _ => trivial
  | check => exact spared (quiet_step hi rfl rfl rfl) fun _ _ => trivial
  | sleep r => exact spared (quiet_step hi rfl rfl rfl) fun _ _ => trivial
  | done => exact spared hi fun _ _ => trivial
  | press r => exact workerTo_setButtons hi (Or.inl rfl) h _
  | release r => exact workerTo_setButtons hi (Or.inr rfl) h _
  | drop r =>
    cases r with
    | boot i => exact drop (.boot i) _
    | awake => exact drop .awake _
  | ensure r =>
    obtain ⟨hstate, hsets⟩ := ensure_keeps s.pad h
    refine spared { held := fun p hp => ?_, own := own_workerTo hi.own _ (Or.inl hsets), centred := fun hn => ?_ }
      fun _ _ => trivial
    · have hheld := hi.held p hp
      show (s.pad.ensure h).2.attached = true ∧ (s.pad.ensure h).2.device = some p
      rw [ensure_of_attached hheld.1]
      exact hheld
    · show (s.pad.ensure h).2.state.Centred
      rw [hstate]
      exact hi.centred hn

/-- **One step**: from where nobody was disturbed, what is held stays held exactly when the step disturbs nobody. -/
theorem step_inv (keepAwake : Bool) {s : Threads} (hi : PadInv s) (a : Act) :
    (PadHeld (step keepAwake s a) ↔ Undisturbed s a) ∧ (PadHeld (step keepAwake s a) → PadInv (step keepAwake s a)) := by
  cases a with
  | service h => exact stepService_inv hi h
  | worker h appRunning => exact stepWorker_inv keepAwake hi h appRunning
  | input p h =>
    unfold step
    cases hs : s.service with
    | idle =>
      refine spared { held := fun q hq => ?_, own := hi.own, centred := fun _ => ?_ } trivial
      · dsimp only at hq
        split at hq <;> cases hq
      · show (s.pad.ensure h).2.state.Centred
        rw [(ensure_keeps s.pad h).1]
        exact hi.centred (by rw [hs]; rfl)
    | _ => exact spared hi trivial
  | disconnect h =>
    unfold step
    cases hs : s.service with
    | idle =>
      refine spared { held := fun q hq => ?_, own := hi.own, centred := fun _ => ?_ } trivial
      · cases hq
      · exact (release_sets (hi.centred (by rw [hs]; rfl)) h).1
    | _ => exact spared hi trivial

theorem padInv_started (scheduled : Bool) : PadInv (started scheduled) where
  held p h := nomatch h
  own p h := nomatch h
  centred _ := show neutral.Centred by decide

theorem runActs_append (scheduled keepAwake : Bool) (l : List Act) (a : Act) :
    runActs scheduled keepAwake (l ++ [a]) = step keepAwake (runActs scheduled keepAwake l) a := by
  rw [runActs, List.foldl_append]
  rfl

/-- Every prefix of a run holds what is held, so the run is where the invariant holds. -/
theorem padInv_of_held (scheduled keepAwake : Bool) (l : List Act)
    (h : ∀ k, k <+: l → PadHeld (runActs scheduled keepAwake k)) : PadInv (runActs scheduled keepAwake l) := by
  induction l using List.reverseRecOn with
  | nil => exact padInv_started scheduled
  | append_singleton l a ih =>
    have hi := ih fun k hk => h k (hk.trans (List.prefix_append l [a]))
    have hl := h (l ++ [a]) (List.prefix_refl _)
    rw [runActs_append] at hl ⊢
    exact (step_inv keepAwake hi a).2 hl

/-- A run whose steps disturb nobody keeps the invariant. -/
theorem padInv_of_undisturbed (scheduled keepAwake : Bool) (l : List Act)
    (h : ∀ k a, k ++ [a] <+: l → Undisturbed (runActs scheduled keepAwake k) a) : PadInv (runActs scheduled keepAwake l) := by
  induction l using List.reverseRecOn with
  | nil => exact padInv_started scheduled
  | append_singleton l a ih =>
    have hi := ih fun k b hk => h k b (hk.trans (List.prefix_append l [a]))
    have hs := step_inv keepAwake hi a
    rw [runActs_append]
    exact hs.2 (hs.1.2 (h l a (List.prefix_refl _)))

/-- **In a run of the two threads a client's input stays as it was asked for while it is held, and the worker sets only its
own states, exactly when every press takes and the worker leaves alone what is held.** -/
theorem pad_held_iff (scheduled keepAwake : Bool) (acts : List Act) :
    (∀ l, l <+: acts → PadHeld (runActs scheduled keepAwake l)) ↔
      ∀ l a, l ++ [a] <+: acts → Undisturbed (runActs scheduled keepAwake l) a := by
  constructor
  · intro h l a hl
    have hi := padInv_of_held scheduled keepAwake l fun k hk => h k (hk.trans ((List.prefix_append l [a]).trans hl))
    have hstep := h (l ++ [a]) hl
    rw [runActs_append] at hstep
    exact (step_inv keepAwake hi a).1.1 hstep
  · intro h l hl
    exact (padInv_of_undisturbed scheduled keepAwake l fun k a hk => h k a (hk.trans hl)).toPadHeld

/-- `hiddbg` that answers every call. -/
def answering : Hiddbg := ⟨true, true, true⟩

/-- A client holds A; the worker wakes for its first press and presses B. -/
def disturbingActs : List Act :=
  [.input { buttons := 1 } answering, .service answering, .worker answering false, .worker answering false,
    .worker answering false]

theorem pad_disturbed :
    (runActs true true disturbingActs).service.held = some { buttons := 1 } ∧
      (runActs true true disturbingActs).pad.device = some pressB ∧
      ¬∀ (scheduled keepAwake : Bool) (acts : List Act) (l : List Act), l <+: acts →
        PadHeld (runActs scheduled keepAwake l) := by
  have hd : (runActs true true disturbingActs).pad.device = some pressB := by decide
  have hh : (runActs true true disturbingActs).service.held = some { buttons := 1 } := by decide
  refine ⟨hh, hd, fun hall => ?_⟩
  have hp := ((hall true true disturbingActs disturbingActs (List.prefix_refl _)).held _ hh).2
  rw [hd] at hp
  exact absurd hp (by decide)

end Agent
end SwitchMcp

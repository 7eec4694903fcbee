import SwitchMcp.Client
import SwitchMcp.Autopilot
/-!
# Recording — controller input recorded and played back (agent/source/handlers/events.cpp, tools/core.py)

`RecordInput` samples the pad and makes a step of every press it sees, with the quiet samples before it as the step's
`wait_ms`; `send_input_sequence` waits `wait_ms` after a step.  `rhythm_kept_iff` compares the time between two presses as
they were recorded and as they are played back.
-/
namespace SwitchMcp
namespace Agent

open Json (Value ofPy toPy)
open PyJson (dictGet)

/-! ## `RecordInput` -/

def kMaxWaitMs : Int32 := 20000

/-- `step_ms`. -/
def stepMs : Nat := 50

def kButtonNames : List String := ["A", "B", "X", "Y", "LSTICK", "RSTICK", "L", "R", "ZL", "ZR", "PLUS", "MINUS", "DLEFT",
  "DUP", "DRIGHT", "DDOWN"]

def buttonsToArray (buttons : UInt64) : Value :=
  .array ((kButtonNames.zipIdx.filter (fun p => decide (buttons &&& (1 <<< UInt64.ofNat p.2) ≠ 0))).map
    (fun p => .string (str p.1)))

/-- One step of a recording. -/
def recordedStep (buttons : UInt64) (idleMs : Nat) : Value :=
  (((Value.object []).set (str "buttons") (buttonsToArray buttons)).set (str "hold_ms") (.int (Int64.ofNat (stepMs * 2)))).set
    (str "wait_ms") (.int (Int64.ofNat idleMs))

/-- The loop of `RecordInput`, before its `i`-th sample; `pad` is what `ReadPad` gives for each.  A round takes 50 ms, so the
duration in milliseconds is fuel enough. -/
def recordLoop (pad : Nat → Option UInt64) (durationMs : Nat) : Nat → Nat → UInt64 → Nat → List Value × Nat
  | 0, i, _, _ => ([], stepMs * i)
  | fuel + 1, i, prev, idleMs =>
    if stepMs * i < durationMs then
      match pad i with
      | none => recordLoop pad durationMs fuel (i + 1) prev (idleMs + stepMs)
      | some b =>
        if b = prev then recordLoop pad durationMs fuel (i + 1) prev (idleMs + stepMs)
        else if b ≠ 0 then
          let r := recordLoop pad durationMs fuel (i + 1) b 0
          (recordedStep b idleMs :: r.1, r.2)
        else recordLoop pad durationMs fuel (i + 1) b idleMs
    else ([], stepMs * i)

def recordMs (req : Request) : Nat :=
  let ms := ((req.get "duration_ms").asInt 5000).toInt32
  (if ms < 200 then 200 else if kMaxWaitMs < ms then kMaxWaitMs else ms).toInt.toNat

def recordInput (pad : Nat → Option UInt64) (req : Request) : Bool × Reply :=
  let r := recordLoop pad (recordMs req) (recordMs req) 0 0 0
  (true, (((({} : Reply).set "recorded_ms" (.int (Int64.ofNat r.2))).set "steps" (.int (Int64.ofNat r.1.length))).set
    "sequence" (.array r.1)).set "note" (.string (str "pass 'sequence' straight to send_input_sequence to replay it")))

/-! ## `send_input_sequence` -/

/-- What the tool does: it sends an `input`, or it sleeps. -/
inductive PlayAct
  | input (params : PyDict)
  | sleep (wait : PyJson)

def neutralSticks : PyJson := .dict [(py "lx", .int 0), (py "ly", .int 0), (py "rx", .int 0), (py "ry", .int 0)]

def playStep (step : PyDict) : List PlayAct :=
  let wait := (dictGet step (py "wait_ms")).getD (.int 150)
  .input [(py "buttons", (dictGet step (py "buttons")).getD (.list [])),
    (py "hold_ms", (dictGet step (py "hold_ms")).getD (.int 100)),
    (py "sticks", (dictGet step (py "sticks")).getD neutralSticks)] :: (if truthy wait then [.sleep wait] else [])

def sendInputSequence (steps : List PyDict) : List PlayAct := steps.flatMap playStep

/-- How long an `input` holds: `hold_ms` as the agent's `Input` reads it. -/
def holdMs (v : Value) : Int64 := clampMs 0 10000 (v.asInt 100)

/-- The time an act takes, the network left out. -/
def PlayAct.ms : PlayAct → Int
  | .input params => (holdMs (ofPy ((dictGet params (py "hold_ms")).getD .null))).toInt
  | .sleep (.int n) => max 0 n
  | .sleep _ => 0

def playMs (acts : List PlayAct) : Int := (acts.map PlayAct.ms).sum

/-- When the `k`-th step of a sequence starts. -/
def startOf (steps : List PyDict) (k : Nat) : Int := playMs (sendInputSequence (steps.take k))

def dictOf : PyJson → Option PyDict
  | .dict d => some d
  | _ => none

/-- The `sequence` of a reply, as the client gets it. -/
def sequenceOf (r : Reply) : List PyDict :=
  match toPy (r.json.get (str "sequence")) with
  | .list l => l.filterMap dictOf
  | _ => []

/-! ## The samples -/

section
variable (pad : Nat → Option UInt64)

/-- What the pad was last seen to hold before the `i`-th sample. -/
def heldBefore : Nat → UInt64
  | 0 => 0
  | i + 1 => (pad i).getD (heldBefore i)

/-- A sample that sees buttons held, and not the ones held before. -/
def isPress (i : Nat) : Bool := decide (pad i ≠ none ∧ pad i ≠ some 0 ∧ pad i ≠ some (heldBefore pad i))

/-- A sample that is missing, or sees what was held before. -/
def isQuiet (i : Nat) : Bool := decide (pad i = none ∨ pad i = some (heldBefore pad i))

/-- The samples of a recording that see a press. -/
def pressSamples (n : Nat) : List Nat := (List.range n).filter (isPress pad)

/-- The quiet samples between a sample and the press before it. -/
def quietBefore (i : Nat) : Nat :=
  ((List.range i).filter (fun j => isQuiet pad j && decide (∀ k < i, j < k → isPress pad k = false))).length

end

/-- The samples of a recording. -/
def sampleCount (durationMs : Nat) : Nat := (durationMs + (stepMs - 1)) / stepMs

/-- Played back, each press comes as long after the one before it as it was recorded, up to one sample. -/
def KeepsRhythm (pad : Nat → Option UInt64) (req : Request) : Prop :=
  ∀ k p q : Nat, (pressSamples pad (sampleCount (recordMs req)))[k]? = some p →
    (pressSamples pad (sampleCount (recordMs req)))[k + 1]? = some q →
    |startOf (sequenceOf (recordInput pad req).2) (k + 1) - startOf (sequenceOf (recordInput pad req).2) k -
      stepMs * ((q : Int) - p)| ≤ stepMs

/-- Before each press but the last there are as many quiet samples as there are samples to the next press, less two, up to
one. -/
def PausesMatch (pad : Nat → Option UInt64) (req : Request) : Prop :=
  ∀ k p q : Nat, (pressSamples pad (sampleCount (recordMs req)))[k]? = some p →
    (pressSamples pad (sampleCount (recordMs req)))[k + 1]? = some q →
    |(quietBefore pad p : Int) + 2 - ((q : Int) - p)| ≤ 1

/-! ## The recorder's count is the quiet samples -/

section
variable (pad : Nat → Option UInt64)

theorem isPress_iff {i : Nat} {b : UInt64} (h : pad i = some b) :
    isPress pad i = true ↔ b ≠ 0 ∧ b ≠ heldBefore pad i := by
  simp [isPress, h]

theorem not_quiet_of_press {i : Nat} (h : isPress pad i = true) : isQuiet pad i = false := by
  simp only [isPress, decide_eq_true_eq] at h
  simp [isQuiet, h.1, h.2.2]

theorem quietBefore_succ (i : Nat) :
    quietBefore pad (i + 1) = if isPress pad i then 0 else quietBefore pad i + (if isQuiet pad i then 1 else 0) := by
  have hold : ∀ j ∈ List.range i, (isQuiet pad j && decide (∀ k < i + 1, j < k → isPress pad k = false)) =
      (!isPress pad i && (isQuiet pad j && decide (∀ k < i, j < k → isPress pad k = false))) := by
    intro j hj
    have hji := List.mem_range.1 hj
    rw [Bool.eq_iff_iff]
    simp only [Bool.and_eq_true, decide_eq_true_eq, Bool.not_eq_true', Nat.forall_lt_succ_right]
    constructor
    · rintro ⟨hq, hk, hi⟩
      exact ⟨hi hji, hq, hk⟩
    · rintro ⟨hi, hq, hk⟩
      exact ⟨hq, hk, fun _ => hi⟩
  have hnew : (isQuiet pad i && decide (∀ k < i + 1, i < k → isPress pad k = false)) = isQuiet pad i := by
    rw [decide_eq_true (fun k hk hik => by omega), Bool.and_true]
  unfold quietBefore
  rw [List.range_succ, List.filter_append, List.length_append, List.filter_congr hold]
  by_cases hp : isPress pad i = true
  · rw [if_pos hp, List.filter_cons_of_neg (by rw [hnew, not_quiet_of_press pad hp]; exact Bool.false_ne_true)]
    simp [hp]
  · rw [if_neg hp]
    simp only [hp, Bool.not_false, Bool.true_and]
    by_cases hq : isQuiet pad i = true
    · rw [if_pos hq, List.filter_cons_of_pos (by rw [hnew, hq])]
      rfl
    · rw [if_neg hq, List.filter_cons_of_neg (by rw [hnew]; exact hq)]
      rfl

/-- The step that is made of a press. -/
def stepAt (i : Nat) : Value := recordedStep ((pad i).getD 0) (stepMs * quietBefore pad i)

theorem lt_sampleCount_iff (i durationMs : Nat) : i < sampleCount durationMs ↔ stepMs * i < durationMs := by
  unfold sampleCount stepMs
  omega

/-- **The steps of a recording are its presses, each with the quiet samples before it.** -/
theorem recordLoop_steps (durationMs : Nat) : ∀ (fuel i : Nat), durationMs ≤ stepMs * (i + fuel) →
    (recordLoop pad durationMs fuel i (heldBefore pad i) (stepMs * quietBefore pad i)).1 =
      ((List.range' i (sampleCount durationMs - i)).filter (isPress pad)).map (stepAt pad)
  | 0, i, h => by
    have hend : sampleCount durationMs - i = 0 := by
      rw [Nat.add_zero] at h
      have := lt_sampleCount_iff i durationMs
      omega
    rw [hend]
    rfl
  | fuel + 1, i, h => by
    have ih := recordLoop_steps durationMs fuel (i + 1) (by rwa [Nat.add_right_comm, Nat.add_assoc])
    rw [quietBefore_succ] at ih
    unfold recordLoop
    by_cases hi : stepMs * i < durationMs
    · have hcount : sampleCount durationMs - i = (sampleCount durationMs - (i + 1)) + 1 := by
        have := (lt_sampleCount_iff i durationMs).2 hi
        omega
      rw [if_pos hi, hcount, List.range'_succ]
      cases hpad : pad i with
      | none =>
        have hp : isPress pad i = false := by simp [isPress, hpad]
        have hq : isQuiet pad i = true := by simp [isQuiet, hpad]
        rw [List.filter_cons_of_neg (by rw [hp]; exact Bool.false_ne_true)]
        rw [hp, hq, heldBefore, hpad] at ih
        exact ih
      | some b =>
        dsimp only
        by_cases hb : b = heldBefore pad i
        · have hp : isPress pad i = false := by simp [isPress, hpad, hb]
          have hq : isQuiet pad i = true := by simp [isQuiet, hpad, hb]
          rw [if_pos hb, List.filter_cons_of_neg (by rw [hp]; exact Bool.false_ne_true)]
          rw [hp, hq, heldBefore, hpad, Option.getD_some, hb] at ih
          exact ih
        · have hq : isQuiet pad i = false := by simp [isQuiet, hpad, hb]
          rw [if_neg hb]
          by_cases h0 : b = 0
          · have hp : isPress pad i = false := by simp [isPress, hpad, h0]
            rw [if_neg (not_not.2 h0), List.filter_cons_of_neg (by rw [hp]; exact Bool.false_ne_true)]
            rw [hp, hq, heldBefore, hpad] at ih
            exact ih
          · have hp : isPress pad i = true := (isPress_iff pad hpad).2 ⟨h0, hb⟩
            rw [if_pos h0, List.filter_cons_of_pos hp, List.map_cons, stepAt, hpad]
            rw [hp, heldBefore, hpad] at ih
            exact congrArg _ ih
    · have hend : sampleCount durationMs - i = 0 := by
        have := lt_sampleCount_iff i durationMs
        omega
      rw [if_neg hi, hend]
      rfl

end

/-! ## Played back -/

/-- A step as the client has it. -/
def playedStep (buttons : UInt64) (idleMs : Nat) : PyDict :=
  [(py "buttons", toPy (buttonsToArray buttons)), (py "hold_ms", .int (stepMs * 2 : Nat)), (py "wait_ms", .int idleMs)]

theorem toPy_recordedStep (buttons : UInt64) {idleMs : Nat} (h : idleMs < 2 ^ 63) :
    toPy (recordedStep buttons idleMs) = .dict (playedStep buttons idleMs) := by
  have hobject : recordedStep buttons idleMs = .object [(str "buttons", buttonsToArray buttons),
      (str "hold_ms", .int (Int64.ofNat (stepMs * 2))), (str "wait_ms", .int (Int64.ofNat idleMs))] := rfl
  have hidle : (Int64.ofNat idleMs).toInt = idleMs := Int64.toInt_ofNat_of_lt h
  have hb := Json.decoded_str "buttons" (by decide)
  have hh := Json.decoded_str "hold_ms" (by decide)
  have hw := Json.decoded_str "wait_ms" (by decide)
  rw [hobject]
  simp only [toPy, Json.toPyObject, hb, hh, hw, hidle]
  rfl

/-- **A step of a recording takes its hold and its own wait.** -/
theorem playMs_playedStep (buttons : UInt64) (idleMs : Nat) :
    playMs (playStep (playedStep buttons idleMs)) = stepMs * 2 + idleMs := by
  have hwait : dictGet (playedStep buttons idleMs) (py "wait_ms") = some (.int idleMs) := rfl
  have hhold : dictGet (playedStep buttons idleMs) (py "hold_ms") = some (.int (stepMs * 2 : Nat)) := rfl
  have hms : (holdMs (ofPy (.int (stepMs * 2 : Nat)))).toInt = (stepMs * 2 : Nat) := by decide
  have hinput : PlayAct.ms (.input [(py "buttons", (dictGet (playedStep buttons idleMs) (py "buttons")).getD (.list [])),
      (py "hold_ms", .int (stepMs * 2 : Nat)), (py "sticks", (dictGet (playedStep buttons idleMs) (py "sticks")).getD
        neutralSticks)]) = (stepMs * 2 : Nat) := hms
  unfold playStep playMs
  rw [hwait, hhold, Option.getD_some, Option.getD_some]
  dsimp only
  rw [List.map_cons, List.sum_cons, hinput, truthy]
  by_cases h0 : idleMs = 0
  · subst h0
    rfl
  · rw [if_pos (by simpa using h0), List.map_singleton, List.sum_singleton, PlayAct.ms]
    omega

theorem sum_playMs (a b : List PlayAct) : playMs (a ++ b) = playMs a + playMs b := by
  rw [playMs, playMs, playMs, List.map_append, List.sum_append]

theorem startOf_succ {steps : List PyDict} {k : Nat} {step : PyDict} (h : steps[k]? = some step) :
    startOf steps (k + 1) = startOf steps k + playMs (playStep step) := by
  unfold startOf sendInputSequence
  rw [List.take_add_one, h, List.flatMap_append, sum_playMs]
  simp

theorem recordMs_le (req : Request) : recordMs req ≤ 20000 := by
  have hlt : ∀ a b : Int32, a < b ↔ a.toInt < b.toInt := fun a b => Int32.lt_iff_toInt_lt
  unfold recordMs kMaxWaitMs
  dsimp only
  split
  · decide
  · split
    · decide
    · rename_i h
      rw [hlt, show (20000 : Int32).toInt = 20000 from rfl] at h
      omega

theorem quietBefore_le (pad : Nat → Option UInt64) (i : Nat) : quietBefore pad i ≤ i := by
  have h := List.length_filter_le (fun j => isQuiet pad j && decide (∀ k < i, j < k → isPress pad k = false)) (List.range i)
  rwa [List.length_range] at h

/-- **The sequence of a recording, as the client has it**: a step of every press. -/
theorem sequenceOf_recordInput (pad : Nat → Option UInt64) (req : Request) :
    sequenceOf (recordInput pad req).2 = (pressSamples pad (sampleCount (recordMs req))).map
      (fun i => playedStep ((pad i).getD 0) (stepMs * quietBefore pad i)) := by
  have hsteps := recordLoop_steps pad (recordMs req) (recordMs req) 0 (by unfold stepMs; omega)
  have hzero : stepMs * quietBefore pad 0 = 0 := rfl
  rw [hzero, heldBefore, Nat.sub_zero, ← List.range_eq_range'] at hsteps
  have hget : (recordInput pad req).2.json.get (str "sequence") =
      .array (recordLoop pad (recordMs req) (recordMs req) 0 0 0).1 := by
    simp [recordInput, Reply.set, show str "note" ≠ str "sequence" by decide]
  have hpy : ∀ l : List Nat, (∀ i ∈ l, stepMs * quietBefore pad i < 2 ^ 63) → Json.toPyArray (l.map (stepAt pad)) =
      l.map (fun i => PyJson.dict (playedStep ((pad i).getD 0) (stepMs * quietBefore pad i))) := by
    intro l
    induction l with
    | nil => exact fun _ => rfl
    | cons i l ih =>
      intro h
      rw [List.map_cons, List.map_cons, Json.toPyArray, ih fun j hj => h j (List.mem_cons_of_mem _ hj), stepAt,
        toPy_recordedStep _ (h i List.mem_cons_self)]
  have hbound : ∀ i ∈ pressSamples pad (sampleCount (recordMs req)), stepMs * quietBefore pad i < 2 ^ 63 := by
    intro i hi
    have h1 := List.mem_range.1 (List.mem_filter.1 hi).1
    have h2 := recordMs_le req
    have h3 := quietBefore_le pad i
    rw [lt_sampleCount_iff] at h1
    have h4 := Nat.mul_le_mul_left stepMs h3
    omega
  unfold sequenceOf
  rw [hget, hsteps, toPy]
  dsimp only
  rw [show (List.range (sampleCount (recordMs req))).filter (isPress pad) = pressSamples pad _ from rfl, hpy _ hbound,
    List.filterMap_map]
  exact congrFun List.filterMap_eq_map _

/-- **A recording plays back in its rhythm exactly when the pause before each press but the last is, up to a sample, the
pause after it**: a step's `wait_ms` is the quiet time before its press, and it is played after it. -/
theorem rhythm_kept_iff (pad : Nat → Option UInt64) (req : Request) : KeepsRhythm pad req ↔ PausesMatch pad req := by
  unfold KeepsRhythm PausesMatch
  refine forall_congr' fun k => forall_congr' fun p => forall_congr' fun q => imp_congr_right fun hp => imp_congr_right
    fun _ => ?_
  have hstep : (sequenceOf (recordInput pad req).2)[k]? =
      some (playedStep ((pad p).getD 0) (stepMs * quietBefore pad p)) := by
    rw [sequenceOf_recordInput, List.getElem?_map, hp, Option.map_some]
  rw [startOf_succ hstep, playMs_playedStep, abs_le, abs_le]
  unfold stepMs
  omega

/-- One press of A as the recording starts, and one of B a second later. -/
def twoPresses (i : Nat) : Option UInt64 := some (if i = 0 then 1 else if i = 20 then 2 else 0)

/-- **Two presses a second apart are played back a tenth of a second apart.** -/
theorem rhythm_lost :
    pressSamples twoPresses (sampleCount 5000) = [0, 20] ∧ recordMs ⟨.object [], []⟩ = 5000 ∧
    startOf (sequenceOf (recordInput twoPresses ⟨.object [], []⟩).2) 1 = 100 ∧
    ¬KeepsRhythm twoPresses ⟨.object [], []⟩ := by
  have hp : pressSamples twoPresses (sampleCount 5000) = [0, 20] := by decide +kernel
  have hs : startOf (sequenceOf (recordInput twoPresses ⟨.object [], []⟩).2) 1 = 100 := by decide +kernel
  refine ⟨hp, rfl, hs, fun h => ?_⟩
  have := h 0 0 20 (by rw [show recordMs ⟨.object [], []⟩ = 5000 from rfl, hp]; rfl)
    (by rw [show recordMs ⟨.object [], []⟩ = 5000 from rfl, hp]; rfl)
  rw [hs] at this
  revert this
  decide

end Agent
end SwitchMcp

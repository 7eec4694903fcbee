import SwitchMcp.Fields
/-!
# Autopilot — typed text and touches (agent/source/handlers/input.cpp)

`TypeText` and `Touch` hand the keyboard and the touchscreen a state, wait, hand over the next, and give the device back
at the end.  A run is the list of what they did, with what each call that sets a state answered; `res n` is the answer to
the `n`-th of them.  `released_iff` says when a run that held a state gave the device back last.
-/
namespace SwitchMcp
namespace Agent

open Json (Value)

/-! ## What the handlers do -/

/-- What the keyboard holds: at most one key, and whether Shift is down with it. -/
abbrev KeyState := Option (UInt8 × Bool)

inductive PilotAct
  | setKeyboard (st : KeyState) (ok : Bool)
  | unsetKeyboard
  | setTouch (x y : UInt32) (ok : Bool)
  | unsetTouch
  | sleep (ns : UInt64)
deriving DecidableEq

/-- A state was set. -/
def PilotAct.sets : PilotAct → Bool
  | .setKeyboard _ ok | .setTouch _ _ ok => ok
  | _ => false

def PilotAct.onDevice : PilotAct → Bool
  | .sleep _ => false
  | _ => true

/-- `CharToKey`. -/
def charToKey (c : UInt8) : Option (UInt8 × Bool) :=
  if ch 'a' ≤ c ∧ c ≤ ch 'z' then some (4 + (c - ch 'a'), false)
  else if ch 'A' ≤ c ∧ c ≤ ch 'Z' then some (4 + (c - ch 'A'), true)
  else if ch '1' ≤ c ∧ c ≤ ch '9' then some (30 + (c - ch '1'), false)
  else if c = ch '0' then some (39, false)
  else (punctuation.find? (fun p => decide (ch p.1 = c))).map Prod.snd
where
  punctuation : List (Char × UInt8 × Bool) := [
    (' ', 44, false), ('\n', 40, false), ('-', 45, false), ('_', 45, true), ('=', 46, false), ('+', 46, true),
    ('[', 47, false), (']', 48, false), ('\\', 49, false), (';', 51, false), (':', 51, true), ('\'', 52, false),
    ('"', 52, true), (',', 54, false), ('<', 54, true), ('.', 55, false), ('>', 55, true), ('/', 56, false),
    ('?', 56, true), ('!', 30, true), ('@', 31, true), ('#', 32, true), ('$', 33, true), ('%', 34, true),
    ('^', 35, true), ('&', 36, true), ('*', 37, true), ('(', 38, true), (')', 39, true)]

/-- The loop of `TypeText`: what it did, and how many characters it typed unless it returned early. -/
def typeLoop (res : Nat → Bool) (ns : UInt64) : Bytes → Nat → Nat → List PilotAct × Option Nat
  | [], _, typed => ([], some typed)
  | c :: text, n, typed =>
    match charToKey c with
    | none => typeLoop res ns text n typed
    | some key =>
      if res n then
        let r := typeLoop res ns text (n + 2) (typed + 1)
        (.setKeyboard (some key) true :: .sleep ns :: .setKeyboard none (res (n + 1)) :: .sleep ns :: r.1, r.2)
      else ([.setKeyboard (some key) false], none)

def clampMs (lo hi ms : Int64) : Int64 := if ms < lo then lo else if hi < ms then hi else ms

def typedText (req : Request) : Bytes := (req.get "text").asString []

def typeText (res : Nat → Bool) (req : Request) : (Bool × Reply) × List PilotAct :=
  if typedText req = [] then ((false, fail "bad_arg" (str "missing text")), [])
  else
    let keyMs := clampMs 10 500 ((req.get "key_ms").asInt 40)
    match typeLoop res (keyMs.toUInt64 * 1000000) (typedText req) 0 0 with
    | (acts, none) => ((false, fail "kbd_failed" (str "keyboard auto-pilot state failed")), acts)
    | (acts, some typed) =>
      ((true, (({} : Reply).set "ok" (.bool true)).set "typed" (.int (Int64.ofNat typed))), acts ++ [.unsetKeyboard])

def touchSteps : Nat := 10

/-- One coordinate of the `i`-th point between two. -/
def touchAt (a b : Int32) (i : Nat) : UInt32 := (a + (b - a) * Int32.ofNat i / Int32.ofNat touchSteps).toUInt32

/-- The loop of `Touch`, with `left` rounds to go. -/
def touchLoop (res : Nat → Bool) (x y x2 y2 : Int32) (ns : UInt64) : Nat → Nat → List PilotAct × Bool
  | 0, _ => ([], true)
  | left + 1, i =>
    if res i then
      let r := touchLoop res x y x2 y2 ns left (i + 1)
      (.setTouch (touchAt x x2 i) (touchAt y y2 i) true :: .sleep ns :: r.1, r.2)
    else ([.setTouch (touchAt x x2 i) (touchAt y y2 i) false], false)

def touch (res : Nat → Bool) (req : Request) : (Bool × Reply) × List PilotAct :=
  let x := ((req.get "x").asInt 0).toInt32
  let y := ((req.get "y").asInt 0).toInt32
  let x2 := ((req.get "x2").asInt x.toInt64).toInt32
  let y2 := ((req.get "y2").asInt y.toInt64).toInt32
  let durationMs := clampMs 10 5000 ((req.get "duration_ms").asInt 50)
  match touchLoop res x y x2 y2 (durationMs.toUInt64 * 1000000 / UInt64.ofNat touchSteps) (touchSteps + 1) 0 with
  | (acts, false) => ((false, fail "touch_failed" (str "auto-pilot state failed")), acts)
  | (acts, true) => ((true, ({} : Reply).set "ok" (.bool true)), acts ++ [.unsetTouch])

/-! ## Giving the device back -/

/-- A run that set a state at least once ends, on the device, with the call that gives it back. -/
def Released (unset : PilotAct) (acts : List PilotAct) : Prop :=
  (∃ a ∈ acts, a.sets = true) → (acts.filter PilotAct.onDevice).getLast? = some unset

/-- The characters of a text that have a key. -/
def typedKeys (text : Bytes) : List (UInt8 × Bool) := text.filterMap charToKey

theorem released_of_unset {unset : PilotAct} (hu : unset.onDevice = true) (acts : List PilotAct) :
    Released unset (acts ++ [unset]) := by
  intro _
  rw [List.filter_append, List.filter_cons_of_pos hu, List.filter_nil, List.getLast?_append]
  rfl

/-- A run that ends with a call that failed was released only if nothing had been set. -/
theorem released_of_failed {unset a : PilotAct} {acts : List PilotAct} (ha : a.onDevice = true) (hne : a ≠ unset) :
    Released unset (acts ++ [a]) ↔ ¬∃ b ∈ acts ++ [a], b.sets = true := by
  have hlast : ((acts ++ [a]).filter PilotAct.onDevice).getLast? = some a := by
    rw [List.filter_append, List.filter_cons_of_pos ha, List.filter_nil, List.getLast?_append]
    rfl
  unfold Released
  rw [hlast, Option.some.injEq]
  exact ⟨fun h hb => hne (h hb), fun h hb => absurd hb h⟩

/-- **The typing loop returns early exactly when a press fails**; its last act is that press, and a state was set before it
exactly when the first press did not fail. -/
theorem typeLoop_cases (res : Nat → Bool) (ns : UInt64) : ∀ (text : Bytes) (n typed : Nat),
    ((∃ k, (typeLoop res ns text n typed).2 = some k) ∧ ∀ i < (typedKeys text).length, res (n + 2 * i) = true) ∨
    ((typeLoop res ns text n typed).2 = none ∧ (¬∀ i < (typedKeys text).length, res (n + 2 * i) = true) ∧
      ∃ acts key, (typeLoop res ns text n typed).1 = acts ++ [.setKeyboard (some key) false] ∧
        ((∃ a ∈ acts ++ [.setKeyboard (some key) false], a.sets = true) ↔ res n = true))
  | [], n, typed => Or.inl ⟨⟨typed, rfl⟩, fun _ h => absurd h (Nat.not_lt_zero _)⟩
  | c :: text, n, typed => by
    unfold typeLoop
    cases hk : charToKey c with
    | none =>
      have hkeys : typedKeys (c :: text) = typedKeys text := List.filterMap_cons_none hk
      rw [hkeys]
      exact typeLoop_cases res ns text n typed
    | some key =>
      have hkeys : typedKeys (c :: text) = key :: typedKeys text := List.filterMap_cons_some hk
      rw [hkeys]
      dsimp only
      cases hres : res n with
      | false =>
        rw [if_neg Bool.false_ne_true]
        refine Or.inr ⟨rfl, fun h => ?_, [], key, rfl, ?_⟩
        · have h0 := h 0 (Nat.succ_pos _)
          rw [Nat.mul_zero, Nat.add_zero, hres] at h0
          cases h0
        · simp [PilotAct.sets]
      | true =>
        rw [if_pos rfl]
        have hshift : (∀ i < (key :: typedKeys text).length, res (n + 2 * i) = true) ↔
            ∀ i < (typedKeys text).length, res (n + 2 + 2 * i) = true := by
          rw [List.length_cons, Nat.forall_lt_succ_left, Nat.mul_zero, Nat.add_zero, and_iff_right hres]
          simp only [Nat.mul_add, Nat.mul_one, Nat.add_assoc, Nat.add_comm 2]
        rw [hshift]
        rcases typeLoop_cases res ns text (n + 2) (typed + 1) with h | ⟨hr, hfail, acts, key', hacts, -⟩
        · exact Or.inl h
        · refine Or.inr ⟨hr, hfail, .setKeyboard (some key) true :: .sleep ns :: .setKeyboard none (res (n + 1)) ::
            .sleep ns :: acts, key', ?_, ?_⟩
          · rw [hacts]
            rfl
          · simp [PilotAct.sets]

/-- **The touch loop stops exactly when a state is refused**; its last act is that state, and one was set before it exactly
when the first was not refused. -/
theorem touchLoop_cases (res : Nat → Bool) (x y x2 y2 : Int32) (ns : UInt64) : ∀ (left i : Nat),
    ((touchLoop res x y x2 y2 ns left i).2 = true ∧ ∀ k < left, res (i + k) = true) ∨
    ((touchLoop res x y x2 y2 ns left i).2 = false ∧ (¬∀ k < left, res (i + k) = true) ∧
      ∃ acts px py, (touchLoop res x y x2 y2 ns left i).1 = acts ++ [.setTouch px py false] ∧
        ((∃ a ∈ acts ++ [.setTouch px py false], a.sets = true) ↔ res i = true))
  | 0, i => Or.inl ⟨rfl, fun _ h => absurd h (Nat.not_lt_zero _)⟩
  | left + 1, i => by
    unfold touchLoop
    dsimp only
    cases hres : res i with
    | false =>
      rw [if_neg Bool.false_ne_true]
      refine Or.inr ⟨rfl, fun h => ?_, [], _, _, rfl, ?_⟩
      · have h0 := h 0 (Nat.succ_pos _)
        rw [Nat.add_zero, hres] at h0
        cases h0
      · simp [PilotAct.sets]
    | true =>
      rw [if_pos rfl]
      have hshift : (∀ k < left + 1, res (i + k) = true) ↔ ∀ k < left, res (i + 1 + k) = true := by
        rw [Nat.forall_lt_succ_left, Nat.add_zero, and_iff_right hres]
        simp only [Nat.add_assoc, Nat.add_comm 1]
      rw [hshift]
      rcases touchLoop_cases res x y x2 y2 ns left (i + 1) with h | ⟨hr, hfail, acts, px, py, hacts, -⟩
      · exact Or.inl h
      · refine Or.inr ⟨hr, hfail, .setTouch (touchAt x x2 i) (touchAt y y2 i) true :: .sleep ns :: acts, px, py, ?_, ?_⟩
        · rw [hacts]
          rfl
        · simp [PilotAct.sets]

theorem typeText_released_iff (res : Nat → Bool) (req : Request) :
    Released .unsetKeyboard (typeText res req).2 ↔
      (res 0 = false ∨ ∀ i < (typedKeys (typedText req)).length, res (2 * i) = true) := by
  unfold typeText
  by_cases ht : typedText req = []
  · rw [if_pos ht, ht]
    exact iff_of_true (fun h => by simp at h) (Or.inr fun i h => absurd h (Nat.not_lt_zero i))
  · rw [if_neg ht]
    dsimp only
    have hcases := typeLoop_cases res
      ((clampMs 10 500 ((req.get "key_ms").asInt 40)).toUInt64 * 1000000) (typedText req) 0 0
    simp only [Nat.zero_add] at hcases
    revert hcases
    generalize typeLoop res _ (typedText req) 0 0 = run
    obtain ⟨acts, typed⟩ := run
    rintro (⟨⟨k, rfl⟩, hall⟩ | ⟨rfl, hfail, pre, key, rfl, hset⟩)
    · exact iff_of_true (released_of_unset rfl acts) (Or.inr hall)
    · dsimp only
      rw [released_of_failed rfl (by simp), hset, Bool.not_eq_true]
      exact ⟨Or.inl, fun h => h.resolve_right hfail⟩

theorem touch_released_iff (res : Nat → Bool) (req : Request) :
    Released .unsetTouch (touch res req).2 ↔ (res 0 = false ∨ ∀ i ≤ touchSteps, res i = true) := by
  unfold touch
  dsimp only
  have hcases := touchLoop_cases res ((req.get "x").asInt 0).toInt32 ((req.get "y").asInt 0).toInt32
    ((req.get "x2").asInt ((req.get "x").asInt 0).toInt32.toInt64).toInt32
    ((req.get "y2").asInt ((req.get "y").asInt 0).toInt32.toInt64).toInt32
    ((clampMs 10 5000 ((req.get "duration_ms").asInt 50)).toUInt64 * 1000000 / UInt64.ofNat touchSteps) (touchSteps + 1) 0
  simp only [Nat.zero_add, Nat.lt_succ_iff] at hcases
  revert hcases
  generalize touchLoop res _ _ _ _ _ (touchSteps + 1) 0 = run
  obtain ⟨acts, done⟩ := run
  rintro (⟨rfl, hall⟩ | ⟨rfl, hfail, pre, px, py, rfl, hset⟩)
  · exact iff_of_true (released_of_unset rfl acts) (Or.inr hall)
  · dsimp only
    rw [released_of_failed rfl (by simp), hset, Bool.not_eq_true]
    exact ⟨Or.inl, fun h => h.resolve_right hfail⟩

/-- **A run that set a state gives the device back last exactly when no later press or touch state is refused**: the first
one is, so that nothing was set, or none is.  What a key's release answers makes no difference. -/
theorem released_iff (res : Nat → Bool) (req : Request) :
    (Released .unsetKeyboard (typeText res req).2 ↔
      (res 0 = false ∨ ∀ i < (typedKeys (typedText req)).length, res (2 * i) = true)) ∧
    (Released .unsetTouch (touch res req).2 ↔ (res 0 = false ∨ ∀ i ≤ touchSteps, res i = true)) :=
  ⟨typeText_released_iff res req, touch_released_iff res req⟩

/-- **A text whose second press is refused, and a swipe whose second state is**: the run ends with the refused call. -/
theorem held_after_error :
    ¬Released .unsetKeyboard (typeText (fun n => decide (n ≠ 2)) ⟨.object [(str "text", .string (str "ab"))], []⟩).2 ∧
    ¬Released .unsetTouch (touch (fun n => decide (n ≠ 1)) ⟨.object [(str "x", .int 5), (str "y", .int 7)], []⟩).2 := by
  constructor
  · intro h
    have hlast := h ⟨.setKeyboard (some (4, false)) true, by decide +kernel, rfl⟩
    revert hlast
    decide +kernel
  · intro h
    have hlast := h ⟨.setTouch 5 7 true, by decide +kernel, rfl⟩
    revert hlast
    decide +kernel

end Agent
end SwitchMcp

import Mathlib.Data.Nat.Bits
import SwitchMcp.Unicode
/-!
# ScreenChange — waiting for the screen to change (server/tools/core.py, server/screen.py)

`screen_changed` takes a screenshot, then polls: it sleeps, adds `poll_ms` to what it has waited, takes another and compares
the two by their hashes.  What Pillow makes of a screenshot (the grid of grey values, the picture that is sent back) is a
parameter.  `settles_iff` says for which arguments and screens the loop ends.
-/
namespace SwitchMcp
namespace Screen

/-! ## The hash (screen.py) -/

/-- `phash` of a grid of grey values: a bit for each that is above their average. -/
def phash (px : List Nat) : Nat :=
  px.zipIdx.foldl (fun bits p => if px.sum < p.1 * px.length then bits ||| (1 <<< p.2) else bits) 0

def hamming (a b : Nat) : Nat := (Nat.bits (a ^^^ b)).count true

def looksSame (a b : Nat) : Bool := decide (hamming a b ≤ 8)

/-! ## `screen_changed` (tools/core.py) -/

/-- The text that is returned, and the picture with it. -/
structure Answer where
  text : PyStr
  image : Option Bytes

/-- How a call ends. -/
inductive Outcome
  | changed (waited : Int) (jpeg : Bytes)
  | unchanged (timeoutMs : Int)
  /-- `poll_ms / 1000` does not fit a float: `OverflowError`. -/
  | raised

/-- 2 ^ 1024 - 2 ^ 970: a quotient from here on is rounded to 2 ^ 1024 or beyond. -/
@[irreducible] def floatLimit : Nat := (2 ^ 54 - 1) * 2 ^ 970

def sleepOverflows (pollMs : Int) : Bool := decide (1000 * floatLimit ≤ pollMs.natAbs)

theorem floatLimit_pos : 0 < floatLimit := by
  unfold floatLimit
  exact Nat.mul_pos (by decide) (Nat.two_pow_pos 970)

section
variable (grid : Bytes → List Nat) (shots : Nat → Bytes) (timeoutMs pollMs : Int)

/-- So many turns of the loop, from a screenshot and a time waited on. -/
def pollLoop (baseline : Nat) : Nat → Nat → Int → Option Outcome
  | 0, _, _ => none
  | n + 1, k, waited =>
    if waited < timeoutMs then
      if sleepOverflows pollMs then some .raised
      else
        let waited := waited + pollMs
        let jpeg := shots k
        if !looksSame baseline (phash (grid jpeg)) then some (.changed waited jpeg)
        else pollLoop baseline n (k + 1) waited
    else some (.unchanged timeoutMs)

/-- `screen_changed`, given so many turns: the first screenshot is the baseline. -/
def screenChanged (n : Nat) : Option Outcome :=
  pollLoop grid shots timeoutMs pollMs (phash (grid (shots 0))) n 1 0

/-- What is returned, `downscale` being Pillow's. -/
def Outcome.answer (downscale : Bytes → Bytes) : Outcome → Option Answer
  | .changed waited jpeg => some ⟨py "screen changed after ~" ++ py (toString waited) ++ py "ms", some (downscale jpeg)⟩
  | .unchanged timeoutMs => some ⟨py "no change after " ++ py (toString timeoutMs) ++
      py "ms (screen is static; the action may not have registered)", none⟩
  | .raised => none

/-- The screen after the `k`-th sleep is not the baseline any more. -/
def Differs (k : Nat) : Prop := looksSame (phash (grid (shots 0))) (phash (grid (shots (k + 1)))) = false

/-- The first screen that differs is returned, or none did until the time was over. -/
def Right : Outcome → Prop
  | .changed waited jpeg => ∃ k : Nat, jpeg = shots (k + 1) ∧ waited = (k + 1) * pollMs ∧ Differs grid shots k ∧
      (∀ j < k, ¬Differs grid shots j) ∧ k * pollMs < timeoutMs
  | .unchanged t => t = timeoutMs ∧ ∃ k : Nat, timeoutMs ≤ k * pollMs ∧ ∀ j < k, ¬Differs grid shots j
  | .raised => False

end

section
variable {grid : Bytes → List Nat} {shots : Nat → Bytes} {timeoutMs pollMs : Int}

/-- A turn that goes on. -/
theorem pollLoop_same {k : Nat} {waited : Int} (n : Nat) (ht : waited < timeoutMs) (ho : sleepOverflows pollMs = false)
    (hs : ¬Differs grid shots k) :
    pollLoop grid shots timeoutMs pollMs (phash (grid (shots 0))) (n + 1) (k + 1) waited =
      pollLoop grid shots timeoutMs pollMs (phash (grid (shots 0))) n (k + 1 + 1) (waited + pollMs) := by
  rw [Differs, Bool.not_eq_false] at hs
  rw [pollLoop, if_pos ht, ho, if_neg Bool.false_ne_true]
  dsimp only
  rw [hs, Bool.not_true, if_neg Bool.false_ne_true]

/-- Nothing has changed so far, and there is time left. -/
theorem screenChanged_add (ho : sleepOverflows pollMs = false) (n : Nat) : ∀ k : Nat,
    (∀ j < k, ¬Differs grid shots j ∧ j * pollMs < timeoutMs) →
      screenChanged grid shots timeoutMs pollMs (k + n) =
        pollLoop grid shots timeoutMs pollMs (phash (grid (shots 0))) n (k + 1) (k * pollMs)
  | 0, _ => by
    rw [Nat.zero_add, Nat.cast_zero, zero_mul]
    rfl
  | k + 1, h => by
    obtain ⟨hs, ht⟩ := h k (Nat.lt_succ_self k)
    have hk := screenChanged_add ho (n + 1) k (fun j hj => h j (Nat.lt_succ_of_lt hj))
    rw [Nat.add_right_comm, Nat.add_assoc, hk, pollLoop_same n ht ho hs]
    congr 1
    rw [Nat.cast_succ]
    ring

/-- The turn after which the call is over. -/
theorem screenChanged_last (ho : sleepOverflows pollMs = false) {k : Nat}
    (hk : Differs grid shots k ∨ timeoutMs ≤ k * pollMs)
    (hmin : ∀ j < k, ¬(Differs grid shots j ∨ timeoutMs ≤ j * pollMs)) :
    ∃ o, screenChanged grid shots timeoutMs pollMs (k + 1) = some o ∧ Right grid shots timeoutMs pollMs o := by
  have hbefore : ∀ j < k, ¬Differs grid shots j ∧ j * pollMs < timeoutMs := by
    intro j hj
    obtain ⟨h1, h2⟩ := not_or.1 (hmin j hj)
    exact ⟨h1, not_le.1 h2⟩
  rw [screenChanged_add ho 1 k hbefore, pollLoop]
  by_cases ht : k * pollMs < timeoutMs
  · have hd : Differs grid shots k := hk.resolve_right (not_le.2 ht)
    rw [if_pos ht, ho, if_neg Bool.false_ne_true]
    dsimp only
    rw [show looksSame (phash (grid (shots 0))) (phash (grid (shots (k + 1)))) = false from hd, Bool.not_false, if_pos rfl]
    refine ⟨_, rfl, k, rfl, by ring, hd, fun j hj => (hbefore j hj).1, ht⟩
  · rw [if_neg ht]
    exact ⟨_, rfl, rfl, k, not_lt.1 ht, fun j hj => (hbefore j hj).1⟩

/-- On a static screen the loop goes on while what was waited does not grow. -/
theorem pollLoop_forever (ht : 0 < timeoutMs) (hp : pollMs ≤ 0) (ho : sleepOverflows pollMs = false)
    (hs : ∀ k, ¬Differs grid shots k) : ∀ (n k : Nat) (waited : Int), waited ≤ 0 →
      pollLoop grid shots timeoutMs pollMs (phash (grid (shots 0))) n (k + 1) waited = none
  | 0, _, _, _ => rfl
  | n + 1, k, waited, hw => by
    rw [pollLoop_same n (by omega) ho (hs k)]
    exact pollLoop_forever ht hp ho hs n (k + 1) (waited + pollMs) (by omega)

end

/-- **`screen_changed` returns the first screen that differs, or reports that the time is over, after finitely many
screenshots, exactly where** no time is given, or `poll_ms` is positive (and fits the division), or some screen differs. -/
theorem settles_iff (grid : Bytes → List Nat) (shots : Nat → Bytes) (timeoutMs pollMs : Int) :
    (∃ n o, screenChanged grid shots timeoutMs pollMs n = some o ∧ Right grid shots timeoutMs pollMs o) ↔
      timeoutMs ≤ 0 ∨ sleepOverflows pollMs = false ∧ (0 < pollMs ∨ ∃ k, Differs grid shots k) := by
  constructor
  · rintro ⟨n, o, hn, hr⟩
    by_cases ht : timeoutMs ≤ 0
    · exact Or.inl ht
    right
    rw [not_le] at ht
    cases n with
    | zero => cases hn
    | succ n =>
      cases ho : sleepOverflows pollMs with
      | true =>
        rw [screenChanged, pollLoop, if_pos ht, ho, if_pos rfl] at hn
        cases hn
        exact hr.elim
      | false =>
        refine ⟨rfl, ?_⟩
        by_contra hno
        obtain ⟨hp, hs⟩ := not_or.1 hno
        have hnone := pollLoop_forever ht (not_lt.1 hp) ho (not_exists.1 hs) (n + 1) 0 0 le_rfl
        rw [screenChanged, hnone] at hn
        cases hn
  · intro h
    by_cases ht : timeoutMs ≤ 0
    · refine ⟨1, .unchanged timeoutMs, ?_, rfl, 0, ?_, fun j hj => absurd hj (Nat.not_lt_zero j)⟩
      · rw [screenChanged, pollLoop, if_neg (not_lt.2 ht)]
      · rw [Nat.cast_zero, zero_mul]
        exact ht
    obtain ⟨ho, h⟩ := h.resolve_left ht
    classical
    have hex : ∃ k : Nat, Differs grid shots k ∨ timeoutMs ≤ k * pollMs := by
      rcases h with hp | ⟨k, hk⟩
      · refine ⟨timeoutMs.toNat, Or.inr ?_⟩
        have hself : timeoutMs ≤ timeoutMs.toNat := Int.self_le_toNat timeoutMs
        nlinarith
      · exact ⟨k, Or.inl hk⟩
    obtain ⟨o, hrun, hr⟩ := screenChanged_last ho (Nat.find_spec hex) (fun j hj => Nat.find_min hex hj)
    exact ⟨_, o, hrun, hr⟩

/-- **A static screen polled every 0 ms is polled without an end**, whatever the time that is given. -/
theorem static_never_settles : ¬∃ n o, screenChanged (fun _ => []) (fun _ => []) 5000 0 n = some o := by
  rintro ⟨n, o, h⟩
  have ho : sleepOverflows 0 = false := by
    have := floatLimit_pos
    rw [sleepOverflows, decide_eq_false_iff_not, Int.natAbs_zero]
    omega
  have hsame : ∀ k, ¬Differs (fun _ => []) (fun _ => []) k := by
    intro k h
    rw [Differs] at h
    exact absurd h (by decide)
  exact absurd ((pollLoop_forever (by decide) le_rfl ho hsame n 0 0 le_rfl).symm.trans h) nofun

end Screen
end SwitchMcp

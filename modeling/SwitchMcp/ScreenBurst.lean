import Mathlib.Data.List.Destutter
import SwitchMcp.ScreenChange
/-!
# ScreenBurst — a burst of screenshots without the repeated ones (server/tools/core.py)

`stream_screen` takes some screenshots one after the other and drops those that look the same as the last one it kept.
`stream_thins` says what is left: it is Mathlib's `destutter` of all that were taken, so a screen that drifts by less than the
tolerance from shot to shot is kept again as soon as it has left the tolerance of the last one kept.
-/
namespace SwitchMcp
namespace Screen

/-- The state of the loop: `out`, `last_hash` and `skipped`. -/
structure Burst where
  out : List Bytes := []
  lastHash : Option Nat := none
  skipped : Nat := 0

/-- `max(1, min(frames, 20))`. -/
def frameCount (frames : Int) : Nat := (max 1 (min frames 20)).toNat

section
variable (grid : Bytes → List Nat) (skipIdentical : Bool)

/-- A turn of the loop, but for its sleep. -/
def Burst.take (b : Burst) (jpeg : Bytes) : Burst :=
  if skipIdentical then
    let h := phash (grid jpeg)
    if b.lastHash.any fun last => looksSame last h then { b with skipped := b.skipped + 1 }
    else { b with out := b.out ++ [jpeg], lastHash := some h }
  else { b with out := b.out ++ [jpeg] }

/-- The loop over the screenshots that are still to come; between two of them it sleeps, which raises where the time does not
fit a float. -/
def burstLoop (intervalMs : Int) : List Bytes → Burst → Option Burst
  | [], b => some b
  | jpeg :: shots, b =>
    if shots ≠ [] ∧ sleepOverflows intervalMs = true then none
    else burstLoop intervalMs shots (b.take grid skipIdentical jpeg)

/-- `f"{len(out)} frame(s) returned"`, and what was skipped. -/
def summary (returned skipped : Nat) : PyStr :=
  py (toString returned) ++ py " frame(s) returned" ++
    if skipped = 0 then [] else py ", " ++ py (toString skipped) ++ py " identical frame(s) skipped"

/-- `stream_screen`: the text and the pictures, `downscale` being Pillow's; `shots` are what the screen shows. -/
def streamScreen (downscale : Bytes → Bytes) (shots : Nat → Bytes) (frames intervalMs : Int) : Option (PyStr × List Bytes) :=
  (burstLoop grid skipIdentical intervalMs ((List.range (frameCount frames)).map shots) {}).map fun b =>
    (summary b.out.length b.skipped, b.out.map downscale)

end

section
variable {grid : Bytes → List Nat}

/-- Two screens that do not look the same. -/
def Distinct (grid : Bytes → List Nat) (a b : Bytes) : Prop := looksSame (phash (grid a)) (phash (grid b)) = false

instance : DecidableRel (Distinct grid) := fun _ _ => inferInstanceAs (Decidable (_ = _))

theorem burstLoop_eq (skipIdentical : Bool) (intervalMs : Int) : ∀ (shots : List Bytes) (b : Burst),
    burstLoop grid skipIdentical intervalMs shots b =
      if 1 < shots.length ∧ sleepOverflows intervalMs = true then none
      else some (shots.foldl (Burst.take grid skipIdentical) b)
  | [], b => rfl
  | [jpeg], b => by simp [burstLoop]
  | jpeg :: next :: shots, b => by
    rw [burstLoop, burstLoop_eq skipIdentical intervalMs (next :: shots)]
    by_cases ho : sleepOverflows intervalMs = true
    · simp [ho]
    · simp [ho]

/-- **What a burst keeps**, from a screen on that it has kept. -/
theorem foldl_take_out : ∀ (shots out : List Bytes) (last : Bytes) (skipped : Nat),
    (shots.foldl (Burst.take grid true) ⟨out ++ [last], some (phash (grid last)), skipped⟩).out =
      out ++ shots.destutter' (Distinct grid) last
  | [], out, last, skipped => rfl
  | jpeg :: shots, out, last, skipped => by
    rw [List.foldl_cons, List.destutter'_cons]
    by_cases hsame : looksSame (phash (grid last)) (phash (grid jpeg)) = true
    · have hdrop : ¬Distinct grid last jpeg := by simp [Distinct, hsame]
      have htake : Burst.take grid true ⟨out ++ [last], some (phash (grid last)), skipped⟩ jpeg =
          ⟨out ++ [last], some (phash (grid last)), skipped + 1⟩ := by simp [Burst.take, hsame]
      rw [htake, if_neg hdrop, foldl_take_out shots out last]
    · have hkeep : Distinct grid last jpeg := by simpa [Distinct] using hsame
      have htake : Burst.take grid true ⟨out ++ [last], some (phash (grid last)), skipped⟩ jpeg =
          ⟨out ++ [last] ++ [jpeg], some (phash (grid jpeg)), skipped⟩ := by simp [Burst.take, hsame]
      rw [htake, if_pos hkeep, foldl_take_out shots (out ++ [last]) jpeg, List.append_assoc, List.singleton_append]

theorem head_destutter' (last : Bytes) : ∀ shots : List Bytes, (shots.destutter' (Distinct grid) last).head? = some last
  | [] => rfl
  | jpeg :: shots => by
    rw [List.destutter'_cons]
    split
    · rfl
    · exact head_destutter' last shots

theorem burst_out (shots : List Bytes) :
    (shots.foldl (Burst.take grid true) {}).out = shots.destutter (Distinct grid) := by
  cases shots with
  | nil => rfl
  | cons jpeg shots =>
    rw [List.foldl_cons, List.destutter_cons']
    exact foldl_take_out shots [] jpeg 0

theorem burst_all : ∀ (shots : List Bytes) (b : Burst), (shots.foldl (Burst.take grid false) b).out = b.out ++ shots
  | [], b => (List.append_nil _).symm
  | jpeg :: shots, b => by
    rw [List.foldl_cons, burst_all shots]
    simp [Burst.take]

/-- Every screenshot is kept or counted. -/
theorem burst_counts (skipIdentical : Bool) : ∀ (shots : List Bytes) (b : Burst),
    (shots.foldl (Burst.take grid skipIdentical) b).out.length + (shots.foldl (Burst.take grid skipIdentical) b).skipped =
      b.out.length + b.skipped + shots.length
  | [], b => rfl
  | jpeg :: shots, b => by
    have hturn : (b.take grid skipIdentical jpeg).out.length + (b.take grid skipIdentical jpeg).skipped =
        b.out.length + b.skipped + 1 := by
      unfold Burst.take
      dsimp only
      split
      · split
        · rfl
        · simp only [List.length_append, List.length_singleton]
          omega
      · simp only [List.length_append, List.length_singleton]
        omega
    rw [List.foldl_cons, burst_counts skipIdentical shots, hturn, List.length_cons]
    omega

end

/-- **A burst is thinned.**  Whatever the screen shows and Pillow makes of it, a burst of one to twenty screenshots comes back
unless it has to sleep for longer than a float can say.  It then returns all of them, or without the identical ones those that
are left when each one that looks the same as the last one left before it is taken out: the first is among them, any two in a
row look different, and its text says how many are there and how many were taken out. -/
theorem stream_thins (grid : Bytes → List Nat) (skipIdentical : Bool) (downscale : Bytes → Bytes) (shots : Nat → Bytes)
    (frames intervalMs : Int) :
    (streamScreen grid skipIdentical downscale shots frames intervalMs = none ↔
      1 < frames ∧ sleepOverflows intervalMs = true) ∧
    ∀ text images, streamScreen grid skipIdentical downscale shots frames intervalMs = some (text, images) →
      ∃ kept : List Bytes, images = kept.map downscale ∧
        text = summary kept.length (frameCount frames - kept.length) ∧
        kept = (if skipIdentical then ((List.range (frameCount frames)).map shots).destutter (Distinct grid)
          else (List.range (frameCount frames)).map shots) ∧
        kept.head? = some (shots 0) ∧ (skipIdentical = true → kept.IsChain (Distinct grid)) := by
  obtain ⟨n, hn⟩ : ∃ n, frameCount frames = n + 1 := ⟨frameCount frames - 1, by unfold frameCount; omega⟩
  have hraise : 1 < frameCount frames ∧ sleepOverflows intervalMs = true ↔ 1 < frames ∧ sleepOverflows intervalMs = true := by
    refine and_congr_left fun _ => ?_
    unfold frameCount
    omega
  unfold streamScreen
  rw [burstLoop_eq, List.length_map, List.length_range]
  by_cases h : 1 < frameCount frames ∧ sleepOverflows intervalMs = true
  · rw [if_pos h]
    exact ⟨iff_of_true rfl (hraise.1 h), fun _ _ h => by cases h⟩
  rw [if_neg h, Option.map_some]
  refine ⟨iff_of_false (fun h => by cases h) (mt hraise.2 h), fun text images htext => ?_⟩
  cases htext
  have hnumber := @burst_counts grid skipIdentical ((List.range (frameCount frames)).map shots) {}
  rw [List.length_map, List.length_range] at hnumber
  have hskipped : ((((List.range (frameCount frames)).map shots)).foldl (Burst.take grid skipIdentical) {}).skipped =
      frameCount frames - (((List.range (frameCount frames)).map shots).foldl (Burst.take grid skipIdentical) {}).out.length := by
    simp only [List.length_nil] at hnumber
    omega
  refine ⟨_, rfl, by rw [hskipped], ?_⟩
  cases skipIdentical with
  | true =>
    rw [burst_out, hn, List.range_succ_eq_map, List.map_cons]
    exact ⟨rfl, head_destutter' _ _, fun _ => List.isChain_destutter (Distinct grid) _⟩
  | false =>
    rw [burst_all, hn, List.range_succ_eq_map, List.map_cons]
    exact ⟨rfl, rfl, fun h => by cases h⟩

end Screen
end SwitchMcp

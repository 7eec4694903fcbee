import SwitchMcp.SearchReplies
/-!
# ScanBudget — how long `search.begin` scans (agent/source/handlers/memsearch.cpp)

The two loops of `SearchBegin` as they run, with the counter that wraps around and the bytes that were attempted.  They are
`scanRegions` where no size is within a chunk of 2^64 (`scanFor_scanRegions`), and keep to the budget while every chunk that
they attempt is read (`scan_bounded`).
-/
namespace SwitchMcp
namespace Agent

open Json (Value)

/-- A chunk that was attempted: its size, and whether it was read. -/
structure Attempt where
  size : Nat
  ok : Bool
deriving DecidableEq

def attempted (l : List Attempt) : Nat := (l.map Attempt.size).sum

section
variable (svc : CheatService) (t : SearchTarget) (budget : UInt64)

/-- The scan after a chunk was attempted. -/
def afterChunk (reg : Region) (off : UInt64) (sc : Scan) : Scan :=
  let data := svc.read sc.readings.length (reg.1 + off) (chunkSize reg.2 off).toNat
  let sc := { sc with readings := sc.readings ++ [⟨reg.1 + off, data.map Subtype.val⟩] }
  match data with
  | none => sc
  | some buf =>
    { sc with
      scanned := sc.scanned + chunkSize reg.2 off
      found := (scanChunk t (reg.1 + off) buf.val sc.found).1
      truncated := (scanChunk t (reg.1 + off) buf.val sc.found).2 }

def attemptAt (reg : Region) (off : UInt64) (sc : Scan) : Attempt :=
  ⟨(chunkSize reg.2 off).toNat, (svc.read sc.readings.length (reg.1 + off) (chunkSize reg.2 off).toNat).isSome⟩

/-- So many turns of the loops: whether they have ended, the scan, and what was attempted. -/
def scanFor : Nat → List Region → UInt64 → Scan → List Attempt → Bool × Scan × List Attempt
  | 0, _, _, sc, l => (false, sc, l)
  | _ + 1, [], _, sc, l => (true, sc, l)
  | n + 1, reg :: regions, off, sc, l =>
    if sc.truncated || sc.budgetHit then (true, sc, l)
    else if off < reg.2 then
      if budget ≤ sc.scanned then scanFor n (reg :: regions) off { sc with budgetHit := true } l
      else scanFor n (reg :: regions) (off + kScanChunk) (afterChunk svc t reg off sc) (l ++ [attemptAt svc reg off sc])
    else scanFor n regions 0 sc l

end

/-! ## Where the counter does not wrap around -/

section
variable {svc : CheatService} {t : SearchTarget} {budget : UInt64}

theorem scanFor_cut {n : Nat} (hn : 0 < n) (regions : List Region) (off : UInt64) {sc : Scan}
    (h : sc.truncated = true ∨ sc.budgetHit = true) (l : List Attempt) :
    scanFor svc t budget n regions off sc l = (true, sc, l) := by
  obtain ⟨n, rfl⟩ := Nat.exists_eq_succ_of_ne_zero hn.ne'
  cases regions with
  | nil => rfl
  | cons reg regions => rw [scanFor, if_pos (Bool.or_eq_true _ _ ▸ h)]

theorem afterChunk_budgetHit (reg : Region) (off : UInt64) (sc : Scan) :
    (afterChunk svc t reg off sc).budgetHit = sc.budgetHit := by
  unfold afterChunk
  dsimp only
  split <;> rfl

/-- One turn of `scanRegion`. -/
theorem scanRegion_cons {reg : Region} {off : UInt64} (offs : List UInt64) {sc : Scan} (hb : ¬budget ≤ sc.scanned)
    (ht : sc.truncated = false) : scanRegion svc t budget reg (off :: offs) sc =
      if (afterChunk svc t reg off sc).truncated = true then afterChunk svc t reg off sc
      else scanRegion svc t budget reg offs (afterChunk svc t reg off sc) := by
  rw [scanRegion, if_neg hb]
  unfold afterChunk
  dsimp only
  cases svc.read sc.readings.length (reg.1 + off) (chunkSize reg.2 off).toNat with
  | none =>
    dsimp only [Option.map_none]
    rw [ht, if_neg Bool.false_ne_true]
  | some buf => rfl

/-- The offsets from the `k`-th chunk on. -/
def offsetsFrom (size : UInt64) (k : Nat) : List UInt64 := (chunkOffsets size).drop k

theorem offsetsFrom_cons {size : UInt64} {k : Nat} (h : k * 65536 < size.toNat) :
    offsetsFrom size k = UInt64.ofNat (k * 65536) :: offsetsFrom size (k + 1) := by
  have hk : k < (chunkOffsets size).length := by
    rw [chunkOffsets, List.length_map, List.length_range, kScanChunk_toNat]
    omega
  rw [offsetsFrom, List.drop_eq_getElem_cons hk, offsetsFrom]
  congr 1
  simp [chunkOffsets, kScanChunk_toNat]

theorem offsetsFrom_nil {size : UInt64} {k : Nat} (h : size.toNat ≤ k * 65536) : offsetsFrom size k = [] := by
  rw [offsetsFrom, List.drop_eq_nil_iff, chunkOffsets, List.length_map, List.length_range, kScanChunk_toNat]
  omega

/-- **A region is scanned as by `scanRegion`**, in finitely many turns, from any of its chunks on. -/
theorem scanFor_region {reg : Region} (hsize : reg.2.toNat + 65536 ≤ 2 ^ 64) (regions : List Region) : ∀ (m k : Nat)
    (sc : Scan) (l : List Attempt), reg.2.toNat ≤ k * 65536 + m → k * 65536 < 2 ^ 64 → sc.truncated = false →
      sc.budgetHit = false → ∃ c l', ∀ n, 0 < n →
        scanFor svc t budget (c + n) (reg :: regions) (UInt64.ofNat (k * 65536)) sc l =
          scanFor svc t budget n regions 0 (scanRegion svc t budget reg (offsetsFrom reg.2 k) sc) l' := by
  intro m
  induction m with
  | zero =>
    intro k sc l hm hk ht hb
    rw [Nat.add_zero] at hm
    rw [offsetsFrom_nil hm, scanRegion]
    refine ⟨1, l, fun n _ => ?_⟩
    rw [Nat.add_comm, scanFor, ht, hb, Bool.or_self, if_neg Bool.false_ne_true, if_neg]
    rw [UInt64.lt_iff_toNat_lt, toNat_chunk hk]
    omega
  | succ m ih =>
    intro k sc l hm hk ht hb
    by_cases hend : reg.2.toNat ≤ k * 65536
    · rw [offsetsFrom_nil hend, scanRegion]
      refine ⟨1, l, fun n _ => ?_⟩
      rw [Nat.add_comm, scanFor, ht, hb, Bool.or_self, if_neg Bool.false_ne_true, if_neg]
      rw [UInt64.lt_iff_toNat_lt, toNat_chunk hk]
      omega
    rw [Nat.not_le] at hend
    have hnext : (k + 1) * 65536 = k * 65536 + 65536 := Nat.succ_mul k 65536
    have hm' : reg.2.toNat ≤ (k + 1) * 65536 + m := by
      rw [hnext]
      generalize k * 65536 = off at hm hend
      omega
    have hk' : (k + 1) * 65536 < 2 ^ 64 := by
      rw [hnext]
      generalize k * 65536 = off at hend
      omega
    have hoff : UInt64.ofNat (k * 65536) < reg.2 := by
      rw [UInt64.lt_iff_toNat_lt, toNat_chunk hk]
      exact hend
    rw [offsetsFrom_cons hend]
    by_cases hbudget : budget ≤ sc.scanned
    · -- The budget is used up.
      refine ⟨1, l, fun n hn => ?_⟩
      rw [Nat.add_comm, scanFor, ht, hb, Bool.or_self, if_neg Bool.false_ne_true, if_pos hoff, if_pos hbudget,
        scanFor_cut hn _ _ (Or.inr rfl), scanRegion, if_pos hbudget, scanFor_cut hn _ _ (Or.inr rfl), ht]
    · rw [scanRegion_cons _ hbudget ht]
      have hstep : ∀ n, scanFor svc t budget (n + 1) (reg :: regions) (UInt64.ofNat (k * 65536)) sc l =
          scanFor svc t budget n (reg :: regions) (UInt64.ofNat ((k + 1) * 65536)) (afterChunk svc t reg (UInt64.ofNat (k * 65536)) sc)
            (l ++ [attemptAt svc reg (UInt64.ofNat (k * 65536)) sc]) := by
        intro n
        rw [scanFor, ht, hb, Bool.or_self, if_neg Bool.false_ne_true, if_pos hoff, if_neg hbudget, Nat.succ_mul,
          UInt64.ofNat_add]
        rfl
      by_cases hcut : (afterChunk svc t reg (UInt64.ofNat (k * 65536)) sc).truncated = true
      · rw [if_pos hcut]
        refine ⟨1, l ++ [attemptAt svc reg (UInt64.ofNat (k * 65536)) sc], fun n hn => ?_⟩
        rw [Nat.add_comm, hstep, scanFor_cut hn _ _ (Or.inl hcut), scanFor_cut hn _ _ (Or.inl hcut)]
      · rw [if_neg hcut]
        rw [Bool.not_eq_true] at hcut
        obtain ⟨c, l', hc⟩ := ih (k + 1) _ (l ++ [attemptAt svc reg (UInt64.ofNat (k * 65536)) sc])
          hm' hk' hcut
          ((afterChunk_budgetHit reg _ sc).trans hb)
        refine ⟨c + 1, l', fun n hn => ?_⟩
        rw [Nat.add_right_comm, hstep, hc n hn]

/-- **Where no size is within a chunk of 2^64 the loops end, with the scan of `scanRegions`.** -/
theorem scanFor_scanRegions : ∀ (regions : List Region), (∀ reg ∈ regions, reg.2.toNat + 65536 ≤ 2 ^ 64) →
    ∀ (sc : Scan) (l : List Attempt), ∃ c l', ∀ n, 0 < n →
      scanFor svc t budget (c + n) regions 0 sc l = (true, scanRegions svc t budget regions sc, l')
  | [], _, sc, l => ⟨0, l, fun n hn => by
      obtain ⟨n, rfl⟩ := Nat.exists_eq_succ_of_ne_zero hn.ne'
      rw [Nat.zero_add]
      rfl⟩
  | reg :: regions, h, sc, l => by
    rw [scanRegions]
    by_cases hcut : sc.truncated = true ∨ sc.budgetHit = true
    · rw [if_pos (Bool.or_eq_true _ _ ▸ hcut)]
      exact ⟨0, l, fun n hn => by rw [Nat.zero_add, scanFor_cut hn _ _ hcut]⟩
    · have hcut' := hcut
      rw [not_or, Bool.not_eq_true, Bool.not_eq_true] at hcut'
      rw [if_neg (by rw [Bool.or_eq_true]; exact hcut)]
      have hsize := h reg List.mem_cons_self
      obtain ⟨c, l1, hc⟩ := scanFor_region hsize regions reg.2.toNat 0 sc l (by omega) (by norm_num) hcut'.1 hcut'.2
      obtain ⟨c', l2, hc'⟩ := scanFor_scanRegions regions (fun r hr => h r (List.mem_cons_of_mem reg hr))
        (scanRegion svc t budget reg (chunkOffsets reg.2) sc) l1
      refine ⟨c + c', l2, fun n hn => ?_⟩
      have hzero : UInt64.ofNat (0 * 65536) = 0 := rfl
      have hrun := hc (c' + n) (by omega)
      rw [hzero] at hrun
      rw [Nat.add_assoc, hrun]
      exact hc' n hn

/-! ## Where every chunk is read -/

theorem attempted_snoc (l : List Attempt) (a : Attempt) : attempted (l ++ [a]) = attempted l + a.size := by
  rw [attempted, List.map_append, List.sum_append, List.map_singleton, List.sum_singleton]
  rfl

/-- What was attempted stays on record. -/
theorem attempts_kept : ∀ (n : Nat) (regions : List Region) (off : UInt64) (sc : Scan) (l : List Attempt),
    l <+: (scanFor svc t budget n regions off sc l).2.2
  | 0, _, _, _, l => List.prefix_refl l
  | _ + 1, [], _, _, l => List.prefix_refl l
  | n + 1, reg :: regions, off, sc, l => by
    rw [scanFor]
    split
    · exact List.prefix_refl l
    split
    · split
      · exact attempts_kept n _ _ _ l
      · exact (List.prefix_append l _).trans (attempts_kept n _ _ _ _)
    · exact attempts_kept n _ _ _ l

theorem chunkSize_pos {size off : UInt64} (h : off < size) :
    0 < (chunkSize size off).toNat ∧ (chunkSize size off).toNat ≤ 65536 := by
  rw [UInt64.lt_iff_toNat_lt] at h
  rw [chunkSize_toNat h.le]
  exact ⟨lt_min (Nat.sub_pos_of_lt h) (by norm_num), min_le_right _ _⟩

/-- What holds of the bytes that were counted while every chunk that is attempted is read. -/
structure Budgeted (budget : UInt64) (sc : Scan) (l : List Attempt) : Prop where
  scanned : sc.scanned.toNat = attempted l
  below : ∀ pre a, pre ++ [a] <+: l → attempted pre < budget.toNat
  bound : attempted l < budget.toNat + 65536

theorem Budgeted.start (budget : UInt64) : Budgeted budget {} [] where
  scanned := rfl
  below pre a h := absurd (List.prefix_nil.1 h) (List.append_ne_nil_of_right_ne_nil pre (List.cons_ne_nil a []))
  bound := by
    rw [show attempted [] = 0 from rfl]
    omega

/-- A chunk that is read while the budget lasts. -/
theorem Budgeted.attempt {reg : Region} {off : UInt64} {sc : Scan} {l : List Attempt} (h : Budgeted budget sc l)
    (hmax : budget.toNat < 2 ^ 63) (hoff : off < reg.2) (hb : ¬budget ≤ sc.scanned)
    (hok : (attemptAt svc reg off sc).ok = true) :
    Budgeted budget (afterChunk svc t reg off sc) (l ++ [attemptAt svc reg off sc]) ∧
      sc.scanned.toNat < (afterChunk svc t reg off sc).scanned.toNat := by
  obtain ⟨hpos, hle⟩ := chunkSize_pos hoff
  rw [UInt64.le_iff_toNat_le, Nat.not_le] at hb
  have hsc : (afterChunk svc t reg off sc).scanned = sc.scanned + chunkSize reg.2 off := by
    unfold attemptAt at hok
    obtain ⟨buf, hbuf⟩ := Option.isSome_iff_exists.1 hok
    unfold afterChunk
    rw [hbuf]
  have hadd : (afterChunk svc t reg off sc).scanned.toNat = sc.scanned.toNat + (chunkSize reg.2 off).toNat := by
    rw [hsc, UInt64.toNat_add, Nat.mod_eq_of_lt]
    omega
  have hsize : (attemptAt svc reg off sc).size = (chunkSize reg.2 off).toNat := rfl
  refine ⟨⟨?_, fun pre a hp => ?_, ?_⟩, by omega⟩
  · rw [attempted_snoc, hsize, hadd, h.scanned]
  · rcases List.prefix_concat_iff.1 hp with heq | hp
    · obtain ⟨rfl, -⟩ := List.append_inj' heq rfl
      rw [← h.scanned]
      exact hb
    · exact h.below pre a hp
  · rw [attempted_snoc, hsize, ← h.scanned]
    omega

/-- The chunk that the loop attempts next is one of those it attempts. -/
theorem attempt_mem {n : Nat} {regions : List Region} {off : UInt64} {sc : Scan} {l : List Attempt} {a : Attempt} :
    a ∈ (scanFor svc t budget n regions off sc (l ++ [a])).2.2 :=
  (attempts_kept n regions off sc (l ++ [a])).subset (List.mem_append_right l List.mem_cons_self)

/-- **So many turns keep to the budget.** -/
theorem scanFor_counted (hmax : budget.toNat < 2 ^ 63) : ∀ (n : Nat) (regions : List Region) (off : UInt64) (sc : Scan)
    (l : List Attempt), Budgeted budget sc l → (∀ a ∈ (scanFor svc t budget n regions off sc l).2.2, a.ok = true) →
      Budgeted budget (scanFor svc t budget n regions off sc l).2.1 (scanFor svc t budget n regions off sc l).2.2
  | 0, _, _, _, _, h, _ => h
  | _ + 1, [], _, _, _, h, _ => h
  | n + 1, reg :: regions, off, sc, l, h, hok => by
    rw [scanFor] at hok ⊢
    by_cases hcut : (sc.truncated || sc.budgetHit) = true
    · rw [if_pos hcut]
      exact h
    rw [if_neg hcut] at hok ⊢
    by_cases hoff : off < reg.2
    · rw [if_pos hoff] at hok ⊢
      by_cases hb : budget ≤ sc.scanned
      · rw [if_pos hb] at hok ⊢
        exact scanFor_counted hmax n _ _ _ l ⟨h.scanned, h.below, h.bound⟩ hok
      · rw [if_neg hb] at hok ⊢
        exact scanFor_counted hmax n _ _ _ _ (h.attempt hmax hoff hb (hok _ attempt_mem)).1 hok
    · rw [if_neg hoff] at hok ⊢
      exact scanFor_counted hmax n _ _ _ l h hok

/-- **While every chunk is read the loops end**: each chunk that is read uses up some of the budget. -/
theorem scanFor_ends (hmax : budget.toNat < 2 ^ 63) : ∀ (m : Nat) (regions : List Region) (off : UInt64) (sc : Scan)
    (l : List Attempt), regions.length + (budget.toNat + 65536 - attempted l) ≤ m → Budgeted budget sc l →
      (∀ n, ∀ a ∈ (scanFor svc t budget n regions off sc l).2.2, a.ok = true) →
        ∃ n, (scanFor svc t budget n regions off sc l).1 = true := by
  intro m
  induction m with
  | zero =>
    intro regions off sc l hm h _
    have := h.bound
    omega
  | succ m ih =>
    intro regions off sc l hm h hok
    cases regions with
    | nil => exact ⟨1, rfl⟩
    | cons reg regions =>
      by_cases hcut : sc.truncated = true ∨ sc.budgetHit = true
      · exact ⟨1, by rw [scanFor_cut Nat.one_pos _ _ hcut]⟩
      have hcut' : ¬(sc.truncated || sc.budgetHit) = true := by
        rw [Bool.or_eq_true]
        exact hcut
      by_cases hoff : off < reg.2
      · by_cases hb : budget ≤ sc.scanned
        · -- The next turn leaves the loop over the regions.
          refine ⟨2, ?_⟩
          rw [scanFor, if_neg hcut', if_pos hoff, if_pos hb, scanFor_cut Nat.one_pos _ _ (Or.inr rfl)]
        · have hstep : ∀ n, scanFor svc t budget (n + 1) (reg :: regions) off sc l =
              scanFor svc t budget n (reg :: regions) (off + kScanChunk) (afterChunk svc t reg off sc)
                (l ++ [attemptAt svc reg off sc]) := by
            intro n
            rw [scanFor, if_neg hcut', if_pos hoff, if_neg hb]
          have hread : (attemptAt svc reg off sc).ok = true := hok 1 _ (by rw [hstep]; exact attempt_mem)
          obtain ⟨hnext, -⟩ := h.attempt hmax hoff hb hread
          have hsize : (attemptAt svc reg off sc).size = (chunkSize reg.2 off).toNat := rfl
          have hpos := (chunkSize_pos hoff).1
          have hbound := h.bound
          obtain ⟨n, hn⟩ := ih (reg :: regions) (off + kScanChunk) (afterChunk svc t reg off sc) _
            (by rw [attempted_snoc, hsize]; omega) hnext (fun n => by rw [← hstep]; exact hok (n + 1))
          exact ⟨n + 1, by rw [hstep]; exact hn⟩
      · have hstep : ∀ n, scanFor svc t budget (n + 1) (reg :: regions) off sc l = scanFor svc t budget n regions 0 sc l := by
          intro n
          rw [scanFor, if_neg hcut', if_neg hoff]
        obtain ⟨n, hn⟩ := ih regions 0 sc l (by rw [List.length_cons] at hm; omega) h
          (fun n => by rw [← hstep]; exact hok (n + 1))
        exact ⟨n + 1, by rw [hstep]; exact hn⟩

end

/-- `max_bytes`, as it is read. -/
def maxBytes (req : Request) : Int64 := (req.get "max_bytes").asInt (512 * 1024 * 1024)

/-- The scan of a request after so many turns of its loops. -/
def beginRun (svc : CheatService) (req : Request) (t : SearchTarget) (regions : List Region) (n : Nat) :
    Bool × Scan × List Attempt :=
  scanFor svc t (maxBytes req).toUInt64 n regions 0 {} []

/-- Where every read succeeds, so does every attempt. -/
theorem scanFor_all_read {svc : CheatService} {t : SearchTarget} {budget : UInt64}
    (hread : ∀ i addr len, (svc.read i addr len).isSome = true) : ∀ (n : Nat) (regions : List Region) (off : UInt64) (sc : Scan)
    (l : List Attempt), (∀ a ∈ l, a.ok = true) → ∀ a ∈ (scanFor svc t budget n regions off sc l).2.2, a.ok = true
  | 0, _, _, _, _, h => h
  | _ + 1, [], _, _, _, h => h
  | n + 1, reg :: regions, off, sc, l, h => by
    rw [scanFor]
    split
    · exact h
    · split
      · split
        · exact scanFor_all_read hread n _ _ _ l h
        · refine scanFor_all_read hread n _ _ _ _ fun a ha => ?_
          rcases List.mem_append.1 ha with ha | ha
          · exact h a ha
          · rw [List.mem_singleton.1 ha]
            exact hread _ _ _
      · exact scanFor_all_read hread n _ _ _ l h

theorem toNat_maxBytes {req : Request} (h : 0 ≤ (maxBytes req).toInt) :
    (maxBytes req).toUInt64.toNat = (maxBytes req).toInt.toNat ∧ (maxBytes req).toUInt64.toNat < 2 ^ 63 := by
  have hle : 0 ≤ maxBytes req := Int64.le_iff_toInt_le.2 h
  have hlt : (maxBytes req).toInt < 2 ^ 63 := Int64.toInt_lt _
  have hnat : (maxBytes req).toUInt64.toNat = (maxBytes req).toInt.toNat := Int64.toNat_toUInt64_of_le hle
  exact ⟨hnat, by rw [hnat]; omega⟩

/-- **The scan ends and keeps to its budget while every chunk that it attempts is read**; where no size is within a chunk of
2^64 it ends whatever is read, and its result is that of `searchBegin`. -/
theorem scan_bounded (svc : CheatService) (req : Request) (s : SearchState) {t : SearchTarget} {regions : List Region}
    (hp : searchPlan svc req (openAfter svc s.serviceOpen) = .ok (t, regions)) :
    ((∀ reg ∈ regions, reg.2.toNat + 65536 ≤ 2 ^ 64) → ∃ n, (beginRun svc req t regions n).1 = true ∧
        (searchBegin svc req s).1.1 = beginReply t regions (beginRun svc req t regions n).2.1) ∧
      (0 ≤ (maxBytes req).toInt → (∀ n, ∀ a ∈ (beginRun svc req t regions n).2.2, a.ok = true) →
        (∃ n, (beginRun svc req t regions n).1 = true) ∧
          ∀ n pre a post, (beginRun svc req t regions n).2.2 = pre ++ a :: post → (attempted pre : Int) < (maxBytes req).toInt) := by
  refine ⟨fun hsize => ?_, fun hmax hok => ?_⟩
  · obtain ⟨c, l, hc⟩ := @scanFor_scanRegions svc t (maxBytes req).toUInt64 regions hsize {} []
    refine ⟨c + 1, ?_⟩
    rw [beginRun, hc 1 Nat.one_pos]
    refine ⟨rfl, ?_⟩
    unfold searchBegin
    dsimp only
    rw [hp]
    rfl
  · obtain ⟨hnat, hlt⟩ := toNat_maxBytes hmax
    refine ⟨scanFor_ends hlt _ regions 0 {} [] le_rfl (Budgeted.start _) hok, fun n pre a post h => ?_⟩
    have hc := scanFor_counted hlt n regions 0 {} [] (Budgeted.start _) (hok n)
    have hbelow := hc.below pre a (by
      rw [show (scanFor svc t (maxBytes req).toUInt64 n regions 0 {} []).2.2 = pre ++ a :: post from h]
      exact ⟨post, by rw [List.append_assoc, List.singleton_append]⟩)
    rw [hnat] at hbelow
    omega

/-- `search.begin` at 0x1000 over so many bytes, one chunk of budget. -/
def beginOver (size : Int64) : Request :=
  ⟨((((Value.object []).set (str "base") (.int 4096)).set (str "size") (.int size)).set (str "value") (.int 7)).set
    (str "max_bytes") (.int 65536), []⟩

theorem beginOver_plan {svc : CheatService} (hp : svc.hasCheatProcess = some true) (hm : svc.metadata = some ⟨⟨0, 0⟩, ⟨0, 0⟩⟩)
    (size : Int64) : searchPlan svc (beginOver size) true = .ok (⟨4, width_four, 7⟩, [(4096, size.toUInt64)]) := by
  have hsize : (beginOver size).get "size" = .int size := by
    unfold beginOver Request.get
    rw [Value.get_set, if_neg (by decide), Value.get_set, if_neg (by decide), Value.get_set, if_pos rfl]
  have hprocess : ensureCheatProcess svc true = .ok () := by
    rw [ensureCheatProcess, Bool.not_true, if_neg Bool.false_ne_true, hp]
  have htarget : searchTarget (beginOver size) = .ok ⟨4, width_four, 7⟩ := rfl
  have hregions : ∀ m, searchRegions svc (beginOver size) m = .ok [(4096, size.toUInt64)] := by
    intro m
    unfold searchRegions
    rw [show ((beginOver size).msg.has (str "base") && (beginOver size).msg.has (str "size")) = true from rfl, if_pos rfl, hsize]
    rfl
  unfold searchPlan
  rw [hprocess, htarget, hm]
  show (do return (_, ← searchRegions svc (beginOver size) ⟨⟨0, 0⟩, ⟨0, 0⟩⟩)) = _
  rw [hregions]
  rfl

theorem beginOver_budget (size : Int64) : (maxBytes (beginOver size)).toUInt64 = 65536 := by
  have hmax : (beginOver size).get "max_bytes" = .int 65536 := by
    unfold beginOver Request.get
    rw [Value.get_set, if_pos rfl]
  rw [maxBytes, hmax]
  rfl

/-- Three chunks for a budget of one, over memory that can be read: the scan ends, and nothing is attempted after the first
chunk. -/
theorem scan_bounded_found :
    (∃ n, (beginRun (filledWith 7) (beginOver 196608) ⟨4, width_four, 7⟩ [(4096, 196608)] n).1 = true) ∧
      ∀ n pre a post, (beginRun (filledWith 7) (beginOver 196608) ⟨4, width_four, 7⟩ [(4096, 196608)] n).2.2 = pre ++ a :: post →
        attempted pre < 65536 := by
  obtain ⟨hends, hbelow⟩ := (scan_bounded (filledWith 7) (beginOver 196608) {} (beginOver_plan rfl rfl 196608)).2
    (by decide) (fun n a ha => scanFor_all_read (fun _ _ _ => rfl) n _ _ _ _ (fun _ h => absurd h List.not_mem_nil) a ha)
  have hmax : (maxBytes (beginOver 196608)).toInt = 65536 := by decide
  rw [hmax] at hbelow
  exact ⟨hends, fun n pre a post h => Int.ofNat_lt.1 (hbelow n pre a post h)⟩

/-- Over a size of 2^64 - 1 the counter starts again before it gets there. -/
theorem scanFor_unreadable (t : SearchTarget) : ∀ (n : Nat) (off : UInt64) (sc : Scan) (l : List Attempt),
    off.toNat % 65536 = 0 → sc.scanned = 0 → sc.truncated = false → sc.budgetHit = false →
      (scanFor unreadable t 65536 n [(4096, (-1 : Int64).toUInt64)] off sc l).1 = false
  | 0, _, _, _, _, _, _, _ => rfl
  | n + 1, off, sc, l, hoff, hs, ht, hb => by
    have hlt : off < (-1 : Int64).toUInt64 := by
      rw [UInt64.lt_iff_toNat_lt]
      have htop : (-1 : Int64).toUInt64.toNat = 2 ^ 64 - 1 := rfl
      have := off.toNat_lt
      omega
    have hbudget : ¬(65536 : UInt64) ≤ sc.scanned := by
      rw [hs]
      decide
    rw [scanFor, ht, hb, Bool.or_self, if_neg Bool.false_ne_true, if_pos hlt, if_neg hbudget]
    refine scanFor_unreadable t n _ _ _ ?_ ?_ ?_ ((afterChunk_budgetHit _ _ sc).trans hb)
    · rw [UInt64.toNat_add, kScanChunk_toNat]
      omega
    · exact hs
    · exact ht

/-- **Memory that cannot be read is scanned past the budget**: three chunks for a budget of one, and for a size of
2^64 - 1 without an end. -/
theorem unreadable_never_ends :
    searchPlan unreadable (beginOver 196608) true = .ok (⟨4, width_four, 7⟩, [(4096, 196608)]) ∧
    (beginRun unreadable (beginOver 196608) ⟨4, width_four, 7⟩ [(4096, 196608)] 5).2.2 =
      [⟨65536, false⟩, ⟨65536, false⟩, ⟨65536, false⟩] ∧
    searchPlan unreadable (beginOver (-1)) true = .ok (⟨4, width_four, 7⟩, [(4096, (-1 : Int64).toUInt64)]) ∧
    ∀ n, (beginRun unreadable (beginOver (-1)) ⟨4, width_four, 7⟩ [(4096, (-1 : Int64).toUInt64)] n).1 = false := by
  refine ⟨beginOver_plan rfl rfl 196608, ?_, beginOver_plan rfl rfl (-1), fun n => ?_⟩
  · rw [beginRun, beginOver_budget]
    decide +kernel
  · rw [beginRun, beginOver_budget]
    exact scanFor_unreadable _ n 0 {} [] rfl rfl rfl rfl

end Agent
end SwitchMcp

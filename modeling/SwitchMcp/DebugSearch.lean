import SwitchMcp.Debug
/-!
# DebugSearch — a value looked for in the memory of a debugged process (agent/source/handlers/debug.cpp)

`DebugSearch` walks the regions of the address space from address 0 on and looks for the value's bytes in those that are
writable and mapped.  It leaves out a region above 64 MiB, one that cannot be read and all after the 512th
(`searchMemory_eq`); `search_complete_iff` says when nothing is missing from a reply that is not truncated.
-/
namespace SwitchMcp
namespace Agent

open Json (Value)

/-- A region as `svcQueryDebugProcessMemory` describes it, the bytes in it, and whether they can be read. -/
structure DebugRegion where
  size : Nat
  size_pos : 0 < size
  writable : Bool
  unmapped : Bool
  readOk : Bool
  byte : Nat → UInt8

/-- How far some regions reach, one after the other. -/
def span (space : List DebugRegion) : Nat := (space.map DebugRegion.size).sum

/-- The regions of a process, which tile its addresses from 0 on. -/
structure AddressSpace where
  regions : List DebugRegion
  fits : span regions ≤ 2 ^ 64

/-- `svcQueryDebugProcessMemory`: the region that holds an address, and where it starts. -/
def queryMemory : List DebugRegion → Nat → Nat → Option (Nat × DebugRegion)
  | [], _, _ => none
  | r :: space, base, addr => if addr < base + r.size then some (base, r) else queryMemory space (base + r.size) addr

def DebugRegion.scannable (r : DebugRegion) : Bool := r.writable && !r.unmapped

/-- `memcmp` of the region's bytes at `off` with the needle. -/
def DebugRegion.holds (r : DebugRegion) (needle : Bytes) (off : Nat) : Bool :=
  decide ((List.range needle.length).map (fun k => r.byte (off + k)) = needle)

def kMaxRegions : Nat := 512

def kMaxRegionSize : Nat := 64 <<< 20

section
variable (needle : Bytes) (max : Nat)

/-- The loop over a region's offsets, `k` of them from `off` on. -/
def scanOffsets (r : DebugRegion) (base : Nat) : Nat → Nat → List UInt64 → List UInt64
  | 0, _, found => found
  | k + 1, off, found =>
    if max ≤ found.length then found
    else if r.holds needle off then scanOffsets r base k (off + 1) (found ++ [UInt64.ofNat base + UInt64.ofNat off])
    else scanOffsets r base k (off + 1) found

/-- The loop over the regions, so many turns of it. -/
def searchLoop (space : List DebugRegion) : Nat → UInt64 → List UInt64 → List UInt64
  | 0, _, found => found
  | n + 1, addr, found =>
    if max ≤ found.length then found
    else
      match queryMemory space 0 addr.toNat with
      | none => found
      | some (base, r) =>
        let next := UInt64.ofNat base + UInt64.ofNat r.size
        let found :=
          if r.scannable && decide (r.size ≤ kMaxRegionSize) && r.readOk then
            scanOffsets needle max r base (r.size + 1 - needle.length) 0 found
          else found
        if next ≤ addr then found else searchLoop space n next found

end

def searchWidth (req : Request) : Nat :=
  let width := ((req.get "width").asInt 4).toInt32.toInt
  if width ≠ 1 ∧ width ≠ 2 ∧ width ≠ 4 ∧ width ≠ 8 then 4 else width.toNat

def searchMax (req : Request) : Nat :=
  let max := ((req.get "max").asInt 64).toInt
  if max ≤ 0 ∨ 1024 < max then 64 else max.toNat

/-- The low bytes of the value. -/
def searchNeedle (req : Request) : Bytes := leBytes (searchWidth req) (asU64 (req.get "value") 0).toNat

/-- The addresses that `DebugSearch` finds. -/
def searchMemory (space : AddressSpace) (req : Request) : List UInt64 :=
  searchLoop (searchNeedle req) (searchMax req) space.regions kMaxRegions 0 []

/-- `"0x%lx"`. -/
def addressText (addr : UInt64) : Value := .string (str "0x" ++ fmtX addr.toNat)

def debugSearch (attached : Bool) (space : AddressSpace) (req : Request) : Reply :=
  if !attached then fail "not_attached" (str "no debug session; call debug.attach first")
  else
    let found := searchMemory space req
    ((({} : Reply).set "matches" (.array (found.map addressText))).set "count" (.int (Int64.ofNat found.length))).set
      "truncated" (.bool (decide (searchMax req ≤ found.length)))

/-! ## The matches of a region -/

section
variable {needle : Bytes} {max : Nat}

/-- The addresses in a region at which the needle is. -/
def DebugRegion.matches (needle : Bytes) (base : Nat) (r : DebugRegion) : List UInt64 :=
  ((List.range (r.size + 1 - needle.length)).filter (r.holds needle)).map (fun off => UInt64.ofNat base + UInt64.ofNat off)

theorem take_take_append {α : Type} (a b : List α) (m : Nat) : (a.take m ++ b).take m = (a ++ b).take m := by
  rw [List.take_append, List.take_take, Nat.min_self, List.take_append, List.length_take]
  congr 2
  omega

theorem scanOffsets_eq (r : DebugRegion) (base : Nat) : ∀ (k off : Nat) (found : List UInt64), found.length ≤ max →
    scanOffsets needle max r base k off found =
      (found ++ ((List.range' off k).filter (r.holds needle)).map (fun o => UInt64.ofNat base + UInt64.ofNat o)).take max
  | 0, off, found, h => by
    rw [List.range'_zero, List.filter_nil, List.map_nil, List.append_nil, List.take_of_length_le h]
    rfl
  | k + 1, off, found, h => by
    rw [scanOffsets, List.range'_succ]
    by_cases hfull : max ≤ found.length
    · rw [if_pos hfull, Nat.le_antisymm hfull h, List.take_left]
    rw [if_neg hfull]
    by_cases hm : r.holds needle off = true
    · rw [if_pos hm, List.filter_cons_of_pos hm, List.map_cons,
        scanOffsets_eq r base k (off + 1) _ (by rw [List.length_append, List.length_singleton]; omega), List.append_assoc,
        List.singleton_append]
    · rw [if_neg hm, List.filter_cons_of_neg hm, scanOffsets_eq r base k (off + 1) found h]

/-- **A region is searched up to the bound**: all its matches in order, or as many as there is room for. -/
theorem scanOffsets_matches (r : DebugRegion) (base : Nat) {found : List UInt64} (h : found.length ≤ max) :
    scanOffsets needle max r base (r.size + 1 - needle.length) 0 found = (found ++ r.matches needle base).take max := by
  rw [scanOffsets_eq r base _ 0 found h, DebugRegion.matches, List.range_eq_range']

/-! ## The walk over the regions -/

/-- The matches in the regions that are picked, by their number and what they are. -/
def matchesOf (needle : Bytes) (picks : Nat → DebugRegion → Bool) : Nat → Nat → List DebugRegion → List UInt64
  | _, _, [] => []
  | i, base, r :: space =>
    (if picks i r then r.matches needle base else []) ++ matchesOf needle picks (i + 1) (base + r.size) space

/-- The regions that `DebugSearch` looks into. -/
def looksInto (i : Nat) (r : DebugRegion) : Bool :=
  decide (i < kMaxRegions) && (r.scannable && decide (r.size ≤ kMaxRegionSize) && r.readOk)

theorem span_cons (r : DebugRegion) (space : List DebugRegion) : span (r :: space) = r.size + span space := by
  rw [span, List.map_cons, List.sum_cons, span]

theorem span_append (l l' : List DebugRegion) : span (l ++ l') = span l + span l' := by
  rw [span, List.map_append, List.sum_append, span, span]

/-- The address after some regions is in the next one. -/
theorem queryMemory_append (r : DebugRegion) (rest : List DebugRegion) : ∀ (pre : List DebugRegion) (base : Nat),
    queryMemory (pre ++ r :: rest) base (base + span pre) = some (base + span pre, r)
  | [], base => by
    have := r.size_pos
    rw [List.nil_append, queryMemory, if_pos (by rw [span, List.map_nil, List.sum_nil]; omega)]
    rfl
  | p :: pre, base => by
    have h := queryMemory_append r rest pre (base + p.size)
    rw [List.cons_append, queryMemory, span_cons, ← Nat.add_assoc, if_neg (by omega)]
    exact h

theorem queryMemory_end : ∀ (space : List DebugRegion) (base : Nat), queryMemory space base (base + span space) = none
  | [], _ => rfl
  | r :: space, base => by
    rw [queryMemory, span_cons, ← Nat.add_assoc, if_neg (by omega)]
    exact queryMemory_end space (base + r.size)

theorem matchesOf_beyond : ∀ (space : List DebugRegion) (i base : Nat), kMaxRegions ≤ i →
    matchesOf needle looksInto i base space = []
  | [], _, _, _ => rfl
  | r :: space, i, base, h => by
    have hno : looksInto i r = false := by
      rw [looksInto, decide_eq_false (Nat.not_lt.2 h), Bool.false_and]
    rw [matchesOf, hno, if_neg Bool.false_ne_true, matchesOf_beyond space (i + 1) _ (Nat.le_succ_of_le h)]
    rfl

/-- **The walk finds the matches of the regions it looks into, up to the bound.** -/
theorem searchLoop_eq (rest : List DebugRegion) : ∀ (n : Nat) (pre : List DebugRegion) (found : List UInt64),
    n + pre.length = kMaxRegions → span (pre ++ rest) ≤ 2 ^ 64 → span pre < 2 ^ 64 → found.length ≤ max →
      searchLoop needle max (pre ++ rest) n (UInt64.ofNat (span pre)) found =
        (found ++ matchesOf needle looksInto pre.length (span pre) rest).take max := by
  induction rest with
  | nil =>
    intro n pre found hn hspan hpre hf
    rw [matchesOf, List.append_nil, List.append_nil, List.take_of_length_le hf]
    cases n with
    | zero => rfl
    | succ n =>
      have hend := queryMemory_end pre 0
      rw [Nat.zero_add] at hend
      rw [searchLoop, UInt64.toNat_ofNat', Nat.mod_eq_of_lt hpre, hend]
      exact ite_self found
  | cons r rest ih =>
    intro n pre found hn hspan hpre hf
    cases n with
    | zero =>
      rw [matchesOf_beyond (r :: rest) pre.length (span pre) (by omega), List.append_nil, List.take_of_length_le hf]
      rfl
    | succ n =>
      have hquery := queryMemory_append r rest pre 0
      rw [Nat.zero_add] at hquery
      by_cases hfull : max ≤ found.length
      · rw [searchLoop, if_pos hfull, Nat.le_antisymm hfull hf, List.take_left]
      rw [searchLoop, if_neg hfull, UInt64.toNat_ofNat', Nat.mod_eq_of_lt hpre, hquery]
      dsimp only
      have hlooks : (r.scannable && decide (r.size ≤ kMaxRegionSize) && r.readOk) = looksInto pre.length r := by
        rw [looksInto, decide_eq_true (show pre.length < kMaxRegions by omega), Bool.true_and]
      have hfound : (if (r.scannable && decide (r.size ≤ kMaxRegionSize) && r.readOk) = true then
            scanOffsets needle max r (span pre) (r.size + 1 - needle.length) 0 found else found) =
          (found ++ if looksInto pre.length r = true then r.matches needle (span pre) else []).take max := by
        rw [hlooks]
        split
        · exact scanOffsets_matches r (span pre) hf
        · rw [List.append_nil, List.take_of_length_le hf]
      have hspan' : span pre + r.size + span rest ≤ 2 ^ 64 := by
        rw [span_append, span_cons] at hspan
        omega
      rw [hfound, matchesOf, ← UInt64.ofNat_add, ← List.append_assoc]
      by_cases htop : span pre + r.size < 2 ^ 64
      · have hgo : ¬UInt64.ofNat (span pre + r.size) ≤ UInt64.ofNat (span pre) := by
          rw [UInt64.le_iff_toNat_le, UInt64.toNat_ofNat', UInt64.toNat_ofNat', Nat.mod_eq_of_lt htop, Nat.mod_eq_of_lt hpre]
          have := r.size_pos
          omega
        have hsnoc : span (pre ++ [r]) = span pre + r.size := by
          rw [span_append, span_cons]
          rfl
        have hnext := ih n (pre ++ [r])
          ((found ++ if looksInto pre.length r = true then r.matches needle (span pre) else []).take max)
          (by rw [List.length_append, List.length_singleton]; omega)
          (by rw [List.append_assoc]; exact hspan) (by rw [hsnoc]; exact htop) (List.length_take_le _ _)
        rw [List.append_assoc, List.singleton_append, hsnoc, List.length_append, List.length_singleton] at hnext
        rw [if_neg hgo, hnext, take_take_append]
      · -- The region ends the address space: the next address is 0.
        have hzero : UInt64.ofNat (span pre + r.size) = 0 := by
          rw [show span pre + r.size = 2 ^ 64 by omega]
          rfl
        have hrest : rest = [] := by
          cases rest with
          | nil => rfl
          | cons r' rest =>
            have := r'.size_pos
            rw [span_cons] at hspan'
            omega
        rw [hzero, if_pos (UInt64.zero_le), hrest, matchesOf, List.append_nil]

/-- **What `DebugSearch` finds.** -/
theorem searchMemory_eq (space : AddressSpace) (req : Request) :
    searchMemory space req = (matchesOf (searchNeedle req) looksInto 0 0 space.regions).take (searchMax req) :=
  searchLoop_eq space.regions kMaxRegions [] [] rfl space.fits (by decide) (Nat.zero_le _)

/-! ## When nothing is missing -/

/-- The needle is somewhere in the region. -/
def DebugRegion.contains (needle : Bytes) (r : DebugRegion) : Prop :=
  ∃ off, off + needle.length ≤ r.size ∧ r.holds needle off = true

theorem mem_matches {r : DebugRegion} {base : Nat} {addr : UInt64} : addr ∈ r.matches needle base ↔
    ∃ off, off + needle.length ≤ r.size ∧ r.holds needle off = true ∧ addr = UInt64.ofNat (base + off) := by
  rw [DebugRegion.matches, List.mem_map]
  constructor
  · rintro ⟨off, hoff, rfl⟩
    rw [List.mem_filter, List.mem_range] at hoff
    exact ⟨off, by omega, hoff.2, (UInt64.ofNat_add _ _).symm⟩
  · rintro ⟨off, hle, hm, rfl⟩
    exact ⟨off, List.mem_filter.2 ⟨List.mem_range.2 (by omega), hm⟩, (UInt64.ofNat_add _ _).symm⟩

theorem matches_eq_nil {r : DebugRegion} (base : Nat) : r.matches needle base = [] ↔ ¬r.contains needle := by
  rw [List.eq_nil_iff_forall_not_mem]
  constructor
  · rintro h ⟨off, hle, hm⟩
    exact h _ (mem_matches.2 ⟨off, hle, hm, rfl⟩)
  · intro h addr hmem
    obtain ⟨off, hle, hm, -⟩ := mem_matches.1 hmem
    exact h ⟨off, hle, hm⟩

section
variable {picks picks' : Nat → DebugRegion → Bool} (hp : ∀ i r, picks i r = true → picks' i r = true)
include hp

theorem length_matchesOf_le : ∀ (space : List DebugRegion) (i base : Nat),
    (matchesOf needle picks i base space).length ≤ (matchesOf needle picks' i base space).length
  | [], _, _ => le_rfl
  | r :: space, i, base => by
    have ih := length_matchesOf_le space (i + 1) (base + r.size)
    rw [matchesOf, matchesOf, List.length_append, List.length_append]
    by_cases h : picks i r = true
    · rw [if_pos h, if_pos (hp i r h)]
      omega
    · rw [if_neg h, List.length_nil]
      omega

/-- **As many matches are found as there are only where no region that contains one is left out.** -/
theorem picks_of_length : ∀ (space : List DebugRegion) (i base : Nat),
    (matchesOf needle picks i base space).length = (matchesOf needle picks' i base space).length →
      ∀ j r, space[j]? = some r → picks' (i + j) r = true → r.contains needle → picks (i + j) r = true
  | [], _, _, _, j, r, h, _, _ => by cases h
  | r :: space, i, base, hlen, j, q, hq, hq', hc => by
    have hle : (matchesOf needle picks (i + 1) (base + r.size) space).length ≤ _ :=
      length_matchesOf_le hp space (i + 1) (base + r.size)
    rw [matchesOf, matchesOf, List.length_append, List.length_append] at hlen
    cases j with
    | zero =>
      cases hq
      by_contra hno
      have hpos : 0 < (r.matches needle base).length :=
        List.length_pos_of_ne_nil fun hnil => (matches_eq_nil base).1 hnil hc
      rw [Nat.add_zero] at hno hq'
      rw [if_neg hno, if_pos hq', List.length_nil] at hlen
      omega
    | succ j =>
      have htail : (matchesOf needle picks (i + 1) (base + r.size) space).length =
          (matchesOf needle picks' (i + 1) (base + r.size) space).length := by
        by_cases h : picks i r = true
        · rw [if_pos h, if_pos (hp i r h)] at hlen
          omega
        · rw [if_neg h, List.length_nil] at hlen
          omega
      rw [show i + (j + 1) = i + 1 + j by omega] at hq' ⊢
      exact picks_of_length space (i + 1) (base + r.size) htail j q hq hq' hc

theorem matchesOf_eq : ∀ (space : List DebugRegion) (i base : Nat),
    (∀ j r, space[j]? = some r → picks' (i + j) r = true → r.contains needle → picks (i + j) r = true) →
      matchesOf needle picks i base space = matchesOf needle picks' i base space
  | [], _, _, _ => rfl
  | r :: space, i, base, h => by
    have htail := matchesOf_eq space (i + 1) (base + r.size) fun j q hq hq' hc => by
      have hnext := h (j + 1) q hq
      rw [show i + (j + 1) = i + 1 + j by omega] at hnext
      exact hnext hq' hc
    rw [matchesOf, matchesOf, htail]
    congr 1
    by_cases hpick : picks i r = true
    · rw [if_pos hpick, if_pos (hp i r hpick)]
    · rw [if_neg hpick]
      split
      · rename_i hpick'
        exact ((matches_eq_nil base).2 fun hc => hpick (h 0 r rfl hpick' hc)).symm
      · rfl

end

end

/-- All addresses in the mapped, writable regions at which the needle is. -/
def allMatches (needle : Bytes) (space : List DebugRegion) : List UInt64 :=
  matchesOf needle (fun _ r => r.scannable) 0 0 space

theorem mem_matchesOf {needle : Bytes} {picks : Nat → DebugRegion → Bool} {addr : UInt64} :
    ∀ (space : List DebugRegion) (i base : Nat), addr ∈ matchesOf needle picks i base space ↔
      ∃ pre r post off, space = pre ++ r :: post ∧ picks (i + pre.length) r = true ∧ off + needle.length ≤ r.size ∧
        r.holds needle off = true ∧ addr = UInt64.ofNat (base + span pre + off)
  | [], _, _ => by
    refine iff_of_false List.not_mem_nil ?_
    rintro ⟨pre, r, post, off, h, -⟩
    exact List.append_ne_nil_of_right_ne_nil pre (List.cons_ne_nil r post) h.symm
  | r :: space, i, base => by
    rw [matchesOf, List.mem_append, mem_matchesOf space (i + 1) (base + r.size)]
    constructor
    · rintro (h | ⟨pre, q, post, off, rfl, hpick, hle, hm, rfl⟩)
      · split at h
        · rename_i hpick
          obtain ⟨off, hle, hm, rfl⟩ := mem_matches.1 h
          exact ⟨[], r, space, off, rfl, hpick, hle, hm, rfl⟩
        · exact absurd h List.not_mem_nil
      · refine ⟨r :: pre, q, post, off, rfl, ?_, hle, hm, ?_⟩
        · rw [List.length_cons, show i + (pre.length + 1) = i + 1 + pre.length by omega]
          exact hpick
        · rw [span_cons, ← Nat.add_assoc]
    · rintro ⟨pre, q, post, off, hs, hpick, hle, hm, rfl⟩
      cases pre with
      | nil =>
        cases hs
        rw [List.length_nil, Nat.add_zero] at hpick
        rw [if_pos hpick]
        exact Or.inl (mem_matches.2 ⟨off, hle, hm, rfl⟩)
      | cons p pre =>
        cases hs
        refine Or.inr ⟨pre, q, post, off, rfl, ?_, hle, hm, ?_⟩
        · rw [List.length_cons, show i + (pre.length + 1) = i + 1 + pre.length by omega] at hpick
          exact hpick
        · rw [span_cons, ← Nat.add_assoc]

/-- The matches come in the order of their addresses. -/
theorem matchesOf_sorted {needle : Bytes} (hn : needle ≠ []) {picks : Nat → DebugRegion → Bool} :
    ∀ (space : List DebugRegion) (i base : Nat), base + span space ≤ 2 ^ 64 →
      (matchesOf needle picks i base space).Pairwise (· < ·)
  | [], _, _, _ => List.Pairwise.nil
  | r :: space, i, base, h => by
    have hlen := List.length_pos_of_ne_nil hn
    rw [span_cons] at h
    rw [matchesOf, List.pairwise_append]
    refine ⟨?_, matchesOf_sorted hn space (i + 1) _ (by omega), ?_⟩
    · split
      · rw [DebugRegion.matches, List.pairwise_map]
        refine (List.pairwise_lt_range.filter _).imp_of_mem ?_
        intro a b ha hb hab
        have hlast := List.mem_range.1 (List.mem_filter.1 hb).1
        rw [← UInt64.ofNat_add, ← UInt64.ofNat_add, UInt64.lt_iff_toNat_lt, UInt64.toNat_ofNat', UInt64.toNat_ofNat',
          Nat.mod_eq_of_lt (by omega), Nat.mod_eq_of_lt (by omega)]
        omega
      · exact List.Pairwise.nil
    · intro a ha b hb
      split at ha
      · obtain ⟨off, hle, -, rfl⟩ := mem_matches.1 ha
        obtain ⟨pre, q, post, off', rfl, -, hle', -, rfl⟩ := (mem_matchesOf space (i + 1) (base + r.size)).1 hb
        rw [span_append, span_cons] at h
        rw [UInt64.lt_iff_toNat_lt, UInt64.toNat_ofNat', UInt64.toNat_ofNat', Nat.mod_eq_of_lt (by omega),
          Nat.mod_eq_of_lt (by omega)]
        omega
      · exact absurd ha List.not_mem_nil

theorem searchNeedle_ne (req : Request) : searchNeedle req ≠ [] := by
  have hw : 0 < searchWidth req := by
    unfold searchWidth
    dsimp only
    split
    · decide
    · rename_i h
      omega
  intro h
  have hlen := congrArg List.length h
  rw [searchNeedle, length_leBytes, List.length_nil] at hlen
  omega

/-- A list of addresses is all those in mapped, writable regions at which the needle is, in increasing order. -/
structure ListsAll (needle : Bytes) (space : List DebugRegion) (l : List UInt64) : Prop where
  sorted : l.Pairwise (· < ·)
  mem : ∀ addr, addr ∈ l ↔ ∃ pre r post off, space = pre ++ r :: post ∧ r.scannable = true ∧
    off + needle.length ≤ r.size ∧ r.holds needle off = true ∧ addr = UInt64.ofNat (span pre + off)

theorem allMatches_lists (space : AddressSpace) (req : Request) :
    ListsAll (searchNeedle req) space.regions (allMatches (searchNeedle req) space.regions) where
  sorted := matchesOf_sorted (searchNeedle_ne req) space.regions 0 0 (by rw [Nat.zero_add]; exact space.fits)
  mem addr := by
    rw [allMatches, mem_matchesOf]
    simp only [Nat.zero_add]

theorem ListsAll.unique {needle : Bytes} {space : List DebugRegion} {l l' : List UInt64} (h : ListsAll needle space l)
    (h' : ListsAll needle space l') : l = l' :=
  List.Perm.eq_of_pairwise (fun _ _ _ _ hab hba => absurd hab (UInt64.lt_asymm hba)) h.sorted h'.sorted
    ((List.perm_ext_iff_of_nodup (h.sorted.imp UInt64.ne_of_lt) (h'.sorted.imp UInt64.ne_of_lt)).2
      fun addr => (h.mem addr).trans (h'.mem addr).symm)

theorem get_debugSearch (space : AddressSpace) (req : Request) :
    (debugSearch true space req).json.get (str "truncated") =
        .bool (decide (searchMax req ≤ (searchMemory space req).length)) ∧
      (debugSearch true space req).json.get (str "matches") = .array ((searchMemory space req).map addressText) := by
  have h1 : str "truncated" ≠ str "matches" := by decide
  have h2 : str "count" ≠ str "matches" := by decide
  unfold debugSearch Reply.set
  rw [Bool.not_true, if_neg Bool.false_ne_true]
  dsimp only
  rw [Value.get_set, if_pos rfl, Value.get_set, if_neg h1, Value.get_set, if_neg h2, Value.get_set, if_pos rfl]
  exact ⟨rfl, rfl⟩

/-- **A reply of `debug.search` that is not truncated lists all addresses exactly where** there are more matches than asked for
in the regions it looks into, or it looks into every mapped, writable region that contains the value: one of the first 512, of
at most 64 MiB, that can be read. -/
theorem search_complete_iff (space : AddressSpace) (req : Request) :
    ((debugSearch true space req).json.get (str "truncated") = .bool false →
      ∃ l, ListsAll (searchNeedle req) space.regions l ∧
        (debugSearch true space req).json.get (str "matches") = .array (l.map addressText)) ↔
      searchMax req ≤ (matchesOf (searchNeedle req) looksInto 0 0 space.regions).length ∨
        ∀ i r, space.regions[i]? = some r → r.scannable = true → r.contains (searchNeedle req) →
          i < kMaxRegions ∧ r.size ≤ kMaxRegionSize ∧ r.readOk = true := by
  have hpicks : ∀ i r, looksInto i r = true → r.scannable = true := by
    intro i r h
    rw [looksInto, Bool.and_eq_true, Bool.and_eq_true, Bool.and_eq_true] at h
    exact h.2.1.1
  have hlooks : ∀ i r, r.scannable = true →
      (looksInto i r = true ↔ i < kMaxRegions ∧ r.size ≤ kMaxRegionSize ∧ r.readOk = true) := by
    intro i r hs
    rw [looksInto, hs, Bool.true_and, Bool.and_eq_true, Bool.and_eq_true, decide_eq_true_iff, decide_eq_true_iff]
  obtain ⟨htr, hmatches⟩ := get_debugSearch space req
  rw [htr, hmatches, searchMemory_eq, List.length_take, Value.bool.injEq, decide_eq_false_iff_not]
  simp only [Value.array.injEq]
  by_cases hmax : searchMax req ≤ (matchesOf (searchNeedle req) looksInto 0 0 space.regions).length
  · refine iff_of_true (fun h => absurd ?_ h) (Or.inl hmax)
    omega
  have htake : (matchesOf (searchNeedle req) looksInto 0 0 space.regions).take (searchMax req) = _ :=
    List.take_of_length_le (Nat.le_of_not_le hmax)
  rw [htake]
  constructor
  · intro h
    refine Or.inr fun i r hr hs hc => ?_
    obtain ⟨l, hl, heq⟩ := h (by omega)
    rw [hl.unique (allMatches_lists space req)] at heq
    have hlen := congrArg List.length heq
    rw [List.length_map, List.length_map] at hlen
    have hpick := picks_of_length hpicks space.regions 0 0 hlen i r hr
    rw [Nat.zero_add] at hpick
    exact (hlooks i r hs).1 (hpick hs hc)
  · intro h _
    refine ⟨_, allMatches_lists space req, ?_⟩
    rw [matchesOf_eq hpicks space.regions 0 0 fun i r hr hs hc => ?_, allMatches]
    rw [Nat.zero_add]
    exact (hlooks i r hs).2 (h.resolve_left hmax i r hr hs hc)

/-- A region of zeros. -/
def zeroRegion (size : Nat) (h : 0 < size) (readOk : Bool) : DebugRegion := ⟨size, h, true, false, readOk, fun _ => 0⟩

theorem zeros_fits (size : Nat) (h : 0 < size ∧ size ≤ 2 ^ 64) (readOk : Bool) : span [zeroRegion size h.1 readOk] ≤ 2 ^ 64 := by
  rw [span_cons, span]
  exact h.2

/-- One region of zeros, from address 0 on. -/
def zeros (size : Nat) (h : 0 < size ∧ size ≤ 2 ^ 64) (readOk : Bool) : AddressSpace :=
  ⟨[zeroRegion size h.1 readOk], zeros_fits size h readOk⟩

theorem zeros_contains (size : Nat) (h : 0 < size ∧ size ≤ 2 ^ 64) (readOk : Bool) (hs : 4 ≤ size) :
    (0 : UInt64) ∈ allMatches (searchNeedle ⟨.object [], []⟩) (zeros size h readOk).regions :=
  (mem_matchesOf _ 0 0).2 ⟨[], _, [], 0, rfl, rfl, hs, rfl, rfl⟩

/-- **A region above 64 MiB and one that cannot be read are left out**, and the reply is not truncated. -/
theorem large_region_left_out :
    (searchMemory (zeros 67108868 (by decide) true) ⟨.object [], []⟩ = [] ∧
      (0 : UInt64) ∈ allMatches (searchNeedle ⟨.object [], []⟩) (zeros 67108868 (by decide) true).regions) ∧
    searchMemory (zeros 4096 (by decide) false) ⟨.object [], []⟩ = [] ∧
      (0 : UInt64) ∈ allMatches (searchNeedle ⟨.object [], []⟩) (zeros 4096 (by decide) false).regions := by
  refine ⟨⟨by decide +kernel, zeros_contains _ _ _ (by decide)⟩, by decide +kernel, zeros_contains _ _ _ (by decide)⟩

end Agent
end SwitchMcp

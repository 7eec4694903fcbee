import Mathlib
/-!
# RegionWalk — a walk over the regions that tile an address space

A process's addresses, from 0 on and below 2^64, are tiled by regions.  A query takes an address to the region that holds it;
a walk asks for the region at an address, visits it and goes on at its end, for a bounded number of turns, until a visit says
so or until the addresses wrap around.  `walk_eq` says that a walk from 0 visits the regions in order, and nothing else.
Nothing here names a program.
-/
namespace SwitchMcp
namespace Regions

variable {α β : Type} (size : α → Nat)

/-- How far some regions reach, one after the other. -/
def total (l : List α) : Nat := (l.map size).sum

/-- The regions with where they start, the first of them at `base`. -/
def placed : Nat → List α → List (Nat × α)
  | _, [] => []
  | base, r :: l => (base, r) :: placed (base + size r) l

/-- The region that holds an address, and where it starts. -/
def query : List α → Nat → Nat → Option (Nat × α)
  | [], _, _ => none
  | r :: l, base, addr => if addr < base + size r then some (base, r) else query l (base + size r) addr

/-- A placed region holds an address. -/
def Holds (p : Nat × α) (addr : Nat) : Prop := p.1 ≤ addr ∧ addr < p.1 + size p.2

@[simp] theorem total_nil : total size [] = 0 := rfl

@[simp] theorem total_cons (r : α) (l : List α) : total size (r :: l) = size r + total size l := by
  rw [total, List.map_cons, List.sum_cons, total]

theorem total_append (l l' : List α) : total size (l ++ l') = total size l + total size l' := by
  rw [total, List.map_append, List.sum_append, total, total]

@[simp] theorem placed_nil (base : Nat) : placed size base [] = [] := rfl

@[simp] theorem placed_cons (base : Nat) (r : α) (l : List α) :
    placed size base (r :: l) = (base, r) :: placed size (base + size r) l := rfl

@[simp] theorem map_snd_placed : ∀ (l : List α) (base : Nat), (placed size base l).map Prod.snd = l
  | [], _ => rfl
  | r :: l, base => by rw [placed_cons, List.map_cons, map_snd_placed l]

@[simp] theorem length_placed (l : List α) (base : Nat) : (placed size base l).length = l.length := by
  rw [← List.length_map (f := Prod.snd), map_snd_placed]

/-- A placed region is one of the regions, and lies within them. -/
theorem placed_within : ∀ (l : List α) (base : Nat), ∀ p ∈ placed size base l,
    p.2 ∈ l ∧ base ≤ p.1 ∧ p.1 + size p.2 ≤ base + total size l
  | [], _, p, h => nomatch h
  | r :: l, base, p, h => by
    rw [total_cons]
    rcases List.mem_cons.1 h with rfl | h
    · exact ⟨List.mem_cons_self, le_rfl, by dsimp only; omega⟩
    · obtain ⟨hm, hlo, hhi⟩ := placed_within l _ p h
      exact ⟨List.mem_cons_of_mem _ hm, by omega, by omega⟩

/-- **The regions lie one after the other.** -/
theorem placed_pairwise : ∀ (l : List α) (base : Nat), (placed size base l).Pairwise fun p q => p.1 + size p.2 ≤ q.1
  | [], _ => List.Pairwise.nil
  | r :: l, base => by
    rw [placed_cons, List.pairwise_cons]
    exact ⟨fun q hq => (placed_within size l _ q hq).2.1, placed_pairwise l _⟩

/-- **Every address below their end is in one of them.** -/
theorem placed_covers : ∀ (l : List α) (base addr : Nat), base ≤ addr → addr < base + total size l →
    ∃ p ∈ placed size base l, Holds size p addr
  | [], base, addr, hlo, hhi => by
    rw [total_nil] at hhi
    omega
  | r :: l, base, addr, hlo, hhi => by
    rw [total_cons] at hhi
    by_cases h : addr < base + size r
    · exact ⟨(base, r), List.mem_cons_self, hlo, h⟩
    · obtain ⟨p, hp, hholds⟩ := placed_covers l (base + size r) addr (Nat.not_lt.1 h) (by omega)
      exact ⟨p, List.mem_cons_of_mem _ hp, hholds⟩

/-! ## Queries -/

theorem query_append (hpos : ∀ r : α, 0 < size r) (r : α) (rest : List α) : ∀ (pre : List α) (base : Nat),
    query size (pre ++ r :: rest) base (base + total size pre) = some (base + total size pre, r)
  | [], base => by
    have := hpos r
    rw [List.nil_append, query, total_nil, if_pos (by omega)]
    rfl
  | p :: pre, base => by
    have h := query_append hpos r rest pre (base + size p)
    rw [List.cons_append, query, total_cons, ← Nat.add_assoc, if_neg (by omega)]
    exact h

theorem query_end : ∀ (l : List α) (base : Nat), query size l base (base + total size l) = none
  | [], _ => rfl
  | r :: l, base => by
    rw [query, total_cons, ← Nat.add_assoc, if_neg (by omega)]
    exact query_end l (base + size r)

/-! ## Walks -/

/-- What is visited until a visit says to stop. -/
def foldUntil {γ : Type} (visit : γ → β → β × Bool) : List γ → β → β
  | [], b => b
  | c :: l, b => if (visit c b).2 then (visit c b).1 else foldUntil visit l (visit c b).1

section
variable (visit : Nat × α → β → β × Bool) (l : List α)

/-- So many turns of a walk: the region at an address, a visit, and on at the region's end unless that wraps around. -/
def walk : Nat → UInt64 → β → β
  | 0, _, b => b
  | n + 1, addr, b =>
    match query size l 0 addr.toNat with
    | none => b
    | some p =>
      if (visit p b).2 then (visit p b).1
      else
        let next := UInt64.ofNat p.1 + UInt64.ofNat (size p.2)
        if next ≤ addr then (visit p b).1 else walk n next (visit p b).1

end

theorem walk_from (hpos : ∀ r : α, 0 < size r) (visit : Nat × α → β → β × Bool) (rest : List α) :
    ∀ (n : Nat) (pre : List α) (b : β), total size (pre ++ rest) ≤ 2 ^ 64 → total size pre < 2 ^ 64 →
      walk size visit (pre ++ rest) n (UInt64.ofNat (total size pre)) b =
        foldUntil visit ((placed size (total size pre) rest).take n) b := by
  induction rest with
  | nil =>
    intro n pre b hfits hpre
    have hend := query_end size pre 0
    rw [Nat.zero_add] at hend
    rw [placed_nil, List.take_nil, foldUntil, List.append_nil]
    cases n with
    | zero => rfl
    | succ n => rw [walk, UInt64.toNat_ofNat', Nat.mod_eq_of_lt hpre, hend]
  | cons r rest ih =>
    intro n pre b hfits hpre
    cases n with
    | zero => rfl
    | succ n =>
      have hquery := query_append size hpos r rest pre 0
      have hsize := hpos r
      rw [Nat.zero_add] at hquery
      rw [total_append, total_cons] at hfits
      rw [walk, UInt64.toNat_ofNat', Nat.mod_eq_of_lt hpre, hquery, placed_cons, List.take_succ_cons, foldUntil]
      dsimp only
      split
      · rfl
      rw [← UInt64.ofNat_add]
      by_cases htop : total size pre + size r < 2 ^ 64
      · have hgo : ¬UInt64.ofNat (total size pre + size r) ≤ UInt64.ofNat (total size pre) := by
          rw [UInt64.le_iff_toNat_le, UInt64.toNat_ofNat', UInt64.toNat_ofNat', Nat.mod_eq_of_lt htop,
            Nat.mod_eq_of_lt hpre]
          omega
        have hsnoc : total size (pre ++ [r]) = total size pre + size r := by
          rw [total_append, total_cons, total_nil, Nat.add_zero]
        have hnext := ih n (pre ++ [r]) (visit (total size pre, r) b).1
          (by rw [List.append_assoc, List.singleton_append, total_append, total_cons]; exact hfits)
          (by rw [hsnoc]; exact htop)
        rw [List.append_assoc, List.singleton_append, hsnoc] at hnext
        rw [if_neg hgo, hnext]
      · -- The region ends the address space: the next address is 0.
        have hzero : UInt64.ofNat (total size pre + size r) = 0 := by
          rw [show total size pre + size r = 2 ^ 64 by omega]
          rfl
        have hrest : rest = [] := by
          cases rest with
          | nil => rfl
          | cons r' rest =>
            have := hpos r'
            rw [total_cons] at hfits
            omega
        rw [hzero, if_pos UInt64.zero_le, hrest, placed_nil, List.take_nil, foldUntil]

/-- **A walk from 0 visits the regions in order**, as many as it has turns. -/
theorem walk_eq (hpos : ∀ r : α, 0 < size r) (visit : Nat × α → β → β × Bool) (l : List α) (hfits : total size l ≤ 2 ^ 64)
    (n : Nat) (b : β) : walk size visit l n 0 b = foldUntil visit ((placed size 0 l).take n) b :=
  walk_from size hpos visit l n [] b hfits (Nat.two_pow_pos 64)

/-! ## What a walk makes of its visits -/

/-- A walk that collects what passes a test. -/
theorem foldUntil_filter {γ δ : Type} (p : γ → Bool) (f : γ → δ) : ∀ (l : List γ) (b : List δ),
    foldUntil (fun c b => (if p c then b ++ [f c] else b, false)) l b = b ++ (l.filter p).map f
  | [], b => by rw [foldUntil, List.filter_nil, List.map_nil, List.append_nil]
  | c :: l, b => by
    rw [foldUntil, if_neg Bool.false_ne_true, foldUntil_filter p f l]
    by_cases h : p c = true
    · rw [if_pos h, List.filter_cons_of_pos h, List.map_cons, List.append_assoc, List.singleton_append]
    · rw [if_neg h, List.filter_cons_of_neg h]

/-- A walk that stops at the first that passes one. -/
theorem foldUntil_find {γ δ : Type} (p : γ → Bool) (f : γ → δ) : ∀ (l : List γ) (d : δ),
    foldUntil (fun c d => if p c then (f c, true) else (d, false)) l d = ((l.find? p).map f).getD d
  | [], _ => rfl
  | c :: l, d => by
    rw [foldUntil]
    by_cases h : p c = true
    · rw [if_pos h, if_pos rfl, List.find?_cons_of_pos h]
      rfl
    · rw [if_neg h, if_neg Bool.false_ne_true, List.find?_cons_of_neg h, foldUntil_find p f l]

end Regions
end SwitchMcp

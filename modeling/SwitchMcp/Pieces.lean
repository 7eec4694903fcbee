import Mathlib
/-!
# Pieces — a file written in pieces

A piece is laid over a file at its position: what it reaches beyond the end is filled up, and a `fresh` piece empties the
file first.  `assemble_eq_iff` says when pieces of some data, laid one after the other, make up that data: what no piece
covers since the file was last emptied is filler already, and the last element is covered.
-/
namespace SwitchMcp

structure Piece (α : Type) where
  fresh : Bool
  pos : Nat
  data : List α

namespace Pieces

variable {α : Type} (fill : α)

/-- `data` laid over `content` at `pos`. -/
def overlay (content : List α) (pos : Nat) : List α → List α
  | [] => content
  | a :: data => (content ++ List.replicate (pos - content.length) fill).take pos ++ (a :: data) ++
      content.drop (pos + (a :: data).length)

def lay (content : List α) (p : Piece α) : List α := overlay fill (if p.fresh then [] else content) p.pos p.data

/-- The file after the pieces, from an empty one. -/
def assemble (l : List (Piece α)) : List α := l.foldl (lay fill) []

def covers (p : Piece α) (i : Nat) : Bool := decide (p.pos ≤ i ∧ i < p.pos + p.data.length)

/-- A piece covers `i`, and the file was not emptied after it. -/
def covered (l : List (Piece α)) (i : Nat) : Bool := l.foldl (fun c p => covers p i || (c && !p.fresh)) false

/-- What no piece covers is filler already, and the end is covered. -/
def Complete (data : List α) (l : List (Piece α)) : Prop :=
  (∀ i (h : i < data.length), covered l i = false → data[i] = fill) ∧ (data ≠ [] → covered l (data.length - 1) = true)

/-- A piece of the data. -/
def OfData (data : List α) (p : Piece α) : Prop := p.data <+: data.drop p.pos

variable {fill}

theorem assemble_snoc (l : List (Piece α)) (p : Piece α) : assemble fill (l ++ [p]) = lay fill (assemble fill l) p := by
  rw [assemble, List.foldl_append]
  rfl

theorem covered_snoc (l : List (Piece α)) (p : Piece α) (i : Nat) :
    covered (l ++ [p]) i = (covers p i || (covered l i && !p.fresh)) := by
  rw [covered, List.foldl_append]
  rfl

theorem covers_iff {p : Piece α} {i : Nat} : covers p i = true ↔ p.pos ≤ i ∧ i < p.pos + p.data.length := decide_eq_true_iff

theorem OfData.getElem? {data : List α} {p : Piece α} (h : OfData data p) {i : Nat} (hi : covers p i = true) :
    p.data[i - p.pos]? = data[i]? ∧ i < data.length := by
  obtain ⟨h1, h2⟩ := covers_iff.1 hi
  obtain ⟨r, hr⟩ := h
  have hlen := congrArg List.length hr
  rw [List.length_append, List.length_drop] at hlen
  have hget := congrArg (fun l => l[i - p.pos]?) hr
  simp only [List.getElem?_drop, List.getElem?_append_left (show i - p.pos < p.data.length by omega),
    Nat.add_sub_cancel' h1] at hget
  exact ⟨hget, by omega⟩

/-! ## Laying one piece -/

theorem overlay_nil (content : List α) (pos : Nat) : overlay fill content pos [] = content := rfl

theorem length_overlay (content : List α) (pos : Nat) {data : List α} (hd : data ≠ []) :
    (overlay fill content pos data).length = max content.length (pos + data.length) := by
  obtain ⟨a, data, rfl⟩ := List.exists_cons_of_ne_nil hd
  simp only [overlay, List.length_append, List.length_take, List.length_replicate, List.length_drop, List.length_cons]
  omega

theorem getElem?_overlay (content : List α) (pos : Nat) {data : List α} (hd : data ≠ []) (i : Nat) :
    (overlay fill content pos data)[i]? =
      if i < pos then (if i < content.length then content[i]? else some fill)
      else if i < pos + data.length then data[i - pos]?
      else content[i]? := by
  obtain ⟨a, data, rfl⟩ := List.exists_cons_of_ne_nil hd
  have hfront : ((content ++ List.replicate (pos - content.length) fill).take pos).length = pos := by
    simp only [List.length_take, List.length_append, List.length_replicate]
    omega
  rw [overlay, List.append_assoc]
  by_cases h1 : i < pos
  · rw [if_pos h1, List.getElem?_append_left (by omega), List.getElem?_take_of_lt h1]
    by_cases h2 : i < content.length
    · rw [if_pos h2, List.getElem?_append_left h2]
    · rw [if_neg h2, List.getElem?_append_right (by omega), List.getElem?_replicate, if_pos (by omega)]
  · rw [if_neg h1, List.getElem?_append_right (by omega), hfront]
    by_cases h2 : i < pos + (a :: data).length
    · rw [if_pos h2, List.getElem?_append_left (by omega)]
    · rw [if_neg h2, List.getElem?_append_right (by omega), List.getElem?_drop]
      congr 1
      omega

/-! ## Laying pieces of the data -/

/-- What a file holds after pieces of `data`. -/
structure Holds (fill : α) (data : List α) (l : List (Piece α)) (content : List α) : Prop where
  stored : ∀ i, covered l i = true → i < content.length ∧ i < data.length ∧ content[i]? = data[i]?
  filled : ∀ i, i < content.length → covered l i = false → content[i]? = some fill
  last : content ≠ [] → covered l (content.length - 1) = true

theorem holds_nil (data : List α) : Holds fill data [] [] where
  stored _ h := by cases h
  filled _ h _ := by cases h
  last h := absurd rfl h

/-- **An emptied file holds nothing.** -/
theorem Holds.emptied {data : List α} {l : List (Piece α)} {content : List α} (h : Holds fill data l content)
    (p : Piece α) (hp : p.data = []) : Holds fill data (l ++ [p]) (if p.fresh then [] else content) := by
  have hc : ∀ i, covered (l ++ [p]) i = (covered l i && !p.fresh) := fun i => by
    have : covers p i = false := by
      rw [← Bool.not_eq_true, covers_iff, hp]
      simp
    rw [covered_snoc, this, Bool.false_or]
  cases hf : p.fresh with
  | true =>
    refine ⟨fun i hi => ?_, fun i hi => (by cases hi), fun hne => absurd rfl hne⟩
    rw [hc, hf] at hi
    simp at hi
  | false =>
    have hc' : ∀ i, covered (l ++ [p]) i = covered l i := fun i => by rw [hc, hf]; simp
    exact ⟨fun i hi => h.stored i (hc' i ▸ hi), fun i hi hn => h.filled i hi (hc' i ▸ hn), fun hne => hc' _ ▸ h.last hne⟩

/-- **Laying a piece of the data keeps what the file holds.** -/
theorem Holds.lay {data : List α} {l : List (Piece α)} {content : List α} (h : Holds fill data l content) {p : Piece α}
    (hp : OfData data p) : Holds fill data (l ++ [p]) (Pieces.lay fill content p) := by
  unfold Pieces.lay
  by_cases hd : p.data = []
  · rw [hd, overlay_nil]
    exact h.emptied p hd
  -- the base the piece is laid over holds what was laid before it
  have hbase : ∀ i, covered (l ++ [p]) i = true → covers p i = true ∨
      (i < (if p.fresh then [] else content).length ∧ i < data.length ∧ (if p.fresh then [] else content)[i]? = data[i]?) := by
    intro i hi
    rw [covered_snoc, Bool.or_eq_true, Bool.and_eq_true, Bool.not_eq_true'] at hi
    refine hi.imp_right fun hi => ?_
    rw [if_neg (by rw [hi.2]; exact Bool.false_ne_true)]
    exact h.stored i hi.1
  have hgap : ∀ i, i < (if p.fresh then [] else content).length → covered (l ++ [p]) i = false →
      (if p.fresh then [] else content)[i]? = some fill := by
    intro i hi hc
    rw [covered_snoc, Bool.or_eq_false_iff] at hc
    cases hf : p.fresh with
    | true =>
      rw [hf] at hi
      cases hi
    | false =>
      simp only [hf, Bool.false_eq_true, if_false] at hi ⊢
      refine h.filled i hi ?_
      have := hc.2
      rwa [hf, Bool.not_false, Bool.and_true] at this
  have hlast : (if p.fresh then [] else content) ≠ [] →
      covered (l ++ [p]) ((if p.fresh then [] else content).length - 1) = true := by
    intro hne
    cases hf : p.fresh with
    | true =>
      rw [hf] at hne
      exact absurd rfl hne
    | false =>
      simp only [hf, Bool.false_eq_true, if_false] at hne ⊢
      rw [covered_snoc, hf, h.last hne]
      simp
  generalize (if p.fresh then [] else content) = base at hbase hgap hlast ⊢
  have hlen : (overlay fill base p.pos p.data).length = _ := length_overlay base p.pos hd
  have hpos : 0 < p.data.length := List.length_pos_of_ne_nil hd
  refine ⟨fun i hi => ?_, fun i hi hc => ?_, fun _ => ?_⟩
  · rw [getElem?_overlay base p.pos hd, hlen]
    by_cases hcov : covers p i = true
    · obtain ⟨h1, h2⟩ := covers_iff.1 hcov
      obtain ⟨hget, hlt⟩ := hp.getElem? hcov
      rw [if_neg (by omega), if_pos h2]
      exact ⟨by omega, hlt, hget⟩
    · obtain ⟨h1, h2, h3⟩ := (hbase i hi).resolve_left hcov
      rw [covers_iff, not_and_or] at hcov
      refine ⟨by omega, h2, ?_⟩
      rcases hcov with hcov | hcov
      · rw [if_pos (by omega), if_pos h1, h3]
      · rw [if_neg (by omega), if_neg (by omega), h3]
  · have hcov : ¬(p.pos ≤ i ∧ i < p.pos + p.data.length) := by
      rw [← covers_iff, Bool.not_eq_true]
      rw [covered_snoc, Bool.or_eq_false_iff] at hc
      exact hc.1
    rw [getElem?_overlay base p.pos hd]
    by_cases h1 : i < p.pos
    · rw [if_pos h1]
      split
      · rename_i h2
        exact hgap i h2 hc
      · rfl
    · rw [if_neg h1, if_neg (by omega)]
      exact hgap i (by omega) hc
  · rw [hlen]
    by_cases hmax : base.length ≤ p.pos + p.data.length
    · rw [max_eq_right hmax, covered_snoc, Bool.or_eq_true]
      exact Or.inl (covers_iff.2 ⟨by omega, by omega⟩)
    · rw [max_eq_left (by omega)]
      exact hlast (List.ne_nil_of_length_pos (by omega))

theorem holds_assemble {data : List α} (l : List (Piece α)) (hl : ∀ p ∈ l, OfData data p) :
    Holds fill data l (assemble fill l) := by
  induction l using List.reverseRecOn with
  | nil => exact holds_nil data
  | append_singleton l p ih =>
    rw [assemble_snoc]
    refine (ih fun q hq => hl q (List.mem_append_left _ hq)).lay (hl p ?_)
    exact List.mem_append_right _ List.mem_cons_self

/-- **Pieces of the data make it up exactly when they are complete.** -/
theorem assemble_eq_iff {data : List α} {l : List (Piece α)} (hl : ∀ p ∈ l, OfData data p) :
    assemble fill l = data ↔ Complete fill data l := by
  have h : Holds fill data l (assemble fill l) := holds_assemble l hl
  constructor
  · intro he
    rw [he] at h
    refine ⟨fun i hi hc => ?_, h.last⟩
    have := h.filled i hi hc
    rw [List.getElem?_eq_getElem hi] at this
    exact Option.some.inj this
  · rintro ⟨hgap, hend⟩
    have hle : (assemble fill l).length ≤ data.length := by
      by_cases hne : assemble fill l = []
      · rw [hne]; exact Nat.zero_le _
      · have := (h.stored _ (h.last hne)).2.1
        have hpos := List.length_pos_of_ne_nil hne
        omega
    have hge : data.length ≤ (assemble fill l).length := by
      by_cases hne : data = []
      · rw [hne]; exact Nat.zero_le _
      · have := (h.stored _ (hend hne)).1
        have hpos := List.length_pos_of_ne_nil hne
        omega
    refine List.ext_getElem? fun i => ?_
    by_cases hi : i < data.length
    · cases hc : covered l i with
      | true => exact (h.stored i hc).2.2
      | false => rw [h.filled i (by omega) hc, List.getElem?_eq_getElem hi, hgap i hi hc]
    · rw [List.getElem?_eq_none (by omega), List.getElem?_eq_none (by omega)]

end Pieces
end SwitchMcp

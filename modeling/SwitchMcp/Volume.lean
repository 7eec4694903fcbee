import Mathlib
/-!
# Volume — a directory tree by its paths

A volume has an entry, a directory or a file, at some of its paths; the root is a directory, and every other entry's
parent is one.  `put` is the one way to change it: an entry is made or replaced where the parent is a directory and no
directory is in the way, so a volume never loses an entry nor turns a directory into a file.  Nothing here names a
program.
-/
namespace SwitchMcp

inductive Entry (β : Type)
  | dir
  | file (content : β)
deriving DecidableEq

def Entry.isDir {β : Type} : Entry β → Bool
  | .dir => true
  | .file _ => false

theorem Entry.isDir_iff {β : Type} {e : Entry β} : e.isDir = true ↔ e = .dir := by
  cases e <;> simp [isDir]

/-- The entries below the root, by their paths. -/
structure Volume (α β : Type) [DecidableEq α] where
  entries : AList (fun _ : List α => Entry β)
  parent : ∀ (p : List α) (n : α), p ++ [n] ∈ entries → p = [] ∨ entries.lookup p = some .dir

namespace Volume

variable {α β : Type} [DecidableEq α]

def empty : Volume α β := ⟨∅, fun _ _ h => absurd h (AList.notMem_empty _)⟩

/-- What is at a path. -/
def entryAt (v : Volume α β) (p : List α) : Option (Entry β) := if p = [] then some .dir else v.entries.lookup p

@[simp] theorem entryAt_nil (v : Volume α β) : v.entryAt [] = some .dir := if_pos rfl

theorem entryAt_of_ne (v : Volume α β) {p : List α} (h : p ≠ []) : v.entryAt p = v.entries.lookup p := if_neg h

/-- **An entry's parent is a directory.** -/
theorem at_parent {v : Volume α β} {p : List α} {n : α} {e : Entry β} (h : v.entryAt (p ++ [n]) = some e) :
    v.entryAt p = some .dir := by
  rw [entryAt_of_ne v (by simp)] at h
  have hm : p ++ [n] ∈ v.entries := AList.lookup_isSome.1 (by rw [h]; rfl)
  by_cases hp : p = []
  · subst hp; exact entryAt_nil v
  · rw [entryAt_of_ne v hp]
    exact (v.parent p n hm).resolve_left hp

/-- What has something below it is a directory. -/
theorem at_ancestor {v : Volume α β} {p r : List α} {e : Entry β} (h : v.entryAt (p ++ r) = some e) (hr : r ≠ []) :
    v.entryAt p = some .dir := by
  induction r using List.reverseRecOn generalizing e with
  | nil => exact absurd rfl hr
  | append_singleton r n ih =>
    rw [← List.append_assoc] at h
    by_cases hr' : r = []
    · subst hr'
      rw [List.append_nil] at h
      exact at_parent h
    · exact ih (at_parent h) hr'

/-- Nothing is below what is not a directory. -/
theorem at_below {v : Volume α β} {p r : List α} (h : v.entryAt p ≠ some .dir) (hr : r ≠ []) : v.entryAt (p ++ r) = none := by
  rcases hv : v.entryAt (p ++ r) with _ | e
  · rfl
  · exact absurd (at_ancestor hv hr) h

/-! ## Changing a volume -/

/-- An entry may be made or replaced here. -/
def Free (v : Volume α β) (p : List α) : Prop := p ≠ [] ∧ v.entryAt p.dropLast = some .dir ∧ v.entryAt p ≠ some .dir

instance [DecidableEq β] (v : Volume α β) (p : List α) : Decidable (v.Free p) := inferInstanceAs (Decidable (_ ∧ _ ∧ _))

theorem free_snoc {v : Volume α β} {p : List α} {n : α} :
    v.Free (p ++ [n]) ↔ v.entryAt p = some .dir ∧ v.entryAt (p ++ [n]) ≠ some .dir := by
  unfold Free
  rw [List.dropLast_concat]
  simp

/-- An entry at a free path. -/
def put (v : Volume α β) (p : List α) (e : Entry β) (h : v.Free p) : Volume α β where
  entries := v.entries.insert p e
  parent := by
    intro q n hm
    by_cases hq : q = []
    · exact Or.inl hq
    right
    have hold : v.entryAt q = some .dir := by
      by_cases hp : q ++ [n] = p
      · have := h.2.1
        rwa [← hp, List.dropLast_concat] at this
      · obtain ⟨e, he⟩ := Option.isSome_iff_exists.1 (AList.lookup_isSome.2 hm)
        rw [AList.lookup_insert_ne hp] at he
        exact at_parent (v := v) (n := n) (by rw [entryAt_of_ne v (by simp)]; exact he)
    rw [entryAt_of_ne v hq] at hold
    rw [AList.lookup_insert_ne, hold]
    rintro rfl
    exact h.2.2 (by rw [entryAt_of_ne v hq, hold])

theorem entryAt_put (v : Volume α β) (p : List α) (e : Entry β) (h : v.Free p) (q : List α) :
    (v.put p e h).entryAt q = if q = p then some e else v.entryAt q := by
  by_cases hq : q = []
  · subst hq
    rw [entryAt_nil, entryAt_nil, if_neg (Ne.symm h.1)]
  · rw [entryAt_of_ne _ hq, entryAt_of_ne _ hq, put]
    split
    · rename_i hqp
      subst hqp
      exact AList.lookup_insert _
    · rename_i hqp
      exact AList.lookup_insert_ne hqp

/-- The names in a directory. -/
def names (v : Volume α β) (p : List α) : List α :=
  v.entries.keys.filterMap (fun k => if k.dropLast = p then k.getLast? else none)

theorem mem_names {v : Volume α β} {p : List α} {n : α} : n ∈ v.names p ↔ (v.entryAt (p ++ [n])).isSome = true := by
  rw [entryAt_of_ne v (by simp), AList.lookup_isSome, AList.mem_keys, names, List.mem_filterMap]
  constructor
  · rintro ⟨k, hk, hn⟩
    split at hn
    · rename_i hp
      obtain ⟨q, rfl⟩ := List.getLast?_eq_some_iff.1 hn
      rw [List.dropLast_concat] at hp
      rwa [← hp]
    · cases hn
  · intro h
    exact ⟨p ++ [n], h, by rw [List.dropLast_concat, if_pos rfl, List.getLast?_concat]⟩

theorem nodup_names (v : Volume α β) (p : List α) : (v.names p).Nodup := by
  refine List.Nodup.filterMap ?_ v.entries.keys_nodup
  intro k k' n hk hk'
  simp only [Option.mem_def] at hk hk'
  split at hk
  · rename_i hp
    split at hk'
    · rename_i hp'
      obtain ⟨q, rfl⟩ := List.getLast?_eq_some_iff.1 hk
      obtain ⟨q', rfl⟩ := List.getLast?_eq_some_iff.1 hk'
      rw [List.dropLast_concat] at hp hp'
      rw [hp, hp']
    · cases hk'
  · cases hk

/-! ## Volumes that only grow -/

/-- No entry is lost and none changes its kind. -/
def Grows (v w : Volume α β) : Prop := ∀ p e, v.entryAt p = some e → ∃ e', w.entryAt p = some e' ∧ e'.isDir = e.isDir

theorem Grows.refl (v : Volume α β) : v.Grows v := fun _ e h => ⟨e, h, rfl⟩

theorem Grows.trans {u v w : Volume α β} (h : u.Grows v) (h' : v.Grows w) : u.Grows w := by
  intro p e he
  obtain ⟨e1, h1, hk1⟩ := h p e he
  obtain ⟨e2, h2, hk2⟩ := h' p e1 h1
  exact ⟨e2, h2, hk2.trans hk1⟩

theorem Grows.dir {v w : Volume α β} (h : v.Grows w) {p : List α} (hp : v.entryAt p = some .dir) : w.entryAt p = some .dir := by
  obtain ⟨e, he, hk⟩ := h p _ hp
  rw [he, Entry.isDir_iff.1 hk]

theorem Grows.not_dir {v w : Volume α β} (h : v.Grows w) {p : List α} {c : β} (hp : v.entryAt p = some (.file c)) :
    ∃ c', w.entryAt p = some (.file c') := by
  obtain ⟨e, he, hk⟩ := h p _ hp
  cases e with
  | dir => cases hk
  | file c' => exact ⟨c', he⟩

theorem grows_put (v : Volume α β) (p : List α) (e : Entry β) (h : v.Free p)
    (hk : ∀ e', v.entryAt p = some e' → e.isDir = e'.isDir) : v.Grows (v.put p e h) := by
  intro q e' hq
  rw [entryAt_put]
  split
  · rename_i hqp
    subst hqp
    exact ⟨e, rfl, hk e' hq⟩
  · exact ⟨e', hq, rfl⟩

end Volume
end SwitchMcp

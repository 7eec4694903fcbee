import Mathlib
/-!
# Between — a log watched from its end

An event `a` is `Waiting` until its `c` comes, and `Each` is what holds of every event with the events before it; one more event
changes both in one step (`waiting_snoc`, `each_snoc`).  Nothing here names a program.
-/
namespace SwitchMcp
namespace Between

variable {ε : Type} {a c : ε → Prop}

/-- An `a` that no `c` followed. -/
def Waiting (a c : ε → Prop) (l : List ε) : Prop := ∃ pre x post, l = pre ++ x :: post ∧ a x ∧ ∀ y ∈ post, ¬c y

theorem not_waiting_nil : ¬Waiting a c [] := by
  rintro ⟨pre, x, post, h, -⟩
  simp at h

theorem waiting_snoc {l : List ε} {e : ε} : Waiting a c (l ++ [e]) ↔ a e ∨ (Waiting a c l ∧ ¬c e) := by
  constructor
  · rintro ⟨pre, x, post, h, hx, hpost⟩
    induction post using List.reverseRecOn with
    | nil =>
      obtain ⟨-, he⟩ := List.append_inj' h rfl
      cases he
      exact Or.inl hx
    | append_singleton post y =>
      rw [← List.cons_append, ← List.append_assoc] at h
      obtain ⟨rfl, he⟩ := List.append_inj' h rfl
      cases he
      exact Or.inr ⟨⟨pre, x, post, rfl, hx, fun z hz => hpost z (by simp [hz])⟩, hpost e (by simp)⟩
  · rintro (he | ⟨⟨pre, x, post, rfl, hx, hpost⟩, he⟩)
    · exact ⟨l, e, [], rfl, he, fun y hy => nomatch hy⟩
    · refine ⟨pre, x, post ++ [e], by simp, hx, fun y hy => ?_⟩
      rcases List.mem_append.1 hy with hy | hy
      · exact hpost y hy
      · rw [List.mem_singleton.1 hy]
        exact he

/-- What holds of every event with the events before it. -/
def Each (P : List ε → ε → Prop) (l : List ε) : Prop := ∀ pre e post, l = pre ++ e :: post → P pre e

theorem each_nil {P : List ε → ε → Prop} : Each P [] := by
  intro pre e post h
  simp at h

theorem each_snoc {P : List ε → ε → Prop} {l : List ε} {e : ε} : Each P (l ++ [e]) ↔ Each P l ∧ P l e := by
  constructor
  · intro h
    refine ⟨fun pre x post hl => h pre x (post ++ [e]) (by simp [hl]), h l e [] rfl⟩
  · rintro ⟨h, he⟩ pre x post hl
    induction post using List.reverseRecOn with
    | nil =>
      obtain ⟨rfl, hx⟩ := List.append_inj' hl rfl
      cases hx
      exact he
    | append_singleton post y =>
      rw [← List.cons_append, ← List.append_assoc] at hl
      obtain ⟨rfl, -⟩ := List.append_inj' hl rfl
      exact h pre x post rfl

end Between
end SwitchMcp

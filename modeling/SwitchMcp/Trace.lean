import Mathlib
/-!
# Trace — the runs of a machine that answers, and the latest event of a kind

A machine takes an input to an answer and its next state.  `log` lists what happened in a run, an event an input, and
`latest p` is the last event of a kind.  What holds of the empty log and is kept by every event holds of every run
(`log_induction`).  Nothing here names a program.
-/
namespace SwitchMcp
namespace Trace

/-- An input, what it was answered, and the states around it. -/
structure Event (σ ι ρ : Type) where
  before : σ
  input : ι
  output : ρ
  after : σ

section Runs

variable {σ ι ρ : Type} (step : σ → ι → ρ × σ)

def event (s : σ) (i : ι) : Event σ ι ρ := ⟨s, i, (step s i).1, (step s i).2⟩

def run (s : σ) (l : List ι) : σ := l.foldl (fun s i => (step s i).2) s

def log : σ → List ι → List (Event σ ι ρ)
  | _, [] => []
  | s, i :: l => event step s i :: log (step s i).2 l

@[simp] theorem run_nil (s : σ) : run step s [] = s := rfl

theorem run_cons (s : σ) (i : ι) (l : List ι) : run step s (i :: l) = run step (step s i).2 l := rfl

theorem run_snoc (s : σ) (l : List ι) (i : ι) : run step s (l ++ [i]) = (step (run step s l) i).2 := by
  rw [run, List.foldl_append]; rfl

theorem log_snoc : ∀ (s : σ) (l : List ι) (i : ι), log step s (l ++ [i]) = log step s l ++ [event step (run step s l) i]
  | _, [], _ => rfl
  | s, j :: l, i => by
    rw [List.cons_append, log, log_snoc _ l i, log, List.cons_append, run_cons]

/-- **What every event keeps holds of every run.** -/
theorem log_induction {P : List (Event σ ι ρ) → σ → Prop} {Q : ι → Prop} {s : σ} (base : P [] s)
    (keep : ∀ l s i, P l s → Q i → P (l ++ [event step s i]) (step s i).2) (l : List ι) (h : ∀ i ∈ l, Q i) :
    P (log step s l) (run step s l) := by
  induction l using List.reverseRecOn with
  | nil => exact base
  | append_singleton l i ih =>
    rw [log_snoc, run_snoc]
    exact keep _ _ i (ih fun j hj => h j (List.mem_append_left _ hj)) (h i (by simp))

end Runs

section Latest

variable {ε : Type} (p : ε → Bool)

/-- The last event of a kind. -/
def latest (l : List ε) : Option ε := l.reverse.find? p

@[simp] theorem latest_nil : latest p [] = none := rfl

theorem latest_snoc (l : List ε) (e : ε) : latest p (l ++ [e]) = if p e = true then some e else latest p l := by
  rw [latest, List.reverse_append, List.reverse_singleton, List.singleton_append, List.find?_cons]
  cases p e <;> rfl

end Latest

end Trace
end SwitchMcp

import Mathlib
/-!
# Prog — programs over a state that may raise

A program takes a state and gives a value or an exception, and in both cases the state it reached: what was done before a
`raise` stays done.  `Ends p s Q E` is the pair of postconditions of one run: `Q` when it returns, `E` when it raises.  The
rules are equivalences, one for each way to build a program, so a specification is computed from the outside in.
-/
namespace SwitchMcp

abbrev Prog (σ ε α : Type) : Type := ExceptT ε (StateM σ) α

namespace Prog

variable {σ ε α β : Type}

/-- A program from what it does to each state. -/
def of (f : σ → Except ε α × σ) : Prog σ ε α := ExceptT.mk f

/-- The result of a run, and the state it ends in. -/
def exec (p : Prog σ ε α) (s : σ) : Except ε α × σ := p.run.run s

@[simp] theorem exec_of (f : σ → Except ε α × σ) (s : σ) : exec (of f) s = f s := rfl

@[simp] theorem exec_pure (a : α) (s : σ) : exec (pure a : Prog σ ε α) s = (.ok a, s) := rfl

@[simp] theorem exec_throw (e : ε) (s : σ) : exec (throw e : Prog σ ε α) s = (.error e, s) := rfl

@[simp] theorem exec_get (s : σ) : exec (get : Prog σ ε σ) s = (.ok s, s) := rfl

@[simp] theorem exec_modify (f : σ → σ) (s : σ) : exec (modify f : Prog σ ε PUnit) s = (.ok ⟨⟩, f s) := rfl

theorem exec_bind (p : Prog σ ε α) (f : α → Prog σ ε β) (s : σ) :
    exec (p >>= f) s = match exec p s with
      | (.ok a, s) => exec (f a) s
      | (.error e, s) => (.error e, s) := by
  have h : exec (p >>= f) s = (ExceptT.bindCont f (p.run.run s).1).run (p.run.run s).2 := rfl
  rw [h, exec]
  rcases p.run.run s with ⟨a | e, s⟩ <;> rfl

theorem exec_tryCatch (p : Prog σ ε α) (f : ε → Prog σ ε α) (s : σ) :
    exec (tryCatch p f) s = match exec p s with
      | (.ok a, s) => (.ok a, s)
      | (.error e, s) => exec (f e) s := by
  have h : exec (tryCatch p f) s = (match (p.run.run s).1 with
      | Except.ok a => (pure (Except.ok a) : StateM σ (Except ε α))
      | Except.error e => f e) (p.run.run s).2 := rfl
  rw [h, exec]
  rcases p.run.run s with ⟨a | e, s⟩ <;> rfl

/-- What holds of a run when it returns, and what when it raises. -/
structure Ends (p : Prog σ ε α) (s : σ) (Q : α → σ → Prop) (E : ε → σ → Prop) : Prop where
  ok {a : α} {s' : σ} (h : exec p s = (.ok a, s')) : Q a s'
  error {e : ε} {s' : σ} (h : exec p s = (.error e, s')) : E e s'

variable {p : Prog σ ε α} {s s' : σ} {Q Q' : α → σ → Prop} {E E' : ε → σ → Prop}

theorem Ends.fst {a : α} (h : Ends p s Q E) (he : (exec p s).1 = .ok a) : Q a (exec p s).2 :=
  h.ok (by rw [← he])

theorem ends_iff_ok {a : α} (h : exec p s = (.ok a, s')) : Ends p s Q E ↔ Q a s' :=
  ⟨fun he => he.ok h, fun hq => ⟨fun h' => by cases h.symm.trans h'; exact hq, fun h' => nomatch h.symm.trans h'⟩⟩

theorem ends_iff_error {e : ε} (h : exec p s = (.error e, s')) : Ends p s Q E ↔ E e s' :=
  ⟨fun he => he.error h, fun hq => ⟨fun h' => (nomatch h.symm.trans h'), fun h' => by cases h.symm.trans h'; exact hq⟩⟩

@[simp] theorem ends_pure (a : α) : Ends (pure a : Prog σ ε α) s Q E ↔ Q a s := ends_iff_ok (exec_pure a s)

@[simp] theorem ends_throw (e : ε) : Ends (throw e : Prog σ ε α) s Q E ↔ E e s := ends_iff_error (exec_throw e s)

@[simp] theorem ends_get {Q : σ → σ → Prop} : Ends (get : Prog σ ε σ) s Q E ↔ Q s s := ends_iff_ok (exec_get s)

@[simp] theorem ends_modify {Q : PUnit → σ → Prop} (f : σ → σ) :
    Ends (modify f : Prog σ ε PUnit) s Q E ↔ Q ⟨⟩ (f s) := ends_iff_ok (exec_modify f s)

/-- **A sequence of two programs.** -/
@[simp] theorem ends_bind {Q : β → σ → Prop} (f : α → Prog σ ε β) :
    Ends (p >>= f) s Q E ↔ Ends p s (fun a s => Ends (f a) s Q E) E := by
  have hb := exec_bind p f s
  rcases hp : exec p s with ⟨e | a, s1⟩ <;> rw [hp] at hb
  · rw [ends_iff_error hb, ends_iff_error hp]
  · rw [ends_iff_ok hp]
    exact ⟨fun h => ⟨fun h' => h.ok (hb.trans h'), fun h' => h.error (hb.trans h')⟩,
      fun h => ⟨fun h' => h.ok (hb.symm.trans h'), fun h' => h.error (hb.symm.trans h')⟩⟩

/-- **A program and the handler of its exceptions.** -/
@[simp] theorem ends_tryCatch (f : ε → Prog σ ε α) :
    Ends (tryCatch p f) s Q E ↔ Ends p s Q (fun e s => Ends (f e) s Q E) := by
  have hb := exec_tryCatch p f s
  rcases hp : exec p s with ⟨e | a, s1⟩ <;> rw [hp] at hb
  · rw [ends_iff_error hp]
    exact ⟨fun h => ⟨fun h' => h.ok (hb.trans h'), fun h' => h.error (hb.trans h')⟩,
      fun h => ⟨fun h' => h.ok (hb.symm.trans h'), fun h' => h.error (hb.symm.trans h')⟩⟩
  · rw [ends_iff_ok hb, ends_iff_ok hp]

/-- **Postconditions that follow.** -/
theorem Ends.mono (h : Ends p s Q E) (hQ : ∀ a s', Q a s' → Q' a s') (hE : ∀ e s', E e s' → E' e s') : Ends p s Q' E' :=
  ⟨fun he => hQ _ _ (h.ok he), fun he => hE _ _ (h.error he)⟩

/-- **Two specifications of one program.** -/
theorem Ends.and (h : Ends p s Q E) (h' : Ends p s Q' E') :
    Ends p s (fun a s => Q a s ∧ Q' a s) (fun e s => E e s ∧ E' e s) :=
  ⟨fun he => ⟨h.ok he, h'.ok he⟩, fun he => ⟨h.error he, h'.error he⟩⟩

/-- **What a program does to the state, however it ends.** -/
def Moves (R : σ → σ → Prop) (p : Prog σ ε α) : Prop := ∀ s, Ends p s (fun _ s' => R s s') (fun _ s' => R s s')

section
variable {R : σ → σ → Prop} (trans : ∀ a b c, R a b → R b c → R a c)
include trans

theorem Moves.bind {f : α → Prog σ ε β} (hp : Moves R p) (hf : ∀ a, Moves R (f a)) : Moves R (p >>= f) := fun s => by
  rw [ends_bind]
  exact (hp s).mono (fun a s1 h1 => (hf a s1).mono (fun _ _ h2 => trans _ _ _ h1 h2) (fun _ _ h2 => trans _ _ _ h1 h2)) (fun _ _ h => h)

theorem Moves.tryCatch {f : ε → Prog σ ε α} (hp : Moves R p) (hf : ∀ e, Moves R (f e)) :
    Moves R (tryCatch p f) := fun s => by
  rw [ends_tryCatch]
  exact (hp s).mono (fun _ _ h => h) (fun e s1 h1 => (hf e s1).mono (fun _ _ h2 => trans _ _ _ h1 h2) (fun _ _ h2 => trans _ _ _ h1 h2))

end

theorem Moves.of {R : σ → σ → Prop} {f : σ → Except ε α × σ} (h : ∀ s, R s (f s).2) : Moves R (of f) := fun s => by
  have hs := h s
  rcases hf : f s with ⟨e | a, s'⟩ <;> rw [hf] at hs
  · exact (ends_iff_error hf).2 hs
  · exact (ends_iff_ok hf).2 hs

theorem Moves.state {R : σ → σ → Prop} (hp : Moves R p) (s : σ) : R s (exec p s).2 := by
  rcases hx : exec p s with ⟨e | a, s1⟩
  · exact (hp s).error hx
  · exact (hp s).ok hx

/-! ## Cleaning up and trying again -/

/-- `try`/`finally`: what `q` raises replaces what `p` does. -/
def ensure (p : Prog σ ε α) (q : Prog σ ε Unit) : Prog σ ε α := do
  let a ← tryCatch p (fun e => do q; throw e)
  q
  return a

/-- `p` so many times at most, from the `i`-th on, as long as it raises what `again` takes; a pause follows each such try. -/
def retry (p : Prog σ ε α) (again : ε → Bool) (pause : Nat → Prog σ ε Unit) (spent : ε) : Nat → Nat → Prog σ ε α
  | 0, _ => throw spent
  | tries + 1, i => tryCatch p (fun e => if again e then do pause i; retry p again pause spent tries (i + 1) else throw e)

@[simp] theorem ends_ensure (q : Prog σ ε Unit) :
    Ends (ensure p q) s Q E ↔
      Ends p s (fun a s => Ends q s (fun _ s => Q a s) E) (fun e s => Ends q s (fun _ s => E e s) E) := by
  simp only [ensure, ends_bind, ends_tryCatch, ends_throw, ends_pure]

/-- **Trying again**: what holds of a try that returns holds after those before it, and what the tries did they did
together. -/
theorem ends_retry {R : σ → σ → Prop} {T : σ → α → σ → Prop} (refl : ∀ s, R s s) (trans : ∀ a b c, R a b → R b c → R a c)
    (after : ∀ s s1 a s2, R s s1 → T s1 a s2 → T s a s2) (hp : ∀ s, Ends p s (T s) (fun _ s' => R s s')) (again : ε → Bool)
    {pause : Nat → Prog σ ε Unit} (hpause : ∀ i, Moves R (pause i)) (spent : ε) :
    ∀ (tries i : Nat) (s : σ), Ends (retry p again pause spent tries i) s (T s) (fun _ s' => R s s')
  | 0, _, s => (ends_throw spent).2 (refl s)
  | tries + 1, i, s => by
    rw [retry, ends_tryCatch]
    refine (hp s).mono (fun _ _ h => h) (fun e s1 h1 => ?_)
    split
    · rw [ends_bind]
      refine (hpause i s1).mono (fun _ s2 h2 => ?_) (fun _ s2 h2 => trans _ _ _ h1 h2)
      have h := trans _ _ _ h1 h2
      exact (ends_retry refl trans after hp again hpause spent tries (i + 1) s2).mono
        (fun a s3 h3 => after _ _ a _ h h3) (fun _ s3 h3 => trans _ _ _ h h3)
    · exact (ends_throw e).2 h1

end Prog
end SwitchMcp

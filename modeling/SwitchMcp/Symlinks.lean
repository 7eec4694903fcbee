import SwitchMcp.Volume
/-!
# Symlinks — following links in a directory tree, and resolving a path without following it

`walk` follows a path as a kernel does: every name must be there, a link is replaced by its target, and no more than so
many links are followed.  `real` rewrites a path to one without links as far as the tree has it, keeps what is missing, and
stops at a link that it is resolving already.  Where the walk arrives, `real` stops at none and names the place
(`real_of_walk`); its result meets no link (`real_linkless`), so a walk along it only goes down (`walk_linkless`).  A path
that does meet one leads where the first of them leads (`walk_first_link`).  Nothing here names a program.
-/
namespace SwitchMcp

/-- A segment of a path: `here` is a dot or, when blank, nothing between two slashes; `bad` is one that no entry can be named
by. -/
inductive Seg (γ : Type)
  | here (blank : Bool) | up | enter (c : γ) | bad
deriving DecidableEq

/-- What is no directory: a file, or a link by the segments of its target. -/
inductive Leaf (γ β : Type)
  | file (content : β)
  | link (absolute : Bool) (target : List (Seg γ))
deriving DecidableEq

/-- Where a walk ends: at an entry, at a free name in a directory, nowhere, or before one link too many. -/
inductive Reached (α : Type)
  | at (p : List α)
  | free (p : List α) (n : α)
  | nowhere
  | loop

/-- Where a path starts as it is written: at one slash, at two, or so many directories above where it is read. -/
inductive Start
  | root | doubled | above (n : Nat)
deriving DecidableEq

/-- A path as it is written while its links are resolved. -/
structure Written (γ : Type) where
  start : Start
  parts : List γ
deriving DecidableEq

/-- What a path is resolved to: a path without links, or, at a link that is being resolved already, the path to it and what
comes after it. -/
inductive Resolved (γ : Type)
  | done (w : Written γ)
  | stuck (w : Written γ) (rest : List (Seg γ))

namespace Symlinks

/-- Where the target of a link in `p` starts. -/
def startOf {τ : Type} (absolute : Bool) (p : List τ) : List τ := if absolute then [] else p

theorem map_startOf {τ τ' : Type} (f : τ → τ') (absolute : Bool) (p : List τ) :
    (startOf absolute p).map f = startOf absolute (p.map f) := by
  cases absolute <;> rfl

end Symlinks

/-! ## Written paths -/

namespace Written

variable {γ : Type}

def up (w : Written γ) : Written γ :=
  if w.parts = [] then
    match w.start with
    | .above n => ⟨.above (n + 1), []⟩
    | s => ⟨s, []⟩
  else ⟨w.start, w.parts.dropLast⟩

def enter (w : Written γ) (c : γ) : Written γ := ⟨w.start, w.parts ++ [c]⟩

/-- Where the target of a link in `w` starts. -/
def startAt (absolute : Bool) (w : Written γ) : Written γ := if absolute then ⟨.root, []⟩ else w

/-- Where a path leads that is read at `base`. -/
def place (base : List γ) (w : Written γ) : List γ :=
  match w.start with
  | .above n => base.take (base.length - n) ++ w.parts
  | _ => w.parts

theorem place_enter (base : List γ) (w : Written γ) (c : γ) : (w.enter c).place base = w.place base ++ [c] := by
  obtain ⟨start, parts⟩ := w
  cases start with
  | above n => exact (List.append_assoc _ _ _).symm
  | _ => rfl

theorem place_up (base : List γ) (w : Written γ) : w.up.place base = (w.place base).dropLast := by
  obtain ⟨start, parts⟩ := w
  by_cases hp : parts = []
  · subst hp
    cases start with
    | above n =>
      show base.take (base.length - (n + 1)) ++ [] = (base.take (base.length - n) ++ []).dropLast
      rw [List.append_nil, List.append_nil, List.dropLast_eq_take, List.take_take, List.length_take]
      congr 1
      omega
    | _ => rfl
  · have hup : up ⟨start, parts⟩ = ⟨start, parts.dropLast⟩ := if_neg hp
    rw [hup]
    cases start with
    | above n => exact (List.dropLast_append_of_ne_nil hp).symm
    | _ => rfl

theorem place_startAt (base : List γ) (a : Bool) (w : Written γ) :
    (w.startAt a).place base = Symlinks.startOf a (w.place base) := by
  cases a <;> rfl

theorem enter_inj {w w' : Written γ} {c c' : γ} (h : w.enter c = w'.enter c') : w = w' ∧ c = c' := by
  obtain ⟨start, parts⟩ := w
  obtain ⟨start', parts'⟩ := w'
  obtain ⟨rfl, hparts⟩ := Written.mk.inj h
  obtain ⟨rfl, hc⟩ := List.append_inj' hparts rfl
  exact ⟨rfl, (List.cons.inj hc).1⟩

end Written

namespace Symlinks

variable {α β γ : Type} [DecidableEq α] (nameOf : γ → α) (v : Volume α (Leaf γ β))

def isDir (p : List α) : Bool := (v.entryAt p).elim false Entry.isDir

theorem isDir_iff {v : Volume α (Leaf γ β)} {p : List α} : isDir v p = true ↔ v.entryAt p = some .dir := by
  unfold isDir
  cases v.entryAt p with
  | none => simp
  | some e => simp [Entry.isDir_iff]

/-- One walk, with what follows a link. -/
def walkWith (follow : List α → List (Seg γ) → Reached α) : List α → List (Seg γ) → Reached α
  | p, [] => .at p
  | p, s :: l =>
    if isDir v p = false then .nowhere
    else
      match s with
      | .here _ => walkWith follow p l
      | .up => walkWith follow p.dropLast l
      | .bad => .nowhere
      | .enter c =>
        match v.entryAt (p ++ [nameOf c]) with
        | none => if l.isEmpty then .free p (nameOf c) else .nowhere
        | some (.file (.link a t)) => follow (startOf a p) (t ++ l)
        | some _ => walkWith follow (p ++ [nameOf c]) l

/-- The kernel's walk, following no more than `k` links. -/
def walk : Nat → List α → List (Seg γ) → Reached α
  | 0 => walkWith nameOf v (fun _ _ => .loop)
  | k + 1 => walkWith nameOf v (walk k)

example (c : γ) : walk nameOf v 0 [] [.here false, .enter c] = walk nameOf v 0 [] [.up, .enter c] := by
  rw [walk, walkWith, walkWith]
  rfl

/-! ## One step -/

theorem walk_nil (k : Nat) (p : List α) : walk nameOf v k p [] = .at p := by cases k <;> rfl

theorem walk_not_dir (k : Nat) {p : List α} (s : Seg γ) (l : List (Seg γ)) (h : v.entryAt p ≠ some .dir) :
    walk nameOf v k p (s :: l) = .nowhere := by
  have hd : isDir v p = false := by
    cases hb : isDir v p with
    | false => rfl
    | true => exact absurd (isDir_iff.1 hb) h
  cases k <;> cases s <;> rw [walk, walkWith, if_pos hd]

theorem walk_here (k : Nat) {p : List α} (b : Bool) (l : List (Seg γ)) (h : v.entryAt p = some .dir) :
    walk nameOf v k p (.here b :: l) = walk nameOf v k p l := by
  cases k <;> rw [walk, walkWith, if_neg (by rw [isDir_iff.2 h]; simp)]

theorem walk_up (k : Nat) {p : List α} (l : List (Seg γ)) (h : v.entryAt p = some .dir) :
    walk nameOf v k p (.up :: l) = walk nameOf v k p.dropLast l := by
  cases k <;> rw [walk, walkWith, if_neg (by rw [isDir_iff.2 h]; simp)]

theorem walk_bad (k : Nat) (p : List α) (l : List (Seg γ)) : walk nameOf v k p (.bad :: l) = .nowhere := by
  cases k <;> (rw [walk, walkWith]; split <;> rfl)

theorem walk_missing (k : Nat) {p : List α} {c : γ} (l : List (Seg γ)) (h : v.entryAt p = some .dir)
    (hc : v.entryAt (p ++ [nameOf c]) = none) :
    walk nameOf v k p (.enter c :: l) = if l.isEmpty then .free p (nameOf c) else .nowhere := by
  cases k <;> (rw [walk, walkWith, if_neg (by rw [isDir_iff.2 h]; simp)]; rw [hc])

theorem walk_enter (k : Nat) {p : List α} {c : γ} {e : Entry (Leaf γ β)} (l : List (Seg γ)) (h : v.entryAt p = some .dir)
    (hc : v.entryAt (p ++ [nameOf c]) = some e) (hl : ∀ a t, e ≠ .file (.link a t)) :
    walk nameOf v k p (.enter c :: l) = walk nameOf v k (p ++ [nameOf c]) l := by
  cases k <;>
    (rw [walk, walkWith, if_neg (by rw [isDir_iff.2 h]; simp)]
     rw [hc]
     cases e with
     | dir => rfl
     | file x =>
       cases x with
       | file b => rfl
       | link a t => exact absurd rfl (hl a t))

theorem walk_link_zero {p : List α} {c : γ} {a : Bool} {t : List (Seg γ)} (l : List (Seg γ))
    (h : v.entryAt p = some .dir) (hc : v.entryAt (p ++ [nameOf c]) = some (.file (.link a t))) :
    walk nameOf v 0 p (.enter c :: l) = .loop := by
  rw [walk, walkWith, if_neg (by rw [isDir_iff.2 h]; simp), hc]

theorem walk_link_succ (k : Nat) {p : List α} {c : γ} {a : Bool} {t : List (Seg γ)} (l : List (Seg γ))
    (h : v.entryAt p = some .dir) (hc : v.entryAt (p ++ [nameOf c]) = some (.file (.link a t))) :
    walk nameOf v (k + 1) p (.enter c :: l) = walk nameOf v k (startOf a p) (t ++ l) := by
  rw [walk, walkWith, if_neg (by rw [isDir_iff.2 h]; simp), hc]

/-! ## Where the walk arrives -/

/-- What stands under a name: nothing, a link, or something else. -/
theorem under_cases (p : List α) (n : α) :
    v.entryAt (p ++ [n]) = none ∨ (∃ a t, v.entryAt (p ++ [n]) = some (.file (.link a t))) ∨
      ∃ e, v.entryAt (p ++ [n]) = some e ∧ ∀ a t, e ≠ .file (.link a t) := by
  rcases h : v.entryAt (p ++ [n]) with _ | ⟨_ | ⟨b | ⟨a, t⟩⟩⟩
  · exact .inl rfl
  · exact .inr (.inr ⟨_, rfl, by simp⟩)
  · exact .inr (.inr ⟨_, rfl, by simp⟩)
  · exact .inr (.inl ⟨a, t, rfl⟩)

/-- A walk that ends at an entry, or at a free name that its last part gave. -/
def Ends (l' : List (Seg γ)) (r : Reached α) : Prop := (∃ q, r = .at q) ∨ l' ≠ [] ∧ ∃ d n, r = .free d n

omit [DecidableEq α] in
theorem not_ends_nowhere {l' : List (Seg γ)} : ¬Ends l' (.nowhere : Reached α) := by
  rintro (⟨q, h⟩ | ⟨-, d, n, h⟩) <;> cases h

omit [DecidableEq α] in
theorem not_ends_loop {l' : List (Seg γ)} : ¬Ends l' (.loop : Reached α) := by
  rintro (⟨q, h⟩ | ⟨-, d, n, h⟩) <;> cases h

/-- A walk that ends came by the first part of its path. -/
theorem walk_append (k : Nat) (l l' : List (Seg γ)) (p : List α) (h : Ends l' (walk nameOf v k p (l ++ l'))) :
    ∃ k' ≤ k, ∃ m, walk nameOf v k p l = .at m ∧ walk nameOf v k' m l' = walk nameOf v k p (l ++ l') := by
  induction k using Nat.strong_induction_on generalizing l p with
  | _ k ihk =>
  induction l generalizing p with
  | nil => exact ⟨k, le_refl k, p, walk_nil nameOf v k p, rfl⟩
  | cons s l ih =>
    by_cases hd : v.entryAt p = some .dir
    · cases s with
      | here b =>
        rw [List.cons_append, walk_here nameOf v k _ _ hd] at h ⊢
        rw [walk_here nameOf v k _ _ hd]
        exact ih p h
      | up =>
        rw [List.cons_append, walk_up nameOf v k _ hd] at h ⊢
        rw [walk_up nameOf v k _ hd]
        exact ih _ h
      | bad =>
        rw [List.cons_append, walk_bad] at h
        exact absurd h not_ends_nowhere
      | enter c =>
        rw [List.cons_append] at h ⊢
        rcases under_cases v p (nameOf c) with hc | ⟨a, t, hc⟩ | ⟨e, hc, hl⟩
        · rw [walk_missing nameOf v k _ hd hc] at h
          split at h
          · rename_i hempty
            rcases h with ⟨q, h⟩ | ⟨hne, -⟩
            · cases h
            · exact absurd (List.append_eq_nil_iff.1 (List.isEmpty_iff.1 hempty)).2 hne
          · exact absurd h not_ends_nowhere
        · cases k with
          | zero =>
            rw [walk_link_zero nameOf v _ hd hc] at h
            exact absurd h not_ends_loop
          | succ k =>
            have hstep : walk nameOf v (k + 1) p (.enter c :: (l ++ l')) = walk nameOf v k (startOf a p) (t ++ l ++ l') := by
              rw [walk_link_succ nameOf v k _ hd hc, List.append_assoc]
            rw [hstep] at h ⊢
            rw [walk_link_succ nameOf v k _ hd hc]
            obtain ⟨k', hk, m, hm, hq⟩ := ihk k (Nat.lt_succ_self k) (t ++ l) _ h
            exact ⟨k', hk.trans (Nat.le_succ k), m, hm, hq⟩
        · rw [walk_enter nameOf v k _ hd hc hl] at h ⊢
          rw [walk_enter nameOf v k _ hd hc hl]
          exact ih _ h
    · rw [List.cons_append, walk_not_dir nameOf v k _ _ hd] at h
      exact absurd h not_ends_nowhere

/-- A walk that arrives does so when more links may be followed. -/
theorem walk_mono {k k' : Nat} (hk : k ≤ k') (l : List (Seg γ)) (p q : List α) (h : walk nameOf v k p l = .at q) :
    walk nameOf v k' p l = .at q := by
  induction k using Nat.strong_induction_on generalizing k' l p with
  | _ k ihk =>
  induction l generalizing p with
  | nil => rwa [walk_nil] at h ⊢
  | cons s l ih =>
    by_cases hd : v.entryAt p = some .dir
    · cases s with
      | here b =>
        rw [walk_here nameOf v _ _ _ hd] at h ⊢
        exact ih p h
      | up =>
        rw [walk_up nameOf v _ _ hd] at h ⊢
        exact ih _ h
      | bad => rw [walk_bad] at h; cases h
      | enter c =>
        rcases under_cases v p (nameOf c) with hc | ⟨a, t, hc⟩ | ⟨e, hc, hl⟩
        · rw [walk_missing nameOf v k _ hd hc] at h
          split at h <;> cases h
        · cases k with
          | zero => rw [walk_link_zero nameOf v _ hd hc] at h; cases h
          | succ k =>
            obtain ⟨k', rfl⟩ : ∃ j, k' = j + 1 := ⟨k' - 1, by omega⟩
            rw [walk_link_succ nameOf v _ _ hd hc] at h ⊢
            exact ihk k (Nat.lt_succ_self k) (by omega) _ _ h
        · rw [walk_enter nameOf v _ _ hd hc hl] at h ⊢
          exact ih _ h
    · rw [walk_not_dir nameOf v k _ _ hd] at h
      cases h

/-! ## Resolving a path -/

section
variable [DecidableEq γ]

/-- How many slashes a text begins with that has these segments. -/
def slashes : List (Seg γ) → Nat
  | .here true :: s :: l => slashes (s :: l) + 1
  | _ => 0

/-- A path and what was to come after it are joined: this starts over when it begins with a slash. -/
def joinRest (w : Written γ) (rest l : List (Seg γ)) : Resolved γ :=
  match slashes l with
  | 0 => .stuck w (rest ++ l)
  | 2 => .stuck ⟨.doubled, []⟩ l
  | _ => .stuck ⟨.root, []⟩ l

/-- One pass over a path that is read at `base`, with what resolves a link; `seen` are the links in hand. -/
def realWith (base : List γ) (follow : List (Written γ) → Written γ → List (Seg γ) → Option (Resolved γ))
    (seen : List (Written γ)) : Written γ → List (Seg γ) → Option (Resolved γ)
  | w, [] => some (.done w)
  | w, s :: l =>
    match s with
    | .here _ => realWith base follow seen w l
    | .up => realWith base follow seen w.up l
    | .bad => none
    | .enter c =>
      match v.entryAt (((w.enter c).place base).map nameOf) with
      | some (.file (.link a t)) =>
        if w.enter c ∈ seen then some (joinRest (w.enter c) [] l)
        else
          match follow (w.enter c :: seen) (w.startAt a) t with
          | none => none
          | some (.stuck w' rest) => some (joinRest w' rest l)
          | some (.done w') => realWith base follow seen w' l
      | _ => realWith base follow seen (w.enter c) l

/-- The path without its links, which may lie `n` deep inside one another. -/
def real (base : List γ) : Nat → List (Written γ) → Written γ → List (Seg γ) → Option (Resolved γ)
  | 0 => realWith nameOf v base (fun _ _ _ => none)
  | n + 1 => realWith nameOf v base (real base n)

/-- The path without its dots, by its text alone; a part that is no name stays one. -/
def lexical : List (Option γ) → List (Seg γ) → List (Option γ)
  | p, [] => p
  | p, s :: l =>
    match s with
    | .here _ => lexical p l
    | .up => lexical p.dropLast l
    | .enter c => lexical (p ++ [some c]) l
    | .bad => lexical (p ++ [none]) l

example (c : γ) : joinRest ⟨.root, [c]⟩ [] [.here true, .enter c] = .stuck ⟨.root, []⟩ [.here true, .enter c] := rfl

variable (base : List γ) (n : Nat) (seen : List (Written γ))

theorem real_nil (w : Written γ) : real nameOf v base n seen w [] = some (.done w) := by cases n <;> rfl

theorem real_here (w : Written γ) (b : Bool) (l : List (Seg γ)) :
    real nameOf v base n seen w (.here b :: l) = real nameOf v base n seen w l := by
  cases n <;> rfl

theorem real_up (w : Written γ) (l : List (Seg γ)) :
    real nameOf v base n seen w (.up :: l) = real nameOf v base n seen w.up l := by
  cases n <;> rfl

theorem real_bad (w : Written γ) (l : List (Seg γ)) : real nameOf v base n seen w (.bad :: l) = none := by cases n <;> rfl

theorem real_enter {w : Written γ} {c : γ} (l : List (Seg γ))
    (h : ∀ a t, v.entryAt (((w.enter c).place base).map nameOf) ≠ some (.file (.link a t))) :
    real nameOf v base n seen w (.enter c :: l) = real nameOf v base n seen (w.enter c) l := by
  cases n <;>
    (rw [real, realWith]
     split
     · rename_i a t he
       exact absurd he (h a t)
     · rfl)

/-- The link is in hand already. -/
theorem real_seen {w : Written γ} {c : γ} {a : Bool} {t : List (Seg γ)} (l : List (Seg γ))
    (h : v.entryAt (((w.enter c).place base).map nameOf) = some (.file (.link a t))) (hs : w.enter c ∈ seen) :
    real nameOf v base n seen w (.enter c :: l) = some (joinRest (w.enter c) [] l) := by
  cases n <;> (rw [real, realWith, h]; exact if_pos hs)

theorem real_link_zero {w : Written γ} {c : γ} {a : Bool} {t : List (Seg γ)} (l : List (Seg γ))
    (h : v.entryAt (((w.enter c).place base).map nameOf) = some (.file (.link a t))) (hs : w.enter c ∉ seen) :
    real nameOf v base 0 seen w (.enter c :: l) = none := by
  rw [real, realWith, h]
  exact if_neg hs

theorem real_link_succ {w : Written γ} {c : γ} {a : Bool} {t : List (Seg γ)} (l : List (Seg γ))
    (h : v.entryAt (((w.enter c).place base).map nameOf) = some (.file (.link a t))) (hs : w.enter c ∉ seen) :
    real nameOf v base (n + 1) seen w (.enter c :: l) =
      match real nameOf v base n (w.enter c :: seen) (w.startAt a) t with
      | none => none
      | some (.stuck w' rest) => some (joinRest w' rest l)
      | some (.done w') => real nameOf v base (n + 1) seen w' l := by
  rw [real, realWith, h]
  exact if_neg hs

omit [DecidableEq γ] in
/-- What is joined stays without a result. -/
theorem joinRest_ne (w : Written γ) (rest l : List (Seg γ)) (w' : Written γ) : joinRest w rest l ≠ .done w' := by
  unfold joinRest
  split <;> nofun

/-- No link in hand is one that a walk arrives by within so many links. -/
def Unreached (base : List γ) (k : Nat) (seen : List (Written γ)) : Prop :=
  ∀ (w : Written γ) c, w.enter c ∈ seen → ∀ m, walk nameOf v k ((w.place base).map nameOf) [.enter c] ≠ .at m

omit [DecidableEq γ] in
/-- The fewest links that a walk by a link needs are one more than the walk by its target needs. -/
theorem walk_link_least {k : Nat} {p m : List α} {c : γ} {a : Bool} {t : List (Seg γ)} (hd : v.entryAt p = some .dir)
    (hc : v.entryAt (p ++ [nameOf c]) = some (.file (.link a t))) (h : walk nameOf v k p [.enter c] = .at m) :
    ∃ i ≤ k, walk nameOf v i (startOf a p) t = .at m ∧ ∀ m', walk nameOf v i p [.enter c] ≠ .at m' := by
  classical
  have hex : ∃ j m', walk nameOf v j p [.enter c] = .at m' := ⟨k, m, h⟩
  obtain ⟨m', hm'⟩ := Nat.find_spec hex
  have hle : Nat.find hex ≤ k := Nat.find_min' hex ⟨m, h⟩
  have hsame : m' = m := by
    have hk := walk_mono nameOf v hle _ _ _ hm'
    rw [h] at hk
    exact (Reached.at.inj hk).symm
  obtain ⟨i, hi⟩ : ∃ i, Nat.find hex = i + 1 := by
    cases hz : Nat.find hex with
    | zero =>
      rw [hz, walk_link_zero nameOf v [] hd hc] at hm'
      cases hm'
    | succ i => exact ⟨i, rfl⟩
  rw [hi, walk_link_succ nameOf v i [] hd hc, List.append_nil, hsame] at hm'
  exact ⟨i, by omega, hm', fun m'' hm'' => Nat.find_min hex (by omega) ⟨m'', hm''⟩⟩

omit [DecidableEq γ] in
theorem Unreached.cons {base : List γ} {k i : Nat} {seen : List (Written γ)} (h : Unreached nameOf v base k seen) (hi : i ≤ k)
    {w : Written γ} {c : γ} (hw : ∀ m, walk nameOf v i ((w.place base).map nameOf) [.enter c] ≠ .at m) :
    Unreached nameOf v base i (w.enter c :: seen) := by
  intro w' c' hs m hm
  rcases List.mem_cons.1 hs with hs | hs
  · obtain ⟨rfl, rfl⟩ := Written.enter_inj hs
    exact hw m hm
  · exact h w' c' hs m (walk_mono nameOf v hi _ _ _ hm)

/-- **Where the walk arrives, the path without its links is the place it arrives at**: no link on the way is met again while
it is being resolved. -/
theorem real_of_walk (base : List γ) (n : Nat) : ∀ (k : Nat) (seen : List (Written γ)) (w : Written γ) (l : List (Seg γ))
    (q : List α), walk nameOf v k ((w.place base).map nameOf) l = .at q → Unreached nameOf v base k seen →
    ∀ r, real nameOf v base n seen w l = some r → ∃ w', r = .done w' ∧ (w'.place base).map nameOf = q := by
  induction n using Nat.strong_induction_on with
  | _ n ihn =>
  intro k seen w l
  induction l generalizing w with
  | nil =>
    intro q h _ r hr
    rw [walk_nil] at h
    rw [real_nil] at hr
    cases h
    cases hr
    exact ⟨w, rfl, rfl⟩
  | cons s l ih =>
    intro q h hseen r hr
    by_cases hd : v.entryAt ((w.place base).map nameOf) = some .dir
    · cases s with
      | here b =>
        rw [walk_here nameOf v k _ _ hd] at h
        rw [real_here] at hr
        exact ih w q h hseen r hr
      | up =>
        rw [walk_up nameOf v k _ hd, ← List.map_dropLast, ← Written.place_up] at h
        rw [real_up] at hr
        exact ih _ q h hseen r hr
      | bad => rw [walk_bad] at h; cases h
      | enter c =>
        have hmap : ((w.enter c).place base).map nameOf = (w.place base).map nameOf ++ [nameOf c] := by
          rw [Written.place_enter, List.map_append, List.map_singleton]
        rcases under_cases v ((w.place base).map nameOf) (nameOf c) with hc | ⟨a, t, hc⟩ | ⟨e, hc, hl⟩
        · rw [walk_missing nameOf v k _ hd hc] at h
          split at h <;> cases h
        · have hlink : v.entryAt (((w.enter c).place base).map nameOf) = some (.file (.link a t)) := by rw [hmap, hc]
          obtain ⟨k', hk, m, hm, hq⟩ := walk_append nameOf v k [.enter c] l _ (Or.inl ⟨q, h⟩)
          rw [List.singleton_append, h] at hq
          have hnew : w.enter c ∉ seen := fun hs => hseen w c hs m hm
          cases n with
          | zero =>
            rw [real_link_zero nameOf v base seen l hlink hnew] at hr
            cases hr
          | succ n =>
            obtain ⟨i, hi, hwalk, hleast⟩ := walk_link_least nameOf v hd hc hm
            rw [← map_startOf, ← Written.place_startAt] at hwalk
            have hreal := ihn n (Nat.lt_succ_self n) i (w.enter c :: seen) (w.startAt a) t m hwalk
              (hseen.cons nameOf v hi hleast)
            rw [real_link_succ nameOf v base n seen l hlink hnew] at hr
            rcases hres : real nameOf v base n (w.enter c :: seen) (w.startAt a) t with _ | r'
            · rw [hres] at hr
              cases hr
            · obtain ⟨w', rfl, hplace⟩ := hreal r' hres
              rw [hres] at hr
              rw [← hplace] at hq
              exact ih w' q (walk_mono nameOf v hk _ _ _ hq) hseen r hr
        · rw [walk_enter nameOf v k _ hd hc hl, ← hmap] at h
          rw [real_enter nameOf v base n seen l (by
            intro a t ha
            rw [hmap, hc] at ha
            exact hl a t (Option.some.inj ha))] at hr
          exact ih _ q h hseen r hr
    · rw [walk_not_dir nameOf v k _ _ hd] at h
      cases h

end

/-! ## Paths without links -/

/-- No link stands on the path. -/
def Linkless (p : List γ) : Prop := ∀ q, q <+: p → ∀ a t, v.entryAt (q.map nameOf) ≠ some (.file (.link a t))

variable {nameOf v}

theorem linkless_nil : Linkless nameOf v ([] : List γ) := by
  intro q hq a t h
  rw [List.prefix_nil.1 hq, List.map_nil, Volume.entryAt_nil] at h
  cases h

theorem Linkless.mono {p q : List γ} (h : Linkless nameOf v p) (hq : q <+: p) : Linkless nameOf v q :=
  fun r hr => h r (hr.trans hq)

theorem Linkless.startOf {p : List γ} (h : Linkless nameOf v p) (a : Bool) : Linkless nameOf v (startOf a p) := by
  cases a with
  | true => exact linkless_nil
  | false => exact h

theorem Linkless.snoc {p : List γ} {c : γ} (h : Linkless nameOf v p)
    (hc : ∀ a t, v.entryAt ((p ++ [c]).map nameOf) ≠ some (.file (.link a t))) : Linkless nameOf v (p ++ [c]) := by
  intro q hq
  rcases List.prefix_concat_iff.1 hq with rfl | hq
  · exact hc
  · exact h q hq

/-- A directory's path is without links. -/
theorem linkless_of_dir {p : List γ} (h : v.entryAt (p.map nameOf) = some .dir) : Linkless nameOf v p := by
  rintro q ⟨r, rfl⟩ a t hq
  rw [List.map_append] at h
  by_cases hr : r.map nameOf = []
  · rw [hr, List.append_nil, hq] at h
    cases h
  · rw [Volume.at_ancestor h hr] at hq
    cases hq

/-- **A path without its links has none.** -/
theorem real_linkless [DecidableEq γ] (base : List γ) (n : Nat) : ∀ (seen : List (Written γ)) (w : Written γ)
    (l : List (Seg γ)), Linkless nameOf v (w.place base) → ∀ w', real nameOf v base n seen w l = some (.done w') →
    Linkless nameOf v (w'.place base) := by
  induction n using Nat.strong_induction_on with
  | _ n ihn =>
  intro seen w l
  induction l generalizing w with
  | nil =>
    intro hw w' h
    rw [real_nil] at h
    cases h
    exact hw
  | cons s l ih =>
    intro hw w' h
    cases s with
    | here b =>
      rw [real_here] at h
      exact ih w hw w' h
    | up =>
      rw [real_up] at h
      refine ih _ ?_ w' h
      rw [Written.place_up]
      exact hw.mono (List.dropLast_prefix _)
    | bad => rw [real_bad] at h; cases h
    | enter c =>
      by_cases hc : ∃ a t, v.entryAt (((w.enter c).place base).map nameOf) = some (.file (.link a t))
      · obtain ⟨a, t, hc⟩ := hc
        by_cases hs : w.enter c ∈ seen
        · rw [real_seen nameOf v base n seen l hc hs] at h
          exact absurd (Option.some.inj h) (joinRest_ne _ _ _ _)
        cases n with
        | zero => rw [real_link_zero nameOf v base seen l hc hs] at h; cases h
        | succ n =>
          rw [real_link_succ nameOf v base n seen l hc hs] at h
          split at h
          · cases h
          · exact absurd (Option.some.inj h) (joinRest_ne _ _ _ _)
          · rename_i w1 hw1
            refine ih w1 (ihn n (Nat.lt_succ_self n) _ _ t ?_ w1 hw1) w' h
            rw [Written.place_startAt]
            exact hw.startOf a
      · have hc' : ∀ a t, v.entryAt (((w.enter c).place base).map nameOf) ≠ some (.file (.link a t)) :=
          fun a t ha => hc ⟨a, t, ha⟩
        rw [real_enter nameOf v base n seen l hc'] at h
        refine ih _ ?_ w' h
        rw [Written.place_enter] at hc' ⊢
        exact hw.snoc hc'

/-- **A path has no link, or a first one.** -/
theorem linkless_or (p : List γ) : Linkless nameOf v p ∨ ∃ d c rest a t, p = d ++ c :: rest ∧ Linkless nameOf v d ∧
    v.entryAt ((d ++ [c]).map nameOf) = some (.file (.link a t)) := by
  induction p using List.reverseRecOn with
  | nil => exact Or.inl linkless_nil
  | append_singleton p c ih =>
    rcases ih with hp | ⟨d, c', rest, a, t, rfl, hd, hc⟩
    · by_cases hc : ∃ a t, v.entryAt ((p ++ [c]).map nameOf) = some (.file (.link a t))
      · obtain ⟨a, t, hc⟩ := hc
        exact Or.inr ⟨p, c, [], a, t, rfl, hp, hc⟩
      · exact Or.inl (hp.snoc fun a t ha => hc ⟨a, t, ha⟩)
    · exact Or.inr ⟨d, c', rest ++ [c], a, t, by simp, hd, hc⟩

/-- **Along a path without links a walk only goes down.** -/
theorem walk_linkless (k : Nat) (r p : List γ) {l : List (Seg γ)} (hl : l ≠ []) (hp : Linkless nameOf v (p ++ r))
    (hd : v.entryAt (p.map nameOf) = some .dir) :
    walk nameOf v k (p.map nameOf) (r.map .enter ++ l) =
      if isDir v ((p ++ r).map nameOf) = true then walk nameOf v k ((p ++ r).map nameOf) l else .nowhere := by
  induction r generalizing p with
  | nil => rw [List.append_nil, if_pos (isDir_iff.2 hd), List.map_nil, List.nil_append]
  | cons c r ih =>
    have hmap : (p ++ [c]).map nameOf = p.map nameOf ++ [nameOf c] := by simp
    have hassoc : p ++ c :: r = p ++ [c] ++ r := by simp
    have hne : r.map Seg.enter ++ l ≠ [] := fun h => hl (List.append_eq_nil_iff.1 h).2
    rw [List.map_cons, List.cons_append, hassoc]
    rw [hassoc] at hp
    rcases under_cases v (p.map nameOf) (nameOf c) with hc | ⟨a, t, hc⟩ | ⟨e, hc, hlink⟩
    · have hbelow : v.entryAt ((p ++ [c] ++ r).map nameOf) ≠ some .dir := by
        rw [List.map_append, hmap]
        intro h
        by_cases hr : r.map nameOf = []
        · rw [hr, List.append_nil, hc] at h; cases h
        · rw [Volume.at_ancestor h hr] at hc; cases hc
      rw [walk_missing nameOf v k _ hd hc, if_neg (mt isDir_iff.1 hbelow), if_neg (by simpa using hne)]
    · exact absurd hc (by rw [← hmap]; exact hp _ (List.prefix_append _ _) a t)
    · rw [walk_enter nameOf v k _ hd hc hlink, ← hmap]
      by_cases hdir : e = .dir
      · subst hdir
        exact ih (p ++ [c]) hp (by rw [hmap]; exact hc)
      · have hnot : v.entryAt ((p ++ [c]).map nameOf) ≠ some .dir := by
          rw [hmap, hc]
          exact fun h => hdir (Option.some.inj h)
        have hbelow : v.entryAt ((p ++ [c] ++ r).map nameOf) ≠ some .dir := by
          intro h
          by_cases hr : r.map nameOf = []
          · rw [List.map_append, hr, List.append_nil] at h; exact hnot h
          · rw [List.map_append] at h; exact hnot (Volume.at_ancestor h hr)
        obtain ⟨s, l', hs⟩ := List.exists_cons_of_ne_nil hne
        rw [if_neg (mt isDir_iff.1 hbelow), hs, walk_not_dir nameOf v k s l' hnot]

/-- **A path that meets a link leads where the first of them leads.** -/
theorem walk_first_link (k : Nat) {d : List γ} {c : γ} {a : Bool} {t : List (Seg γ)} (hd : Linkless nameOf v d)
    (hc : v.entryAt ((d ++ [c]).map nameOf) = some (.file (.link a t))) (l : List (Seg γ)) :
    walk nameOf v (k + 1) [] (d.map .enter ++ .enter c :: l) = walk nameOf v k (startOf a (d.map nameOf)) (t ++ l) := by
  rw [List.map_append, List.map_singleton] at hc
  have hdir : v.entryAt (d.map nameOf) = some .dir := Volume.at_parent hc
  have hw := walk_linkless (k + 1) d [] (List.cons_ne_nil (Seg.enter c) l) hd (Volume.entryAt_nil v)
  rw [List.nil_append, if_pos (isDir_iff.2 hdir)] at hw
  exact hw.trans (walk_link_succ nameOf v k l hdir hc)

end Symlinks
end SwitchMcp

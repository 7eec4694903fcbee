import SwitchMcp.PyJson
/-!
# Confirm — destructive operations and their tokens (guards.py)

`require_confirmation` over `_pending`, the table of tokens that wait for their second call.  A run is a list of calls;
`outcome` is what a call does after the calls before it.  `confirmed_by_issue` says which earlier call a call that
proceeds answers, that no token is used twice, and what a blocked call leaves in the table.  A token is bound to the
detail it was issued for and not to the operation (`other_operation_proceeds`).
-/
namespace SwitchMcp
namespace Guards

/-! ## Digests -/

/-- `hashlib.sha256(b).digest()`. -/
abbrev Sha256 := Bytes → {d : Bytes // d.length = 32}

def hexCp (n : Nat) : CodePoint := if n < 10 then cp (48 + n) else cp (87 + n)

/-- `.hexdigest()`. -/
def hexdigest (d : Bytes) : PyStr := d.flatMap (fun b => [hexCp (b.toNat / 16), hexCp (b.toNat % 16)])

theorem length_hexdigest (d : Bytes) : (hexdigest d).length = 2 * d.length := by
  unfold hexdigest
  induction d with
  | nil => rfl
  | cons b d ih =>
    rw [List.flatMap_cons, List.length_append, ih, List.length_cons]
    simp only [List.length_cons, List.length_nil]
    omega

/-! ## The guard -/

def tokenTtlSeconds : ℚ := 300

/-- `_pending`: the detail and the expiry of a token. -/
abbrev Pending := PyStr → Option (PyStr × ℚ)

/-- The server's process: its environment, its id, and its hash function. -/
structure Process where
  allowDestructive : Option PyStr
  pid : Nat
  sha256 : Sha256

/-- One call of `require_confirmation`, the time it reads first, and the text of the time `_token_for` reads. -/
structure Call where
  operation : PyStr
  detail : PyStr
  confirm : Option PyStr
  now : ℚ
  clock : PyStr

/-- `s.lower()`, as far as a comparison with ASCII letters can tell. -/
def lower (s : PyStr) : PyStr := s.map (fun c => if 65 ≤ c.val ∧ c.val ≤ 90 then cp (c.val + 32) else c)

def allowWithoutConfirmation (env : Process) : Bool :=
  decide (lower (env.allowDestructive.getD []) ∈ [py "1", py "true", py "yes"])

def tokenFor (env : Process) (operation detail clock : PyStr) : Option PyStr :=
  (encode (operation ++ py "|" ++ detail ++ py "|" ++ clock ++ py "|" ++ pyNat env.pid)).map
    (fun seed => (hexdigest (env.sha256 seed).val).take 12)

/-- Why `Blocked` was raised. -/
inductive Refusal
  | unknown (confirm operation : PyStr)
  | mismatch (recorded detail : PyStr)
  | issued (operation detail token : PyStr)
deriving DecidableEq

def Refusal.message : Refusal → PyStr
  | .unknown confirm operation =>
    py "Confirmation token '" ++ confirm ++ py "' is unknown or expired. Call " ++ operation ++
      py " again with no token to get a fresh one, and check with the user before confirming."
  | .mismatch recorded detail =>
    py "Confirmation token does not match this request. It was issued for: " ++ recorded ++ py ". This call is: " ++
      detail ++ py ". Request a new token for the operation you actually intend."
  | .issued operation detail token =>
    py "DESTRUCTIVE — not executed.\nOperation: " ++ operation ++ py "\nEffect: " ++ detail ++
      py "\n\nConfirm with the user, then repeat the call with confirm=\"" ++ token ++
      py "\" to proceed. Token expires in 300s."

inductive Outcome
  | proceeds
  | blocked (r : Refusal)
  /-- `UnicodeEncodeError` out of `seed.encode()`. -/
  | encodeError
deriving DecidableEq

/-- The loop that deletes the tokens past their expiry. -/
def sweep (now : ℚ) (pending : Pending) : Pending := fun tok => (pending tok).filter (fun e => !decide (e.2 < now))

/-- `confirm`, when `if confirm:` takes its branch. -/
def Call.given (c : Call) : Option PyStr := c.confirm.filter (fun k => !k.isEmpty)

def requireConfirmation (env : Process) (pending : Pending) (c : Call) : Outcome × Pending :=
  if allowWithoutConfirmation env then (.proceeds, pending)
  else
    let pending := sweep c.now pending
    match c.given with
    | some confirm =>
      match pending confirm with
      | none => (.blocked (.unknown confirm c.operation), pending)
      | some (recordedDetail, _) =>
        if recordedDetail ≠ c.detail then (.blocked (.mismatch recordedDetail c.detail), pending)
        else (.proceeds, Function.update pending confirm none)
    | none =>
      match tokenFor env c.operation c.detail c.clock with
      | none => (.encodeError, pending)
      | some token =>
        (.blocked (.issued c.operation c.detail token),
          Function.update pending token (some (c.detail, c.now + tokenTtlSeconds)))

/-! ## Runs -/

/-- The table after a run that starts with an empty one. -/
def pendingAfter (env : Process) (cs : List Call) : Pending :=
  cs.foldl (fun p c => (requireConfirmation env p c).2) (fun _ => none)

/-- What `c` does after the calls `pre`. -/
def outcome (env : Process) (pre : List Call) (c : Call) : Outcome :=
  (requireConfirmation env (pendingAfter env pre) c).1

def Outcome.token : Outcome → Option PyStr
  | .blocked (.issued _ _ token) => some token
  | _ => none

/-- The tokens a run issues, first to last. -/
def issuedTokens (env : Process) (pre : List Call) : List Call → List PyStr
  | [] => []
  | c :: cs => (outcome env pre c).token.toList ++ issuedTokens env (pre ++ [c]) cs

/-! ## One call -/

theorem sweep_eq_some {now : ℚ} {p : Pending} {k : PyStr} {e : PyStr × ℚ} :
    sweep now p k = some e ↔ p k = some e ∧ now ≤ e.2 := by
  unfold sweep
  rw [Option.filter_eq_some_iff]
  simp

theorem allow_unset {env : Process} (h : env.allowDestructive = none) : allowWithoutConfirmation env = false := by
  unfold allowWithoutConfirmation
  rw [h]
  decide

theorem given_eq_some {c : Call} {k : PyStr} : c.given = some k ↔ c.confirm = some k ∧ k ≠ [] := by
  unfold Call.given
  rw [Option.filter_eq_some_iff]
  simp

theorem tokenFor_ne_nil {env : Process} {operation detail clock token : PyStr}
    (h : tokenFor env operation detail clock = some token) : token ≠ [] := by
  unfold tokenFor at h
  rw [Option.map_eq_some_iff] at h
  obtain ⟨seed, -, rfl⟩ := h
  intro h0
  have h12 := congrArg List.length h0
  rw [List.length_take, length_hexdigest, (env.sha256 seed).2] at h12
  simp at h12

/-- **What a call does**: it uses a token up, it changes nothing but the sweep, or it issues a token. -/
theorem require_cases {env : Process} (hd : env.allowDestructive = none) (p : Pending) (c : Call) :
    (∃ k e, c.given = some k ∧ sweep c.now p k = some (c.detail, e) ∧
      requireConfirmation env p c = (.proceeds, Function.update (sweep c.now p) k none)) ∨
    (∃ o, o ≠ .proceeds ∧ o.token = none ∧ requireConfirmation env p c = (o, sweep c.now p)) ∨
    (∃ k, k ≠ [] ∧ requireConfirmation env p c = (.blocked (.issued c.operation c.detail k),
      Function.update (sweep c.now p) k (some (c.detail, c.now + tokenTtlSeconds)))) := by
  unfold requireConfirmation
  rw [allow_unset hd, if_neg Bool.false_ne_true]
  dsimp only
  cases hg : c.given with
  | some k =>
    dsimp only
    rcases hk : sweep c.now p k with _ | ⟨recorded, e⟩
    · exact Or.inr (Or.inl ⟨_, by simp, rfl, rfl⟩)
    · dsimp only
      by_cases hr : recorded = c.detail
      · subst hr
        rw [if_neg (fun h => h rfl)]
        exact Or.inl ⟨k, e, rfl, hk, rfl⟩
      · rw [if_pos hr]
        exact Or.inr (Or.inl ⟨_, by simp, rfl, rfl⟩)
  | none =>
    dsimp only
    cases ht : tokenFor env c.operation c.detail c.clock with
    | none => exact Or.inr (Or.inl ⟨_, by simp, rfl, rfl⟩)
    | some k => exact Or.inr (Or.inr ⟨k, tokenFor_ne_nil ht, rfl⟩)

/-- A token that is pending and not expired lets the call it was issued for proceed. -/
theorem proceeds_of_pending {env : Process} (hd : env.allowDestructive = none) {pre : List Call} {c : Call} {k : PyStr}
    {expiry : ℚ} (hp : pendingAfter env pre k = some (c.detail, expiry)) (hk : k ≠ []) (hc : c.confirm = some k)
    (ht : c.now ≤ expiry) : outcome env pre c = .proceeds := by
  have hs : sweep c.now (pendingAfter env pre) k = some (c.detail, expiry) := sweep_eq_some.2 ⟨hp, ht⟩
  have hg : c.given = some k := given_eq_some.2 ⟨hc, hk⟩
  unfold outcome requireConfirmation
  rw [allow_unset hd, if_neg Bool.false_ne_true]
  simp only [hg, hs, ne_eq, not_true, if_false]

/-! ## Runs -/

theorem pendingAfter_snoc (env : Process) (pre : List Call) (c : Call) :
    pendingAfter env (pre ++ [c]) = (requireConfirmation env (pendingAfter env pre) c).2 := by
  unfold pendingAfter
  rw [List.foldl_append]
  rfl

theorem issuedTokens_append (env : Process) : ∀ (a b pre : List Call),
    issuedTokens env pre (a ++ b) = issuedTokens env pre a ++ issuedTokens env (pre ++ a) b
  | [], b, pre => by simp [issuedTokens]
  | c :: a, b, pre => by
    rw [List.cons_append, issuedTokens, issuedTokens, issuedTokens_append env a b (pre ++ [c]), List.append_assoc,
      List.append_assoc, List.singleton_append]

theorem issuedTokens_cons_mem {env : Process} {pre post : List Call} {c : Call} {k : PyStr}
    (h : (outcome env pre c).token = some k) : k ∈ issuedTokens env pre (c :: post) := by
  rw [issuedTokens, h]
  exact List.mem_append_left _ (by simp)

/-- What stands before the last element of a list that ends in `c`. -/
theorem split_snoc {α : Type} {a b l : List α} {x c : α} (h : l ++ [c] = a ++ x :: b) :
    (b = [] ∧ a = l ∧ x = c) ∨ ∃ b', b = b' ++ [c] ∧ l = a ++ x :: b' := by
  rcases List.eq_nil_or_concat' b with rfl | ⟨b', y, rfl⟩
  · obtain ⟨h1, h2⟩ := List.append_inj' h rfl
    exact Or.inl ⟨rfl, h1.symm, by simpa using h2.symm⟩
  · rw [← List.cons_append, ← List.append_assoc] at h
    obtain ⟨h1, h2⟩ := List.append_inj' h rfl
    exact Or.inr ⟨b', by rw [show y = c by simpa using h2.symm], h1⟩

/-- The token `k` waits since the call `i` of the run, and no call has used it. -/
structure Waits (env : Process) (cs : List Call) (k detail : PyStr) (expiry : ℚ) (before : List Call) (i : Call)
    (after : List Call) : Prop where
  run : cs = before ++ i :: after
  issued : outcome env before i = .blocked (.issued i.operation detail k)
  detail : i.detail = detail
  expiry : expiry = i.now + tokenTtlSeconds
  token : k ≠ []
  unused : ∀ mid x rest, after = mid ++ x :: rest → outcome env (before ++ i :: mid) x = .proceeds → x.confirm ≠ some k

theorem Waits.snoc {env : Process} {cs : List Call} {k d : PyStr} {e : ℚ} {before : List Call} {i : Call}
    {after : List Call} (w : Waits env cs k d e before i after) (c : Call)
    (h : outcome env cs c = .proceeds → c.confirm ≠ some k) :
    Waits env (cs ++ [c]) k d e before i (after ++ [c]) where
  run := by rw [w.run, List.append_assoc, List.cons_append]
  issued := w.issued
  detail := w.detail
  expiry := w.expiry
  token := w.token
  unused := by
    intro mid x rest hs
    rcases split_snoc hs with ⟨-, rfl, rfl⟩ | ⟨rest', rfl, hs'⟩
    · rw [← w.run]
      exact h
    · exact w.unused mid x rest' hs'

/-- **Every pending token waits since a call of the run.** -/
theorem pending_waits {env : Process} (hd : env.allowDestructive = none) (cs : List Call) :
    ∀ k d e, pendingAfter env cs k = some (d, e) → ∃ before i after, Waits env cs k d e before i after := by
  induction cs using List.reverseRecOn with
  | nil => intro k d e h; cases h
  | append_singleton cs c ih =>
    intro k d e h
    rw [pendingAfter_snoc] at h
    have kept (hk : sweep c.now (pendingAfter env cs) k = some (d, e))
        (hn : outcome env cs c = .proceeds → c.confirm ≠ some k) :
        ∃ before i after, Waits env (cs ++ [c]) k d e before i after := by
      obtain ⟨before, i, after, w⟩ := ih k d e (sweep_eq_some.1 hk).1
      exact ⟨before, i, _, w.snoc c hn⟩
    rcases require_cases hd (pendingAfter env cs) c with ⟨k', e', hg, hk', hr⟩ | ⟨o, ho, -, hr⟩ | ⟨k', hk', hr⟩
    · rw [hr] at h
      have hne : k ≠ k' := by
        rintro rfl
        simp at h
      dsimp only at h
      rw [Function.update_of_ne hne] at h
      refine kept h (fun _ hc => hne ?_)
      rw [(given_eq_some.1 hg).1, Option.some.injEq] at hc
      exact hc.symm
    · rw [hr] at h
      refine kept h (fun hp => absurd ?_ ho)
      rw [← hp, outcome, hr]
    · rw [hr] at h
      dsimp only at h
      by_cases hkk : k = k'
      · subst hkk
        rw [Function.update_self, Option.some.injEq, Prod.mk.injEq] at h
        exact ⟨cs, c, [], rfl, by rw [outcome, hr, h.1], h.1, h.2.symm, hk', fun mid x rest hs => by cases mid <;> cases hs⟩
      · rw [Function.update_of_ne hkk] at h
        refine kept h (fun hp => ?_)
        rw [outcome, hr] at hp
        cases hp

/-- A call that proceeds has a token that waited for its detail. -/
theorem waits_of_proceeds {env : Process} (hd : env.allowDestructive = none) {pre : List Call} {c : Call}
    (hp : outcome env pre c = .proceeds) :
    ∃ k e before i after, c.confirm = some k ∧ Waits env pre k c.detail e before i after ∧ c.now ≤ e := by
  rcases require_cases hd (pendingAfter env pre) c with ⟨k, e, hg, hk, -⟩ | ⟨o, ho, -, hr⟩ | ⟨k, -, hr⟩
  · obtain ⟨hk, he⟩ := sweep_eq_some.1 hk
    obtain ⟨before, i, after, w⟩ := pending_waits hd pre k c.detail e hk
    exact ⟨k, e, before, i, after, (given_eq_some.1 hg).1, w, he⟩
  · exact absurd (by rw [← hp, outcome, hr]) ho
  · rw [outcome, hr] at hp
    cases hp

/-- A token that waits is not issued again. -/
theorem Waits.not_issued {env : Process} {pre post : List Call} {k d : PyStr} {e : ℚ} {before : List Call} {i : Call}
    {after : List Call} (w : Waits env pre k d e before i after) (hn : (issuedTokens env [] (pre ++ post)).Nodup) :
    k ∉ issuedTokens env pre post := by
  rw [issuedTokens_append, List.nil_append] at hn
  refine fun hk => List.disjoint_of_nodup_append hn ?_ hk
  rw [w.run, issuedTokens_append, List.nil_append]
  exact List.mem_append_right _ (issuedTokens_cons_mem (by rw [w.issued]; rfl))

/-- A token is used once. -/
theorem confirm_ne {env : Process} (hd : env.allowDestructive = none) {pre mid post : List Call} {c c' : Call}
    (hn : (issuedTokens env [] (pre ++ c :: (mid ++ c' :: post))).Nodup) (hp : outcome env pre c = .proceeds)
    (hp' : outcome env (pre ++ c :: mid) c' = .proceeds) : c.confirm ≠ c'.confirm := by
  intro hcc
  obtain ⟨k, e, b, i, a, hk, w, -⟩ := waits_of_proceeds hd hp
  obtain ⟨k', e', b', i', a', hk', w', -⟩ := waits_of_proceeds hd hp'
  obtain rfl : k = k' := by rw [hk, hk', Option.some.injEq] at hcc; exact hcc
  have hnot := w.not_issued hn
  -- the second use's token was issued before the first use, by it, or after it
  have hrun := w'.run
  rcases List.append_eq_append_iff.1 hrun with ⟨l, hb, hl⟩ | ⟨l, hpre, hl⟩
  · cases l with
    | nil =>
      rw [List.nil_append, List.cons.injEq] at hl
      rw [List.append_nil] at hb
      have hi := w'.issued
      rw [hb, ← hl.1, hp] at hi
      cases hi
    | cons x l =>
      rw [List.cons_append, List.cons.injEq] at hl
      obtain ⟨rfl, hmid⟩ := hl
      refine hnot ?_
      rw [hmid, List.append_assoc, List.cons_append, ← List.cons_append, issuedTokens_append, ← hb]
      exact List.mem_append_right _ (issuedTokens_cons_mem (by rw [w'.issued]; rfl))
  · cases l with
    | nil =>
      rw [List.nil_append, List.cons.injEq] at hl
      rw [List.append_nil] at hpre
      have hi := w'.issued
      rw [← hpre, hl.1, hp] at hi
      cases hi
    | cons x l =>
      rw [List.cons_append, List.cons.injEq] at hl
      obtain ⟨rfl, hafter⟩ := hl
      rw [hpre] at hp
      exact w'.unused l c mid hafter hp hk

/-- **A call that proceeds answers an earlier one.**  In a run whose clock does not go back and whose issued tokens are
distinct: a call that proceeds confirms with the token that an earlier call for the same detail was blocked with, at
most 300 seconds before; no two calls proceed with one token; and after a call that does not proceed, every pending
token that has not expired still lets a call for its detail proceed. -/
theorem confirmed_by_issue (env : Process) (hd : env.allowDestructive = none) (cs : List Call)
    (htime : cs.Pairwise (fun a b => a.now ≤ b.now)) (hdistinct : (issuedTokens env [] cs).Nodup) :
    (∀ pre c post, cs = pre ++ c :: post → outcome env pre c = .proceeds →
      ∃ before i between token, pre = before ++ i :: between ∧ c.confirm = some token ∧ i.detail = c.detail ∧
        outcome env before i = .blocked (.issued i.operation c.detail token) ∧
        i.now ≤ c.now ∧ c.now ≤ i.now + 300) ∧
    (∀ pre c mid c' post, cs = pre ++ c :: (mid ++ c' :: post) → outcome env pre c = .proceeds →
      outcome env (pre ++ c :: mid) c' = .proceeds → c.confirm ≠ c'.confirm) ∧
    (∀ pre c post token detail expiry, cs = pre ++ c :: post → outcome env pre c ≠ .proceeds →
      pendingAfter env pre token = some (detail, expiry) →
      ∀ c' : Call, c'.confirm = some token → c'.detail = detail → c.now ≤ c'.now → c'.now ≤ expiry →
        outcome env (pre ++ [c]) c' = .proceeds) := by
  refine ⟨?_, ?_, ?_⟩
  · intro pre c post hs hp
    obtain ⟨k, e, before, i, after, hk, w, he⟩ := waits_of_proceeds hd hp
    refine ⟨before, i, after, k, w.run, hk, w.detail, w.issued, ?_, ?_⟩
    · rw [hs, w.run, List.append_assoc, List.pairwise_append] at htime
      exact List.rel_of_pairwise_cons htime.2.1 (List.mem_append_right _ List.mem_cons_self)
    · rw [w.expiry] at he
      exact he
  · intro pre c mid c' post hs hp hp'
    rw [hs] at hdistinct
    exact confirm_ne hd hdistinct hp hp'
  · intro pre c post token detail expiry hs hb hpend c' hc' hdet hle hexp
    obtain ⟨before, i, after, w⟩ := pending_waits hd pre token detail expiry hpend
    rw [hs] at hdistinct
    have hnot := w.not_issued hdistinct
    have hsweep : sweep c.now (pendingAfter env pre) token = some (detail, expiry) :=
      sweep_eq_some.2 ⟨hpend, le_trans hle hexp⟩
    refine proceeds_of_pending hd ?_ w.token hc' hexp
    rw [pendingAfter_snoc, hdet]
    rcases require_cases hd (pendingAfter env pre) c with ⟨k, e, -, -, hr⟩ | ⟨o, -, -, hr⟩ | ⟨k, -, hr⟩
    · exact absurd (by rw [outcome, hr]) hb
    · rw [hr]
      exact hsweep
    · rw [hr]
      dsimp only
      rw [Function.update_of_ne, hsweep]
      rintro rfl
      exact hnot (issuedTokens_cons_mem (by rw [outcome, hr]; rfl))

/-- A process whose digests are all zeros. -/
def sampleProcess : Process where
  allowDestructive := none
  pid := 7
  sha256 := fun _ => ⟨List.replicate 32 0, rfl⟩

def sampleCall (operation : String) (confirm : Option PyStr) (now : ℚ) : Call where
  operation := py operation
  detail := py "restart"
  confirm := confirm
  now := now
  clock := py "0.5"

/-- A reboot that is asked for and confirmed. -/
def sampleRun : List Call := [sampleCall "reboot" none 0, sampleCall "reboot" (some (py "000000000000")) 300]

theorem confirmed_by_issue_reboot :
    outcome sampleProcess [sampleCall "reboot" none 0] (sampleCall "reboot" (some (py "000000000000")) 300) = .proceeds ∧
    ∃ before i between token, [sampleCall "reboot" none 0] = before ++ i :: between ∧
      some (py "000000000000") = some token ∧ i.detail = py "restart" ∧
      outcome sampleProcess before i = .blocked (.issued i.operation (py "restart") token) ∧
      i.now ≤ 300 ∧ 300 ≤ i.now + 300 :=
  have hp : outcome sampleProcess [sampleCall "reboot" none 0] (sampleCall "reboot" (some (py "000000000000")) 300) =
      .proceeds := by decide +kernel
  ⟨hp, (confirmed_by_issue sampleProcess rfl sampleRun (by simp [sampleRun, sampleCall]) (by decide +kernel)).1
    [sampleCall "reboot" none 0] (sampleCall "reboot" (some (py "000000000000")) 300) [] rfl hp⟩

/-- **A token issued for one operation lets another proceed** when their details are the same text. -/
theorem other_operation_proceeds :
    (sampleCall "reboot" none 0).operation ≠ (sampleCall "shutdown" none 0).operation ∧
    outcome sampleProcess [] (sampleCall "reboot" none 0) =
      .blocked (.issued (py "reboot") (py "restart") (py "000000000000")) ∧
    issuedTokens sampleProcess [] [sampleCall "reboot" none 0, sampleCall "shutdown" (some (py "000000000000")) 1] =
      [py "000000000000"] ∧
    outcome sampleProcess [sampleCall "reboot" none 0] (sampleCall "shutdown" (some (py "000000000000")) 1) =
      .proceeds := by
  refine ⟨by decide +kernel, by decide +kernel, by decide +kernel, by decide +kernel⟩

end Guards
end SwitchMcp

import SwitchMcp.JsonParse
/-!
# JsonDepth — how deep the parser's recursion goes (agent/source/json.cpp)

`valueDepth` counts the calls of `parse_value` that are active at once while a text is parsed.  No counter in the code
bounds them: the bound is reached exactly when the text opens that many containers inside one another (`Nests`), each
after complete elements or members (`lt_valueDepth`), and a frame can open one with every byte (`depth_brackets`).
-/
namespace SwitchMcp
namespace Json

/-! ## What is left after a value is shorter -/

theorem length_of_skipWs {s p : Bytes} {c : UInt8} (h : skipWs s = c :: p) : p.length < s.length := by
  have hs : (skipWs s).length ≤ s.length := (List.dropWhile_suffix _).length_le
  rw [h, List.length_cons] at hs
  omega

theorem length_stringLoop (out s : Bytes) : ∀ {k r : Bytes}, stringLoop out s = some (k, r) → r.length < s.length := by
  fun_induction stringLoop out s with
  | case2 => intro k r h; cases h; simp
  | case4 => rename_i ih; intro k r h; have := ih h; simp only [List.length_cons]; omega
  | case7 => rename_i ih; intro k r h; have := ih h; simp only [List.length_cons]; omega
  | case9 => rename_i ih; intro k r h; have := ih h; simp only [List.length_cons]; omega
  | _ => intro k r h; cases h

theorem length_parseString {s k r : Bytes} (h : parseString s = some (k, r)) : r.length < s.length := by
  cases s with
  | nil => cases h
  | cons c p =>
    simp only [parseString] at h
    split at h
    · have := length_stringLoop _ _ h
      simp only [List.length_cons]
      omega
    · cases h

theorem length_keyword {w s r : Bytes} (hw : 0 < w.length) (h : keyword w s = some r) : r.length < s.length := by
  unfold keyword at h
  split at h
  · rename_i ht
    have hl := congrArg List.length ht
    rw [List.length_take] at hl
    cases h
    rw [List.length_drop]
    omega
  · cases h

theorem length_parseNumber {s r : Bytes} {v : Value} (h : parseNumber s = some (v, r)) : r.length < s.length := by
  unfold parseNumber at h
  dsimp only at h
  split at h
  · cases h
  · rename_i hn
    simp only [Option.some.injEq, Prod.mk.injEq] at h
    obtain ⟨-, rfl⟩ := h
    have hp : 0 < (signText s ++ (s.drop (signText s).length).takeWhile isNumChar).length := List.length_pos_iff.2 hn
    have hd := congrArg List.length (List.takeWhile_append_dropWhile (p := isNumChar) (l := s.drop (signText s).length))
    have hs : (signText s).length ≤ s.length := by
      unfold signText
      split
      · split <;> simp
      · simp
    rw [List.length_append] at hp hd
    rw [List.length_drop] at hd
    omega

mutual
/-- **What is left after a value is shorter than what was there.** -/
theorem length_parseValue : ∀ (n : Nat) (s : Bytes) {v : Value} {r : Bytes}, parseValue n s = some (v, r) →
    r.length < s.length
  | 0, s, v, r, h => by simp only [parseValue] at h; cases h
  | n + 1, s, v, r, h => by
    have hle : (skipWs s).length ≤ s.length := (List.dropWhile_suffix _).length_le
    simp only [parseValue] at h
    rcases hw : skipWs s with _ | ⟨c, p⟩
    · rw [hw] at h; cases h
    rw [hw] at h hle
    have hlt := length_of_skipWs hw
    dsimp only at h
    split at h
    · have := length_parseObject n p h; omega
    split at h
    · have := length_parseArray n p h; omega
    split at h
    · obtain ⟨⟨k, q⟩, hk, hq⟩ := Option.map_eq_some_iff.1 h
      have := length_parseString hk
      cases hq
      show q.length < s.length
      omega
    split at h
    · obtain ⟨q, hk, hq⟩ := Option.map_eq_some_iff.1 h
      have := length_keyword (by decide) hk
      cases hq; omega
    split at h
    · obtain ⟨q, hk, hq⟩ := Option.map_eq_some_iff.1 h
      have := length_keyword (by decide) hk
      cases hq; omega
    split at h
    · obtain ⟨q, hk, hq⟩ := Option.map_eq_some_iff.1 h
      have := length_keyword (by decide) hk
      cases hq; omega
    · have := length_parseNumber h; omega
theorem length_parseArray : ∀ (n : Nat) (s : Bytes) {v : Value} {r : Bytes}, parseArray n s = some (v, r) →
    r.length < s.length
  | 0, s, v, r, h => by simp only [parseArray] at h; cases h
  | n + 1, s, v, r, h => by
    have hle : (skipWs s).length ≤ s.length := (List.dropWhile_suffix _).length_le
    simp only [parseArray] at h
    rcases hw : skipWs s with _ | ⟨c, p⟩
    · rw [hw] at h
      have := length_arrayLoop n [] [] h
      simp at this
    rw [hw] at h hle
    have hlt := length_of_skipWs hw
    dsimp only at h
    split at h
    · cases h; exact hlt
    · have := length_arrayLoop n [] _ h; omega
theorem length_arrayLoop : ∀ (n : Nat) (out : List Value) (s : Bytes) {v : Value} {r : Bytes},
    arrayLoop n out s = some (v, r) → r.length < s.length
  | 0, out, s, v, r, h => by simp only [arrayLoop] at h; cases h
  | n + 1, out, s, v, r, h => by
    simp only [arrayLoop] at h
    rcases hv : parseValue n s with _ | ⟨x, q⟩
    · rw [hv] at h; cases h
    rw [hv] at h
    have hq := length_parseValue n s hv
    dsimp only at h
    rcases hw : skipWs q with _ | ⟨c, p⟩
    · rw [hw] at h; cases h
    rw [hw] at h
    have hlt := length_of_skipWs hw
    dsimp only at h
    split at h
    · have := length_arrayLoop n _ p h; omega
    split at h
    · cases h; omega
    · cases h
theorem length_parseObject : ∀ (n : Nat) (s : Bytes) {v : Value} {r : Bytes}, parseObject n s = some (v, r) →
    r.length < s.length
  | 0, s, v, r, h => by simp only [parseObject] at h; cases h
  | n + 1, s, v, r, h => by
    have hle : (skipWs s).length ≤ s.length := (List.dropWhile_suffix _).length_le
    simp only [parseObject] at h
    rcases hw : skipWs s with _ | ⟨c, p⟩
    · rw [hw] at h
      have := length_objectLoop n [] [] h
      simp at this
    rw [hw] at h hle
    have hlt := length_of_skipWs hw
    dsimp only at h
    split at h
    · cases h; exact hlt
    · have := length_objectLoop n [] _ h; omega
theorem length_objectLoop : ∀ (n : Nat) (out : List (Bytes × Value)) (s : Bytes) {v : Value} {r : Bytes},
    objectLoop n out s = some (v, r) → r.length < s.length
  | 0, out, s, v, r, h => by simp only [objectLoop] at h; cases h
  | n + 1, out, s, v, r, h => by
    have hle : (skipWs s).length ≤ s.length := (List.dropWhile_suffix _).length_le
    simp only [objectLoop] at h
    rcases hk : parseString (skipWs s) with _ | ⟨key, q⟩
    · rw [hk] at h; cases h
    rw [hk] at h
    have hq := length_parseString hk
    dsimp only at h
    rcases hw : skipWs q with _ | ⟨c, p⟩
    · rw [hw] at h; cases h
    rw [hw] at h
    have hlt := length_of_skipWs hw
    dsimp only at h
    split at h
    swap; · cases h
    rcases hv : parseValue n p with _ | ⟨x, q'⟩
    · rw [hv] at h; cases h
    rw [hv] at h
    have hq' := length_parseValue n p hv
    dsimp only at h
    rcases hw' : skipWs q' with _ | ⟨c', p'⟩
    · rw [hw'] at h; cases h
    rw [hw'] at h
    have hlt' := length_of_skipWs hw'
    dsimp only at h
    split at h
    · have := length_objectLoop n _ p' h; omega
    split at h
    · cases h; omega
    · cases h
end

/-! ## More fuel changes nothing -/

mutual
theorem parseValue_fuel : ∀ (n : Nat) (s : Bytes), 3 * s.length ≤ n → parseValue (n + 1) s = parseValue n s
  | 0, s, h => by
    have hs : s = [] := List.length_eq_zero_iff.1 (by omega)
    subst hs
    simp [parseValue, skipWs]
  | n + 1, s, h => by
    rw [parseValue, parseValue]
    rcases hw : skipWs s with _ | ⟨c, p⟩
    · rfl
    have hlt := length_of_skipWs hw
    dsimp only
    rw [parseObject_fuel n p (by omega), parseArray_fuel n p (by omega)]
theorem parseArray_fuel : ∀ (n : Nat) (s : Bytes), 3 * s.length + 2 ≤ n → parseArray (n + 1) s = parseArray n s
  | 0, s, h => by omega
  | n + 1, s, h => by
    have hle : (skipWs s).length ≤ s.length := (List.dropWhile_suffix _).length_le
    rw [parseArray, parseArray]
    rcases hw : skipWs s with _ | ⟨c, p⟩
    · dsimp only
      exact arrayLoop_fuel n [] [] (by simp only [List.length_nil]; omega)
    rw [hw] at hle
    dsimp only
    rw [arrayLoop_fuel n [] (c :: p) (by omega)]
theorem arrayLoop_fuel : ∀ (n : Nat) (out : List Value) (s : Bytes), 3 * s.length + 1 ≤ n →
    arrayLoop (n + 1) out s = arrayLoop n out s
  | 0, out, s, h => by omega
  | n + 1, out, s, h => by
    rw [arrayLoop, arrayLoop, parseValue_fuel n s (by omega)]
    rcases hv : parseValue n s with _ | ⟨x, q⟩
    · rfl
    have hq := length_parseValue n s hv
    dsimp only
    rcases hw : skipWs q with _ | ⟨c, p⟩
    · rfl
    have hlt := length_of_skipWs hw
    dsimp only
    rw [arrayLoop_fuel n _ p (by omega)]
theorem parseObject_fuel : ∀ (n : Nat) (s : Bytes), 3 * s.length + 2 ≤ n → parseObject (n + 1) s = parseObject n s
  | 0, s, h => by omega
  | n + 1, s, h => by
    have hle : (skipWs s).length ≤ s.length := (List.dropWhile_suffix _).length_le
    rw [parseObject, parseObject]
    rcases hw : skipWs s with _ | ⟨c, p⟩
    · dsimp only
      exact objectLoop_fuel n [] [] (by simp only [List.length_nil]; omega)
    rw [hw] at hle
    dsimp only
    rw [objectLoop_fuel n [] (c :: p) (by omega)]
theorem objectLoop_fuel : ∀ (n : Nat) (out : List (Bytes × Value)) (s : Bytes), 3 * s.length + 1 ≤ n →
    objectLoop (n + 1) out s = objectLoop n out s
  | 0, out, s, h => by omega
  | n + 1, out, s, h => by
    have hle : (skipWs s).length ≤ s.length := (List.dropWhile_suffix _).length_le
    rw [objectLoop, objectLoop]
    rcases hk : parseString (skipWs s) with _ | ⟨key, q⟩
    · rfl
    have hq := length_parseString hk
    dsimp only
    rcases hw : skipWs q with _ | ⟨c, p⟩
    · rfl
    have hlt := length_of_skipWs hw
    dsimp only
    rw [parseValue_fuel n p (by omega)]
    rcases hv : parseValue n p with _ | ⟨x, q'⟩
    · rfl
    have hq' := length_parseValue n p hv
    dsimp only
    rcases hw' : skipWs q' with _ | ⟨c', p'⟩
    · rfl
    have hlt' := length_of_skipWs hw'
    dsimp only
    rw [objectLoop_fuel n _ p' (by omega)]
end

/-- What `parse_value` reads from a text: the value and what is left. -/
def readValue (s : Bytes) : Option (Value × Bytes) := parseValue (3 * s.length) s

/-- **Any fuel of three for each byte gives what `parse_value` reads.** -/
theorem parseValue_eq_readValue (n : Nat) (s : Bytes) (h : 3 * s.length ≤ n) : parseValue n s = readValue s := by
  induction n, h using Nat.le_induction with
  | base => rfl
  | succ n h ih => rw [parseValue_fuel n s h, ih]

theorem parse_eq (s : Bytes) : parse s = (readValue s).map Prod.fst := by
  rw [parse, parseValue_eq_readValue _ s (by omega)]

/-! ## The depth of the recursion -/

mutual
/-- The calls of `parse_value` that are active at once, at most, while `parseValue n s` runs. -/
def valueDepth : Nat → Bytes → Nat
  | 0, _ => 0
  | n + 1, s =>
    match skipWs s with
    | [] => 1
    | c :: p =>
      if c = ch '{' then objectDepth n p + 1
      else if c = ch '[' then arrayDepth n p + 1
      else 1
def arrayDepth : Nat → Bytes → Nat
  | 0, _ => 0
  | n + 1, s =>
    match skipWs s with
    | c :: p => if c = ch ']' then 0 else arrayLoopDepth n (c :: p)
    | [] => arrayLoopDepth n []
def arrayLoopDepth : Nat → Bytes → Nat
  | 0, _ => 0
  | n + 1, s =>
    max (valueDepth n s)
      (match parseValue n s with
      | none => 0
      | some (_, r) =>
        match skipWs r with
        | [] => 0
        | c :: p => if c = ch ',' then arrayLoopDepth n p else 0)
def objectDepth : Nat → Bytes → Nat
  | 0, _ => 0
  | n + 1, s =>
    match skipWs s with
    | c :: p => if c = ch '}' then 0 else objectLoopDepth n (c :: p)
    | [] => objectLoopDepth n []
def objectLoopDepth : Nat → Bytes → Nat
  | 0, _ => 0
  | n + 1, s =>
    match parseString (skipWs s) with
    | none => 0
    | some (_, r) =>
      match skipWs r with
      | [] => 0
      | c :: p =>
        if c = ch ':' then
          max (valueDepth n p)
            (match parseValue n p with
            | none => 0
            | some (_, r) =>
              match skipWs r with
              | [] => 0
              | c :: p => if c = ch ',' then objectLoopDepth n p else 0)
        else 0
end

/-- The depth of `Value::parse`. -/
def parseDepth (text : Bytes) : Nat := valueDepth (3 * text.length + 3) text

/-! ## Texts that nest -/

/-- What follows the key and the colon of a member. -/
def afterKey (s : Bytes) : Option Bytes :=
  match parseString (skipWs s) with
  | none => none
  | some (_, r) =>
    match skipWs r with
    | [] => none
    | c :: p => if c = ch ':' then some p else none

/-- What follows a value and the comma after it. -/
def afterComma (s : Bytes) : Option Bytes :=
  match readValue s with
  | none => none
  | some (_, r) =>
    match skipWs r with
    | [] => none
    | c :: p => if c = ch ',' then some p else none

/-- `q` is what is left of `s` after some complete elements. -/
inductive Elements : Bytes → Bytes → Prop
  | here (s : Bytes) : Elements s s
  | next {s p q : Bytes} (h : afterComma s = some p) (t : Elements p q) : Elements s q

/-- `q` is what is left of `s` after some complete members and a key. -/
inductive KeyedMembers : Bytes → Bytes → Prop
  | here {s q : Bytes} (h : afterKey s = some q) : KeyedMembers s q
  | next {s p p' q : Bytes} (h : afterKey s = some p) (h' : afterComma p = some p') (t : KeyedMembers p' q) :
      KeyedMembers s q

/-- The text opens `k` containers inside one another, each where a value is read, and comes to a value in the last. -/
def Nests : Nat → Bytes → Prop
  | 0, _ => True
  | k + 1, s => ∃ c p q, skipWs s = c :: p ∧
      (c = ch '[' ∧ (skipWs p).head? ≠ some (ch ']') ∧ Elements (skipWs p) q ∨
        c = ch '{' ∧ (skipWs p).head? ≠ some (ch '}') ∧ KeyedMembers (skipWs p) q) ∧ Nests k q

theorem length_afterKey {s p : Bytes} (h : afterKey s = some p) : p.length < s.length := by
  have hle : (skipWs s).length ≤ s.length := (List.dropWhile_suffix _).length_le
  unfold afterKey at h
  rcases hk : parseString (skipWs s) with _ | ⟨key, q⟩
  · rw [hk] at h; cases h
  rw [hk] at h
  have hq := length_parseString hk
  dsimp only at h
  rcases hw : skipWs q with _ | ⟨c, p'⟩
  · rw [hw] at h; cases h
  rw [hw] at h
  have hlt := length_of_skipWs hw
  dsimp only at h
  split at h
  · cases h; omega
  · cases h

theorem length_afterComma {s p : Bytes} (h : afterComma s = some p) : p.length < s.length := by
  unfold afterComma at h
  rcases hv : readValue s with _ | ⟨v, q⟩
  · rw [hv] at h; cases h
  rw [hv] at h
  have hq := length_parseValue _ _ hv
  dsimp only at h
  rcases hw : skipWs q with _ | ⟨c, p'⟩
  · rw [hw] at h; cases h
  rw [hw] at h
  have hlt := length_of_skipWs hw
  dsimp only at h
  split at h
  · cases h; omega
  · cases h

theorem arrayLoopDepth_succ (n : Nat) (s : Bytes) (h : 3 * s.length ≤ n) :
    arrayLoopDepth (n + 1) s = max (valueDepth n s) ((afterComma s).elim 0 (arrayLoopDepth n)) := by
  rw [arrayLoopDepth, afterComma, parseValue_eq_readValue n s h]
  rcases readValue s with _ | ⟨v, r⟩
  · rfl
  dsimp only
  rcases skipWs r with _ | ⟨c, p⟩
  · rfl
  dsimp only
  split <;> rfl

theorem objectLoopDepth_succ (n : Nat) (s : Bytes) (h : 3 * s.length ≤ n) :
    objectLoopDepth (n + 1) s =
      (afterKey s).elim 0 fun p => max (valueDepth n p) ((afterComma p).elim 0 (objectLoopDepth n)) := by
  rw [objectLoopDepth, afterKey]
  rcases hk : parseString (skipWs s) with _ | ⟨k, r⟩
  · rfl
  dsimp only
  rcases hw : skipWs r with _ | ⟨c, p⟩
  · rfl
  dsimp only
  split
  swap; · rfl
  rename_i hc
  have hp : p.length < s.length := length_afterKey (by simp [afterKey, hk, hw, hc])
  rw [Option.elim_some, afterComma, parseValue_eq_readValue n p (by omega)]
  rcases readValue p with _ | ⟨v, r⟩
  · rfl
  dsimp only
  rcases skipWs r with _ | ⟨c, p⟩
  · rfl
  dsimp only
  split <;> rfl

theorem elements_iff {P : Bytes → Prop} (s : Bytes) :
    (∃ q, Elements s q ∧ P q) ↔ P s ∨ ∃ p, afterComma s = some p ∧ ∃ q, Elements p q ∧ P q := by
  constructor
  · rintro ⟨q, he, hq⟩
    cases he with
    | here => exact Or.inl hq
    | next h t => exact Or.inr ⟨_, h, q, t, hq⟩
  · rintro (hs | ⟨p, h, q, t, hq⟩)
    · exact ⟨s, .here s, hs⟩
    · exact ⟨q, .next h t, hq⟩

theorem keyedMembers_iff {P : Bytes → Prop} (s : Bytes) :
    (∃ q, KeyedMembers s q ∧ P q) ↔
      ∃ p, afterKey s = some p ∧ (P p ∨ ∃ p', afterComma p = some p' ∧ ∃ q, KeyedMembers p' q ∧ P q) := by
  constructor
  · rintro ⟨q, hm, hq⟩
    cases hm with
    | here h => exact ⟨q, h, Or.inl hq⟩
    | next h h' t => exact ⟨_, h, Or.inr ⟨_, h', q, t, hq⟩⟩
  · rintro ⟨p, h, hs | ⟨p', h', q, t, hq⟩⟩
    · exact ⟨p, .here h, hs⟩
    · exact ⟨q, .next h h' t, hq⟩

theorem lt_elim {k : Nat} {o : Option Bytes} {f : Bytes → Nat} : k < o.elim 0 f ↔ ∃ p, o = some p ∧ k < f p := by
  cases o with
  | none => simp
  | some p => simp

mutual
/-- **More than `k` calls are active exactly where the text opens `k` containers inside one another.** -/
theorem lt_valueDepth : ∀ (n : Nat) (s : Bytes) (k : Nat), 3 * s.length + 1 ≤ n → (k < valueDepth n s ↔ Nests k s)
  | 0, s, k, h => by omega
  | n + 1, s, 0, h => by
    rw [valueDepth, Nests]
    refine ⟨fun _ => trivial, fun _ => ?_⟩
    split
    · exact Nat.zero_lt_one
    · split
      · exact Nat.succ_pos _
      · split
        · exact Nat.succ_pos _
        · exact Nat.zero_lt_one
  | n + 1, s, k + 1, h => by
    have hbr : ch '[' ≠ ch '{' := by decide
    rw [valueDepth, Nests]
    rcases hw : skipWs s with _ | ⟨c, p⟩
    · dsimp only
      refine ⟨fun hk => by omega, ?_⟩
      rintro ⟨c, p, q, hs, -⟩
      cases hs
    have hlt := length_of_skipWs hw
    dsimp only
    by_cases ho : c = ch '{'
    · rw [if_pos ho, Nat.add_lt_add_iff_right, lt_objectDepth n p k (by omega)]
      constructor
      · rintro ⟨hne, q, hm, hq⟩
        exact ⟨c, p, q, rfl, Or.inr ⟨ho, hne, hm⟩, hq⟩
      · rintro ⟨c', p', q, hs, (⟨hc, -⟩ | ⟨-, hne, hm⟩), hq⟩
        · cases hs
          exact absurd (hc.symm.trans ho) hbr
        · cases hs
          exact ⟨hne, q, hm, hq⟩
    · rw [if_neg ho]
      by_cases ha : c = ch '['
      · rw [if_pos ha, Nat.add_lt_add_iff_right, lt_arrayDepth n p k (by omega)]
        constructor
        · rintro ⟨hne, q, hm, hq⟩
          exact ⟨c, p, q, rfl, Or.inl ⟨ha, hne, hm⟩, hq⟩
        · rintro ⟨c', p', q, hs, (⟨-, hne, hm⟩ | ⟨hc, -⟩), hq⟩
          · cases hs
            exact ⟨hne, q, hm, hq⟩
          · cases hs
            exact absurd hc ho
      · rw [if_neg ha]
        refine ⟨fun hk => by omega, ?_⟩
        rintro ⟨c', p', q, hs, (⟨hc, -⟩ | ⟨hc, -⟩), -⟩
        · cases hs
          exact absurd hc ha
        · cases hs
          exact absurd hc ho
theorem lt_arrayDepth : ∀ (n : Nat) (s : Bytes) (k : Nat), 3 * s.length + 3 ≤ n →
    (k < arrayDepth n s ↔ (skipWs s).head? ≠ some (ch ']') ∧ ∃ q, Elements (skipWs s) q ∧ Nests k q)
  | 0, s, k, h => by omega
  | n + 1, s, k, h => by
    have hle : (skipWs s).length ≤ s.length := (List.dropWhile_suffix _).length_le
    have hl := lt_arrayLoopDepth n (skipWs s) k (by omega)
    rw [arrayDepth]
    rcases hw : skipWs s with _ | ⟨c, p⟩
    · rw [hw] at hl
      dsimp only
      rw [hl]
      exact ⟨fun h => ⟨by simp, h⟩, fun h => h.2⟩
    · rw [hw] at hl
      dsimp only
      by_cases hc : c = ch ']'
      · rw [if_pos hc, hc]
        exact ⟨fun h => absurd h (Nat.not_lt_zero k), fun h => absurd rfl h.1⟩
      · rw [if_neg hc, hl]
        exact ⟨fun h => ⟨by simpa using hc, h⟩, fun h => h.2⟩
theorem lt_arrayLoopDepth : ∀ (n : Nat) (s : Bytes) (k : Nat), 3 * s.length + 2 ≤ n →
    (k < arrayLoopDepth n s ↔ ∃ q, Elements s q ∧ Nests k q)
  | 0, s, k, h => by omega
  | n + 1, s, k, h => by
    rw [arrayLoopDepth_succ n s (by omega), elements_iff, lt_max_iff, lt_valueDepth n s k (by omega), lt_elim]
    refine or_congr Iff.rfl (exists_congr fun p => and_congr_right fun hp => ?_)
    have hlt := length_afterComma hp
    exact lt_arrayLoopDepth n p k (by omega)
theorem lt_objectDepth : ∀ (n : Nat) (s : Bytes) (k : Nat), 3 * s.length + 3 ≤ n →
    (k < objectDepth n s ↔ (skipWs s).head? ≠ some (ch '}') ∧ ∃ q, KeyedMembers (skipWs s) q ∧ Nests k q)
  | 0, s, k, h => by omega
  | n + 1, s, k, h => by
    have hle : (skipWs s).length ≤ s.length := (List.dropWhile_suffix _).length_le
    have hl := lt_objectLoopDepth n (skipWs s) k (by omega)
    rw [objectDepth]
    rcases hw : skipWs s with _ | ⟨c, p⟩
    · rw [hw] at hl
      dsimp only
      rw [hl]
      exact ⟨fun h => ⟨by simp, h⟩, fun h => h.2⟩
    · rw [hw] at hl
      dsimp only
      by_cases hc : c = ch '}'
      · rw [if_pos hc, hc]
        exact ⟨fun h => absurd h (Nat.not_lt_zero k), fun h => absurd rfl h.1⟩
      · rw [if_neg hc, hl]
        exact ⟨fun h => ⟨by simpa using hc, h⟩, fun h => h.2⟩
theorem lt_objectLoopDepth : ∀ (n : Nat) (s : Bytes) (k : Nat), 3 * s.length + 2 ≤ n →
    (k < objectLoopDepth n s ↔ ∃ q, KeyedMembers s q ∧ Nests k q)
  | 0, s, k, h => by omega
  | n + 1, s, k, h => by
    rw [objectLoopDepth_succ n s (by omega), keyedMembers_iff, lt_elim]
    refine exists_congr fun p => and_congr_right fun hp => ?_
    have hlt := length_afterKey hp
    rw [lt_max_iff, lt_valueDepth n p k (by omega), lt_elim]
    refine or_congr Iff.rfl (exists_congr fun p' => and_congr_right fun hp' => ?_)
    have hlt' := length_afterComma hp'
    exact lt_objectLoopDepth n p' k (by omega)
end

/-- **The recursion stays within 512 calls exactly where the text does not open 512 containers inside one another.** -/
theorem parseDepth_le_iff (text : Bytes) : parseDepth text ≤ 512 ↔ ¬Nests 512 text := by
  rw [← lt_valueDepth (3 * text.length + 3) text 512 (by omega), Nat.not_lt]
  rfl

theorem nests_brackets : ∀ k m : Nat, Nests k (List.replicate (k + m) (ch '['))
  | 0, _ => trivial
  | k + 1, m => by
    have hw : ∀ j, skipWs (List.replicate j (ch '[')) = List.replicate j (ch '[') := by
      intro j
      cases j with
      | zero => rfl
      | succ j => exact skipWs_cons _ (by decide)
    have hs : List.replicate (k + 1 + m) (ch '[') = ch '[' :: List.replicate (k + m) (ch '[') := by
      rw [show k + 1 + m = (k + m) + 1 by omega, List.replicate_succ]
    refine ⟨ch '[', List.replicate (k + m) (ch '['), List.replicate (k + m) (ch '['), by rw [hw, hs],
      Or.inl ⟨rfl, ?_, ?_⟩, nests_brackets k m⟩
    · rw [hw, List.head?_replicate]
      split
      · simp
      · decide
    · rw [hw]
      exact .here _

theorem lt_depth_brackets (n : Nat) : n < parseDepth (List.replicate n (ch '[')) :=
  (lt_valueDepth _ _ n (by omega)).2 (nests_brackets n 0)

/-- **Every byte of a frame of 64 KiB can open an array**: more than 65536 calls are active when the text ends. -/
theorem depth_brackets :
    (List.replicate 65536 (ch '[')).length ≤ 64 * 1024 ∧ ¬parseDepth (List.replicate 65536 (ch '[')) ≤ 512 ∧
    65536 < parseDepth (List.replicate 65536 (ch '[')) := by
  have h := lt_depth_brackets 65536
  generalize parseDepth (List.replicate 65536 (ch '[')) = d at h
  refine ⟨by rw [List.length_replicate], by omega, h⟩

end Json
end SwitchMcp

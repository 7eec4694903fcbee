import SwitchMcp.JsonDepth
/-!
# JsonCursor — the bytes the parser reads (agent/source/json.cpp)

`Json` keeps the text that is left, so that it has no byte to read at its end.  Here the cursor is a position as in the
source: to read at or behind `end` is an outcome of its own, and so is a loop or a recursion that outlasts its fuel.
Neither comes about (`parse_safe`), and what is returned is what `Json.parse` gives (`parse_eq`).
-/
namespace SwitchMcp
namespace JsonCursor

open JsonText (isDigit)
open Json (Value mapSet isWs hexDigit encodeUnit unescape isNumChar)

/-! ## Outcomes -/

/-- A function returns with the cursor at `p`, or reads where no byte of the text is, or outlasts its fuel. -/
inductive Outcome (α : Type)
  | returned (a : α) (p : Nat)
  | outOfBounds
  | outOfFuel

variable {α β : Type}

def Outcome.bind (o : Outcome α) (f : α → Nat → Outcome β) : Outcome β :=
  match o with
  | .returned a p => f a p
  | .outOfBounds => .outOfBounds
  | .outOfFuel => .outOfFuel

@[simp] theorem Outcome.bind_returned (a : α) (p : Nat) (f : α → Nat → Outcome β) :
    (Outcome.returned a p).bind f = f a p := rfl

/-! ## The parser -/

section Parser

variable (t : Bytes)

/-- `*p`. -/
def deref (p : Nat) (f : UInt8 → Outcome α) : Outcome α :=
  match t[p]? with
  | some c => f c
  | none => .outOfBounds

/-- `memcmp(p, w, n) == 0`. -/
def memcmp (p : Nat) (w : Bytes) (f : Bool → Outcome α) : Outcome α :=
  if p + w.length ≤ t.length then f (decide ((t.drop p).take w.length = w)) else .outOfBounds

/-- The loop of `skip_ws`. -/
def skipWsLoop : Nat → Nat → Outcome Unit
  | 0, _ => .outOfFuel
  | k + 1, p =>
    if p < t.length then deref t p fun c => if isWs c then skipWsLoop k (p + 1) else .returned () p
    else .returned () p

def skipWs (p : Nat) : Outcome Unit := skipWsLoop t (t.length + 1) p

/-- The loop over the digits of a `\u` escape, with `i` more to read. -/
def hexLoop : Nat → Nat → Nat → Outcome (Option Nat)
  | 0, cp, p => .returned (some cp) p
  | i + 1, cp, p =>
    deref t p fun h =>
      match hexDigit h with
      | some d => hexLoop i (cp <<< 4 ||| d) (p + 1)
      | none => .returned none (p + 1)

/-- The loop of `parse_string`. -/
def stringLoop : Nat → Bytes → Nat → Outcome (Bool × Bytes)
  | 0, _, _ => .outOfFuel
  | k + 1, out, p =>
    if p < t.length then
      deref t p fun c =>
        if c = ch '"' then .returned (true, out) (p + 1)
        else if c = ch '\\' then
          if p + 1 < t.length then
            deref t (p + 1) fun e =>
              if e = ch 'u' then
                if t.length - (p + 2) < 4 then .returned (false, out) (p + 2)
                else
                  (hexLoop t 4 0 (p + 2)).bind fun u q =>
                    match u with
                    | some u => stringLoop k (out ++ encodeUnit u) q
                    | none => .returned (false, out) q
              else
                match unescape e with
                | some b => stringLoop k (out ++ [b]) (p + 2)
                | none => .returned (false, out) (p + 2)
          else .returned (false, out) (p + 1)
        else stringLoop k (out ++ [c]) (p + 1)
    else .returned (false, out) p

def parseString (p : Nat) : Outcome (Bool × Bytes) :=
  if p < t.length then
    deref t p fun c => if c = ch '"' then stringLoop t (t.length + 1) [] (p + 1) else .returned (false, []) p
  else .returned (false, []) p

/-- A sign at the start of a number is stepped over. -/
def numberSign (p : Nat) : Outcome Unit :=
  if p < t.length then deref t p fun c => .returned () (if c = ch '-' ∨ c = ch '+' then p + 1 else p)
  else .returned () p

/-- The loop of `parse_number`: whether the number is a double. -/
def numberLoop : Nat → Bool → Nat → Outcome Bool
  | 0, _, _ => .outOfFuel
  | k + 1, isDouble, p =>
    if p < t.length then
      deref t p fun c =>
        if isDigit c then numberLoop k isDouble (p + 1)
        else if c = ch '.' ∨ c = ch 'e' ∨ c = ch 'E' ∨ c = ch '+' ∨ c = ch '-' then numberLoop k true (p + 1)
        else .returned isDouble p
    else .returned isDouble p

def parseNumber (out : Value) (start : Nat) : Outcome (Bool × Value) :=
  (numberSign t start).bind fun _ p =>
    (numberLoop t (t.length + 1) false p).bind fun isDouble p =>
      if p = start then .returned (false, out) p
      else
        let num := (t.drop start).take (p - start)
        .returned (true, if isDouble then .double (strtod num) else .int (strtoll num)) p

/-- The cases `t`, `f` and `n` of `parse_value`. -/
def keyword (w : Bytes) (v out : Value) (p : Nat) : Outcome (Bool × Value) :=
  if w.length ≤ t.length - p then
    memcmp t p w fun equal => if equal then .returned (true, v) (p + w.length) else .returned (false, out) p
  else .returned (false, out) p

mutual
def parseValue : Nat → Value → Nat → Outcome (Bool × Value)
  | 0, _, _ => .outOfFuel
  | n + 1, out, p =>
    (skipWs t p).bind fun _ p =>
      if p < t.length then
        deref t p fun c =>
          if c = ch '{' then parseObject n p
          else if c = ch '[' then parseArray n p
          else if c = ch '"' then
            (parseString t p).bind fun s p => if s.1 then .returned (true, .string s.2) p else .returned (false, out) p
          else if c = ch 't' then keyword t (str "true") (.bool true) out p
          else if c = ch 'f' then keyword t (str "false") (.bool false) out p
          else if c = ch 'n' then keyword t (str "null") .null out p
          else parseNumber t out p
      else .returned (false, out) p
def parseArray : Nat → Nat → Outcome (Bool × Value)
  | 0, _ => .outOfFuel
  | n + 1, p =>
    (skipWs t (p + 1)).bind fun _ p =>
      if p < t.length then
        deref t p fun c => if c = ch ']' then .returned (true, .array []) (p + 1) else arrayLoop n [] p
      else arrayLoop n [] p
def arrayLoop : Nat → List Value → Nat → Outcome (Bool × Value)
  | 0, _, _ => .outOfFuel
  | n + 1, out, p =>
    (parseValue n .null p).bind fun v p =>
      if v.1 then
        (skipWs t p).bind fun _ p =>
          if p < t.length then
            deref t p fun c =>
              if c = ch ',' then arrayLoop n (out ++ [v.2]) (p + 1)
              else if c = ch ']' then .returned (true, .array (out ++ [v.2])) (p + 1)
              else .returned (false, .array (out ++ [v.2])) p
          else .returned (false, .array (out ++ [v.2])) p
      else .returned (false, .array out) p
def parseObject : Nat → Nat → Outcome (Bool × Value)
  | 0, _ => .outOfFuel
  | n + 1, p =>
    (skipWs t (p + 1)).bind fun _ p =>
      if p < t.length then
        deref t p fun c => if c = ch '}' then .returned (true, .object []) (p + 1) else objectLoop n [] p
      else objectLoop n [] p
def objectLoop : Nat → List (Bytes × Value) → Nat → Outcome (Bool × Value)
  | 0, _, _ => .outOfFuel
  | n + 1, out, p =>
    (skipWs t p).bind fun _ p =>
      (parseString t p).bind fun key p =>
        if key.1 then
          (skipWs t p).bind fun _ p =>
            if p < t.length then
              deref t p fun c =>
                if c = ch ':' then
                  (parseValue n .null (p + 1)).bind fun v p =>
                    if v.1 then
                      (skipWs t p).bind fun _ p =>
                        if p < t.length then
                          deref t p fun c =>
                            if c = ch ',' then objectLoop n (mapSet out key.2 v.2) (p + 1)
                            else if c = ch '}' then .returned (true, .object (mapSet out key.2 v.2)) (p + 1)
                            else .returned (false, .object (mapSet out key.2 v.2)) p
                        else .returned (false, .object (mapSet out key.2 v.2)) p
                    else .returned (false, .object out) p
                else .returned (false, .object out) p
            else .returned (false, .object out) p
        else .returned (false, .object out) p
end

/-- `Value::parse(text, out)`, what it returns and what it leaves in `out`. -/
def parse (n : Nat) (out : Value) : Outcome (Bool × Value) :=
  (parseValue t n out 0).bind fun r p =>
    if r.1 then (skipWs t p).bind fun _ p => .returned (true, r.2) p else .returned (false, .null) p

end Parser

/-! ## The text that is left -/

theorem deref_lt {t : Bytes} {p : Nat} (h : p < t.length) (f : UInt8 → Outcome α) : deref t p f = f t[p] := by
  rw [deref, List.getElem?_eq_getElem h]

theorem drop_lt {t : Bytes} {p : Nat} (h : p < t.length) : t.drop p = t[p] :: t.drop (p + 1) :=
  List.drop_eq_getElem_cons h

theorem drop_ge {t : Bytes} {p : Nat} (h : ¬p < t.length) : t.drop p = [] := List.drop_eq_nil_of_le (by omega)

/-- **`skip_ws` reads inside the text and leaves what `Json.skipWs` leaves.** -/
theorem skipWsLoop_spec {t : Bytes} : ∀ (k p : Nat), p ≤ t.length → t.length - p < k →
    ∃ q, p ≤ q ∧ q ≤ t.length ∧ skipWsLoop t k p = .returned () q ∧ t.drop q = Json.skipWs (t.drop p)
  | 0, _, _, h => by omega
  | k + 1, p, hp, hk => by
    rw [skipWsLoop]
    by_cases h : p < t.length
    · rw [if_pos h, deref_lt h, drop_lt h, Json.skipWs, List.dropWhile_cons]
      split
      · obtain ⟨q, hpq, hq, hrun, hdrop⟩ := skipWsLoop_spec k (p + 1) h (by omega)
        exact ⟨q, by omega, hq, hrun, hdrop⟩
      · exact ⟨p, Nat.le_refl p, hp, rfl, drop_lt h⟩
    · rw [if_neg h, drop_ge h]
      exact ⟨p, Nat.le_refl p, hp, rfl, drop_ge h⟩

theorem skipWs_spec {t : Bytes} {p : Nat} (hp : p ≤ t.length) :
    ∃ q, p ≤ q ∧ q ≤ t.length ∧ skipWs t p = .returned () q ∧ t.drop q = Json.skipWs (t.drop p) :=
  skipWsLoop_spec _ p hp (by omega)

/-- A function of the parser stops inside the text with what the other parser reads, or both fail. -/
inductive Agrees (t : Bytes) : Outcome (Bool × α) → Option (α × Bytes) → Prop
  | accepts (a : α) (p : Nat) (h : p ≤ t.length) : Agrees t (.returned (true, a) p) (some (a, t.drop p))
  | rejects (a : α) (p : Nat) : Agrees t (.returned (false, a) p) none

theorem Agrees.elim {t : Bytes} {o : Outcome (Bool × α)} {r : Option (α × Bytes)} (h : Agrees t o r) :
    (∃ a p, p ≤ t.length ∧ o = .returned (true, a) p ∧ r = some (a, t.drop p)) ∨
      ∃ a p, o = .returned (false, a) p ∧ r = none := by
  cases h with
  | accepts a p h => exact .inl ⟨a, p, h, rfl, rfl⟩
  | rejects a p => exact .inr ⟨a, p, rfl, rfl⟩

theorem hexDigit_lt {h : UInt8} {d : Nat} (hd : hexDigit h = some d) : d < 16 := by
  unfold hexDigit at hd
  split at hd
  · rename_i h0
    have h9 : h.toNat ≤ 57 := UInt8.le_iff_toNat_le.1 h0.2
    obtain rfl := Option.some.inj hd
    omega
  · split at hd
    · rename_i h0
      have hf : h.toNat ≤ 102 := UInt8.le_iff_toNat_le.1 h0.2
      obtain rfl := Option.some.inj hd
      omega
    · split at hd
      · rename_i h0
        have hf : h.toNat ≤ 70 := UInt8.le_iff_toNat_le.1 h0.2
        obtain rfl := Option.some.inj hd
        omega
      · cases hd

theorem shift_digit {cp d : Nat} (hd : d < 16) : cp <<< 4 ||| d = cp * 16 + d := by
  rw [← Nat.shiftLeft_add_eq_or_of_lt (by omega : d < 2 ^ 4), Nat.shiftLeft_eq]

/-- **The four digits of a `\u` escape are read inside the text.** -/
theorem hexLoop_spec {t : Bytes} {p : Nat} (h : p + 4 ≤ t.length) :
    (∃ u, Json.hexQuad t[p] t[p + 1] t[p + 2] t[p + 3] = some u ∧ hexLoop t 4 0 p = .returned (some u) (p + 4)) ∨
      (Json.hexQuad t[p] t[p + 1] t[p + 2] t[p + 3] = none ∧ ∃ q, hexLoop t 4 0 p = .returned none q) := by
  simp only [hexLoop, deref_lt (show p < t.length by omega), deref_lt (show p + 1 < t.length by omega),
    deref_lt (show p + 1 + 1 < t.length by omega), deref_lt (show p + 1 + 1 + 1 < t.length by omega), Json.hexQuad]
  cases h3 : hexDigit t[p] with
  | none => exact .inr ⟨rfl, _, rfl⟩
  | some a =>
    cases h2 : hexDigit t[p + 1] with
    | none => exact .inr ⟨rfl, _, rfl⟩
    | some b =>
      cases h1 : hexDigit t[p + 2] with
      | none => exact .inr ⟨rfl, _, rfl⟩
      | some c =>
        cases h0 : hexDigit t[p + 3] with
        | none => exact .inr ⟨rfl, _, rfl⟩
        | some d =>
          refine .inl ⟨_, rfl, ?_⟩
          simp only [shift_digit (hexDigit_lt h3), shift_digit (hexDigit_lt h2), shift_digit (hexDigit_lt h1),
            shift_digit (hexDigit_lt h0), Nat.zero_mul, Nat.zero_add]

/-- **`parse_string`'s loop stays inside the text.** -/
theorem stringLoop_spec {t : Bytes} : ∀ (k : Nat) (out : Bytes) (p : Nat), p ≤ t.length → t.length - p < k →
    Agrees t (stringLoop t k out p) (Json.stringLoop out (t.drop p))
  | 0, _, _, _, h => by omega
  | k + 1, out, p, hp, hk => by
    rw [stringLoop]
    by_cases h : p < t.length
    · rw [if_pos h, deref_lt h, drop_lt h, Json.stringLoop.eq_def]
      dsimp only
      by_cases hquote : t[p] = ch '"'
      · rw [if_pos hquote, if_pos hquote]
        exact .accepts _ _ h
      · rw [if_neg hquote, if_neg hquote]
        by_cases hback : t[p] = ch '\\'
        · rw [if_pos hback, if_pos hback]
          by_cases h1 : p + 1 < t.length
          · rw [if_pos h1, deref_lt h1, drop_lt h1]
            dsimp only
            by_cases hu : t[p + 1] = ch 'u'
            · rw [if_pos hu, if_pos hu]
              by_cases hlen : t.length - (p + 2) < 4
              · have hshort : (t.drop (p + 2)).length < 4 := by rw [List.length_drop]; exact hlen
                rw [if_pos hlen]
                rcases hdrop : t.drop (p + 2) with _ | ⟨a, _ | ⟨b, _ | ⟨c, _ | ⟨d, l⟩⟩⟩⟩
                all_goals first | exact .rejects _ _ | (rw [hdrop] at hshort; simp only [List.length_cons] at hshort; omega)
              · have hd : t.drop (p + 2) =
                    t[p + 2] :: t[p + 2 + 1] :: t[p + 2 + 2] :: t[p + 2 + 3] :: t.drop (p + 2 + 4) := by
                  rw [drop_lt (show p + 2 < t.length by omega), drop_lt (show p + 2 + 1 < t.length by omega),
                    drop_lt (show p + 2 + 1 + 1 < t.length by omega), drop_lt (show p + 2 + 1 + 1 + 1 < t.length by omega)]
                rw [if_neg hlen, hd]
                dsimp only
                rcases @hexLoop_spec t (p + 2) (by omega) with ⟨u, hu', hrun⟩ | ⟨hu', q, hrun⟩
                · rw [hrun, hu', Outcome.bind_returned]
                  exact stringLoop_spec k _ (p + 2 + 4) (by omega) (by omega)
                · rw [hrun, hu', Outcome.bind_returned]
                  exact .rejects _ _
            · rw [if_neg hu, if_neg hu]
              cases unescape t[p + 1] with
              | none => exact .rejects _ _
              | some b => exact stringLoop_spec k _ (p + 2) (by omega) (by omega)
          · rw [if_neg h1, drop_ge h1]
            exact .rejects _ _
        · rw [if_neg hback, if_neg hback]
          exact stringLoop_spec k _ (p + 1) (by omega) (by omega)
    · rw [if_neg h, drop_ge h]
      exact .rejects _ _

theorem parseString_spec (t : Bytes) (p : Nat) :
    Agrees t (parseString t p) (Json.parseString (t.drop p)) := by
  rw [parseString]
  by_cases h : p < t.length
  · rw [if_pos h, deref_lt h, drop_lt h, Json.parseString]
    split
    · exact stringLoop_spec _ _ _ h (by omega)
    · exact .rejects _ _
  · rw [if_neg h, drop_ge h]
    exact .rejects _ _

/-! ## Numbers and keywords -/

theorem isNumChar_iff (c : UInt8) : isNumChar c = true ↔
    isDigit c = true ∨ c = ch '.' ∨ c = ch 'e' ∨ c = ch 'E' ∨ c = ch '+' ∨ c = ch '-' := by
  simp only [isNumChar, Bool.or_eq_true, decide_eq_true_eq]
  tauto

/-- **The number's loop stops behind the run of its bytes.** -/
theorem numberLoop_spec {t : Bytes} : ∀ (k : Nat) (isDouble : Bool) (p : Nat), p ≤ t.length → t.length - p < k →
    ∃ q, p ≤ q ∧ q ≤ t.length ∧ t.drop q = (t.drop p).dropWhile isNumChar ∧
      (t.drop p).takeWhile isNumChar = (t.drop p).take (q - p) ∧
      numberLoop t k isDouble p = .returned (isDouble || !((t.drop p).takeWhile isNumChar).all isDigit) q
  | 0, _, _, _, h => by omega
  | k + 1, isDouble, p, hp, hk => by
    rw [numberLoop]
    by_cases h : p < t.length
    · rw [if_pos h, deref_lt h, drop_lt h, List.dropWhile_cons, List.takeWhile_cons]
      by_cases hc : isNumChar t[p] = true
      · rw [if_pos hc, if_pos hc]
        have hstep : ∀ q, p + 1 ≤ q →
            (t[p] :: t.drop (p + 1)).take (q - p) = t[p] :: (t.drop (p + 1)).take (q - (p + 1)) := by
          intro q hq
          rw [show q - p = q - (p + 1) + 1 by omega, List.take_succ_cons]
        by_cases hd : isDigit t[p] = true
        · obtain ⟨q, hpq, hq, hdrop, htake, hrun⟩ := numberLoop_spec k isDouble (p + 1) h (by omega)
          refine ⟨q, by omega, hq, hdrop, by rw [hstep q hpq, ← htake], ?_⟩
          rw [if_pos hd, hrun, List.all_cons, hd, Bool.true_and]
        · obtain ⟨q, hpq, hq, hdrop, htake, hrun⟩ := numberLoop_spec k true (p + 1) h (by omega)
          refine ⟨q, by omega, hq, hdrop, by rw [hstep q hpq, ← htake], ?_⟩
          rw [if_neg hd, if_pos (((isNumChar_iff _).1 hc).resolve_left hd), hrun, List.all_cons,
            Bool.eq_false_iff.2 hd]
          simp
      · rw [if_neg hc, if_neg hc]
        have hd : ¬isDigit t[p] = true := fun hd => hc ((isNumChar_iff _).2 (.inl hd))
        have hother : ¬(t[p] = ch '.' ∨ t[p] = ch 'e' ∨ t[p] = ch 'E' ∨ t[p] = ch '+' ∨ t[p] = ch '-') :=
          fun ho => hc ((isNumChar_iff _).2 (.inr ho))
        refine ⟨p, Nat.le_refl p, hp, drop_lt h, by simp, ?_⟩
        rw [if_neg hd, if_neg hother]
        simp
    · rw [if_neg h, drop_ge h]
      exact ⟨p, Nat.le_refl p, hp, drop_ge h, by simp, by simp⟩

theorem parseNumber_spec {t : Bytes} (out : Value) {p : Nat} (hp : p ≤ t.length) :
    Agrees t (parseNumber t out p) (Json.parseNumber (t.drop p)) := by
  have hsign : numberSign t p = .returned () (p + (Json.signText (t.drop p)).length) ∧
      p + (Json.signText (t.drop p)).length ≤ t.length ∧
      Json.signText (t.drop p) = (t.drop p).take (Json.signText (t.drop p)).length := by
    rw [numberSign]
    by_cases h : p < t.length
    · rw [if_pos h, deref_lt h, drop_lt h, Json.signText]
      split
      · exact ⟨rfl, h, rfl⟩
      · exact ⟨rfl, hp, rfl⟩
    · rw [if_neg h, drop_ge h]
      exact ⟨rfl, hp, rfl⟩
  obtain ⟨hrun, hle, htake⟩ := hsign
  rw [parseNumber, hrun, Outcome.bind_returned, Json.parseNumber]
  dsimp only
  generalize (Json.signText (t.drop p)).length = k at *
  obtain ⟨q, hpq, hq, hdrop, hbody, hloop⟩ := @numberLoop_spec t (t.length + 1) false (p + k) hle (by omega)
  have hnum : Json.signText (t.drop p) ++ ((t.drop p).drop k).takeWhile isNumChar = (t.drop p).take (q - p) := by
    rw [htake, List.drop_drop, hbody, ← List.drop_drop, show q - p = k + (q - (p + k)) by omega, List.take_add]
  rw [hloop, Outcome.bind_returned, hnum, List.drop_drop, ← hdrop]
  by_cases hqp : q = p
  · rw [if_pos hqp, if_pos (by rw [hqp, Nat.sub_self, List.take_zero])]
    exact .rejects _ _
  · have hne : (t.drop p).take (q - p) ≠ [] := by
      intro h
      have hlen := congrArg List.length h
      rw [List.length_take, List.length_drop, List.length_nil] at hlen
      omega
    rw [if_neg hqp, if_neg hne]
    cases ((t.drop (p + k)).takeWhile isNumChar).all isDigit <;> exact .accepts _ _ hq

theorem keyword_spec {t : Bytes} (w : Bytes) (v out : Value) {p : Nat} (hp : p ≤ t.length) :
    Agrees t (keyword t w v out p) ((Json.keyword w (t.drop p)).map (fun r => (v, r))) := by
  rw [keyword, Json.keyword]
  by_cases hlen : w.length ≤ t.length - p
  · rw [if_pos hlen, memcmp, if_pos (by omega)]
    by_cases heq : (t.drop p).take w.length = w
    · rw [decide_eq_true heq, if_pos rfl, if_pos heq, List.drop_drop]
      exact .accepts _ _ (by omega)
    · rw [decide_eq_false heq, if_neg Bool.false_ne_true, if_neg heq]
      exact .rejects _ _
  · have hne : (t.drop p).take w.length ≠ w := by
      intro h
      have hl := congrArg List.length h
      rw [List.length_take, List.length_drop] at hl
      omega
    rw [if_neg hlen, if_neg hne]
    exact .rejects _ _

/-! ## Values -/

mutual
/-- **`parse_value` reads inside the text and stops where `Json.parseValue` does.** -/
theorem parseValue_spec {t : Bytes} : ∀ (n : Nat) (out : Value) (p : Nat), p ≤ t.length →
    3 * (t.length - p) + 1 ≤ n → Agrees t (parseValue t n out p) (Json.parseValue n (t.drop p))
  | 0, _, _, _, h => by omega
  | n + 1, out, p, hp, hn => by
    obtain ⟨q, hpq, hq, hws, hdrop⟩ := @skipWs_spec t p hp
    rw [parseValue, hws, Outcome.bind_returned, Json.parseValue, ← hdrop]
    by_cases h : q < t.length
    · rw [if_pos h, deref_lt h, drop_lt h]
      dsimp only
      split
      · exact parseObject_spec n q h (by omega)
      split
      · exact parseArray_spec n q h (by omega)
      rw [← drop_lt h]
      split
      · rcases (parseString_spec t q).elim with ⟨k, q', hq', hrun, hread⟩ | ⟨k, q', hrun, hread⟩
        · rw [hrun, hread]
          exact .accepts _ _ hq'
        · rw [hrun, hread]
          exact .rejects _ _
      split
      · exact keyword_spec _ _ _ hq
      split
      · exact keyword_spec _ _ _ hq
      split
      · exact keyword_spec _ _ _ hq
      · exact parseNumber_spec out hq
    · rw [if_neg h, drop_ge h]
      exact .rejects _ _
theorem parseArray_spec {t : Bytes} : ∀ (n p : Nat), p < t.length → 3 * (t.length - p) ≤ n →
    Agrees t (parseArray t n p) (Json.parseArray n (t.drop (p + 1)))
  | 0, _, hp, h => by omega
  | n + 1, p, hp, hn => by
    obtain ⟨q, hpq, hq, hws, hdrop⟩ := @skipWs_spec t (p + 1) hp
    have hloop := arrayLoop_spec n [] q hq (by omega)
    rw [parseArray, hws, Outcome.bind_returned, Json.parseArray, ← hdrop]
    by_cases h : q < t.length
    · rw [drop_lt h] at hloop ⊢
      rw [if_pos h, deref_lt h]
      dsimp only
      split
      · exact .accepts _ _ h
      · exact hloop
    · rw [drop_ge h] at hloop ⊢
      rw [if_neg h]
      exact hloop
theorem arrayLoop_spec {t : Bytes} : ∀ (n : Nat) (out : List Value) (p : Nat), p ≤ t.length →
    3 * (t.length - p) + 2 ≤ n → Agrees t (arrayLoop t n out p) (Json.arrayLoop n out (t.drop p))
  | 0, _, _, _, h => by omega
  | n + 1, out, p, hp, hn => by
    rw [arrayLoop, Json.arrayLoop]
    rcases (parseValue_spec n .null p hp (by omega)).elim with ⟨v, p1, hp1, hrun, hread⟩ | ⟨v, p1, hrun, hread⟩
    swap
    · rw [hrun, hread]
      exact .rejects _ _
    have hlt := Json.length_parseValue n _ hread
    rw [List.length_drop, List.length_drop] at hlt
    obtain ⟨q, hpq, hq, hws, hdrop⟩ := @skipWs_spec t p1 hp1
    rw [hrun, hread, Outcome.bind_returned, if_pos rfl, hws, Outcome.bind_returned]
    dsimp only
    rw [← hdrop]
    by_cases h : q < t.length
    · rw [if_pos h, deref_lt h, drop_lt h]
      dsimp only
      split
      · exact arrayLoop_spec n _ (q + 1) h (by omega)
      split
      · exact .accepts _ _ h
      · exact .rejects _ _
    · rw [if_neg h, drop_ge h]
      exact .rejects _ _
theorem parseObject_spec {t : Bytes} : ∀ (n p : Nat), p < t.length → 3 * (t.length - p) ≤ n →
    Agrees t (parseObject t n p) (Json.parseObject n (t.drop (p + 1)))
  | 0, _, hp, h => by omega
  | n + 1, p, hp, hn => by
    obtain ⟨q, hpq, hq, hws, hdrop⟩ := @skipWs_spec t (p + 1) hp
    have hloop := objectLoop_spec n [] q hq (by omega)
    rw [parseObject, hws, Outcome.bind_returned, Json.parseObject, ← hdrop]
    by_cases h : q < t.length
    · rw [drop_lt h] at hloop ⊢
      rw [if_pos h, deref_lt h]
      dsimp only
      split
      · exact .accepts _ _ h
      · exact hloop
    · rw [drop_ge h] at hloop ⊢
      rw [if_neg h]
      exact hloop
theorem objectLoop_spec {t : Bytes} : ∀ (n : Nat) (out : List (Bytes × Value)) (p : Nat), p ≤ t.length →
    3 * (t.length - p) + 2 ≤ n → Agrees t (objectLoop t n out p) (Json.objectLoop n out (t.drop p))
  | 0, _, _, _, h => by omega
  | n + 1, out, p, hp, hn => by
    obtain ⟨p1, hp1, hle1, hws1, hdrop1⟩ := @skipWs_spec t p hp
    rw [objectLoop, Json.objectLoop, hws1, Outcome.bind_returned, ← hdrop1]
    -- the key
    rcases (parseString_spec t p1).elim with ⟨key, p2, hle2, hrun, hread⟩ | ⟨key, p2, hrun, hread⟩
    swap
    · rw [hrun, hread]
      exact .rejects _ _
    have hlt2 := Json.length_parseString hread
    rw [List.length_drop, List.length_drop] at hlt2
    obtain ⟨p3, hp3, hle3, hws3, hdrop3⟩ := @skipWs_spec t p2 hle2
    rw [hrun, hread, Outcome.bind_returned, if_pos rfl, hws3, Outcome.bind_returned]
    dsimp only
    rw [← hdrop3]
    by_cases h3 : p3 < t.length
    swap
    · rw [if_neg h3, drop_ge h3]
      exact .rejects _ _
    rw [if_pos h3, deref_lt h3, drop_lt h3]
    dsimp only
    split
    swap
    · exact .rejects _ _
    -- the value
    rcases (parseValue_spec n .null (p3 + 1) h3 (by omega)).elim with
      ⟨v, p4, hle4, hrun4, hread4⟩ | ⟨v, p4, hrun4, hread4⟩
    swap
    · rw [hrun4, hread4]
      exact .rejects _ _
    have hlt4 := Json.length_parseValue n _ hread4
    rw [List.length_drop, List.length_drop] at hlt4
    obtain ⟨p5, hp5, hle5, hws5, hdrop5⟩ := @skipWs_spec t p4 hle4
    rw [hrun4, hread4, Outcome.bind_returned, if_pos rfl, hws5, Outcome.bind_returned]
    dsimp only
    rw [← hdrop5]
    by_cases h5 : p5 < t.length
    · rw [if_pos h5, deref_lt h5, drop_lt h5]
      dsimp only
      split
      · exact objectLoop_spec n _ (p5 + 1) h5 (by omega)
      split
      · exact .accepts _ _ h5
      · exact .rejects _ _
    · rw [if_neg h5, drop_ge h5]
      exact .rejects _ _
end

/-! ## The whole text -/

/-- **With a fuel of three for each byte, the parser returns, and what it returns is what `Json.parse` gives: it reads no
byte behind the text, and leaves null where it fails.** -/
theorem parse_returns (t : Bytes) (out : Value) {n : Nat} (hn : 3 * t.length + 1 ≤ n) :
    (∃ v p, Json.parse t = some v ∧ parse t n out = .returned (true, v) p) ∨
      ∃ p, Json.parse t = none ∧ parse t n out = .returned (false, .null) p := by
  have hread := Json.parseValue_eq_readValue n t (by omega)
  rw [parse, Json.parse_eq, ← hread]
  rcases (parseValue_spec n out 0 (Nat.zero_le _) (by omega)).elim with ⟨v, p, hp, hrun, hr⟩ | ⟨v, p, hrun, hr⟩
  · obtain ⟨q, -, -, hws, -⟩ := @skipWs_spec t p hp
    rw [List.drop_zero] at hr
    rw [hrun, hr, Outcome.bind_returned, if_pos rfl, hws]
    exact .inl ⟨v, q, rfl, rfl⟩
  · rw [List.drop_zero] at hr
    rw [hrun, hr]
    exact .inr ⟨p, rfl, rfl⟩

/-- **The parser's result does not depend on what `out` held, and is `Json.parse`'s.** -/
theorem parse_eq (t : Bytes) (out : Value) {n : Nat} (hn : 3 * t.length + 1 ≤ n) :
    ∃ p, parse t n out = .returned ((Json.parse t).isSome, (Json.parse t).getD .null) p := by
  rcases parse_returns t out hn with ⟨v, p, hr, hrun⟩ | ⟨p, hr, hrun⟩
  · exact ⟨p, by rw [hrun, hr]; rfl⟩
  · exact ⟨p, by rw [hrun, hr]; rfl⟩

/-- **On every text the parser comes to an end, reads only bytes below the end, and leaves null where it fails.** -/
theorem parse_safe (t : Bytes) (out : Value) : ∃ fuel, ∀ n, fuel ≤ n →
    ∃ ok v p, parse t n out = .returned (ok, v) p ∧ (ok = false → v = .null) := by
  refine ⟨3 * t.length + 1, fun n hn => ?_⟩
  rcases parse_returns t out hn with ⟨v, p, -, hrun⟩ | ⟨p, -, hrun⟩
  · exact ⟨true, v, p, hrun, fun h => by cases h⟩
  · exact ⟨false, .null, p, hrun, fun _ => rfl⟩

end JsonCursor
end SwitchMcp

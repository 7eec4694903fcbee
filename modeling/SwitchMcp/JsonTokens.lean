import SwitchMcp.JsonRequest
import SwitchMcp.JsonDepth
/-!
# JsonTokens — which texts the agent's parser takes (agent/source/json.cpp)

The parser takes any run of digits, signs, points and exponent letters for a number and any bytes for a string's
characters.  So a text that it accepts starts with a JSON text of that value when every number it reads is one by the grammar
and no raw control character stands in a string (`parse_rfc`), and only then (`tokens_of_startsWith`).
-/
namespace SwitchMcp
namespace Json

open JsonText (Tree Elems Members Item Esc HexDigit Number Gap Ws Digit gapText strText fracText expText digitsVal
  digitByte isDigit intPart_zero)

/-! ## What the parser reads -/

/-- A number as the scanner takes it, or what stands between the quotes of a string. -/
inductive Token
  | number (text : Bytes)
  | string (body : Bytes)
deriving DecidableEq

/-- What `parse_string` reads. -/
def stringTokens (s : Bytes) : List Token :=
  match parseString s with
  | some (_, r) => [.string ((s.drop 1).take (s.length - r.length - 2))]
  | none => []

mutual
/-- The numbers and strings that `parse_value` reads, in their order. -/
def valueTokens : Nat → Bytes → List Token
  | 0, _ => []
  | n + 1, s =>
    match skipWs s with
    | [] => []
    | c :: p =>
      if c = ch '{' then objectTokens n p
      else if c = ch '[' then arrayTokens n p
      else if c = ch '"' then stringTokens (c :: p)
      else if c = ch 't' ∨ c = ch 'f' ∨ c = ch 'n' then []
      else [.number ((c :: p).takeWhile isNumChar)]
def arrayTokens : Nat → Bytes → List Token
  | 0, _ => []
  | n + 1, s =>
    match skipWs s with
    | c :: p => if c = ch ']' then [] else elementTokens n (c :: p)
    | [] => []
def elementTokens : Nat → Bytes → List Token
  | 0, _ => []
  | n + 1, s =>
    valueTokens n s ++
      match parseValue n s with
      | none => []
      | some (_, r) =>
        match skipWs r with
        | [] => []
        | c :: p => if c = ch ',' then elementTokens n p else []
def objectTokens : Nat → Bytes → List Token
  | 0, _ => []
  | n + 1, s =>
    match skipWs s with
    | c :: p => if c = ch '}' then [] else memberTokens n (c :: p)
    | [] => []
def memberTokens : Nat → Bytes → List Token
  | 0, _ => []
  | n + 1, s =>
    stringTokens (skipWs s) ++
      match parseString (skipWs s) with
      | none => []
      | some (_, r) =>
        match skipWs r with
        | [] => []
        | c :: p =>
          if c = ch ':' then
            valueTokens n p ++
              match parseValue n p with
              | none => []
              | some (_, r) =>
                match skipWs r with
                | [] => []
                | c :: p => if c = ch ',' then memberTokens n p else []
          else []
end

/-- The tokens that `Value::parse` reads. -/
def tokens (text : Bytes) : List Token := valueTokens (3 * text.length + 3) text

/-! ## What the grammar allows -/

/-- A number of the grammar; a string without a raw control character. -/
def Token.Ok : Token → Prop
  | .number text => ∃ n : Number, n.text = text
  | .string body => ∀ b ∈ body, 0x20 ≤ b

/-- No raw control character among the characters of a string. -/
def LegalString (s : List Item) : Prop := ∀ b ok, Item.raw b ok ∈ s → 0x20 ≤ b

mutual
def Legal : Tree → Prop
  | .str s => LegalString s
  | .arr es => LegalElems es
  | .obj ms => LegalMembers ms
  | _ => True
def LegalElems : Elems → Prop
  | .last _ v _ => Legal v
  | .cons _ v _ es => Legal v ∧ LegalElems es
def LegalMembers : Members → Prop
  | .last _ k _ _ v _ => LegalString k ∧ Legal v
  | .cons _ k _ _ v _ ms => LegalString k ∧ Legal v ∧ LegalMembers ms
end

/-! ## What a text denotes -/

/-- The exponent a number is written with. -/
def exponent (n : Number) : Int :=
  match n.exp with
  | none => 0
  | some e => if e.sign = some true then -(digitsVal e.digits : Int) else digitsVal e.digits

/-- An integer, where it fits 64 bits, and the binary64 nearest to any other number. -/
def denoteNumber (n : Number) : Value :=
  if n.isInt then .int (saturate n.toInt)
  else
    let q := scale10 (digitsVal (n.int ++ n.frac)) 1 (exponent n - n.frac.length)
    .double (.ofRatio n.neg q.1 q.2)

/-- The bytes of one character; a `\u` unit stands for itself, also where it is a surrogate. -/
def denoteItem : Item → Bytes
  | .raw b _ => [b]
  | .esc e => [e.byte]
  | .unit h3 h2 h1 h0 => utf8Char (JsonText.hexVal h3 h2 h1 h0)

def denoteString (s : List Item) : Bytes := s.flatMap denoteItem

mutual
def denote : Tree → Value
  | .null => .null
  | .bool b => .bool b
  | .num n => denoteNumber n
  | .str s => .string (denoteString s)
  | .arr0 _ => .array []
  | .arr es => .array (denoteElems es)
  | .obj0 _ => .object []
  | .obj ms => .object (denoteMembers [] ms)
def denoteElems : Elems → List Value
  | .last _ v _ => [denote v]
  | .cons _ v _ es => denote v :: denoteElems es
def denoteMembers : List (Bytes × Value) → Members → List (Bytes × Value)
  | o, .last _ k _ _ v _ => mapSet o (denoteString k) (denote v)
  | o, .cons _ k _ _ v _ ms => denoteMembers (mapSet o (denoteString k) (denote v)) ms
end

def IsNum : Tree → Prop
  | .num _ => True
  | _ => False

/-- The text starts, after whitespace, with a JSON text of the value; a number of it ends where the text does not go on
with a number. -/
def StartsWith (text : Bytes) (v : Value) : Prop :=
  ∃ (g : Gap) (t : Tree) (r : Bytes),
    text = gapText g ++ (t.text ++ r) ∧ (IsNum t → NumEnd r) ∧ Legal t ∧ v = denote t

/-! ## The agent's reading is what the text denotes -/

theorem hexVal_lt (h3 h2 h1 h0 : HexDigit) : JsonText.hexVal h3 h2 h1 h0 < 0x10000 := by
  have h3' := h3.val.isLt
  have h2' := h2.val.isLt
  have h1' := h1.val.isLt
  have h0' := h0.val.isLt
  unfold JsonText.hexVal
  omega

theorem denoteString_eq (s : List Item) : denoteString s = strBytes s := by
  refine List.flatMap_congr fun i _ => ?_
  cases i with
  | raw b ok => rfl
  | esc e => rfl
  | unit h3 h2 h1 h0 => exact (encodeUnit_eq_utf8Char (hexVal_lt h3 h2 h1 h0)).symm

theorem takeDigits_append (ds : List Digit) {r : Bytes} (h : ∀ c ∈ r.head?, isDigit c = false) :
    takeDigits (ds.map digitByte ++ r) = ds ∧ dropDigits (ds.map digitByte ++ r) = r := by
  have hall : ∀ c ∈ ds.map digitByte, isDigit c = true := by
    intro c hc
    obtain ⟨d, -, rfl⟩ := List.mem_map.1 hc
    exact JsonText.isDigit_digitByte d
  have htake : r.takeWhile isDigit = [] ∧ r.dropWhile isDigit = r := by
    cases r with
    | nil => exact ⟨rfl, rfl⟩
    | cons c r =>
      have hc := h c rfl
      rw [List.takeWhile_cons, List.dropWhile_cons, hc]
      exact ⟨rfl, rfl⟩
  unfold takeDigits dropDigits
  rw [List.takeWhile_append_of_pos hall, List.dropWhile_append_of_pos hall, htake.1, htake.2, List.append_nil]
  have hds := takeDigits_map ds
  rw [takeDigits, List.takeWhile_eq_self_iff.2 hall] at hds
  exact ⟨hds, rfl⟩

/-- What follows a fraction or an integer does not go on with digits. -/
theorem exp_not_digit (e : Option JsonText.Exponent) : ∀ c ∈ (expText e).head?, isDigit c = false := by
  cases e with
  | none => rintro c ⟨⟩
  | some e =>
    obtain ⟨upper, sign, ds, hds⟩ := e
    rintro c ⟨⟩
    cases upper <;> rfl

theorem exp_not_point (e : Option JsonText.Exponent) : ∀ c ∈ (expText e).head?, c ≠ ch '.' := by
  cases e with
  | none => rintro c ⟨⟩
  | some e =>
    obtain ⟨upper, sign, ds, hds⟩ := e
    have hpoint : ch 'E' ≠ ch '.' ∧ ch 'e' ≠ ch '.' := by decide
    rintro c ⟨⟩
    cases upper
    · exact hpoint.2
    · exact hpoint.1

theorem frac_not_digit (n : Number) : ∀ c ∈ (fracText n.frac ++ expText n.exp).head?, isDigit c = false := by
  unfold fracText
  split
  · exact exp_not_digit n.exp
  · rintro c ⟨⟩
    decide

theorem takeSign_digit (d : Digit) (s : Bytes) : takeSign (digitByte d :: s) = (false, digitByte d :: s) := by
  have hd := digitByte_not_sign d
  rw [not_or] at hd
  rw [takeSign, if_neg hd.1, if_neg hd.2]

/-- The sign of a number and what is left behind it. -/
theorem takeSign_text (n : Number) : takeSign n.text = (n.neg, bodyText n) := by
  rw [text_eq_body]
  obtain ⟨d, l, hbody⟩ := bodyText_head n
  cases n.neg with
  | true => rfl
  | false =>
    rw [hbody, ← takeSign_digit d l]
    rfl

theorem takeExp_text (n : Number) : takeExp (expText n.exp) = exponent n := by
  unfold exponent
  cases n.exp with
  | none => rfl
  | some e =>
    obtain ⟨upper, sign, ds, hds⟩ := e
    have hletter : (if upper = true then ch 'E' else ch 'e') = ch 'e' ∨
        (if upper = true then ch 'E' else ch 'e') = ch 'E' := by
      cases upper
      · exact .inl rfl
      · exact .inr rfl
    have hminus : takeSign (ch '-' :: ds.map digitByte) = (true, ds.map digitByte) := by rw [takeSign, if_pos rfl]
    have hplus : takeSign (ch '+' :: ds.map digitByte) = (false, ds.map digitByte) := by
      rw [takeSign, if_neg (by decide), if_pos rfl]
    rw [expText, JsonText.Exponent.text, takeExp, if_pos hletter]
    cases sign with
    | none =>
      obtain ⟨d, l, rfl⟩ := List.exists_cons_of_ne_nil hds
      dsimp only
      rw [List.nil_append, List.map_cons, takeSign_digit, ← List.map_cons, takeDigits_map]
      rfl
    | some b =>
      cases b with
      | true => simp [hminus, takeDigits_map]
      | false => simp [hplus, takeDigits_map]

theorem readNum_eq (n : Number) : readNum n = denoteNumber n := by
  have hint := @takeDigits_append n.int _ (frac_not_digit n)
  rw [← List.append_assoc] at hint
  unfold readNum denoteNumber
  split
  · rw [strtoll, takeSign_text]
    dsimp only
    rw [bodyText, hint.1]
    rfl
  · unfold strtod
    rw [takeSign_text]
    dsimp only
    rw [bodyText, hint.1, hint.2, if_neg (by simp [n.int_ok.ne_nil])]
    have hexp := takeExp_text n
    have hhead := exp_not_point n.exp
    have hdigits := @takeDigits_append n.frac _ (exp_not_digit n.exp)
    generalize expText n.exp = e at *
    unfold fracText
    by_cases hfrac : n.frac = []
    · rw [if_pos hfrac, List.nil_append, hfrac]
      cases e with
      | nil => rw [← hexp]
      | cons c e =>
        dsimp only
        rw [if_neg (hhead c rfl), ← hexp]
    · rw [if_neg hfrac, List.cons_append]
      dsimp only
      rw [if_pos rfl, hdigits.1, hdigits.2, hexp]

mutual
/-- **What the agent makes of a JSON text is what the text denotes.** -/
theorem denote_eq : ∀ t : Tree, denote t = readTree t
  | .null => rfl
  | .bool _ => rfl
  | .num n => by rw [denote, readTree, readNum_eq]
  | .str s => by rw [denote, readTree, denoteString_eq]
  | .arr0 _ => rfl
  | .arr es => by rw [denote, readTree, denoteElems_eq es]
  | .obj0 _ => rfl
  | .obj ms => by rw [denote, readTree, denoteMembers_eq ms]
theorem denoteElems_eq : ∀ es : Elems, denoteElems es = readElems es
  | .last _ v _ => by rw [denoteElems, readElems, denote_eq v]
  | .cons _ v _ es => by rw [denoteElems, readElems, denote_eq v, denoteElems_eq es]
theorem denoteMembers_eq : ∀ (ms : Members) (o : List (Bytes × Value)), denoteMembers o ms = readMembers o ms
  | .last _ k _ _ v _, o => by rw [denoteMembers, readMembers, denote_eq v, denoteString_eq]
  | .cons _ k _ _ v _ ms, o => by
    rw [denoteMembers, readMembers, denote_eq v, denoteString_eq, denoteMembers_eq ms]
end

/-! ## Tokens of the grammar -/

theorem exists_gap (s : Bytes) : ∃ g : Gap, s = gapText g ++ skipWs s := by
  induction s with
  | nil => exact ⟨[], rfl⟩
  | cons c s ih =>
    by_cases hc : isWs c = true
    · obtain ⟨g, hg⟩ := ih
      have hbyte : ∃ w : Ws, w.byte = c := by
        simp only [isWs, Bool.or_eq_true, decide_eq_true_eq] at hc
        rcases hc with ((rfl | rfl) | rfl) | rfl
        · exact ⟨.space, rfl⟩
        · exact ⟨.tab, rfl⟩
        · exact ⟨.lf, rfl⟩
        · exact ⟨.cr, rfl⟩
      obtain ⟨w, rfl⟩ := hbyte
      refine ⟨w :: g, ?_⟩
      rw [skipWs, List.dropWhile_cons_of_pos hc]
      exact congrArg (w.byte :: ·) hg
    · exact ⟨[], by rw [skipWs_cons s (by simpa using hc)]; rfl⟩

theorem exists_esc {e b : UInt8} (h : unescape e = some b) : ∃ x : Esc, x.letter = e ∧ x.byte = b := by
  by_cases hx : ∃ x : Esc, x.letter = e
  · obtain ⟨x, rfl⟩ := hx
    exact ⟨x, rfl, Option.some.inj ((unescape_letter x).symm.trans h)⟩
  · have hno : ∀ x : Esc, e ≠ x.letter := fun x hxe => hx ⟨x, hxe.symm⟩
    have hnone : unescape e = none := by
      rw [unescape, if_neg (show e ≠ ch '"' from hno .quote), if_neg (show e ≠ ch '\\' from hno .backslash),
        if_neg (show e ≠ ch '/' from hno .slash), if_neg (show e ≠ ch 'n' from hno .n),
        if_neg (show e ≠ ch 'r' from hno .r), if_neg (show e ≠ ch 't' from hno .t),
        if_neg (show e ≠ ch 'b' from hno .b), if_neg (show e ≠ ch 'f' from hno .f)]
    rw [hnone] at h
    cases h

theorem exists_hexDigit {c : UInt8} {d : Nat} (h : hexDigit c = some d) :
    ∃ x : HexDigit, x.byte = c ∧ x.val.val = d := by
  unfold hexDigit at h
  split at h
  · rename_i hr
    have h0 : 48 ≤ c.toNat := UInt8.le_iff_toNat_le.1 hr.1
    have h9 : c.toNat ≤ 57 := UInt8.le_iff_toNat_le.1 hr.2
    obtain rfl := Option.some.inj h
    refine ⟨⟨⟨c.toNat - 48, by omega⟩, false⟩, ?_, rfl⟩
    rw [HexDigit.byte, if_pos (show c.toNat - 48 < 10 by omega), ← UInt8.toNat_inj, toNat_ofNat_lt (by dsimp only; omega)]
    dsimp only
    omega
  split at h
  · rename_i hr
    have ha : 97 ≤ c.toNat := UInt8.le_iff_toNat_le.1 hr.1
    have hf : c.toNat ≤ 102 := UInt8.le_iff_toNat_le.1 hr.2
    obtain rfl := Option.some.inj h
    refine ⟨⟨⟨c.toNat - 97 + 10, by omega⟩, false⟩, ?_, rfl⟩
    rw [HexDigit.byte, if_neg (show ¬c.toNat - 97 + 10 < 10 by omega), if_neg Bool.false_ne_true, ← UInt8.toNat_inj,
      toNat_ofNat_lt (by dsimp only; omega)]
    dsimp only
    omega
  split at h
  · rename_i hr
    have ha : 65 ≤ c.toNat := UInt8.le_iff_toNat_le.1 hr.1
    have hf : c.toNat ≤ 70 := UInt8.le_iff_toNat_le.1 hr.2
    obtain rfl := Option.some.inj h
    refine ⟨⟨⟨c.toNat - 65 + 10, by omega⟩, true⟩, ?_, rfl⟩
    rw [HexDigit.byte, if_neg (show ¬c.toNat - 65 + 10 < 10 by omega), if_pos rfl, ← UInt8.toNat_inj,
      toNat_ofNat_lt (by dsimp only; omega)]
    dsimp only
    omega
  · cases h

theorem exists_hexQuad {c3 c2 c1 c0 : UInt8} {u : Nat} (h : hexQuad c3 c2 c1 c0 = some u) :
    ∃ h3 h2 h1 h0 : HexDigit, Item.text (.unit h3 h2 h1 h0) = [ch '\\', ch 'u', c3, c2, c1, c0] ∧
      JsonText.hexVal h3 h2 h1 h0 = u := by
  unfold hexQuad at h
  cases e3 : hexDigit c3 with
  | none => rw [e3] at h; cases h
  | some a =>
    cases e2 : hexDigit c2 with
    | none => rw [e3, e2] at h; cases h
    | some b =>
      cases e1 : hexDigit c1 with
      | none => rw [e3, e2, e1] at h; cases h
      | some c =>
        cases e0 : hexDigit c0 with
        | none => rw [e3, e2, e1, e0] at h; cases h
        | some d =>
          rw [e3, e2, e1, e0] at h
          obtain ⟨x3, rfl, rfl⟩ := exists_hexDigit e3
          obtain ⟨x2, rfl, rfl⟩ := exists_hexDigit e2
          obtain ⟨x1, rfl, rfl⟩ := exists_hexDigit e1
          obtain ⟨x0, rfl, rfl⟩ := exists_hexDigit e0
          exact ⟨x3, x2, x1, x0, rfl, Option.some.inj h⟩

/-- **A string that is read is read item by item.** -/
theorem stringLoop_some (out s : Bytes) : ∀ {k r : Bytes}, stringLoop out s = some (k, r) →
    ∃ l : List Item, s = l.flatMap Item.text ++ ch '"' :: r ∧ k = out ++ strBytes l := by
  have hcons : ∀ (i : Item) (out p : Bytes) {k r : Bytes},
      (∃ l : List Item, p = l.flatMap Item.text ++ ch '"' :: r ∧ k = out ++ itemBytes i ++ strBytes l) →
      ∃ l : List Item, i.text ++ p = l.flatMap Item.text ++ ch '"' :: r ∧ k = out ++ strBytes l := by
    rintro i out p k r ⟨l, rfl, rfl⟩
    exact ⟨i :: l, by rw [List.flatMap_cons, List.append_assoc], by simp [strBytes]⟩
  fun_induction stringLoop out s with
  | case2 out p =>
    intro k r h
    obtain ⟨rfl, rfl⟩ := Prod.mk.inj (Option.some.inj h)
    exact ⟨[], rfl, by simp [strBytes]⟩
  | case4 out h3 h2 h1 h0 p u hu hq ih =>
    intro k r h
    obtain ⟨x3, x2, x1, x0, htext, hval⟩ := exists_hexQuad hu
    have hi := hcons (.unit x3 x2 x1 x0) out p (by rw [itemBytes, hval]; exact ih h)
    rw [htext] at hi
    exact hi
  | case7 out e p hu b hb hq ih =>
    intro k r h
    obtain ⟨x, rfl, rfl⟩ := exists_esc hb
    exact hcons (.esc x) out p (ih h)
  | case9 out c p hq hb ih =>
    intro k r h
    exact hcons (.raw c ⟨hq, hb⟩) out p (ih h)
  | _ => intro k r h; cases h

theorem parseString_some {s k r : Bytes} (h : parseString s = some (k, r)) :
    ∃ l : List Item, s = strText l ++ r ∧ k = strBytes l := by
  cases s with
  | nil => cases h
  | cons c p =>
    rw [parseString] at h
    split at h
    · rename_i hc
      obtain ⟨l, rfl, hk⟩ := stringLoop_some [] p h
      refine ⟨l, ?_, hk⟩
      rw [hc, strText, List.cons_append, List.append_assoc, List.singleton_append]
    · cases h

theorem numEnd_dropWhile (s : Bytes) : NumEnd (s.dropWhile isNumChar) := by
  intro c hc
  cases hd : s.dropWhile isNumChar with
  | nil => rw [hd] at hc; cases hc
  | cons b l =>
    rw [hd] at hc
    obtain rfl : b = c := Option.some.inj hc
    have hb := List.dropWhile_get_zero_not isNumChar s (by rw [hd]; exact Nat.succ_pos _)
    simpa [hd] using hb

theorem parseNumber_some {s r : Bytes} {v : Value} (h : parseNumber s = some (v, r))
    (hok : (Token.number (s.takeWhile isNumChar)).Ok) : ∃ n : Number, s = n.text ++ r ∧ NumEnd r ∧ v = readNum n := by
  obtain ⟨n, hn⟩ := hok
  have hend := numEnd_dropWhile s
  have hs : s = n.text ++ s.dropWhile isNumChar := by rw [hn, List.takeWhile_append_dropWhile]
  have hread := parseNumber_text n _ hend
  rw [← hs, h] at hread
  obtain ⟨hv, hr⟩ := Prod.mk.inj (Option.some.inj hread)
  exact ⟨n, by rw [hr]; exact hs, by rw [hr]; exact hend, hv⟩

theorem keyword_some {w s r : Bytes} (h : keyword w s = some r) : s = w ++ r := by
  unfold keyword at h
  split at h
  · rename_i hw
    obtain rfl := Option.some.inj h
    conv_lhs => rw [← List.take_append_drop w.length s, hw]
  · cases h

theorem stringTokens_strText (l : List Item) (r : Bytes) :
    stringTokens (strText l ++ r) = [.string (l.flatMap Item.text)] := by
  have hlen : (strText l ++ r).length - r.length - 2 = (l.flatMap Item.text).length := by
    rw [List.length_append, strText, List.length_cons, List.length_append, List.length_singleton]
    omega
  rw [stringTokens, parseString_strText]
  dsimp only
  rw [hlen, strText, List.cons_append, List.drop_succ_cons, List.drop_zero, List.append_assoc, List.take_left]

/-- A string without a raw control character has no byte below a blank at all. -/
theorem legalString_iff (l : List Item) : LegalString l ↔ (Token.string (l.flatMap Item.text)).Ok := by
  constructor
  · intro h b hb
    obtain ⟨i, hi, hbi⟩ := List.mem_flatMap.1 hb
    cases i with
    | raw c ok =>
      rw [Item.text, List.mem_singleton] at hbi
      rw [hbi]
      exact h c ok hi
    | esc e =>
      simp only [Item.text, List.mem_cons, List.not_mem_nil, or_false] at hbi
      rcases hbi with rfl | rfl
      · decide
      · cases e <;> decide
    | unit h3 h2 h1 h0 =>
      have hdigit : ∀ x : HexDigit, 0x20 ≤ x.byte := by
        rintro ⟨v, u⟩
        revert v u
        decide
      simp only [Item.text, List.mem_cons, List.not_mem_nil, or_false] at hbi
      rcases hbi with rfl | rfl | rfl | rfl | rfl | rfl
      · decide
      · decide
      · exact hdigit h3
      · exact hdigit h2
      · exact hdigit h1
      · exact hdigit h0
  · intro h b ok hi
    exact h b (List.mem_flatMap.2 ⟨_, hi, by simp [Item.text]⟩)

/-! ## A text with tokens of the grammar -/

theorem gap_cons {s p : Bytes} {c : UInt8} (h : skipWs s = c :: p) : ∃ g : Gap, s = gapText g ++ c :: p := by
  obtain ⟨g, hg⟩ := exists_gap s
  exact ⟨g, by rw [← h]; exact hg⟩

theorem valueTokens_skipWs (n : Nat) (s : Bytes) : valueTokens n (skipWs s) = valueTokens n s := by
  cases n with
  | zero => rfl
  | succ n => rw [valueTokens, valueTokens, skipWs_skipWs]

theorem elementTokens_skipWs (n : Nat) (s : Bytes) : elementTokens n (skipWs s) = elementTokens n s := by
  cases n with
  | zero => rfl
  | succ n => rw [elementTokens, elementTokens, valueTokens_skipWs, parseValue_skipWs]

theorem memberTokens_skipWs (n : Nat) (s : Bytes) : memberTokens n (skipWs s) = memberTokens n s := by
  cases n with
  | zero => rfl
  | succ n => rw [memberTokens, memberTokens, skipWs_skipWs]

mutual
/-- **A value whose tokens are those of the grammar is a JSON text, and is read as it.** -/
theorem parseValue_some : ∀ (n : Nat) (s : Bytes) {v : Value} {r : Bytes}, parseValue n s = some (v, r) →
    (∀ k ∈ valueTokens n s, k.Ok) →
    ∃ (g : Gap) (t : Tree), s = gapText g ++ (t.text ++ r) ∧ (IsNum t → NumEnd r) ∧ Legal t ∧ v = readTree t
  | 0, s, v, r, h, _ => by simp only [parseValue] at h; cases h
  | n + 1, s, v, r, h, hok => by
    rw [parseValue] at h
    rw [valueTokens] at hok
    rcases hw : skipWs s with _ | ⟨c, p⟩
    · rw [hw] at h; cases h
    rw [hw] at h hok
    dsimp only at h hok
    obtain ⟨g, rfl⟩ := gap_cons hw
    have hkeyword : ∀ {w : Bytes} {x : Value}, (keyword w (c :: p)).map (fun r => (x, r)) = some (v, r) →
        c :: p = w ++ r ∧ v = x := by
      intro w x hk
      obtain ⟨q, hq, hv⟩ := Option.map_eq_some_iff.1 hk
      obtain ⟨rfl, rfl⟩ := Prod.mk.inj hv
      exact ⟨keyword_some hq, rfl⟩
    by_cases hobj : c = ch '{'
    · rw [if_pos hobj] at h hok
      obtain ⟨t, ht, hnum, hlegal, hv⟩ := parseObject_some n p h hok
      exact ⟨g, t, by rw [hobj, ht], fun hn => absurd hn hnum, hlegal, hv⟩
    rw [if_neg hobj] at h hok
    by_cases harr : c = ch '['
    · rw [if_pos harr] at h hok
      obtain ⟨t, ht, hnum, hlegal, hv⟩ := parseArray_some n p h hok
      exact ⟨g, t, by rw [harr, ht], fun hn => absurd hn hnum, hlegal, hv⟩
    rw [if_neg harr] at h hok
    by_cases hstr : c = ch '"'
    · rw [if_pos hstr] at h hok
      obtain ⟨⟨k, q⟩, hk, hv⟩ := Option.map_eq_some_iff.1 h
      obtain ⟨rfl, rfl⟩ := Prod.mk.inj hv
      obtain ⟨l, hl, hkl⟩ := parseString_some hk
      rw [hl, stringTokens_strText] at hok
      refine ⟨g, .str l, by rw [hl]; rfl, fun hn => absurd hn id, (legalString_iff l).2 (hok _ (by simp)), ?_⟩
      rw [readTree, ← hkl]
    rw [if_neg hstr] at h hok
    by_cases htrue : c = ch 't'
    · rw [if_pos htrue] at h
      obtain ⟨hs, rfl⟩ := hkeyword h
      exact ⟨g, .bool true, by rw [hs]; rfl, fun hn => absurd hn id, trivial, rfl⟩
    rw [if_neg htrue] at h
    by_cases hfalse : c = ch 'f'
    · rw [if_pos hfalse] at h
      obtain ⟨hs, rfl⟩ := hkeyword h
      exact ⟨g, .bool false, by rw [hs]; rfl, fun hn => absurd hn id, trivial, rfl⟩
    rw [if_neg hfalse] at h
    by_cases hnull : c = ch 'n'
    · rw [if_pos hnull] at h
      obtain ⟨hs, rfl⟩ := hkeyword h
      exact ⟨g, .null, by rw [hs]; rfl, fun hn => absurd hn id, trivial, rfl⟩
    rw [if_neg hnull] at h
    rw [if_neg (by rintro (h | h | h); exacts [htrue h, hfalse h, hnull h])] at hok
    obtain ⟨num, hs, hend, hv⟩ := parseNumber_some h (hok _ (by simp))
    exact ⟨g, .num num, by rw [hs]; rfl, fun _ => hend, trivial, hv⟩
theorem parseArray_some : ∀ (n : Nat) (s : Bytes) {v : Value} {r : Bytes}, parseArray n s = some (v, r) →
    (∀ k ∈ arrayTokens n s, k.Ok) →
    ∃ t : Tree, ch '[' :: s = t.text ++ r ∧ ¬IsNum t ∧ Legal t ∧ v = readTree t
  | 0, s, v, r, h, _ => by simp only [parseArray] at h; cases h
  | n + 1, s, v, r, h, hok => by
    rw [parseArray] at h
    rw [arrayTokens] at hok
    rcases hw : skipWs s with _ | ⟨c, p⟩
    · rw [hw] at h
      have := length_arrayLoop n [] [] h
      simp at this
    rw [hw] at h hok
    dsimp only at h hok
    split at h
    · rename_i hc
      obtain ⟨g, rfl⟩ := gap_cons hw
      obtain ⟨rfl, rfl⟩ := Prod.mk.inj (Option.some.inj h)
      exact ⟨.arr0 g, by simp [Tree.text, hc], id, trivial, rfl⟩
    · rename_i hc
      rw [if_neg hc, ← hw, elementTokens_skipWs] at hok
      rw [← hw, arrayLoop_skipWs] at h
      obtain ⟨es, rfl, hlegal, hv⟩ := arrayLoop_some n [] s h hok
      exact ⟨.arr es, by simp [Tree.text], id, hlegal, hv⟩
theorem arrayLoop_some : ∀ (n : Nat) (out : List Value) (s : Bytes) {v : Value} {r : Bytes},
    arrayLoop n out s = some (v, r) → (∀ k ∈ elementTokens n s, k.Ok) →
    ∃ es : Elems, s = es.text ++ ch ']' :: r ∧ LegalElems es ∧ v = .array (out ++ readElems es)
  | 0, out, s, v, r, h, _ => by simp only [arrayLoop] at h; cases h
  | n + 1, out, s, v, r, h, hok => by
    rw [arrayLoop] at h
    rw [elementTokens] at hok
    rcases hp : parseValue n s with _ | ⟨x, q⟩
    · rw [hp] at h; cases h
    rw [hp] at h hok
    dsimp only at h hok
    obtain ⟨g, t, rfl, -, hlegal, rfl⟩ := parseValue_some n s hp fun k hk => hok k (List.mem_append_left _ hk)
    rcases hw : skipWs q with _ | ⟨c, p⟩
    · rw [hw] at h; cases h
    rw [hw] at h hok
    dsimp only at h hok
    obtain ⟨g', rfl⟩ := gap_cons hw
    split at h
    · rename_i hc
      rw [if_pos hc] at hok
      obtain ⟨es, rfl, hes, hv⟩ := arrayLoop_some n _ p h fun k hk => hok k (List.mem_append_right _ hk)
      exact ⟨.cons g t g' es, by simp [Elems.text, hc], ⟨hlegal, hes⟩, by rw [hv]; simp [readElems]⟩
    split at h
    · rename_i hc
      obtain ⟨rfl, rfl⟩ := Prod.mk.inj (Option.some.inj h)
      exact ⟨.last g t g', by simp [Elems.text, hc], hlegal, by simp [readElems]⟩
    · cases h
theorem parseObject_some : ∀ (n : Nat) (s : Bytes) {v : Value} {r : Bytes}, parseObject n s = some (v, r) →
    (∀ k ∈ objectTokens n s, k.Ok) →
    ∃ t : Tree, ch '{' :: s = t.text ++ r ∧ ¬IsNum t ∧ Legal t ∧ v = readTree t
  | 0, s, v, r, h, _ => by simp only [parseObject] at h; cases h
  | n + 1, s, v, r, h, hok => by
    rw [parseObject] at h
    rw [objectTokens] at hok
    rcases hw : skipWs s with _ | ⟨c, p⟩
    · rw [hw] at h
      have := length_objectLoop n [] [] h
      simp at this
    rw [hw] at h hok
    dsimp only at h hok
    split at h
    · rename_i hc
      obtain ⟨g, rfl⟩ := gap_cons hw
      obtain ⟨rfl, rfl⟩ := Prod.mk.inj (Option.some.inj h)
      exact ⟨.obj0 g, by simp [Tree.text, hc], id, trivial, rfl⟩
    · rename_i hc
      rw [if_neg hc, ← hw, memberTokens_skipWs] at hok
      rw [← hw, objectLoop_skipWs] at h
      obtain ⟨ms, rfl, hlegal, hv⟩ := objectLoop_some n [] s h hok
      exact ⟨.obj ms, by simp [Tree.text], id, hlegal, hv⟩
theorem objectLoop_some : ∀ (n : Nat) (out : List (Bytes × Value)) (s : Bytes) {v : Value} {r : Bytes},
    objectLoop n out s = some (v, r) → (∀ k ∈ memberTokens n s, k.Ok) →
    ∃ ms : Members, s = ms.text ++ ch '}' :: r ∧ LegalMembers ms ∧ v = .object (readMembers out ms)
  | 0, out, s, v, r, h, _ => by simp only [objectLoop] at h; cases h
  | n + 1, out, s, v, r, h, hok => by
    rw [objectLoop] at h
    rw [memberTokens] at hok
    obtain ⟨g, hg⟩ := exists_gap s
    rcases hk : parseString (skipWs s) with _ | ⟨key, q⟩
    · rw [hk] at h; cases h
    rw [hk] at h hok
    dsimp only at h hok
    obtain ⟨l, hl, rfl⟩ := parseString_some hk
    have hkey : LegalString l := by
      refine (legalString_iff l).2 (hok _ (List.mem_append_left _ ?_))
      rw [hl, stringTokens_strText]
      exact List.mem_singleton_self _
    rcases hw : skipWs q with _ | ⟨c, p⟩
    · rw [hw] at h; cases h
    rw [hw] at h hok
    dsimp only at h hok
    obtain ⟨g1, rfl⟩ := gap_cons hw
    split at h
    swap; · cases h
    rename_i hcolon
    rw [if_pos hcolon] at hok
    -- the value behind the colon
    rcases hp : parseValue n p with _ | ⟨x, q'⟩
    · rw [hp] at h; cases h
    rw [hp] at h hok
    dsimp only at h hok
    obtain ⟨g2, t, rfl, -, hlegal, rfl⟩ := parseValue_some n p hp fun k hk =>
      hok k (List.mem_append_right _ (List.mem_append_left _ hk))
    rcases hw' : skipWs q' with _ | ⟨c', p'⟩
    · rw [hw'] at h; cases h
    rw [hw'] at h hok
    dsimp only at h hok
    obtain ⟨g', rfl⟩ := gap_cons hw'
    split at h
    · rename_i hc
      rw [if_pos hc] at hok
      obtain ⟨ms, rfl, hms, hv⟩ := objectLoop_some n _ p' h fun k hk =>
        hok k (List.mem_append_right _ (List.mem_append_right _ hk))
      refine ⟨.cons g l g1 g2 t g' ms, ?_, ⟨hkey, hlegal, hms⟩, hv⟩
      rw [hg, hl, hcolon, hc]
      simp [Members.text]
    split at h
    · rename_i hc
      obtain ⟨rfl, rfl⟩ := Prod.mk.inj (Option.some.inj h)
      refine ⟨.last g l g1 g2 t g', ?_, ⟨hkey, hlegal⟩, rfl⟩
      rw [hg, hl, hcolon, hc]
      simp [Members.text]
    · cases h
end

/-! ## The tokens of a JSON text -/

theorem valueTokens_gap (n : Nat) (g : Gap) (s : Bytes) : valueTokens n (gapText g ++ s) = valueTokens n s := by
  rw [← valueTokens_skipWs, skipWs_gap, valueTokens_skipWs]

theorem valueTokens_keyword (n : Nat) {c : UInt8} (p : Bytes) (h : c = ch 't' ∨ c = ch 'f' ∨ c = ch 'n') :
    valueTokens n (c :: p) = [] := by
  cases n with
  | zero => rfl
  | succ n =>
    have hc : isWs c = false ∧ c ≠ ch '{' ∧ c ≠ ch '[' ∧ c ≠ ch '"' := by
      rcases h with rfl | rfl | rfl <;> decide
    rw [valueTokens, skipWs_cons p hc.1]
    dsimp only
    rw [if_neg hc.2.1, if_neg hc.2.2.1, if_neg hc.2.2.2, if_pos h]

theorem takeWhile_number (n : Number) {r : Bytes} (hr : NumEnd r) : (n.text ++ r).takeWhile isNumChar = n.text := by
  have hall : ∀ c ∈ n.text, isNumChar c = true := by
    intro c hc
    rw [text_eq_body] at hc
    rcases List.mem_append.1 hc with hc | hc
    · split at hc
      · rw [List.mem_singleton.1 hc]
        decide
      · cases hc
    · exact isNumChar_body n c hc
  rw [List.takeWhile_append_of_pos hall, takeWhile_numEnd hr, List.append_nil]

theorem key_tokens (g g1 : Gap) (k : List Item) (r : Bytes) :
    stringTokens (skipWs (gapText g ++ (strText k ++ (gapText g1 ++ ch ':' :: r)))) =
      [.string (k.flatMap Item.text)] := by
  have hq : isWs (ch '"') = false := by decide
  rw [skipWs_gap, show strText k = ch '"' :: (k.flatMap Item.text ++ [ch '"']) from rfl, List.cons_append,
    skipWs_cons _ hq, ← List.cons_append]
  exact stringTokens_strText k _

mutual
/-- **The tokens of a JSON text are those of the grammar.** -/
theorem valueTokens_text : ∀ (t : Tree) (n : Nat) (r : Bytes), 3 * t.text.length < n → (IsNum t → NumEnd r) →
    Legal t → ∀ k ∈ valueTokens n (t.text ++ r), k.Ok
  | _, 0, _, h, _, _ => by omega
  | .null, n + 1, r, _, _, _ => by
    have h := valueTokens_keyword (n + 1) (str "ull" ++ r) (.inr (.inr rfl))
    intro k hk
    rw [show Tree.text .null ++ r = ch 'n' :: (str "ull" ++ r) from rfl, h] at hk
    cases hk
  | .bool true, n + 1, r, _, _, _ => by
    have h := valueTokens_keyword (n + 1) (str "rue" ++ r) (.inl rfl)
    intro k hk
    rw [show Tree.text (.bool true) ++ r = ch 't' :: (str "rue" ++ r) from rfl, h] at hk
    cases hk
  | .bool false, n + 1, r, _, _, _ => by
    have h := valueTokens_keyword (n + 1) (str "alse" ++ r) (.inr (.inl rfl))
    intro k hk
    rw [show Tree.text (.bool false) ++ r = ch 'f' :: (str "alse" ++ r) from rfl, h] at hk
    cases hk
  | .num num, n + 1, r, _, hr, _ => by
    have htake := takeWhile_number num (hr trivial)
    obtain ⟨c, s, e, h0, -, h1, h2, h3, h4, h5, h6⟩ := num_head num
    rw [Tree.text]
    rw [e, List.cons_append] at htake ⊢
    rw [valueTokens, skipWs_cons _ h0]
    dsimp only
    rw [if_neg h1, if_neg h2, if_neg h3, if_neg (by rintro (h | h | h); exacts [h4 h, h5 h, h6 h]), htake]
    intro k hk
    rw [List.mem_singleton.1 hk]
    exact ⟨num, e⟩
  | .str s, n + 1, r, _, _, hlegal => by
    have hw : isWs (ch '"') = false := by decide
    have ht := stringTokens_strText s r
    rw [Tree.text]
    rw [show strText s = ch '"' :: (s.flatMap Item.text ++ [ch '"']) from rfl, List.cons_append] at ht ⊢
    rw [valueTokens, skipWs_cons _ hw]
    dsimp only
    rw [if_neg (by decide), if_neg (by decide), if_pos rfl, ht]
    intro k hk
    rw [List.mem_singleton.1 hk]
    exact (legalString_iff s).1 hlegal
  | .arr0 g, n + 1, r, _, _, _ => by
    have hw : isWs (ch '[') = false := by decide
    have hc : isWs (ch ']') = false := by decide
    rw [Tree.text, List.cons_append, List.append_assoc, List.singleton_append, valueTokens, skipWs_cons _ hw]
    dsimp only
    rw [if_neg (by decide), if_pos rfl]
    cases n with
    | zero => exact fun k hk => by cases hk
    | succ n =>
      rw [arrayTokens, skipWs_gap_cons g _ hc]
      dsimp only
      rw [if_pos rfl]
      exact fun k hk => by cases hk
  | .arr es, n + 1, r, h, _, hlegal => by
    have hw : isWs (ch '[') = false := by decide
    simp only [Tree.text, List.length_cons, List.length_append, List.length_nil] at h
    obtain ⟨n, rfl⟩ : ∃ m, n = m + 1 := ⟨n - 1, by omega⟩
    obtain ⟨c, s, e, hne⟩ := skipWs_elems es (ch ']' :: r)
    have hl := elementTokens_text es n r (by omega) hlegal
    rw [Tree.text, List.cons_append, List.append_assoc, List.singleton_append, valueTokens, skipWs_cons _ hw]
    dsimp only
    rw [if_neg (by decide), if_pos rfl, arrayTokens, e]
    dsimp only
    rw [if_neg hne, ← e, elementTokens_skipWs]
    exact hl
  | .obj0 g, n + 1, r, _, _, _ => by
    have hw : isWs (ch '{') = false := by decide
    have hc : isWs (ch '}') = false := by decide
    rw [Tree.text, List.cons_append, List.append_assoc, List.singleton_append, valueTokens, skipWs_cons _ hw]
    dsimp only
    rw [if_pos rfl]
    cases n with
    | zero => exact fun k hk => by cases hk
    | succ n =>
      rw [objectTokens, skipWs_gap_cons g _ hc]
      dsimp only
      rw [if_pos rfl]
      exact fun k hk => by cases hk
  | .obj ms, n + 1, r, h, _, hlegal => by
    have hw : isWs (ch '{') = false := by decide
    simp only [Tree.text, List.length_cons, List.length_append, List.length_nil] at h
    obtain ⟨n, rfl⟩ : ∃ m, n = m + 1 := ⟨n - 1, by omega⟩
    obtain ⟨c, s, e, hne⟩ := skipWs_members ms (ch '}' :: r)
    have hl := memberTokens_text ms n r (by omega) hlegal
    rw [Tree.text, List.cons_append, List.append_assoc, List.singleton_append, valueTokens, skipWs_cons _ hw]
    dsimp only
    rw [if_pos rfl, objectTokens, e]
    dsimp only
    rw [if_neg hne, ← e, memberTokens_skipWs]
    exact hl
theorem elementTokens_text : ∀ (es : Elems) (n : Nat) (r : Bytes), 3 * es.text.length + 1 < n → LegalElems es →
    ∀ k ∈ elementTokens n (es.text ++ ch ']' :: r), k.Ok
  | _, 0, _, h, _ => by omega
  | .last g v g', n + 1, r, h, hlegal => by
    have hc : isWs (ch ']') = false := by decide
    simp only [Elems.text, List.length_append] at h
    have hend : NumEnd (gapText g' ++ ch ']' :: r) := numEnd_gap g' (numEnd_cons r (by decide))
    have hv := parseValue_text v n (gapText g' ++ ch ']' :: r) (by omega) hend
    have hk := valueTokens_text v n (gapText g' ++ ch ']' :: r) (by omega) (fun _ => hend) hlegal
    rw [Elems.text, List.append_assoc, List.append_assoc, elementTokens, valueTokens_gap, parseValue_gap, hv]
    dsimp only
    rw [skipWs_gap_cons g' _ hc]
    dsimp only
    rw [if_neg (by decide), List.append_nil]
    exact hk
  | .cons g v g' es, n + 1, r, h, hlegal => by
    have hc : isWs (ch ',') = false := by decide
    simp only [Elems.text, List.length_append, List.length_cons] at h
    have hend : NumEnd (gapText g' ++ ch ',' :: (es.text ++ ch ']' :: r)) := numEnd_gap g' (numEnd_cons _ (by decide))
    have hv := parseValue_text v n (gapText g' ++ ch ',' :: (es.text ++ ch ']' :: r)) (by omega) hend
    have hk := valueTokens_text v n (gapText g' ++ ch ',' :: (es.text ++ ch ']' :: r)) (by omega) (fun _ => hend) hlegal.1
    have hl := elementTokens_text es n r (by omega) hlegal.2
    rw [Elems.text, List.append_assoc, List.append_assoc, List.append_assoc, List.cons_append, elementTokens,
      valueTokens_gap, parseValue_gap, hv]
    dsimp only
    rw [skipWs_gap_cons g' _ hc]
    dsimp only
    rw [if_pos rfl]
    intro k hm
    exact (List.mem_append.1 hm).elim (hk k) (hl k)
theorem memberTokens_text : ∀ (ms : Members) (n : Nat) (r : Bytes), 3 * ms.text.length + 1 < n → LegalMembers ms →
    ∀ k ∈ memberTokens n (ms.text ++ ch '}' :: r), k.Ok
  | _, 0, _, h, _ => by omega
  | .last g k g1 g2 v g', n + 1, r, h, hlegal => by
    have hc : isWs (ch ':') = false := by decide
    have hc' : isWs (ch '}') = false := by decide
    simp only [Members.text, List.length_append, List.length_cons] at h
    have hend : NumEnd (gapText g' ++ ch '}' :: r) := numEnd_gap g' (numEnd_cons r (by decide))
    have hv := parseValue_text v n (gapText g' ++ ch '}' :: r) (by omega) hend
    have hk := valueTokens_text v n (gapText g' ++ ch '}' :: r) (by omega) (fun _ => hend) hlegal.2
    simp only [Members.text, List.append_assoc, List.cons_append]
    rw [memberTokens, key_tokens, parseKey]
    dsimp only
    rw [skipWs_gap_cons g1 _ hc]
    dsimp only
    rw [if_pos rfl, valueTokens_gap, parseValue_gap, hv]
    dsimp only
    rw [skipWs_gap_cons g' _ hc']
    dsimp only
    rw [if_neg (by decide), List.append_nil]
    intro x hm
    rcases List.mem_append.1 hm with hm | hm
    · rw [List.mem_singleton.1 hm]
      exact (legalString_iff k).1 hlegal.1
    · exact hk x hm
  | .cons g k g1 g2 v g' ms, n + 1, r, h, hlegal => by
    have hc : isWs (ch ':') = false := by decide
    have hc' : isWs (ch ',') = false := by decide
    simp only [Members.text, List.length_append, List.length_cons] at h
    have hend : NumEnd (gapText g' ++ ch ',' :: (ms.text ++ ch '}' :: r)) := numEnd_gap g' (numEnd_cons _ (by decide))
    have hv := parseValue_text v n (gapText g' ++ ch ',' :: (ms.text ++ ch '}' :: r)) (by omega) hend
    have hk := valueTokens_text v n (gapText g' ++ ch ',' :: (ms.text ++ ch '}' :: r)) (by omega) (fun _ => hend) hlegal.2.1
    have hl := memberTokens_text ms n r (by omega) hlegal.2.2
    simp only [Members.text, List.append_assoc, List.cons_append]
    rw [memberTokens, key_tokens, parseKey]
    dsimp only
    rw [skipWs_gap_cons g1 _ hc]
    dsimp only
    rw [if_pos rfl, valueTokens_gap, parseValue_gap, hv]
    dsimp only
    rw [skipWs_gap_cons g' _ hc']
    dsimp only
    rw [if_pos rfl]
    intro x hm
    rcases List.mem_append.1 hm with hm | hm
    · rw [List.mem_singleton.1 hm]
      exact (legalString_iff k).1 hlegal.1
    · exact (List.mem_append.1 hm).elim (hk x) (hl x)
end

/-! ## The texts that are accepted -/

/-- **A text that starts with a JSON text has no other tokens.** -/
theorem tokens_of_startsWith {text : Bytes} {v : Value} (h : StartsWith text v) : ∀ k ∈ tokens text, k.Ok := by
  obtain ⟨g, t, r, rfl, hend, hlegal, -⟩ := h
  rw [tokens, valueTokens_gap]
  refine valueTokens_text t _ r ?_ hend hlegal
  rw [List.length_append, List.length_append]
  omega

/-- **A text that is accepted, and in which the numbers are numbers of the grammar and no string holds a raw control
character, starts with a JSON text of its value.** -/
theorem parse_rfc {text : Bytes} {v : Value} (h : parse text = some v) (hok : ∀ k ∈ tokens text, k.Ok) :
    StartsWith text v := by
  obtain ⟨⟨x, r⟩, hx, hv⟩ := Option.map_eq_some_iff.1 h
  obtain rfl : x = v := hv
  obtain ⟨g, t, htext, hend, hlegal, hread⟩ := parseValue_some _ text hx hok
  exact ⟨g, t, r, htext, hend, hlegal, by rw [hread, denote_eq]⟩

/-- `-1.5`. -/
def sampleNumber : Number := ⟨true, [1], .inr ⟨1, [], rfl, by decide⟩, [5], none⟩

/-- `["a",-1.5]`. -/
def sampleTree : Tree := .arr (.cons [] (.str [.raw (ch 'a') (by decide)]) [] (.last [] (.num sampleNumber) []))

theorem parse_rfc_sample : StartsWith sampleTree.text (readTree sampleTree) := by
  refine parse_rfc (parse_text sampleTree) ?_
  have htokens : tokens sampleTree.text = [.string (str "a"), .number (str "-1.5")] := by decide +kernel
  rw [htokens]
  intro k hk
  rcases List.mem_pair.1 hk with rfl | rfl
  · intro b hb
    rw [List.mem_singleton.1 hb]
    decide
  · exact ⟨sampleNumber, by decide⟩

/-- The surrogate pair of U+1F600, as two escapes. -/
def samplePair : List Item := [Item.ofUnit 0xD83D, Item.ofUnit 0xDE00]

/-- **A lone sign is read as 0, and the surrogate pair of U+1F600 as six bytes.** -/
theorem lone_sign_accepted :
    (parse (str "-") = some (.int 0) ∧ ∀ v, ¬StartsWith (str "-") v) ∧
      parse (strText samplePair) = some (.string [0xED, 0xA0, 0xBD, 0xED, 0xB8, 0x80]) ∧
        utf8Char 0x1F600 = [0xF0, 0x9F, 0x98, 0x80] := by
  refine ⟨⟨?_, fun v h => ?_⟩, ?_, by decide⟩
  · have hread : parse (str "-") = some (.int (strtoll (str "-"))) := rfl
    have hzero : strtoll (str "-") = 0 := by decide +kernel
    rw [hread, hzero]
  · have htokens : tokens (str "-") = [.number (str "-")] := by decide +kernel
    obtain ⟨n, hn⟩ := tokens_of_startsWith h (.number (str "-")) (by rw [htokens]; exact List.mem_singleton_self _)
    obtain ⟨d, l, hbody⟩ := bodyText_head n
    rw [text_eq_body, hbody] at hn
    cases hneg : n.neg with
    | true =>
      rw [hneg] at hn
      exact List.cons_ne_nil _ _ (List.cons.inj hn).2
    | false =>
      rw [hneg] at hn
      exact digitByte_not_sign d (.inl (List.cons.inj hn).1)
  · have hbytes : strBytes samplePair = [0xED, 0xA0, 0xBD, 0xED, 0xB8, 0x80] := by decide
    rw [← hbytes]
    exact parse_text (.str samplePair)

end Json
end SwitchMcp

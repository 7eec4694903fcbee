import SwitchMcp.Json
import SwitchMcp.Unicode
/-!
# JsonParse — the agent's parser on every JSON text

`readTree` is what a JSON text denotes to the agent: a number without point or exponent through `strtoll`, every other
one through `strtod`, a `\u` unit encoded by itself, the last of two equal keys.  `parseValue_text`: on the text of any
tree, followed by anything that does not go on with a number, the parser stops exactly at the text's end with that
value.  The induction is on the tree; the fuel it needs is three for each byte of the text.
-/
namespace SwitchMcp
namespace Json

open JsonText (Tree Elems Members Item Esc HexDigit Number Gap Ws Exponent Digit gapText strText digitByte isDigit fracText expText)

/-! ## What a text denotes -/

def itemBytes : Item → Bytes
  | .raw b _ => [b]
  | .esc e => [e.byte]
  | .unit h3 h2 h1 h0 => encodeUnit (JsonText.hexVal h3 h2 h1 h0)

def strBytes (s : List Item) : Bytes := s.flatMap itemBytes

def readNum (n : Number) : Value := if n.isInt then .int (strtoll n.text) else .double (strtod n.text)

mutual
def readTree : Tree → Value
  | .null => .null
  | .bool b => .bool b
  | .num n => readNum n
  | .str s => .string (strBytes s)
  | .arr0 _ => .array []
  | .arr es => .array (readElems es)
  | .obj0 _ => .object []
  | .obj ms => .object (readMembers [] ms)
def readElems : Elems → List Value
  | .last _ v _ => [readTree v]
  | .cons _ v _ es => readTree v :: readElems es
def readMembers : List (Bytes × Value) → Members → List (Bytes × Value)
  | o, .last _ k _ _ v _ => mapSet o (strBytes k) (readTree v)
  | o, .cons _ k _ _ v _ ms => readMembers (mapSet o (strBytes k) (readTree v)) ms
end

/-! ## Whitespace -/

theorem isWs_byte (w : Ws) : isWs w.byte = true := by cases w <;> decide

theorem skipWs_gap (g : Gap) (s : Bytes) : skipWs (gapText g ++ s) = skipWs s := by
  unfold skipWs
  rw [List.dropWhile_append_of_pos]
  intro b hb
  obtain ⟨w, -, rfl⟩ := List.mem_map.1 hb
  exact isWs_byte w

theorem skipWs_cons {c : UInt8} (s : Bytes) (h : isWs c = false) : skipWs (c :: s) = c :: s := by
  unfold skipWs; rw [List.dropWhile_cons_of_neg (by simp [h])]

theorem skipWs_gap_cons (g : Gap) {c : UInt8} (s : Bytes) (h : isWs c = false) :
    skipWs (gapText g ++ c :: s) = c :: s := by
  rw [skipWs_gap, skipWs_cons s h]

theorem skipWs_skipWs (s : Bytes) : skipWs (skipWs s) = skipWs s := List.dropWhile_idempotent isWs s

/-! ## Strings -/

theorem hexDigit_byte (h : HexDigit) : hexDigit h.byte = some h.val.val := by
  obtain ⟨v, u⟩ := h
  revert v u; decide

theorem hexQuad_byte (h3 h2 h1 h0 : HexDigit) :
    hexQuad h3.byte h2.byte h1.byte h0.byte = some (JsonText.hexVal h3 h2 h1 h0) := by
  simp only [hexQuad, hexDigit_byte, JsonText.hexVal]

theorem unescape_letter (e : Esc) : unescape e.letter = some e.byte := by cases e <;> decide

theorem letter_ne (e : Esc) : e.letter ≠ ch 'u' := by cases e <;> decide

theorem stringLoop_item (out : Bytes) (i : Item) (p : Bytes) :
    stringLoop out (i.text ++ p) = stringLoop (out ++ itemBytes i) p := by
  have hb : ch '\\' ≠ ch '"' := by decide
  cases i with
  | raw b ok =>
    rw [Item.text, List.singleton_append, stringLoop.eq_def]
    simp only [if_neg ok.1, if_neg ok.2, itemBytes]
  | esc e =>
    rw [Item.text, List.cons_append, List.singleton_append, stringLoop.eq_def]
    simp only [if_neg hb, if_true, if_neg (letter_ne e), unescape_letter, itemBytes]
  | unit h3 h2 h1 h0 =>
    rw [Item.text, stringLoop.eq_def]
    simp only [List.cons_append, List.nil_append, if_neg hb, if_true, hexQuad_byte, itemBytes]

theorem stringLoop_items : ∀ (s : List Item) (out p : Bytes),
    stringLoop out (s.flatMap Item.text ++ ch '"' :: p) = some (out ++ strBytes s, p)
  | [], out, p => by
    rw [stringLoop.eq_def]
    simp [strBytes]
  | i :: s, out, p => by
    rw [List.flatMap_cons, List.append_assoc, stringLoop_item, stringLoop_items s]
    simp [strBytes]

/-- **A string is read as the bytes of its items.** -/
theorem parseString_strText (s : List Item) (p : Bytes) : parseString (strText s ++ p) = some (strBytes s, p) := by
  have := stringLoop_items s [] p
  rw [List.nil_append] at this
  simp only [strText, List.cons_append, List.append_assoc, List.nil_append, parseString, if_true, this]

/-! ## Numbers -/

/-- What follows does not go on with a number. -/
def NumEnd (r : Bytes) : Prop := ∀ c ∈ r.head?, isNumChar c = false

theorem numEnd_nil : NumEnd [] := by rintro c ⟨⟩

theorem numEnd_cons {c : UInt8} (r : Bytes) (h : isNumChar c = false) : NumEnd (c :: r) := by
  rintro c' ⟨⟩; exact h

theorem numEnd_gap (g : Gap) {r : Bytes} (h : NumEnd r) : NumEnd (gapText g ++ r) := by
  cases g with
  | nil => exact h
  | cons w g => exact numEnd_cons _ (by cases w <;> decide)

theorem takeWhile_numEnd {r : Bytes} (h : NumEnd r) : r.takeWhile isNumChar = [] := by
  cases r with
  | nil => rfl
  | cons c r => rw [List.takeWhile_cons_of_neg (by simp [h c rfl])]

theorem dropWhile_numEnd {r : Bytes} (h : NumEnd r) : r.dropWhile isNumChar = r := by
  cases r with
  | nil => rfl
  | cons c r => rw [List.dropWhile_cons_of_neg (by simp [h c rfl])]

theorem isNumChar_of_isDigit {c : UInt8} (h : isDigit c = true) : isNumChar c = true := by simp [isNumChar, h]

theorem isNumChar_digits (ds : List Digit) : ∀ c ∈ ds.map digitByte, isNumChar c = true := by
  intro c hc
  obtain ⟨d, -, rfl⟩ := List.mem_map.1 hc
  exact isNumChar_of_isDigit (JsonText.isDigit_digitByte d)

theorem isNumChar_frac (ds : List Digit) : ∀ c ∈ fracText ds, isNumChar c = true := by
  intro c hc
  unfold fracText at hc
  split at hc
  · cases hc
  · rcases List.mem_cons.1 hc with rfl | hc
    · decide
    · exact isNumChar_digits ds c hc

theorem isNumChar_exp (e : Option Exponent) : ∀ c ∈ expText e, isNumChar c = true := by
  intro c hc
  cases e with
  | none => cases hc
  | some e =>
    rcases List.mem_cons.1 hc with rfl | hc
    · cases e.upper <;> decide
    · rcases List.mem_append.1 hc with hc | hc
      · split at hc
        · cases hc
        · rw [List.mem_singleton.1 hc]; decide
        · rw [List.mem_singleton.1 hc]; decide
      · exact isNumChar_digits e.digits c hc

/-- A number after its sign. -/
def bodyText (n : Number) : Bytes := n.int.map digitByte ++ fracText n.frac ++ expText n.exp

theorem isNumChar_body (n : Number) : ∀ c ∈ bodyText n, isNumChar c = true := by
  intro c hc
  rcases List.mem_append.1 hc with hc | hc
  · rcases List.mem_append.1 hc with hc | hc
    · exact isNumChar_digits _ c hc
    · exact isNumChar_frac _ c hc
  · exact isNumChar_exp _ c hc

theorem bodyText_head (n : Number) : ∃ d l, bodyText n = digitByte d :: l := by
  obtain ⟨d, l, e⟩ := List.exists_cons_of_ne_nil n.int_ok.ne_nil
  exact ⟨d, l.map digitByte ++ fracText n.frac ++ expText n.exp, by rw [bodyText, e]; simp⟩

theorem text_eq_body (n : Number) : n.text = (if n.neg then [ch '-'] else []) ++ bodyText n := by
  simp only [Number.text, bodyText, List.append_assoc]

theorem digitByte_not_sign (d : Digit) : ¬(digitByte d = ch '-' ∨ digitByte d = ch '+') := by revert d; decide

theorem signText_text (n : Number) (r : Bytes) : signText (n.text ++ r) = if n.neg then [ch '-'] else [] := by
  rw [text_eq_body]
  cases n.neg with
  | true => rfl
  | false =>
    obtain ⟨d, l, e⟩ := bodyText_head n
    simp only [Bool.false_eq_true, if_false, List.nil_append, e, List.cons_append, signText,
      if_neg (digitByte_not_sign d)]

/-- Only digits: the scanner's `is_double` stays false. -/
theorem all_isDigit_body (n : Number) : (bodyText n).all isDigit = n.isInt := by
  have hi : (n.int.map digitByte).all isDigit = true := by
    rw [List.all_map]
    exact List.all_eq_true.2 (fun d _ => JsonText.isDigit_digitByte d)
  have hf : (fracText n.frac).all isDigit = n.frac.isEmpty := by
    unfold fracText
    cases h : n.frac with
    | nil => rfl
    | cons d ds =>
      have hp : isDigit (ch '.') = false := by decide
      simp [hp]
  have he : (expText n.exp).all isDigit = n.exp.isNone := by
    cases h : n.exp with
    | none => rfl
    | some e =>
      have hp : ∀ u : Bool, isDigit (if u then ch 'E' else ch 'e') = false := by decide
      simp [expText, Exponent.text, hp]
  rw [bodyText, List.all_append, List.all_append, hi, hf, he, Number.isInt, Bool.true_and]

/-- **A number is scanned to its end and read whole.** -/
theorem parseNumber_text (n : Number) (r : Bytes) (hr : NumEnd r) : parseNumber (n.text ++ r) = some (readNum n, r) := by
  have hdrop : (n.text ++ r).drop (signText (n.text ++ r)).length = bodyText n ++ r := by
    rw [signText_text, text_eq_body, List.append_assoc, List.drop_left]
  have htake : (bodyText n ++ r).takeWhile isNumChar = bodyText n := by
    rw [List.takeWhile_append_of_pos (isNumChar_body n), takeWhile_numEnd hr, List.append_nil]
  have hrest : (bodyText n ++ r).dropWhile isNumChar = r := by
    rw [List.dropWhile_append_of_pos (isNumChar_body n), dropWhile_numEnd hr]
  have htext : signText (n.text ++ r) ++ bodyText n = n.text := by rw [signText_text, ← text_eq_body]
  have hne : n.text ≠ [] := by
    obtain ⟨b, s, e, -⟩ := n.text_head
    rw [e]; exact List.cons_ne_nil b s
  simp only [parseNumber, hdrop, htake, hrest, htext, if_neg hne, all_isDigit_body, readNum]

/-! ## Values -/

theorem keyword_append (w r : Bytes) : keyword w (w ++ r) = some r := by simp [keyword]

theorem parseValue_skipWs (n : Nat) (s : Bytes) : parseValue n (skipWs s) = parseValue n s := by
  cases n with
  | zero => simp only [parseValue]
  | succ n => simp only [parseValue, skipWs_skipWs]

theorem parseValue_gap (n : Nat) (g : Gap) (s : Bytes) : parseValue n (gapText g ++ s) = parseValue n s := by
  rw [← parseValue_skipWs, skipWs_gap, parseValue_skipWs]

theorem arrayLoop_skipWs (n : Nat) (out : List Value) (s : Bytes) : arrayLoop n out (skipWs s) = arrayLoop n out s := by
  cases n with
  | zero => simp only [arrayLoop]
  | succ n => simp only [arrayLoop, parseValue_skipWs]

theorem objectLoop_skipWs (n : Nat) (out : List (Bytes × Value)) (s : Bytes) :
    objectLoop n out (skipWs s) = objectLoop n out s := by
  cases n with
  | zero => simp only [objectLoop]
  | succ n => simp only [objectLoop, skipWs_skipWs]

theorem digit_head : ∀ d : Digit, isWs (digitByte d) = false ∧ digitByte d ≠ ch ']' ∧ digitByte d ≠ ch '{' ∧
    digitByte d ≠ ch '[' ∧ digitByte d ≠ ch '"' ∧ digitByte d ≠ ch 't' ∧ digitByte d ≠ ch 'f' ∧ digitByte d ≠ ch 'n' := by
  decide

theorem num_head (n : Number) : ∃ c s, n.text = c :: s ∧ isWs c = false ∧ c ≠ ch ']' ∧ c ≠ ch '{' ∧ c ≠ ch '[' ∧
    c ≠ ch '"' ∧ c ≠ ch 't' ∧ c ≠ ch 'f' ∧ c ≠ ch 'n' := by
  rw [text_eq_body]
  cases n.neg with
  | true => exact ⟨ch '-', bodyText n, rfl, by decide⟩
  | false =>
    obtain ⟨d, l, e⟩ := bodyText_head n
    exact ⟨digitByte d, l, by rw [e]; rfl, digit_head d⟩

/-- No value starts with whitespace or with the end of an array. -/
theorem text_head (t : Tree) : ∃ c s, t.text = c :: s ∧ isWs c = false ∧ c ≠ ch ']' := by
  cases t with
  | null => exact ⟨ch 'n', str "ull", rfl, by decide⟩
  | bool b =>
    cases b
    · exact ⟨ch 'f', str "alse", rfl, by decide⟩
    · exact ⟨ch 't', str "rue", rfl, by decide⟩
  | num n =>
    obtain ⟨c, s, e, h1, h2, -⟩ := num_head n
    exact ⟨c, s, by rw [Tree.text, e], h1, h2⟩
  | str s => exact ⟨ch '"', _, by rw [Tree.text, strText], by decide⟩
  | arr0 g => exact ⟨ch '[', _, by rw [Tree.text], by decide⟩
  | arr es => exact ⟨ch '[', _, by rw [Tree.text], by decide⟩
  | obj0 g => exact ⟨ch '{', _, by rw [Tree.text], by decide⟩
  | obj ms => exact ⟨ch '{', _, by rw [Tree.text], by decide⟩

/-- An array that has elements does not end where its first one should start. -/
theorem skipWs_elems (es : Elems) (r : Bytes) : ∃ c s, skipWs (es.text ++ r) = c :: s ∧ c ≠ ch ']' := by
  cases es with
  | last g v g' =>
    obtain ⟨c, s, e, h1, h2⟩ := text_head v
    exact ⟨c, _, by rw [Elems.text, e, List.append_assoc, List.cons_append, List.cons_append, skipWs_gap_cons g _ h1], h2⟩
  | cons g v g' es =>
    obtain ⟨c, s, e, h1, h2⟩ := text_head v
    exact ⟨c, _, by rw [Elems.text, e, List.append_assoc, List.cons_append, List.cons_append, skipWs_gap_cons g _ h1], h2⟩

theorem skipWs_members (ms : Members) (r : Bytes) : ∃ c s, skipWs (ms.text ++ r) = c :: s ∧ c ≠ ch '}' := by
  have hq : isWs (ch '"') = false := by decide
  cases ms with
  | last g k g1 g2 v g' =>
    exact ⟨ch '"', _, by rw [Members.text, strText, List.append_assoc, List.cons_append, List.cons_append,
      skipWs_gap_cons g _ hq], by decide⟩
  | cons g k g1 g2 v g' ms =>
    exact ⟨ch '"', _, by rw [Members.text, strText, List.append_assoc, List.cons_append, List.cons_append,
      skipWs_gap_cons g _ hq], by decide⟩

/-- The key of a member, the colon after it and the gaps around them. -/
theorem parseKey (g g1 : Gap) (k : List Item) (r : Bytes) :
    parseString (skipWs (gapText g ++ (strText k ++ (gapText g1 ++ ch ':' :: r))))
      = some (strBytes k, gapText g1 ++ ch ':' :: r) := by
  have hq : isWs (ch '"') = false := by decide
  rw [skipWs_gap, show strText k = ch '"' :: (k.flatMap Item.text ++ [ch '"']) from rfl, List.cons_append,
    skipWs_cons _ hq, ← List.cons_append]
  exact parseString_strText k _

mutual
/-- **The parser reads the text of any tree to its end.** -/
theorem parseValue_text : ∀ (t : Tree) (n : Nat) (r : Bytes), 3 * t.text.length < n → NumEnd r →
    parseValue n (t.text ++ r) = some (readTree t, r)
  | _, 0, _, h, _ => by omega
  | .null, n + 1, r, _, _ => by
    show parseValue (n + 1) (ch 'n' :: (str "ull" ++ r)) = _
    have hk := keyword_append (str "null") r
    have hw : isWs (ch 'n') = false := by decide
    simp only [parseValue, skipWs_cons _ hw]
    exact congrArg (Option.map _) hk
  | .bool true, n + 1, r, _, _ => by
    show parseValue (n + 1) (ch 't' :: (str "rue" ++ r)) = _
    have hk := keyword_append (str "true") r
    have hw : isWs (ch 't') = false := by decide
    simp only [parseValue, skipWs_cons _ hw]
    exact congrArg (Option.map _) hk
  | .bool false, n + 1, r, _, _ => by
    show parseValue (n + 1) (ch 'f' :: (str "alse" ++ r)) = _
    have hk := keyword_append (str "false") r
    have hw : isWs (ch 'f') = false := by decide
    simp only [parseValue, skipWs_cons _ hw]
    exact congrArg (Option.map _) hk
  | .num num, n + 1, r, _, hr => by
    have hp := parseNumber_text num r hr
    obtain ⟨c, s, e, h0, -, h1, h2, h3, h4, h5, h6⟩ := num_head num
    rw [Tree.text]
    rw [e, List.cons_append] at hp ⊢
    simp only [parseValue, skipWs_cons _ h0, if_neg h1, if_neg h2, if_neg h3, if_neg h4, if_neg h5, if_neg h6, hp,
      readTree]
  | .str s, n + 1, r, _, _ => by
    have hp := parseString_strText s r
    have hw : isWs (ch '"') = false := by decide
    rw [Tree.text]
    rw [show strText s = ch '"' :: (s.flatMap Item.text ++ [ch '"']) from rfl, List.cons_append] at hp ⊢
    have h1 : ch '"' ≠ ch '{' := by decide
    have h2 : ch '"' ≠ ch '[' := by decide
    simp only [parseValue, skipWs_cons _ hw, if_neg h1, if_neg h2, if_true, hp, Option.map_some, readTree]
  | .arr0 g, n + 1, r, h, _ => by
    have hw : isWs (ch '[') = false := by decide
    have hc : isWs (ch ']') = false := by decide
    have h1 : ch '[' ≠ ch '{' := by decide
    obtain ⟨n, rfl⟩ : ∃ m, n = m + 1 := ⟨n - 1, by simp only [Tree.text, List.length_cons] at h; omega⟩
    simp only [Tree.text, List.cons_append, List.append_assoc, List.nil_append, parseValue, skipWs_cons _ hw, if_neg h1,
      if_true, parseArray, skipWs_gap_cons g _ hc, readTree]
  | .arr es, n + 1, r, h, _ => by
    have hw : isWs (ch '[') = false := by decide
    have h1 : ch '[' ≠ ch '{' := by decide
    simp only [Tree.text, List.length_cons, List.length_append, List.length_nil] at h
    obtain ⟨n, rfl⟩ : ∃ m, n = m + 1 := ⟨n - 1, by omega⟩
    obtain ⟨c, s, e, hne⟩ := skipWs_elems es (ch ']' :: r)
    have hl := arrayLoop_text es n [] r (by omega)
    simp only [Tree.text, List.cons_append, List.append_assoc, List.nil_append, parseValue, skipWs_cons _ hw, if_neg h1,
      if_true, parseArray, e, if_neg hne, readTree]
    rw [← e, arrayLoop_skipWs, hl, List.nil_append]
  | .obj0 g, n + 1, r, h, _ => by
    have hw : isWs (ch '{') = false := by decide
    have hc : isWs (ch '}') = false := by decide
    obtain ⟨n, rfl⟩ : ∃ m, n = m + 1 := ⟨n - 1, by simp only [Tree.text, List.length_cons] at h; omega⟩
    simp only [Tree.text, List.cons_append, List.append_assoc, List.nil_append, parseValue, skipWs_cons _ hw, if_true,
      parseObject, skipWs_gap_cons g _ hc, readTree]
  | .obj ms, n + 1, r, h, _ => by
    have hw : isWs (ch '{') = false := by decide
    simp only [Tree.text, List.length_cons, List.length_append, List.length_nil] at h
    obtain ⟨n, rfl⟩ : ∃ m, n = m + 1 := ⟨n - 1, by omega⟩
    obtain ⟨c, s, e, hne⟩ := skipWs_members ms (ch '}' :: r)
    have hl := objectLoop_text ms n [] r (by omega)
    simp only [Tree.text, List.cons_append, List.append_assoc, List.nil_append, parseValue, skipWs_cons _ hw, if_true,
      parseObject, e, if_neg hne, readTree]
    rw [← e, objectLoop_skipWs, hl]
theorem arrayLoop_text : ∀ (es : Elems) (n : Nat) (out : List Value) (r : Bytes), 3 * es.text.length + 1 < n →
    arrayLoop n out (es.text ++ ch ']' :: r) = some (.array (out ++ readElems es), r)
  | _, 0, _, _, h => by omega
  | .last g v g', n + 1, out, r, h => by
    have hc : isWs (ch ']') = false := by decide
    have h1 : ch ']' ≠ ch ',' := by decide
    simp only [Elems.text, List.length_append] at h
    have hv := parseValue_text v n (gapText g' ++ ch ']' :: r) (by omega) (numEnd_gap g' (numEnd_cons r (by decide)))
    simp only [Elems.text, List.append_assoc, arrayLoop, parseValue_gap, hv, skipWs_gap_cons g' _ hc, if_neg h1, if_true,
      readElems]
  | .cons g v g' es, n + 1, out, r, h => by
    have hc : isWs (ch ',') = false := by decide
    simp only [Elems.text, List.length_append, List.length_cons] at h
    have hv := parseValue_text v n (gapText g' ++ ch ',' :: (es.text ++ ch ']' :: r)) (by omega)
      (numEnd_gap g' (numEnd_cons _ (by decide)))
    have hl := arrayLoop_text es n (out ++ [readTree v]) r (by omega)
    simp only [Elems.text, List.append_assoc, List.cons_append, arrayLoop, parseValue_gap, hv, skipWs_gap_cons g' _ hc,
      if_true, hl, readElems, List.nil_append]
theorem objectLoop_text : ∀ (ms : Members) (n : Nat) (out : List (Bytes × Value)) (r : Bytes),
    3 * ms.text.length + 1 < n →
    objectLoop n out (ms.text ++ ch '}' :: r) = some (.object (readMembers out ms), r)
  | _, 0, _, _, h => by omega
  | .last g k g1 g2 v g', n + 1, out, r, h => by
    have hc : isWs (ch ':') = false := by decide
    have hc' : isWs (ch '}') = false := by decide
    have h1 : ch '}' ≠ ch ',' := by decide
    simp only [Members.text, List.length_append, List.length_cons] at h
    have hv := parseValue_text v n (gapText g' ++ ch '}' :: r) (by omega) (numEnd_gap g' (numEnd_cons r (by decide)))
    simp only [Members.text, List.append_assoc, List.cons_append, objectLoop, parseKey, skipWs_gap_cons g1 _ hc, if_true,
      parseValue_gap, hv, skipWs_gap_cons g' _ hc', if_neg h1, readMembers]
  | .cons g k g1 g2 v g' ms, n + 1, out, r, h => by
    have hc : isWs (ch ':') = false := by decide
    have hc' : isWs (ch ',') = false := by decide
    simp only [Members.text, List.length_append, List.length_cons] at h
    have hv := parseValue_text v n (gapText g' ++ ch ',' :: (ms.text ++ ch '}' :: r)) (by omega)
      (numEnd_gap g' (numEnd_cons _ (by decide)))
    have hl := objectLoop_text ms n (mapSet out (strBytes k) (readTree v)) r (by omega)
    simp only [Members.text, List.append_assoc, List.cons_append, objectLoop, parseKey, skipWs_gap_cons g1 _ hc, if_true,
      parseValue_gap, hv, skipWs_gap_cons g' _ hc', hl, readMembers]
end

/-- **A JSON text is accepted, with the value it denotes.** -/
theorem parse_text (t : Tree) : parse t.text = some (readTree t) := by
  have := parseValue_text t (3 * t.text.length + 3) [] (by omega) numEnd_nil
  rw [List.append_nil] at this
  rw [parse, this, Option.map_some]

end Json
end SwitchMcp

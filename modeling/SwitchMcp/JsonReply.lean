import SwitchMcp.JsonParse
import SwitchMcp.PyJson
/-!
# JsonReply — what the agent's `Value::dump` means to the client's `json.loads`

`json.loads` decodes the whole text before it scans it.  A dump of a value whose strings are UTF-8 decodes to `chars` of
the value (`utf8Decode_write`), and the scanner reads that to `toPy` of the value and stops at its end
(`scanOnce_chars`); so `loads_dump`.  The writer passes every byte from 0x80 on through as it is, and escapes what the
scanner refuses.
-/
namespace SwitchMcp
namespace Json

open JsonText (Number Exponent Digit IntPart digitByte fracText expText)
open PyJson (scanString scanDigits scanInt scanFrac scanSign scanExp scanNumber scanOnce scanArray scanObject dictSet ofNum)

/-! ## The text, decoded -/

/-- ASCII bytes as code points. -/
def asc (s : Bytes) : PyStr := s.map (fun b => cp b.toNat)

/-- A character of a string as `write_string` writes it. -/
def writtenChar (c : CodePoint) : PyStr := if c.val < 0x80 then asc (writeChar (UInt8.ofNat c.val)) else [c]

def decoded (s : Bytes) : PyStr := (utf8Decode s).getD []

def strChars (s : Bytes) : PyStr := cp 34 :: ((decoded s).flatMap writtenChar ++ [cp 34])

mutual
def chars : Value → PyStr
  | .null => asc (str "null")
  | .bool b => asc (if b then str "true" else str "false")
  | .int i => asc (writeInt i)
  | .double d => asc (writeDouble d)
  | .string s => strChars s
  | .array a => cp 91 :: (charsArray true a ++ [cp 93])
  | .object o => cp 123 :: (charsObject true o ++ [cp 125])
def charsArray : Bool → List Value → PyStr
  | _, [] => []
  | first, v :: a => (if first then [] else [cp 44]) ++ (chars v ++ charsArray false a)
def charsObject : Bool → List (Bytes × Value) → PyStr
  | _, [] => []
  | first, (k, v) :: o => (if first then [] else [cp 44]) ++ (strChars k ++ cp 58 :: (chars v ++ charsObject false o))
end

/-- The UTF-8 encoding of some text. -/
def IsUtf8 (s : Bytes) : Prop := ∃ l : PyStr, s = utf8 l

mutual
/-- Every string in the value, keys included, is UTF-8. -/
def Utf8Value : Value → Prop
  | .string s => IsUtf8 s
  | .array a => Utf8Array a
  | .object o => Utf8Object o
  | _ => True
def Utf8Array : List Value → Prop
  | [] => True
  | v :: a => Utf8Value v ∧ Utf8Array a
def Utf8Object : List (Bytes × Value) → Prop
  | [] => True
  | (k, v) :: o => IsUtf8 k ∧ Utf8Value v ∧ Utf8Object o
end

theorem utf8Object_mapSet : ∀ (o : List (Bytes × Value)) (k : Bytes) (v : Value), Utf8Object o → IsUtf8 k → Utf8Value v →
    Utf8Object (mapSet o k v)
  | [], k, v, _, hk, hv => ⟨hk, hv, trivial⟩
  | (k0, v0) :: o, k, v, ho, hk, hv => by
    unfold mapSet
    split
    · exact ⟨hk, hv, ho.2.2⟩
    · split
      · exact ⟨hk, hv, ho⟩
      · exact ⟨ho.1, ho.2.1, utf8Object_mapSet o k v ho.2.2 hk hv⟩

/-- **Setting a member under a UTF-8 key keeps the strings UTF-8.** -/
theorem utf8Value_set (v : Value) (k : Bytes) (x : Value) (hv : Utf8Value v) (hk : IsUtf8 k) (hx : Utf8Value x) :
    Utf8Value (v.set k x) := by
  cases v with
  | object o => exact utf8Object_mapSet o k x hv hk hx
  | _ => exact ⟨hk, hx, trivial⟩

@[simp] theorem decoded_utf8 (l : PyStr) : decoded (utf8 l) = l := by rw [decoded, utf8Decode_utf8, Option.getD_some]

theorem utf8Decode_asc : ∀ (a : Bytes) (s : Bytes), (∀ b ∈ a, b.toNat < 0x80) →
    utf8Decode (a ++ s) = (utf8Decode s).map (asc a ++ ·)
  | [], s, _ => by cases h : utf8Decode s <;> simp [asc, h]
  | b :: a, s, h => by
    rw [List.cons_append, utf8Decode_ascii b _ (h b (by simp)), utf8Decode_asc a s (fun x hx => h x (by simp [hx]))]
    cases utf8Decode s <;> rfl

theorem writeChar_ascii : ∀ n < 128, allAscii (writeChar (UInt8.ofNat n)) = true := by decide

theorem writeChar_high {b : UInt8} (h : 0x80 ≤ b.toNat) : writeChar b = [b] := by
  have hne : ∀ n : UInt8, n.toNat < 0x80 → b ≠ n := fun n hn e => by rw [e] at h; omega
  have hlt : ¬b < 0x20 := by rw [UInt8.lt_iff_toNat_lt]; simp; omega
  unfold writeChar
  rw [if_neg (hne _ (by decide)), if_neg (hne _ (by decide)), if_neg (hne _ (by decide)), if_neg (hne _ (by decide)),
    if_neg (hne _ (by decide)), if_neg (hne _ (by decide)), if_neg (hne _ (by decide)), if_neg hlt]

theorem utf8Char_high {c : CodePoint} (h : ¬c.val < 0x80) : ∀ b ∈ utf8Char c.val, 0x80 ≤ b.toNat := by
  have hc := c.isLt
  intro b hb
  unfold utf8Char at hb
  rw [if_neg h] at hb
  split at hb
  · simp only [List.mem_cons, List.not_mem_nil, or_false] at hb
    rcases hb with rfl | rfl <;> rw [toNat_ofNat_lt (by omega)] <;> omega
  · split at hb
    · simp only [List.mem_cons, List.not_mem_nil, or_false] at hb
      rcases hb with rfl | rfl | rfl <;> rw [toNat_ofNat_lt (by omega)] <;> omega
    · simp only [List.mem_cons, List.not_mem_nil, or_false] at hb
      rcases hb with rfl | rfl | rfl | rfl <;> rw [toNat_ofNat_lt (by omega)] <;> omega

theorem flatMap_writeChar_high : ∀ (l : Bytes), (∀ b ∈ l, 0x80 ≤ b.toNat) → l.flatMap writeChar = l
  | [], _ => rfl
  | b :: l, h => by
    rw [List.flatMap_cons, writeChar_high (h b (by simp)), flatMap_writeChar_high l (fun x hx => h x (by simp [hx]))]
    rfl

theorem utf8Decode_writeChar (c : CodePoint) (s : Bytes) :
    utf8Decode ((utf8Char c.val).flatMap writeChar ++ s) = (utf8Decode s).map (writtenChar c ++ ·) := by
  unfold writtenChar
  by_cases h : c.val < 0x80
  · rw [if_pos h, utf8Char, if_pos h, List.flatMap_singleton, utf8Decode_asc _ _ (allAscii_mem (writeChar_ascii c.val h))]
  · rw [if_neg h, flatMap_writeChar_high _ (utf8Char_high h), utf8Decode_utf8Char]
    rfl

theorem utf8Decode_flatMap : ∀ (l : PyStr) (s : Bytes),
    utf8Decode ((utf8 l).flatMap writeChar ++ s) = (utf8Decode s).map (l.flatMap writtenChar ++ ·)
  | [], s => by cases h : utf8Decode s <;> simp [utf8, h]
  | c :: l, s => by
    rw [utf8_cons, List.flatMap_append, List.append_assoc, utf8Decode_writeChar, utf8Decode_flatMap l]
    cases utf8Decode s <;> simp

theorem utf8Decode_writeString (k s : Bytes) (h : IsUtf8 k) :
    utf8Decode (writeString k ++ s) = (utf8Decode s).map (strChars k ++ ·) := by
  obtain ⟨l, rfl⟩ := h
  have hq : (ch '"').toNat < 0x80 := by decide
  rw [writeString, List.cons_append, List.append_assoc, utf8Decode_ascii _ _ hq, utf8Decode_flatMap,
    List.singleton_append, utf8Decode_ascii _ _ hq, strChars, decoded_utf8]
  cases utf8Decode s <;> simp [show cp (ch '"').toNat = cp 34 from rfl]

theorem isNumChar_ascii {b : UInt8} (h : isNumChar b = true) : b.toNat < 0x80 := by
  simp only [isNumChar, JsonText.isDigit, Bool.or_eq_true, Bool.and_eq_true, decide_eq_true_eq] at h
  rcases h with ((((h | rfl) | rfl) | rfl) | rfl) | rfl
  · omega
  all_goals decide

theorem num_ascii (n : Number) : ∀ b ∈ n.text, b.toNat < 0x80 := by
  intro b hb
  rw [text_eq_body] at hb
  rcases List.mem_append.1 hb with hb | hb
  · split at hb
    · rw [List.mem_singleton.1 hb]; decide
    · cases hb
  · exact isNumChar_ascii (isNumChar_body n b hb)

theorem utf8Decode_comma (first : Bool) (s : Bytes) :
    utf8Decode ((if first then [] else [ch ',']) ++ s) = (utf8Decode s).map ((if first then [] else [cp 44]) ++ ·) := by
  cases first with
  | true => cases h : utf8Decode s <;> simp [h]
  | false => exact utf8Decode_asc [ch ','] s (allAscii_mem (by decide))

mutual
/-- **The text of a value with UTF-8 strings decodes.** -/
theorem utf8Decode_write : ∀ (v : Value) (s : Bytes), Utf8Value v →
    utf8Decode (write v ++ s) = (utf8Decode s).map (chars v ++ ·)
  | .null, s, _ => utf8Decode_asc _ s (allAscii_mem (by decide))
  | .bool true, s, _ => utf8Decode_asc _ s (allAscii_mem (by decide))
  | .bool false, s, _ => utf8Decode_asc _ s (allAscii_mem (by decide))
  | .int i, s, _ => utf8Decode_asc _ s (num_ascii _)
  | .double (.finite _ _ _), s, _ => utf8Decode_asc _ s (num_ascii _)
  | .double (.inf _), s, _ => utf8Decode_asc (str "null") s (allAscii_mem (by decide))
  | .double .nan, s, _ => utf8Decode_asc (str "null") s (allAscii_mem (by decide))
  | .string k, s, h => utf8Decode_writeString k s h
  | .array a, s, h => by
    rw [write, chars, List.cons_append, List.append_assoc, utf8Decode_ascii _ _ (by decide), utf8Decode_writeArray true a _ h,
      List.singleton_append, utf8Decode_ascii _ _ (by decide)]
    cases utf8Decode s <;> simp [show cp (ch '[').toNat = cp 91 from rfl, show cp (ch ']').toNat = cp 93 from rfl]
  | .object o, s, h => by
    rw [write, chars, List.cons_append, List.append_assoc, utf8Decode_ascii _ _ (by decide), utf8Decode_writeObject true o _ h,
      List.singleton_append, utf8Decode_ascii _ _ (by decide)]
    cases utf8Decode s <;> simp [show cp (ch '{').toNat = cp 123 from rfl, show cp (ch '}').toNat = cp 125 from rfl]
theorem utf8Decode_writeArray : ∀ (first : Bool) (a : List Value) (s : Bytes), Utf8Array a →
    utf8Decode (writeArray first a ++ s) = (utf8Decode s).map (charsArray first a ++ ·)
  | _, [], s, _ => by cases h : utf8Decode s <;> simp [writeArray, charsArray, h]
  | first, v :: a, s, h => by
    rw [writeArray, charsArray, List.append_assoc, List.append_assoc, utf8Decode_comma, utf8Decode_write v _ h.1,
      utf8Decode_writeArray false a s h.2]
    cases utf8Decode s <;> simp
theorem utf8Decode_writeObject : ∀ (first : Bool) (o : List (Bytes × Value)) (s : Bytes), Utf8Object o →
    utf8Decode (writeObject first o ++ s) = (utf8Decode s).map (charsObject first o ++ ·)
  | _, [], s, _ => by cases h : utf8Decode s <;> simp [writeObject, charsObject, h]
  | first, (k, v) :: o, s, h => by
    rw [writeObject, charsObject, List.append_assoc, List.append_assoc, List.cons_append, List.append_assoc,
      utf8Decode_comma, utf8Decode_writeString k _ h.1, utf8Decode_ascii _ _ (by decide), utf8Decode_write v _ h.2.1,
      utf8Decode_writeObject false o s h.2.2]
    cases utf8Decode s <;> simp [show cp (ch ':').toNat = cp 58 from rfl]
end

/-! ## Strings, scanned -/

theorem scanString_raw (out s : PyStr) (c : CodePoint) (hq : c ≠ cp 34) (hb : c ≠ cp 92) (hc : ¬c.val < 0x20) :
    scanString out (c :: s) = scanString (out ++ [c]) s := by
  rw [PyJson.scanString.eq_def]
  simp only [if_neg hq, if_neg hb, if_neg hc]

theorem scanString_esc (out s : PyStr) {e b : CodePoint} (hu : e ≠ cp 117) (h : PyJson.unescape e = some b) :
    scanString out (cp 92 :: e :: s) = scanString (out ++ [b]) s := by
  rw [PyJson.scanString.eq_def]
  simp only [show cp 92 ≠ cp 34 by decide, if_false, if_true, if_neg hu, h]

theorem scanString_unit (out s : PyStr) {h3 h2 h1 h0 : CodePoint} {u : Nat} (h : PyJson.hexQuad h3 h2 h1 h0 = some u)
    (hu : u < 0xD800) : scanString out (cp 92 :: cp 117 :: h3 :: h2 :: h1 :: h0 :: s) = scanString (out ++ [cp u]) s := by
  have hs : ¬(0xD800 ≤ u ∧ u < 0xDC00) := by omega
  rw [PyJson.scanString.eq_def]
  simp only [show cp 92 ≠ cp 34 by decide, if_false, if_true, h, if_neg hs]

theorem writeChar_plain {n : Nat} (h : n < 0x80) (hq : n ≠ 34) (hb : n ≠ 92) (hc : ¬n < 0x20) :
    writeChar (UInt8.ofNat n) = [UInt8.ofNat n] := by
  have hn : (UInt8.ofNat n).toNat = n := toNat_ofNat_lt (by omega)
  have hne : ∀ b : UInt8, b.toNat ≠ n → UInt8.ofNat n ≠ b := fun b hb e => hb (by rw [← e, hn])
  have hlt : ¬UInt8.ofNat n < 0x20 := by rw [UInt8.lt_iff_toNat_lt, hn]; exact hc
  have hlow : ∀ b : UInt8, b.toNat < 0x20 → UInt8.ofNat n ≠ b := fun b hb => hne b (by omega)
  unfold writeChar
  rw [if_neg (hne (ch '"') (Ne.symm hq)), if_neg (hne (ch '\\') (Ne.symm hb)), if_neg (hlow 10 (by decide)),
    if_neg (hlow 13 (by decide)), if_neg (hlow 9 (by decide)), if_neg (hlow 8 (by decide)), if_neg (hlow 12 (by decide)),
    if_neg hlt]

/-- What `write_string` makes of a character it does not pass on: an escape of one letter, or a unit. -/
theorem asc_writeChar : ∀ n < 0x80, (n = 34 ∨ n = 92 ∨ n < 0x20) →
    (∃ e, asc (writeChar (UInt8.ofNat n)) = [cp 92, e] ∧ e ≠ cp 117 ∧ PyJson.unescape e = some (cp n)) ∨
    (∃ h1 h0, asc (writeChar (UInt8.ofNat n)) = [cp 92, cp 117, cp 48, cp 48, h1, h0] ∧
      PyJson.hexQuad (cp 48) (cp 48) h1 h0 = some n) := by
  intro n _ h
  rcases h with rfl | rfl | h
  · exact Or.inl ⟨cp 34, by decide⟩
  · exact Or.inl ⟨cp 92, by decide⟩
  · interval_cases n
    all_goals first
      | exact Or.inr ⟨_, _, rfl, by decide⟩
      | exact Or.inl ⟨_, rfl, by decide, by decide⟩

theorem scanString_writtenChar (out : PyStr) (c : CodePoint) (s : PyStr) :
    scanString out (writtenChar c ++ s) = scanString (out ++ [c]) s := by
  unfold writtenChar
  by_cases h : c.val < 0x80
  · rw [if_pos h]
    by_cases hs : c.val = 34 ∨ c.val = 92 ∨ c.val < 0x20
    · rcases asc_writeChar c.val h hs with ⟨e, hw, hu, he⟩ | ⟨h1, h0, hw, he⟩
      · rw [hw, List.cons_append, List.singleton_append, scanString_esc out s hu he, cp_val]
      · rw [hw]
        simp only [List.cons_append, List.nil_append]
        rw [scanString_unit out s he (by omega), cp_val]
    · rw [not_or, not_or] at hs
      have e : (UInt8.ofNat c.val).toNat = c.val := toNat_ofNat_lt (by omega)
      rw [writeChar_plain h hs.1 hs.2.1 hs.2.2, asc, List.map_singleton, e, cp_val, List.singleton_append,
        scanString_raw out s c (fun e => hs.1 (by rw [e]; rfl)) (fun e => hs.2.1 (by rw [e]; rfl)) hs.2.2]
  · rw [if_neg h, List.singleton_append, scanString_raw out s c (fun e => h (by rw [e]; decide))
      (fun e => h (by rw [e]; decide)) (by omega)]

/-- **The scanner reads a written string back, to its closing quote.** -/
theorem scanString_written : ∀ (l out s : PyStr),
    scanString out (l.flatMap writtenChar ++ cp 34 :: s) = some (out ++ l, s)
  | [], out, s => by
    rw [PyJson.scanString.eq_def]
    simp
  | c :: l, out, s => by
    rw [List.flatMap_cons, List.append_assoc, scanString_writtenChar, scanString_written l]
    simp

/-! ## Numbers, scanned -/

/-- What follows does not go on with a number. -/
def NumStop (r : PyStr) : Prop := ∀ c ∈ r.head?, PyJson.isDigit c = false ∧ c ≠ cp 46 ∧ c ≠ cp 101 ∧ c ≠ cp 69

def digitCp (d : Digit) : CodePoint := cp (digitByte d).toNat

theorem asc_digits (ds : List Digit) : asc (ds.map digitByte) = ds.map digitCp := List.map_map

theorem asc_append (a b : Bytes) : asc (a ++ b) = asc a ++ asc b := List.map_append

theorem isDigit_digitCp (d : Digit) : PyJson.isDigit (digitCp d) = true := by revert d; decide

theorem digitOf_digitCp (d : Digit) : PyJson.digitOf (digitCp d) = d := by revert d; decide

/-- What follows is no digit. -/
def DigitStop (r : PyStr) : Prop := ∀ c ∈ r.head?, PyJson.isDigit c = false

theorem scanDigits_digits (ds : List Digit) (r : PyStr) (hr : DigitStop r) : scanDigits (ds.map digitCp ++ r) = (ds, r) := by
  have hd : ∀ c ∈ ds.map digitCp, PyJson.isDigit c = true := by
    intro c hc
    obtain ⟨d, -, rfl⟩ := List.mem_map.1 hc
    exact isDigit_digitCp d
  have ht : r.takeWhile PyJson.isDigit = [] := by
    cases r with
    | nil => rfl
    | cons c r => rw [List.takeWhile_cons_of_neg (by simp [hr c rfl])]
  have hw : r.dropWhile PyJson.isDigit = r := by
    cases r with
    | nil => rfl
    | cons c r => rw [List.dropWhile_cons_of_neg (by simp [hr c rfl])]
  rw [scanDigits, List.takeWhile_append_of_pos hd, List.dropWhile_append_of_pos hd, ht, hw, List.append_nil, List.map_map]
  exact congrArg (·, r) (List.map_id'' digitOf_digitCp ds)

theorem scanInt_int (ds : List Digit) (h : IntPart ds) (r : PyStr) (hr : DigitStop r) :
    scanInt (ds.map digitCp ++ r) = some (⟨ds, h⟩, r) := by
  rcases id h with rfl | ⟨d, l, rfl, hd⟩
  · simp only [List.map_cons, List.map_nil, List.cons_append, List.nil_append, scanInt, isDigit_digitCp, digitOf_digitCp,
      if_true, dite_true]
  · simp only [List.map_cons, List.cons_append, scanInt, isDigit_digitCp, digitOf_digitCp, if_true, dif_neg hd,
      scanDigits_digits l r hr]

theorem scanFrac_frac (ds : List Digit) (r : PyStr) (hr : DigitStop r) (hp : ∀ c ∈ r.head?, c ≠ cp 46) :
    scanFrac (asc (fracText ds) ++ r) = (ds, r) := by
  unfold fracText
  split
  · rename_i h; subst h
    cases r with
    | nil => rfl
    | cons c r => exact if_neg (fun h => hp c rfl h.1)
  · rename_i h
    have hd := scanDigits_digits ds r hr
    have ha : asc (ch '.' :: ds.map digitByte) = cp 46 :: ds.map digitCp := congrArg (cp 46 :: ·) (asc_digits ds)
    rw [ha, List.cons_append, scanFrac, hd, if_pos ⟨rfl, h⟩]

theorem digitCp_not_sign (d : Digit) : digitCp d ≠ cp 45 ∧ digitCp d ≠ cp 43 := by revert d; decide

theorem scanSign_digit (d : Digit) (s : PyStr) : scanSign (digitCp d :: s) = (none, digitCp d :: s) := by
  rw [scanSign, if_neg (digitCp_not_sign d).1, if_neg (digitCp_not_sign d).2]

def signBytes : Option Bool → Bytes
  | none => []
  | some true => [ch '-']
  | some false => [ch '+']

theorem scanSign_sign (sign : Option Bool) (d : Digit) (s : PyStr) :
    scanSign (asc (signBytes sign) ++ digitCp d :: s) = (sign, digitCp d :: s) := by
  cases sign with
  | none => exact scanSign_digit d s
  | some b => cases b <;> rfl

theorem asc_exponent (e : Exponent) :
    asc e.text = (if e.upper then cp 69 else cp 101) :: (asc (signBytes e.sign) ++ e.digits.map digitCp) := by
  have hs : e.text = (if e.upper then ch 'E' else ch 'e') :: (signBytes e.sign ++ e.digits.map digitByte) := by
    rw [Exponent.text]
    rcases e.sign with _ | _ | _ <;> rfl
  rw [hs, ← asc_digits, ← asc_append]
  cases e.upper <;> rfl

theorem scanExp_exp (e : Option Exponent) (r : PyStr) (hr : NumStop r) : scanExp (asc (expText e) ++ r) = (e, r) := by
  cases e with
  | none =>
    cases r with
    | nil => rfl
    | cons c r => exact if_neg (fun h => h.elim (hr c rfl).2.2.1 (hr c rfl).2.2.2)
  | some e =>
    have hd := scanDigits_digits e.digits r (fun c hc => (hr c hc).1)
    have hsign : scanSign (asc (signBytes e.sign) ++ (e.digits.map digitCp ++ r)) = (e.sign, e.digits.map digitCp ++ r) := by
      obtain ⟨d, l, he⟩ := List.exists_cons_of_ne_nil e.digits_ne
      rw [he, List.map_cons, List.cons_append, scanSign_sign]
    have hu : (if e.upper then cp 69 else cp 101) = cp 101 ∨ (if e.upper then cp 69 else cp 101) = cp 69 := by
      cases e.upper <;> simp
    have hup : decide ((if e.upper then cp 69 else cp 101) = cp 69) = e.upper := by cases e.upper <;> decide
    have hne : (scanDigits (scanSign (asc (signBytes e.sign) ++ (e.digits.map digitCp ++ r))).2).1 ≠ [] := by
      rw [hsign, hd]; exact e.digits_ne
    rw [expText, asc_exponent, List.cons_append, List.append_assoc, scanExp, if_pos hu, dif_neg hne]
    simp only [hsign, hd, hup]

/-- What a number's scan depends on in the text after its integer part. -/
theorem digitStop_frac (ds : List Digit) (r : PyStr) (hr : DigitStop r) : DigitStop (asc (fracText ds) ++ r) := by
  unfold fracText
  split
  · exact hr
  · rintro c ⟨⟩; decide

theorem digitStop_exp (e : Option Exponent) (r : PyStr) (hr : NumStop r) : DigitStop (asc (expText e) ++ r) := by
  cases e with
  | none => exact fun c hc => (hr c hc).1
  | some e =>
    rw [expText, asc_exponent]
    rintro c ⟨⟩
    cases e.upper <;> decide

theorem noPoint_exp (e : Option Exponent) (r : PyStr) (hr : NumStop r) :
    ∀ c ∈ (asc (expText e) ++ r).head?, c ≠ cp 46 := by
  cases e with
  | none => exact fun c hc => (hr c hc).2.1
  | some e =>
    rw [expText, asc_exponent]
    rintro c ⟨⟩
    cases e.upper <;> decide

/-- **A number is scanned to its end and read whole.** -/
theorem scanNumber_num (n : Number) (r : PyStr) (hr : NumStop r) : scanNumber (asc n.text ++ r) = some (ofNum n, r) := by
  have he := scanExp_exp n.exp r hr
  have hf := scanFrac_frac n.frac (asc (expText n.exp) ++ r) (digitStop_exp n.exp r hr) (noPoint_exp n.exp r hr)
  have hi := scanInt_int n.int n.int_ok _ (digitStop_frac n.frac _ (digitStop_exp n.exp r hr))
  obtain ⟨d, l, hd⟩ := List.exists_cons_of_ne_nil n.int_ok.ne_nil
  have hne : digitCp d ≠ cp 45 := (digitCp_not_sign d).1
  have ht : asc n.text ++ r = (if n.neg then [cp 45] else []) ++
      (n.int.map digitCp ++ (asc (fracText n.frac) ++ (asc (expText n.exp) ++ r))) := by
    rw [← asc_digits, Number.text]
    cases n.neg <;> simp [asc, show cp (ch '-').toNat = cp 45 from rfl]
  rw [ht]
  obtain ⟨neg, int, ok, frac, exp⟩ := n
  cases neg with
  | true =>
    simp only [scanNumber, if_true, List.singleton_append, List.head?_cons, decide_true, List.tail_cons, hi, hf, he]
  | false =>
    have hh : decide ((int.map digitCp ++ (asc (fracText frac) ++ (asc (expText exp) ++ r))).head? = some (cp 45))
        = false := by
      rw [show int = d :: l from hd]; simpa using hne
    simp only [scanNumber, Bool.false_eq_true, if_false, List.nil_append, hh, hi, hf, he]

/-! ## Values, scanned -/

mutual
/-- The client's value of a reply. -/
def toPy : Value → PyJson
  | .null => .null
  | .bool b => .bool b
  | .int i => .int i.toInt
  | .double (.finite neg m e) => ofNum (fmt10g neg m e)
  | .double _ => .null
  | .string s => .str (decoded s)
  | .array a => .list (toPyArray a)
  | .object o => .dict (toPyObject [] o)
def toPyArray : List Value → List PyJson
  | [] => []
  | v :: a => toPy v :: toPyArray a
def toPyObject (d : PyDict) : List (Bytes × Value) → PyDict
  | [] => d
  | (k, v) :: o => toPyObject (dictSet d (decoded k) (toPy v)) o
end

theorem ofNum_ofInt (i : Int) : ofNum (.ofInt i) = .int i := by
  have h : ¬(Number.ofInt i).isInt = false := by rw [Number.isInt_ofInt]; decide
  rw [ofNum, dif_neg h, Number.toInt_ofInt]

theorem keyword_py (w : String) (r : PyStr) : PyJson.keyword w (py w ++ r) = some r := by simp [PyJson.keyword]

theorem keyword_head {w : String} {a c : CodePoint} {l : PyStr} (s : PyStr) (hw : py w = a :: l) (h : c ≠ a) :
    PyJson.keyword w (c :: s) = none := by
  simp [PyJson.keyword, hw, h]

theorem skipWs_cp {c : CodePoint} (s : PyStr) (h : PyJson.isWs c = false) : PyJson.skipWs (c :: s) = c :: s := by
  unfold PyJson.skipWs; rw [List.dropWhile_cons_of_neg (by simp [h])]

theorem digitCp_head : ∀ d : Digit, PyJson.isWs (digitCp d) = false ∧ digitCp d ≠ cp 93 ∧ digitCp d ≠ cp 34 ∧
    digitCp d ≠ cp 123 ∧ digitCp d ≠ cp 91 ∧ digitCp d ≠ cp 110 ∧ digitCp d ≠ cp 116 ∧ digitCp d ≠ cp 102 ∧
    digitCp d ≠ cp 78 ∧ digitCp d ≠ cp 73 ∧ digitCp d ≠ cp 45 := by decide

/-- A number starts with a digit, or with a minus sign and a digit. -/
theorem asc_num_head (n : Number) : (∃ d s, asc n.text = digitCp d :: s) ∨ (∃ d s, asc n.text = cp 45 :: digitCp d :: s) := by
  obtain ⟨d, l, e⟩ := bodyText_head n
  rw [text_eq_body, e]
  cases n.neg with
  | false => exact Or.inl ⟨d, asc l, rfl⟩
  | true => exact Or.inr ⟨d, asc l, rfl⟩

theorem scanOnce_num (n : Nat) (num : Number) (r : PyStr) (hr : NumStop r) :
    scanOnce (n + 1) (asc num.text ++ r) = some (ofNum num, r) := by
  have hs := scanNumber_num num r hr
  rcases asc_num_head num with ⟨d, s, e⟩ | ⟨d, s, e⟩
  · obtain ⟨-, -, h1, h2, h3, h4, h5, h6, h7, h8, h9⟩ := digitCp_head d
    rw [e, List.cons_append] at hs ⊢
    simp only [scanOnce, if_neg h1, if_neg h2, if_neg h3, if_neg h4, if_neg h5, if_neg h6,
      keyword_head (w := "NaN") _ rfl h7, keyword_head (w := "Infinity") _ rfl h8,
      keyword_head (w := "-Infinity") _ rfl h9, hs]
  · obtain ⟨-, -, -, -, -, -, -, -, -, h8, -⟩ := digitCp_head d
    have hk : PyJson.keyword "-Infinity" (cp 45 :: digitCp d :: (s ++ r)) = none := by
      simp [PyJson.keyword, show py "-Infinity" = cp 45 :: cp 73 :: py "nfinity" by decide, h8]
    rw [e, List.cons_append, List.cons_append] at hs ⊢
    simp only [scanOnce, show cp 45 ≠ cp 34 by decide, show cp 45 ≠ cp 123 by decide, show cp 45 ≠ cp 91 by decide,
      show cp 45 ≠ cp 110 by decide, show cp 45 ≠ cp 116 by decide, show cp 45 ≠ cp 102 by decide, if_false,
      keyword_head (w := "NaN") _ rfl (show cp 45 ≠ cp 78 by decide),
      keyword_head (w := "Infinity") _ rfl (show cp 45 ≠ cp 73 by decide), hk, hs]

/-- No value starts with whitespace or with the end of an array. -/
theorem chars_head (v : Value) : ∃ c s, chars v = c :: s ∧ PyJson.isWs c = false ∧ c ≠ cp 93 := by
  have hnum : ∀ n : Number, ∃ c s, asc n.text = c :: s ∧ PyJson.isWs c = false ∧ c ≠ cp 93 := by
    intro n
    rcases asc_num_head n with ⟨d, s, e⟩ | ⟨d, s, e⟩
    · exact ⟨_, _, e, (digitCp_head d).1, (digitCp_head d).2.1⟩
    · exact ⟨_, _, e, by decide⟩
  cases v with
  | null => exact ⟨cp 110, py "ull", rfl, by decide⟩
  | bool b =>
    cases b
    · exact ⟨cp 102, py "alse", rfl, by decide⟩
    · exact ⟨cp 116, py "rue", rfl, by decide⟩
  | int i => exact hnum _
  | double d =>
    cases d with
    | finite neg m e => exact hnum _
    | inf neg => exact ⟨cp 110, py "ull", rfl, by decide⟩
    | nan => exact ⟨cp 110, py "ull", rfl, by decide⟩
  | string s => exact ⟨cp 34, _, by rw [chars, strChars], by decide⟩
  | array a => exact ⟨cp 91, _, by rw [chars], by decide⟩
  | object o => exact ⟨cp 123, _, by rw [chars], by decide⟩

theorem numStop_cons {c : CodePoint} (r : PyStr)
    (h : PyJson.isDigit c = false ∧ c ≠ cp 46 ∧ c ≠ cp 101 ∧ c ≠ cp 69) : NumStop (c :: r) := by
  rintro c' ⟨⟩; exact h

theorem scanOnce_null (n : Nat) (r : PyStr) : scanOnce (n + 1) (asc (str "null") ++ r) = some (.null, r) :=
  congrArg (Option.map (fun r => (PyJson.null, r))) (keyword_py "null" r)

theorem scanOnce_true (n : Nat) (r : PyStr) : scanOnce (n + 1) (asc (str "true") ++ r) = some (.bool true, r) :=
  congrArg (Option.map (fun r => (PyJson.bool true, r))) (keyword_py "true" r)

theorem scanOnce_false (n : Nat) (r : PyStr) : scanOnce (n + 1) (asc (str "false") ++ r) = some (.bool false, r) :=
  congrArg (Option.map (fun r => (PyJson.bool false, r))) (keyword_py "false" r)

mutual
/-- **The scanner reads the text of a value to its end.** -/
theorem scanOnce_chars : ∀ (v : Value) (n : Nat) (r : PyStr), (chars v).length ≤ n → NumStop r →
    scanOnce n (chars v ++ r) = some (toPy v, r)
  | v, 0, _, h, _ => by
    obtain ⟨c, s, e, -⟩ := chars_head v
    rw [e, List.length_cons] at h; omega
  | .null, n + 1, r, _, _ => scanOnce_null n r
  | .bool true, n + 1, r, _, _ => scanOnce_true n r
  | .bool false, n + 1, r, _, _ => scanOnce_false n r
  | .int i, n + 1, r, _, hr => by rw [chars, writeInt, scanOnce_num n _ r hr, ofNum_ofInt, toPy]
  | .double (.finite neg m e), n + 1, r, _, hr => by rw [chars, writeDouble, scanOnce_num n _ r hr, toPy]
  | .double (.inf _), n + 1, r, _, _ => scanOnce_null n r
  | .double .nan, n + 1, r, _, _ => scanOnce_null n r
  | .string s, n + 1, r, _, _ => by
    have h := scanString_written (decoded s) [] r
    rw [chars, strChars, List.cons_append, List.append_assoc, List.singleton_append, scanOnce, if_pos rfl, h]
    rfl
  | .array [], n + 1, r, _, _ => by
    simp [chars, charsArray, scanOnce, toPy, toPyArray, skipWs_cp (c := cp 93) _ (by decide),
      show cp 91 ≠ cp 34 by decide, show cp 91 ≠ cp 123 by decide]
  | .array (v :: a), n + 1, r, h, _ => by
    simp only [chars, List.length_cons, List.length_append, List.length_nil] at h
    have hl := scanArray_chars (v :: a) n [] r (List.cons_ne_nil v a) (by omega)
    obtain ⟨c, s, e, hw, hc⟩ := chars_head v
    have ha : charsArray true (v :: a) ++ cp 93 :: r = c :: (s ++ (charsArray false a ++ cp 93 :: r)) := by
      rw [charsArray, e]; simp
    rw [chars, List.cons_append, List.append_assoc, List.singleton_append]
    rw [ha] at hl ⊢
    simp only [scanOnce, show cp 91 ≠ cp 34 by decide, show cp 91 ≠ cp 123 by decide, if_false, if_true,
      skipWs_cp _ hw, if_neg hc, hl, toPy, List.nil_append]
  | .object [], n + 1, r, _, _ => by
    simp [chars, charsObject, scanOnce, toPy, toPyObject, skipWs_cp (c := cp 125) _ (by decide),
      show cp 123 ≠ cp 34 by decide]
  | .object ((k, v) :: o), n + 1, r, h, _ => by
    simp only [chars, List.length_cons, List.length_append, List.length_nil] at h
    have hl := scanObject_chars ((k, v) :: o) n [] r (List.cons_ne_nil _ o) (by omega)
    have ha : charsObject true ((k, v) :: o) ++ cp 125 :: r
        = cp 34 :: ((decoded k).flatMap writtenChar ++ cp 34 :: cp 58 :: (chars v ++ (charsObject false o ++ cp 125 :: r))) := by
      rw [charsObject, strChars]; simp
    rw [chars, List.cons_append, List.append_assoc, List.singleton_append]
    rw [ha] at hl ⊢
    simp only [scanOnce, show cp 123 ≠ cp 34 by decide, if_false, if_true, skipWs_cp (c := cp 34) _ (by decide),
      show cp 34 ≠ cp 125 by decide, hl, toPy]
theorem scanArray_chars : ∀ (a : List Value) (n : Nat) (out : List PyJson) (r : PyStr), a ≠ [] →
    (charsArray true a).length + 1 ≤ n →
    scanArray n out (charsArray true a ++ cp 93 :: r) = some (.list (out ++ toPyArray a), r)
  | [], _, _, _, h, _ => absurd rfl h
  | _ :: _, 0, _, _, _, h => by omega
  | [v], n + 1, out, r, _, h => by
    simp only [charsArray, if_true, List.nil_append, List.append_nil] at h
    have hv := scanOnce_chars v n (cp 93 :: r) (by omega) (numStop_cons r (by decide))
    simp only [charsArray, if_true, List.nil_append, List.append_nil, scanArray, hv,
      skipWs_cp (c := cp 93) _ (by decide), toPyArray]
  | v :: w :: a, n + 1, out, r, _, h => by
    obtain ⟨c, s, e, hw, hc⟩ := chars_head w
    obtain ⟨c0, s0, e0, -, -⟩ := chars_head v
    have ht : charsArray true (v :: w :: a) ++ cp 93 :: r = chars v ++ (cp 44 :: (charsArray true (w :: a) ++ cp 93 :: r)) := by
      simp [charsArray]
    have hlen : (charsArray true (v :: w :: a)).length = (chars v).length + 1 + (charsArray true (w :: a)).length := by
      simp [charsArray]; omega
    have hv := scanOnce_chars v n (cp 44 :: (charsArray true (w :: a) ++ cp 93 :: r)) (by omega)
      (numStop_cons _ (by decide))
    have h0 : 0 < (chars v).length := by rw [e0]; simp
    have hl := scanArray_chars (w :: a) n (out ++ [toPy v]) r (List.cons_ne_nil w a) (by omega)
    have hsk : PyJson.skipWs (charsArray true (w :: a) ++ cp 93 :: r) = charsArray true (w :: a) ++ cp 93 :: r := by
      rw [charsArray, e]; simp [skipWs_cp _ hw]
    rw [ht]
    simp only [scanArray, hv, skipWs_cp (c := cp 44) _ (by decide), show cp 44 ≠ cp 93 by decide, if_false, if_true, hsk, hl,
      toPyArray, List.append_assoc, List.singleton_append]
theorem scanObject_chars : ∀ (o : List (Bytes × Value)) (n : Nat) (out : PyDict) (r : PyStr), o ≠ [] →
    (charsObject true o).length + 1 ≤ n →
    scanObject n out (charsObject true o ++ cp 125 :: r) = some (.dict (toPyObject out o), r)
  | [], _, _, _, h, _ => absurd rfl h
  | _ :: _, 0, _, _, _, h => by omega
  | [(k, v)], n + 1, out, r, _, h => by
    have ht : charsObject true [(k, v)] ++ cp 125 :: r
        = cp 34 :: ((decoded k).flatMap writtenChar ++ cp 34 :: cp 58 :: (chars v ++ cp 125 :: r)) := by
      simp [charsObject, strChars]
    have hlen : (chars v).length ≤ (charsObject true [(k, v)]).length := by simp [charsObject]; omega
    have hk := scanString_written (decoded k) [] (cp 58 :: (chars v ++ cp 125 :: r))
    have hv := scanOnce_chars v n (cp 125 :: r) (by omega) (numStop_cons r (by decide))
    obtain ⟨c, s, e, hw, -⟩ := chars_head v
    have hsk : PyJson.skipWs (chars v ++ cp 125 :: r) = chars v ++ cp 125 :: r := by
      rw [e]; exact skipWs_cp _ hw
    rw [ht]
    simp only [scanObject, if_true, hk, skipWs_cp (c := cp 58) _ (by decide), hsk, hv,
      skipWs_cp (c := cp 125) _ (by decide), toPyObject, List.nil_append]
  | (k, v) :: (k', w) :: o, n + 1, out, r, _, h => by
    have ht : charsObject true ((k, v) :: (k', w) :: o) ++ cp 125 :: r
        = cp 34 :: ((decoded k).flatMap writtenChar ++ cp 34 :: cp 58 ::
          (chars v ++ cp 44 :: (charsObject true ((k', w) :: o) ++ cp 125 :: r))) := by
      simp [charsObject, strChars]
    have hlen : (chars v).length + 1 + (charsObject true ((k', w) :: o)).length
        ≤ (charsObject true ((k, v) :: (k', w) :: o)).length := by
      simp [charsObject, strChars]; omega
    have hk := scanString_written (decoded k) [] (cp 58 :: (chars v ++ cp 44 :: (charsObject true ((k', w) :: o) ++ cp 125 :: r)))
    have hv := scanOnce_chars v n (cp 44 :: (charsObject true ((k', w) :: o) ++ cp 125 :: r)) (by omega)
      (numStop_cons _ (by decide))
    have hl := scanObject_chars ((k', w) :: o) n (dictSet out (decoded k) (toPy v)) r (List.cons_ne_nil _ o) (by omega)
    obtain ⟨c, s, e, hw, -⟩ := chars_head v
    have hsk : ∀ t, PyJson.skipWs (chars v ++ t) = chars v ++ t := fun t => by
      rw [e]; exact skipWs_cp _ hw
    have hsk' : PyJson.skipWs (charsObject true ((k', w) :: o) ++ cp 125 :: r) = charsObject true ((k', w) :: o) ++ cp 125 :: r := by
      rw [charsObject, strChars]; exact skipWs_cp _ (by decide)
    rw [ht]
    simp only [scanObject, if_true, hk, skipWs_cp (c := cp 58) _ (by decide), hsk, hv,
      skipWs_cp (c := cp 44) _ (by decide), show cp 44 ≠ cp 125 by decide, if_false, hsk', hl, toPyObject, List.nil_append]
end

/-- **The client reads back what the agent dumps, when every string in it is UTF-8.** -/
theorem loads_dump (v : Value) (h : Utf8Value v) : PyJson.loads (dump v) = some (toPy v) := by
  have hd : utf8Decode (dump v) = some (chars v) := by
    have := utf8Decode_write v [] h
    rw [List.append_nil] at this
    rw [dump, this]; simp [utf8Decode]
  obtain ⟨c, s, e, hw, -⟩ := chars_head v
  have hsk : PyJson.skipWs (chars v) = chars v := by rw [e]; exact skipWs_cp s hw
  have hs := scanOnce_chars v (2 * (chars v).length + 2) [] (by omega) (by rintro c ⟨⟩)
  rw [List.append_nil] at hs
  simp only [PyJson.loads, hd, hsk, hs]
  rfl

end Json
end SwitchMcp

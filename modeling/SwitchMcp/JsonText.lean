import SwitchMcp.Bytes
/-!
# JsonText — JSON texts by their syntax (RFC 8259)

A JSON text as a tree that keeps what the text keeps: every gap of whitespace, every escape as it was written, every
number digit by digit.  `Tree.text` is its text, so that a writer is shown to write JSON by giving the tree of what it
writes, and a reader is shown to read JSON by reading the text of any tree.  A number cannot be built with a leading
zero or an empty exponent, nor a raw string byte that is a quote or a backslash.  Nothing here names a program.
-/
namespace SwitchMcp
namespace JsonText

/-! ## Digits -/

abbrev Digit := Fin 10

instance neZero_ten : NeZero 10 := ⟨by decide⟩

def digitByte (d : Digit) : UInt8 := UInt8.ofNat (48 + d.val)

def isDigit (b : UInt8) : Bool := decide (48 ≤ b.toNat) && decide (b.toNat ≤ 57)

/-- The number a run of decimal digits denotes. -/
def digitsVal (ds : List Digit) : Nat := ds.foldl (fun n d => 10 * n + d.val) 0

/-- The decimal digits of a number, without a leading zero. -/
def decimal (n : Nat) : List Digit :=
  if n = 0 then [0] else (Nat.digits 10 n).reverse.map (fun d => Fin.ofNat 10 d)

theorem toNat_digitByte (d : Digit) : (digitByte d).toNat = 48 + d.val := by
  have := d.isLt
  rw [digitByte, UInt8.toNat_ofNat']; omega

theorem isDigit_digitByte (d : Digit) : isDigit (digitByte d) = true := by
  have := d.isLt
  simp only [isDigit, toNat_digitByte, Bool.and_eq_true, decide_eq_true_eq]; omega

theorem foldr_ofNat_digits : ∀ (L : List Nat), (∀ d ∈ L, d < 10) →
    L.foldr (fun d n => 10 * n + (Fin.ofNat 10 d).val) 0 = Nat.ofDigits 10 L
  | [], _ => by simp
  | d :: L, h => by
    have hd : d < 10 := h d (by simp)
    rw [List.foldr_cons, Nat.ofDigits_cons, foldr_ofNat_digits L (fun x hx => h x (by simp [hx]))]
    have e : (Fin.ofNat 10 d).val = d := Nat.mod_eq_of_lt hd
    rw [e]; omega

/-- **The decimal digits of a number denote it.** -/
theorem digitsVal_decimal (n : Nat) : digitsVal (decimal n) = n := by
  unfold digitsVal decimal
  split
  · rename_i h; subst h; rfl
  · rw [List.foldl_map, List.foldl_reverse,
      foldr_ofNat_digits _ (fun d hd => Nat.digits_lt_base (by omega) hd), Nat.ofDigits_digits]

/-- An integer part: zero alone, or digits that start with another one. -/
def IntPart (ds : List Digit) : Prop := ds = [0] ∨ ∃ d l, ds = d :: l ∧ d ≠ 0

theorem decimal_intPart (n : Nat) : IntPart (decimal n) := by
  unfold decimal IntPart
  split
  · exact Or.inl rfl
  · rename_i h
    right
    have hne : Nat.digits 10 n ≠ [] := Nat.digits_ne_nil_iff_ne_zero.2 h
    obtain ⟨l, d, e⟩ := List.eq_nil_or_concat (Nat.digits 10 n) |>.resolve_left hne
    rw [List.concat_eq_append] at e
    have hlast := Nat.getLast_digit_ne_zero 10 h
    simp only [e, List.getLast_append_singleton] at hlast
    have hlt : d < 10 := Nat.digits_lt_base (by omega : 1 < 10) (by rw [e]; simp : d ∈ Nat.digits 10 n)
    refine ⟨Fin.ofNat 10 d, l.reverse.map (fun d => Fin.ofNat 10 d), by rw [e]; simp, fun h0 => ?_⟩
    have := congrArg Fin.val h0
    rw [Fin.val_ofNat, Nat.mod_eq_of_lt hlt] at this
    exact hlast this

theorem length_decimal {n k : Nat} (hk : 0 < k) (h : n < 10 ^ k) : (decimal n).length ≤ k := by
  unfold decimal
  split
  · exact hk
  · rw [List.length_map, List.length_reverse]
    exact (Nat.digits_length_le_iff (by omega) n).2 h

theorem intPart_zero : IntPart [0] := Or.inl rfl

theorem IntPart.ne_nil {ds : List Digit} (h : IntPart ds) : ds ≠ [] := by
  rcases h with rfl | ⟨d, l, rfl, -⟩ <;> simp

/-! ## Numbers -/

structure Exponent where
  upper : Bool
  sign : Option Bool
  digits : List Digit
  digits_ne : digits ≠ []
deriving DecidableEq

/-- A number as it is written; without a fraction `frac` is empty. -/
structure Number where
  neg : Bool
  int : List Digit
  int_ok : IntPart int
  frac : List Digit
  exp : Option Exponent
deriving DecidableEq

/-- `sign` is `some true` for a minus sign. -/
def Exponent.text (e : Exponent) : Bytes :=
  (if e.upper then ch 'E' else ch 'e') ::
    ((match e.sign with | none => [] | some true => [ch '-'] | some false => [ch '+']) ++ e.digits.map digitByte)

def fracText (frac : List Digit) : Bytes := if frac = [] then [] else ch '.' :: frac.map digitByte

def expText : Option Exponent → Bytes
  | none => []
  | some e => e.text

def Number.text (n : Number) : Bytes :=
  (if n.neg then [ch '-'] else []) ++ n.int.map digitByte ++ fracText n.frac ++ expText n.exp

/-- Neither a fraction nor an exponent. -/
def Number.isInt (n : Number) : Bool := n.frac.isEmpty && n.exp.isNone

def Number.toInt (n : Number) : Int := if n.neg then -(digitsVal n.int : Int) else digitsVal n.int

def Number.ofInt (i : Int) : Number := ⟨decide (i < 0), decimal i.natAbs, decimal_intPart _, [], none⟩

theorem Number.isInt_ofInt (i : Int) : (Number.ofInt i).isInt = true := rfl

@[simp] theorem Number.toInt_ofInt (i : Int) : (Number.ofInt i).toInt = i := by
  unfold Number.toInt Number.ofInt
  simp only [digitsVal_decimal, decide_eq_true_eq]
  split <;> omega

theorem Number.text_ofInt (i : Int) :
    (Number.ofInt i).text = (if i < 0 then [ch '-'] else []) ++ (decimal i.natAbs).map digitByte := by
  simp [Number.text, Number.ofInt, fracText, expText]

theorem Number.length_text_ofInt {i : Int} {k : Nat} (hk : 0 < k) (h : i.natAbs < 10 ^ k) :
    (Number.ofInt i).text.length ≤ k + 1 := by
  have hd := length_decimal hk h
  rw [Number.text_ofInt, List.length_append, List.length_map]
  split
  · rw [List.length_singleton]
    omega
  · rw [List.length_nil]
    omega

/-! ## Strings -/

/-- The escapes of one letter. -/
inductive Esc
  | quote | backslash | slash | b | f | n | r | t
deriving DecidableEq

def Esc.letter : Esc → UInt8
  | .quote => ch '"'
  | .backslash => ch '\\'
  | .slash => ch '/'
  | .b => ch 'b'
  | .f => ch 'f'
  | .n => ch 'n'
  | .r => ch 'r'
  | .t => ch 't'

/-- The character an escape stands for. -/
def Esc.byte : Esc → UInt8
  | .quote => ch '"'
  | .backslash => ch '\\'
  | .slash => ch '/'
  | .b => 8
  | .f => 12
  | .n => 10
  | .r => 13
  | .t => 9

/-- A hexadecimal digit and whether it is written in upper case. -/
structure HexDigit where
  val : Fin 16
  upper : Bool
deriving DecidableEq

def HexDigit.byte (h : HexDigit) : UInt8 :=
  if h.val.val < 10 then UInt8.ofNat (48 + h.val.val)
  else if h.upper then UInt8.ofNat (55 + h.val.val) else UInt8.ofNat (87 + h.val.val)

/-- One character of a string: as itself, as an escape, or as a `\u` unit of four digits. -/
inductive Item
  | raw (b : UInt8) (ok : b ≠ ch '"' ∧ b ≠ ch '\\')
  | esc (e : Esc)
  | unit (h3 h2 h1 h0 : HexDigit)
deriving DecidableEq

def Item.text : Item → Bytes
  | .raw b _ => [b]
  | .esc e => [ch '\\', e.letter]
  | .unit h3 h2 h1 h0 => [ch '\\', ch 'u', h3.byte, h2.byte, h1.byte, h0.byte]

/-- The value of four hexadecimal digits. -/
def hexVal (h3 h2 h1 h0 : HexDigit) : Nat := ((h3.val.val * 16 + h2.val.val) * 16 + h1.val.val) * 16 + h0.val.val

def lowHex (n : Nat) : HexDigit := ⟨Fin.ofNat 16 n, false⟩

/-- A unit below 2^16 as `%04x` writes it. -/
def Item.ofUnit (u : Nat) : Item := .unit (lowHex (u / 4096)) (lowHex (u / 256)) (lowHex (u / 16)) (lowHex u)

theorem hexVal_ofUnit (u : Nat) (h : u < 65536) :
    hexVal (lowHex (u / 4096)) (lowHex (u / 256)) (lowHex (u / 16)) (lowHex u) = u := by
  simp only [hexVal, lowHex, Fin.val_ofNat]; omega

def strText (s : List Item) : Bytes := ch '"' :: (s.flatMap Item.text ++ [ch '"'])

/-! ## Texts -/

inductive Ws
  | space | tab | lf | cr
deriving DecidableEq

def Ws.byte : Ws → UInt8
  | .space => ch ' '
  | .tab => 9
  | .lf => 10
  | .cr => 13

/-- A gap between tokens. -/
abbrev Gap := List Ws

def gapText (g : Gap) : Bytes := g.map Ws.byte

mutual
/-- A JSON value as it is written. -/
inductive Tree
  | null
  | bool (b : Bool)
  | num (n : Number)
  | str (s : List Item)
  | arr0 (g : Gap)
  | arr (es : Elems)
  | obj0 (g : Gap)
  | obj (ms : Members)
/-- The elements of an array that has some. -/
inductive Elems
  | last (g : Gap) (v : Tree) (g' : Gap)
  | cons (g : Gap) (v : Tree) (g' : Gap) (es : Elems)
/-- The members of an object that has some. -/
inductive Members
  | last (g : Gap) (k : List Item) (g1 g2 : Gap) (v : Tree) (g' : Gap)
  | cons (g : Gap) (k : List Item) (g1 g2 : Gap) (v : Tree) (g' : Gap) (ms : Members)
end

mutual
def Tree.text : Tree → Bytes
  | .null => SwitchMcp.str "null"
  | .bool b => if b then SwitchMcp.str "true" else SwitchMcp.str "false"
  | .num n => n.text
  | .str s => strText s
  | .arr0 g => ch '[' :: (gapText g ++ [ch ']'])
  | .arr es => ch '[' :: (es.text ++ [ch ']'])
  | .obj0 g => ch '{' :: (gapText g ++ [ch '}'])
  | .obj ms => ch '{' :: (ms.text ++ [ch '}'])
def Elems.text : Elems → Bytes
  | .last g v g' => gapText g ++ (v.text ++ gapText g')
  | .cons g v g' es => gapText g ++ (v.text ++ (gapText g' ++ ch ',' :: es.text))
def Members.text : Members → Bytes
  | .last g k g1 g2 v g' => gapText g ++ (strText k ++ (gapText g1 ++ ch ':' :: (gapText g2 ++ (v.text ++ gapText g'))))
  | .cons g k g1 g2 v g' ms =>
    gapText g ++ (strText k ++ (gapText g1 ++ ch ':' :: (gapText g2 ++ (v.text ++ (gapText g' ++ ch ',' :: ms.text)))))
end

theorem Number.text_head (n : Number) :
    ∃ b s, n.text = b :: s ∧ (b = ch '-' ∨ isDigit b = true) := by
  obtain ⟨d, l, e⟩ := List.exists_cons_of_ne_nil n.int_ok.ne_nil
  unfold Number.text
  by_cases hn : n.neg = true
  · exact ⟨ch '-', _, by rw [hn]; rfl, Or.inl rfl⟩
  · refine ⟨digitByte d, l.map digitByte ++ fracText n.frac ++ expText n.exp, ?_, Or.inr (isDigit_digitByte d)⟩
    rw [if_neg hn, e]; simp

end JsonText
end SwitchMcp

import SwitchMcp.Bytes
/-!
# Unicode — code points, UTF-8 and surrogate pairs

A Python `str` is a list of code points, lone surrogates among them.  `utf8` encodes one the way
`str.encode("utf-8", "surrogatepass")` does, `utf8Decode` reads it back (`utf8Decode_utf8`), and `utf16Units` is what
the `\uXXXX` escapes of a code point carry: one unit up to U+FFFF, a surrogate pair above it.
-/
namespace SwitchMcp

abbrev CodePoint := Fin 0x110000

/-- A Python `str`. -/
abbrev PyStr := List CodePoint

instance lawfulBEq_pyStr : LawfulBEq PyStr := inferInstance

def cp (n : Nat) : CodePoint := Fin.ofNat 0x110000 n

theorem cp_val (c : CodePoint) : cp c.val = c := Fin.ext (Nat.mod_eq_of_lt c.isLt)

/-- A string literal of the Python sources. -/
def py (s : String) : PyStr := s.toList.map (fun c => cp c.toNat)

/-- U+D800 to U+DFFF. -/
def isSurrogate (c : Nat) : Bool := decide (0xD800 ≤ c) && decide (c < 0xE000)

/-! ## UTF-8 -/

def utf8Char (c : Nat) : Bytes :=
  if c < 0x80 then [UInt8.ofNat c]
  else if c < 0x800 then [UInt8.ofNat (0xC0 + c / 64), UInt8.ofNat (0x80 + c % 64)]
  else if c < 0x10000 then
    [UInt8.ofNat (0xE0 + c / 4096), UInt8.ofNat (0x80 + c / 64 % 64), UInt8.ofNat (0x80 + c % 64)]
  else
    [UInt8.ofNat (0xF0 + c / 262144), UInt8.ofNat (0x80 + c / 4096 % 64), UInt8.ofNat (0x80 + c / 64 % 64),
      UInt8.ofNat (0x80 + c % 64)]

def utf8 (l : PyStr) : Bytes := l.flatMap (fun c => utf8Char c.val)

theorem utf8_cons (c : CodePoint) (l : PyStr) : utf8 (c :: l) = utf8Char c.val ++ utf8 l := rfl

theorem utf8_append (l m : PyStr) : utf8 (l ++ m) = utf8 l ++ utf8 m := List.flatMap_append

/-- `s.encode()`: a lone surrogate has no encoding. -/
def encode (s : PyStr) : Option Bytes := if s.any (fun c => isSurrogate c.val) then none else some (utf8 s)

/-- A continuation byte. -/
def isTail (b : UInt8) : Bool := decide (0x80 ≤ b.toNat) && decide (b.toNat < 0xC0)

/-- `bytes.decode("utf-8", "surrogatepass")`: `none` where Python raises `UnicodeDecodeError`. -/
def utf8Decode : Bytes → Option PyStr
  | [] => some []
  | a :: s =>
    if a.toNat < 0x80 then (utf8Decode s).map (cp a.toNat :: ·)
    else if a.toNat < 0xC2 then none
    else if a.toNat < 0xE0 then
      match s with
      | b :: s =>
        if isTail b then (utf8Decode s).map (cp ((a.toNat - 0xC0) * 64 + (b.toNat - 0x80)) :: ·) else none
      | [] => none
    else if a.toNat < 0xF0 then
      match s with
      | b :: c :: s =>
        let n := (a.toNat - 0xE0) * 4096 + (b.toNat - 0x80) * 64 + (c.toNat - 0x80)
        if isTail b && isTail c && decide (0x800 ≤ n) then (utf8Decode s).map (cp n :: ·) else none
      | _ => none
    else
      match s with
      | b :: c :: d :: s =>
        let n := (a.toNat - 0xF0) * 262144 + (b.toNat - 0x80) * 4096 + (c.toNat - 0x80) * 64 + (d.toNat - 0x80)
        if isTail b && isTail c && isTail d && decide (0x10000 ≤ n) && decide (n < 0x110000) then
          (utf8Decode s).map (cp n :: ·)
        else none
      | _ => none

theorem toNat_ofNat_lt {n : Nat} (h : n < 256) : (UInt8.ofNat n).toNat = n := by
  rw [UInt8.toNat_ofNat']; omega

theorem isTail_ofNat (n : Nat) : isTail (UInt8.ofNat (0x80 + n % 64)) = true := by
  have h : (UInt8.ofNat (0x80 + n % 64)).toNat = 0x80 + n % 64 := toNat_ofNat_lt (by omega)
  simp only [isTail, h, Bool.and_eq_true, decide_eq_true_eq]
  omega

theorem utf8Decode_ascii (b : UInt8) (s : Bytes) (h : b.toNat < 0x80) :
    utf8Decode (b :: s) = (utf8Decode s).map (cp b.toNat :: ·) := by
  rw [utf8Decode.eq_def]; simp only [h, if_true]

/-- **Decoding reads one encoded code point at a time.** -/
theorem utf8Decode_utf8Char (c : CodePoint) (s : Bytes) :
    utf8Decode (utf8Char c.val ++ s) = (utf8Decode s).map (c :: ·) := by
  have hc := c.isLt
  unfold utf8Char
  split
  · rename_i h1
    have e : (UInt8.ofNat c.val).toNat = c.val := toNat_ofNat_lt (by omega)
    rw [List.singleton_append, utf8Decode_ascii _ _ (by omega), e, cp_val]
  · rename_i h1
    split
    · rename_i h2
      have e0 : (UInt8.ofNat (0xC0 + c.val / 64)).toNat = 0xC0 + c.val / 64 := toNat_ofNat_lt (by omega)
      have e1 : (UInt8.ofNat (0x80 + c.val % 64)).toNat = 0x80 + c.val % 64 := toNat_ofNat_lt (by omega)
      have hn : (0xC0 + c.val / 64 - 0xC0) * 64 + (0x80 + c.val % 64 - 0x80) = c.val := by omega
      simp only [List.cons_append, List.nil_append, utf8Decode, e0, e1, isTail_ofNat, hn, cp_val, if_true]
      rw [if_neg (by omega), if_neg (by omega), if_pos (by omega)]
    · rename_i h2
      split
      · rename_i h3
        have e0 : (UInt8.ofNat (0xE0 + c.val / 4096)).toNat = 0xE0 + c.val / 4096 := toNat_ofNat_lt (by omega)
        have e1 : (UInt8.ofNat (0x80 + c.val / 64 % 64)).toNat = 0x80 + c.val / 64 % 64 := toNat_ofNat_lt (by omega)
        have e2 : (UInt8.ofNat (0x80 + c.val % 64)).toNat = 0x80 + c.val % 64 := toNat_ofNat_lt (by omega)
        have hn : (0xE0 + c.val / 4096 - 0xE0) * 4096 + (0x80 + c.val / 64 % 64 - 0x80) * 64
            + (0x80 + c.val % 64 - 0x80) = c.val := by omega
        simp only [List.cons_append, List.nil_append, utf8Decode, e0, e1, e2, isTail_ofNat, hn, cp_val]
        rw [if_neg (by omega), if_neg (by omega), if_neg (by omega), if_pos (by omega),
          if_pos (by simp only [Bool.true_and, decide_eq_true_eq]; omega)]
      · rename_i h3
        have e0 : (UInt8.ofNat (0xF0 + c.val / 262144)).toNat = 0xF0 + c.val / 262144 := toNat_ofNat_lt (by omega)
        have e1 : (UInt8.ofNat (0x80 + c.val / 4096 % 64)).toNat = 0x80 + c.val / 4096 % 64 :=
          toNat_ofNat_lt (by omega)
        have e2 : (UInt8.ofNat (0x80 + c.val / 64 % 64)).toNat = 0x80 + c.val / 64 % 64 := toNat_ofNat_lt (by omega)
        have e3 : (UInt8.ofNat (0x80 + c.val % 64)).toNat = 0x80 + c.val % 64 := toNat_ofNat_lt (by omega)
        have hn : (0xF0 + c.val / 262144 - 0xF0) * 262144 + (0x80 + c.val / 4096 % 64 - 0x80) * 4096
            + (0x80 + c.val / 64 % 64 - 0x80) * 64 + (0x80 + c.val % 64 - 0x80) = c.val := by omega
        simp only [List.cons_append, List.nil_append, utf8Decode, e0, e1, e2, e3, isTail_ofNat, hn, cp_val]
        rw [if_neg (by omega), if_neg (by omega), if_neg (by omega), if_neg (by omega),
          if_pos (by simp only [Bool.true_and, Bool.and_eq_true, decide_eq_true_eq]; omega)]

theorem utf8Decode_append (l : PyStr) (s : Bytes) : utf8Decode (utf8 l ++ s) = (utf8Decode s).map (l ++ ·) := by
  induction l with
  | nil => cases h : utf8Decode s <;> simp [utf8, h]
  | cons c l ih =>
    rw [utf8_cons, List.append_assoc, utf8Decode_utf8Char, ih]
    cases utf8Decode s <;> rfl

/-- **What Python encodes, it decodes.** -/
theorem utf8Decode_utf8 (l : PyStr) : utf8Decode (utf8 l) = some l := by
  have := utf8Decode_append l []
  rw [List.append_nil] at this
  rw [this]; simp [utf8Decode]

/-! ## UTF-16 -/

/-- The units of a code point: itself, or a surrogate pair above U+FFFF. -/
def utf16Units (c : Nat) : List Nat :=
  if c < 0x10000 then [c] else [0xD800 + (c - 0x10000) / 1024, 0xDC00 + (c - 0x10000) % 1024]

end SwitchMcp

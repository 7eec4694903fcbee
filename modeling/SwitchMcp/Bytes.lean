import Mathlib
/-!
# Bytes — byte strings, C strings, little-endian lengths

What every other module writes and reads: a `std::string`, a `std::vector<uint8_t>` and a Python `bytes` are all a
list of bytes.  A C function handed `c_str()` sees only the bytes before the first NUL (`cStr`); a length on the wire
is a little-endian integer (`leBytes`, `leNat`), and reading back what was written gives the length
(`leNat_leBytes`).
-/
namespace SwitchMcp

/-- A `std::string`, a `std::vector<uint8_t>` or a Python `bytes`. -/
abbrev Bytes := List UInt8

/-- A character literal of the sources; every one of them is ASCII. -/
def ch (c : Char) : UInt8 := c.toNat.toUInt8

/-- A string literal of the sources. -/
def str (s : String) : Bytes := s.toList.map ch

/-- Bytes below 0x80. -/
def allAscii (a : Bytes) : Bool := a.all (fun b => decide (b.toNat < 0x80))

theorem allAscii_mem {a : Bytes} (h : allAscii a = true) : ∀ b ∈ a, b.toNat < 0x80 := by
  intro b hb
  exact of_decide_eq_true (List.all_eq_true.1 h b hb)

/-- A literal of characters below U+0080. -/
def asciiOnly (s : String) : Bool := s.toList.all (fun c => decide (c.toNat < 0x80))

theorem asciiOnly_mem {s : String} (h : asciiOnly s = true) : ∀ c ∈ s.toList, c.toNat < 0x80 := by
  intro c hc
  exact of_decide_eq_true (List.all_eq_true.1 h c hc)

/-! ## C strings -/

/-- `isspace` in the C locale. -/
def isSpace (b : UInt8) : Bool := decide (b = 32) || (decide (9 ≤ b) && decide (b ≤ 13))

/-- The bytes a C function reads from `s.c_str()`. -/
def cStr (s : Bytes) : Bytes := s.takeWhile (fun b => decide (b ≠ 0))

theorem cStr_cons (b : UInt8) (s : Bytes) : cStr (b :: s) = if b = 0 then [] else b :: cStr s := by
  unfold cStr
  rw [List.takeWhile_cons]
  by_cases h : b = 0 <;> simp [h]

theorem cStr_of_no_nul : ∀ (s : Bytes), 0 ∉ s → cStr s = s
  | [], _ => rfl
  | b :: s, h => by
    rw [List.mem_cons, not_or] at h
    rw [cStr_cons, if_neg (Ne.symm h.1), cStr_of_no_nul s h.2]

theorem no_nul_cStr (s : Bytes) : 0 ∉ cStr s := fun h => by
  have := List.mem_takeWhile_imp h
  simp at this

/-- **A C function sees the whole string exactly when the string has no NUL.** -/
theorem cStr_eq_self_iff (s : Bytes) : cStr s = s ↔ 0 ∉ s :=
  ⟨fun h => h ▸ no_nul_cStr s, cStr_of_no_nul s⟩

/-! ## Little-endian lengths -/

/-- `n` as `w` little-endian bytes, as `struct.pack` and a copied `uint32_t` or `uint64_t` lay it out. -/
def leBytes : Nat → Nat → Bytes
  | 0, _ => []
  | w + 1, n => UInt8.ofNat n :: leBytes w (n / 256)

def leNat : Bytes → Nat
  | [] => 0
  | b :: s => b.toNat + 256 * leNat s

@[simp] theorem length_leBytes : ∀ (w n : Nat), (leBytes w n).length = w
  | 0, _ => rfl
  | w + 1, n => by rw [leBytes, List.length_cons, length_leBytes w]

theorem leNat_leBytes : ∀ (w n : Nat), n < 256 ^ w → leNat (leBytes w n) = n
  | 0, n, h => by rw [pow_zero] at h; simp [leBytes, leNat]; omega
  | w + 1, n, h => by
    have hdiv : n / 256 < 256 ^ w := by
      rw [pow_succ] at h
      exact Nat.div_lt_of_lt_mul (by omega)
    rw [leBytes, leNat, leNat_leBytes w _ hdiv, UInt8.toNat_ofNat']
    omega

/-- The first `n` bytes, when that many have arrived. -/
def takeExact (n : Nat) (s : Bytes) : Option (Bytes × Bytes) :=
  if n ≤ s.length then some (s.take n, s.drop n) else none

theorem takeExact_append (s r : Bytes) : takeExact s.length (s ++ r) = some (s, r) := by
  simp [takeExact]

theorem takeExact_append_of_length {n : Nat} (s r : Bytes) (h : s.length = n) :
    takeExact n (s ++ r) = some (s, r) := by
  subst h; exact takeExact_append s r

end SwitchMcp

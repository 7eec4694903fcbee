import SwitchMcp.JsonText
/-!
# Double — the C `double` of a JSON number

A finite `double` is a sign, a mantissa and a power of two.  `strtod` reads the longest decimal prefix of a text and
rounds it to the nearest binary64, ties to even; `Double.toInt64` is `static_cast<int64_t>`, which the console's
AArch64 core computes by truncating and saturating; `fmt10g` is what `%.10g` prints, as a JSON number.
-/
namespace SwitchMcp

open JsonText

/-- `finite neg mant exp` is `(-1)^neg * mant * 2^exp`. -/
inductive Double
  | finite (neg : Bool) (mant : Nat) (exp : Int)
  | inf (neg : Bool)
  | nan
deriving DecidableEq

/-- `n / d` to the nearest integer, ties to even. -/
def roundHalfEven (n d : Nat) : Nat :=
  let q := n / d
  let r := n % d
  if 2 * r < d then q else if d < 2 * r then q + 1 else q + q % 2

/-- `n * 2^e / d` as a quotient of naturals. -/
def scale2 (n d : Nat) (e : Int) : Nat × Nat := if 0 ≤ e then (n * 2 ^ e.toNat, d) else (n, d * 2 ^ (-e).toNat)

def scale10 (n d : Nat) (e : Int) : Nat × Nat := if 0 ≤ e then (n * 10 ^ e.toNat, d) else (n, d * 10 ^ (-e).toNat)

/-- The binary64 nearest to `n / d`: 53 bits of mantissa, exponents from -1074, infinity from 2^1024 on. -/
def Double.ofRatio (neg : Bool) (n d : Nat) : Double :=
  if n = 0 then .finite neg 0 0
  else
    let l0 : Int := (Nat.log2 n : Int) - Nat.log2 d
    let p := scale2 n d (-l0)
    let l := if p.2 ≤ p.1 then l0 else l0 - 1
    let e := max (l - 52) (-1074)
    let q := scale2 n d (-e)
    let m := roundHalfEven q.1 q.2
    if 0 ≤ e ∧ 2 ^ 1024 ≤ m * 2 ^ e.toNat then .inf neg else .finite neg m e

/-! ## Reading -/

/-- An optional sign, and whether it is a minus. -/
def takeSign : Bytes → Bool × Bytes
  | c :: s => if c = ch '-' then (true, s) else if c = ch '+' then (false, s) else (false, c :: s)
  | [] => (false, [])

/-- The digits a text starts with. -/
def takeDigits (s : Bytes) : List Digit :=
  (s.takeWhile isDigit).map (fun b => Fin.ofNat 10 (b.toNat - 48))

theorem ofNat_digitByte (d : Digit) : Fin.ofNat 10 ((digitByte d).toNat - 48) = d := by revert d; decide

theorem takeDigits_map (ds : List Digit) : takeDigits (ds.map digitByte) = ds := by
  have h : (ds.map digitByte).takeWhile isDigit = ds.map digitByte :=
    List.takeWhile_eq_self_iff.2 (fun c hc => by
      obtain ⟨d, -, rfl⟩ := List.mem_map.1 hc
      exact JsonText.isDigit_digitByte d)
  rw [takeDigits, h, List.map_map]
  exact List.map_id'' ofNat_digitByte ds

def dropDigits (s : Bytes) : Bytes := s.dropWhile isDigit

/-- The exponent a text starts with, 0 when it has none with a digit. -/
def takeExp : Bytes → Int
  | c :: s =>
    if c = ch 'e' ∨ c = ch 'E' then
      let p := takeSign s
      if p.1 then -(digitsVal (takeDigits p.2) : Int) else digitsVal (takeDigits p.2)
    else 0
  | [] => 0

/-- `strtod` on a text of digits, signs, points and exponent letters. -/
def strtod (s : Bytes) : Double :=
  let p := takeSign s
  let int := takeDigits p.2
  let s1 := dropDigits p.2
  let fr := match s1 with | c :: t => if c = ch '.' then (takeDigits t, dropDigits t) else ([], s1) | [] => ([], [])
  if int = [] ∧ fr.1 = [] then .finite false 0 0
  else
    let q := scale10 (digitsVal (int ++ fr.1)) 1 (takeExp fr.2 - fr.1.length)
    .ofRatio p.1 q.1 q.2

/-- `strtoll(s, nullptr, 10)` on a text of digits and signs: out of range it saturates. -/
def strtoll (s : Bytes) : Int64 :=
  let p := takeSign s
  let n : Int := digitsVal (takeDigits p.2)
  Int64.ofInt (max (-2 ^ 63) (min (2 ^ 63 - 1) (if p.1 then -n else n)))

/-! ## Converting -/

/-- `static_cast<int64_t>(d)`. -/
def Double.toInt64 : Double → Int64
  | .finite neg m e =>
    let n : Int := if 0 ≤ e then m * 2 ^ e.toNat else m / 2 ^ (-e).toNat
    Int64.ofInt (max (-2 ^ 63) (min (2 ^ 63 - 1) (if neg then -n else n)))
  | .inf neg => if neg then Int64.minValue else Int64.maxValue
  | .nan => 0

/-- The number 1. -/
def Double.isOne : Double → Bool
  | .finite neg m e => !neg && decide (e ≤ 0) && decide (m = 2 ^ (-e).toNat)
  | _ => false

theorem Double.toInt64_of_isOne (d : Double) (h : d.isOne = true) : d.toInt64 = 1 := by
  cases d with
  | finite neg m e =>
    simp only [isOne, Bool.and_eq_true, Bool.not_eq_true', decide_eq_true_eq] at h
    obtain ⟨⟨rfl, he⟩, rfl⟩ := h
    have hn : (if 0 ≤ e then ((2 ^ (-e).toNat : Nat) : Int) * 2 ^ e.toNat else ((2 ^ (-e).toNat : Nat) : Int)
        / 2 ^ (-e).toNat) = 1 := by
      split
      · have : e = 0 := by omega
        subst this; rfl
      · rw [Nat.cast_pow, Nat.cast_ofNat]
        exact Int.ediv_self (by positivity)
    simp only [toInt64, hn]
    rfl
  | inf neg => cases h
  | nan => cases h

/-- The largest `k` with `10^k ≤ n / d`. -/
def floorLog10 (n d : Nat) : Int :=
  if d ≤ n then Nat.log 10 (n / d) else -(Nat.clog 10 ((d + n - 1) / n) : Int)

/-- Ten significant digits of `n / d` and the power of ten of the first one. -/
def tenDigits (n d : Nat) : Nat × Int :=
  let x := floorLog10 n d
  let p := scale10 n d (9 - x)
  let m := roundHalfEven p.1 p.2
  if m = 10 ^ 10 then (10 ^ 9, x + 1) else (m, x)

def trimZeros (ds : List Digit) : List Digit := ds.rdropWhile (fun d => decide (d = 0))

theorem intPart_take {ds : List Digit} (h : IntPart ds) (k : Nat) : IntPart (ds.take (k + 1)) := by
  rcases h with rfl | ⟨d, l, rfl, hd⟩
  · exact Or.inl (by simp)
  · exact Or.inr ⟨d, l.take k, rfl, hd⟩

/-- At least two digits of exponent. -/
def expDigits (n : Nat) : List Digit := if n < 10 then 0 :: decimal n else decimal n

theorem expDigits_ne (n : Nat) : expDigits n ≠ [] := by
  unfold expDigits
  split
  · simp
  · exact (decimal_intPart n).ne_nil

/-- What `%.10g` prints for a finite number. -/
def fmt10g (neg : Bool) (mant : Nat) (exp : Int) : Number :=
  if mant = 0 then ⟨neg, [0], JsonText.intPart_zero, [], none⟩
  else
    let r := scale2 mant 1 exp
    let t := tenDigits r.1 r.2
    let x := t.2
    if 0 ≤ x ∧ x < 10 then
      ⟨neg, (decimal t.1).take (x.toNat + 1), intPart_take (decimal_intPart _) _,
        trimZeros ((decimal t.1).drop (x.toNat + 1)), none⟩
    else if -4 ≤ x ∧ x < 0 then
      ⟨neg, [0], Or.inl rfl, List.replicate (-x - 1).toNat 0 ++ trimZeros (decimal t.1), none⟩
    else
      ⟨neg, (decimal t.1).take (0 + 1), intPart_take (decimal_intPart _) 0, trimZeros ((decimal t.1).drop 1),
        some ⟨false, some (decide (x < 0)), expDigits x.natAbs, expDigits_ne _⟩⟩

example : (fmt10g false 3 (-1)).text = str "1.5" := by decide
example : (fmt10g true 1 (-20)).text = str "-9.536743164e-07" := by decide +kernel

end SwitchMcp

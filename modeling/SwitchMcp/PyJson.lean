import SwitchMcp.JsonText
import SwitchMcp.Unicode
/-!
# PyJson — the values of Python's `json` module, `json.dumps` and `json.loads`

The client's side of the wire.  `dumps` is `json.dumps` as the client calls it: separators `", "` and `": "`, every
character that is not printable ASCII escaped.  `loads` is `json.loads` of the bytes of a reply: decode the whole text
as UTF-8, then scan.  (A text that starts with `{` and has no NUL is one `json.detect_encoding` takes for UTF-8.)  A
finite float is held by the decimal literal it is written with; an integer literal is no float.  NaN and the infinities
are Python's own extension of JSON.
-/
namespace SwitchMcp

open JsonText (Number Exponent Digit IntPart Item digitByte)

/-- `str(n)`. -/
def pyNat (n : Nat) : PyStr := (JsonText.decimal n).map (fun d => cp (JsonText.digitByte d).toNat)

inductive PyJson
  | null
  | bool (b : Bool)
  | int (i : Int)
  | float (n : Number) (ok : n.isInt = false)
  | inf (neg : Bool)
  | nan
  | str (s : PyStr)
  | list (l : List PyJson)
  | dict (d : List (PyStr × PyJson))

/-- A `dict`'s items, in the order of insertion. -/
abbrev PyDict := List (PyStr × PyJson)

namespace PyJson

/-- `d.get(k)`. -/
def dictGet (d : PyDict) (k : PyStr) : Option PyJson := (d.find? (fun p => decide (p.1 = k))).map Prod.snd

/-- `d[k] = v`: a key that is there keeps its place. -/
def dictSet : PyDict → PyStr → PyJson → PyDict
  | [], k, v => [(k, v)]
  | (k', v') :: d, k, v => if k' = k then (k', v) :: d else (k', v') :: dictSet d k v

@[simp] theorem dictGet_nil (k : PyStr) : dictGet [] k = none := rfl

theorem dictGet_cons (k' : PyStr) (v : PyJson) (d : PyDict) (k : PyStr) :
    dictGet ((k', v) :: d) k = if k' = k then some v else dictGet d k := by
  unfold dictGet
  rw [List.find?_cons]
  by_cases h : k' = k <;> simp [h]

@[simp] theorem dictGet_dictSet : ∀ (d : PyDict) (k : PyStr) (v : PyJson) (k' : PyStr),
    dictGet (dictSet d k v) k' = if k = k' then some v else dictGet d k'
  | [], k, v, k' => dictGet_cons k v [] k'
  | (k0, v0) :: d, k, v, k' => by
    unfold dictSet
    split
    · rename_i h; subst h
      rw [dictGet_cons, dictGet_cons]
      split <;> rfl
    · rename_i h
      rw [dictGet_cons, dictGet_dictSet d k v k', dictGet_cons]
      by_cases h0 : k0 = k'
      · subst h0; simp [Ne.symm h]
      · simp [h0]

/-! ## Equality -/

mutual
/-- Equality, as a test. -/
def same : PyJson → PyJson → Bool
  | .null, .null => true
  | .bool a, .bool b => decide (a = b)
  | .int a, .int b => decide (a = b)
  | .float n _, .float m _ => decide (n = m)
  | .inf a, .inf b => decide (a = b)
  | .nan, .nan => true
  | .str a, .str b => decide (a = b)
  | .list a, .list b => sameList a b
  | .dict a, .dict b => sameDict a b
  | _, _ => false
def sameList : List PyJson → List PyJson → Bool
  | [], [] => true
  | a :: l, b :: m => same a b && sameList l m
  | _, _ => false
def sameDict : List (PyStr × PyJson) → List (PyStr × PyJson) → Bool
  | [], [] => true
  | (k, a) :: l, (k', b) :: m => decide (k = k') && same a b && sameDict l m
  | _, _ => false
end

mutual
theorem same_iff : ∀ a b : PyJson, same a b = true ↔ a = b
  | .null, b => by cases b <;> simp [same]
  | .bool a, b => by cases b <;> simp [same]
  | .int a, b => by cases b <;> simp [same]
  | .float n h, b => by cases b <;> simp [same]
  | .inf a, b => by cases b <;> simp [same]
  | .nan, b => by cases b <;> simp [same]
  | .str a, b => by cases b <;> simp [same]
  | .list a, b => by cases b <;> simp [same, sameList_iff a]
  | .dict a, b => by cases b <;> simp [same, sameDict_iff a]
theorem sameList_iff : ∀ a b : List PyJson, sameList a b = true ↔ a = b
  | [], b => by cases b <;> simp [sameList]
  | a :: l, b => by cases b <;> simp [sameList, same_iff a, sameList_iff l]
theorem sameDict_iff : ∀ a b : List (PyStr × PyJson), sameDict a b = true ↔ a = b
  | [], b => by cases b <;> simp [sameDict]
  | (k, a) :: l, b => by
    cases b <;> simp [sameDict, same_iff a, sameDict_iff l, Prod.ext_iff, and_assoc]
end

instance : DecidableEq PyJson := fun a b => decidable_of_iff (same a b = true) (same_iff a b)

/-! ## `json.dumps` -/

/-- `\uXXXX`. -/
def uEscape (u : Nat) : Bytes := (Item.ofUnit u).text

/-- A character as `ensure_ascii` writes it. -/
def escapeChar (c : CodePoint) : Bytes :=
  if c = cp 34 then SwitchMcp.str "\\\""
  else if c = cp 92 then SwitchMcp.str "\\\\"
  else if c = cp 10 then SwitchMcp.str "\\n"
  else if c = cp 13 then SwitchMcp.str "\\r"
  else if c = cp 9 then SwitchMcp.str "\\t"
  else if c = cp 12 then SwitchMcp.str "\\f"
  else if c = cp 8 then SwitchMcp.str "\\b"
  else if 0x20 ≤ c.val ∧ c.val ≤ 0x7E then [UInt8.ofNat c.val]
  else (utf16Units c.val).flatMap uEscape

def dumpsStr (s : PyStr) : Bytes := ch '"' :: (s.flatMap escapeChar ++ [ch '"'])

mutual
def dumps : PyJson → Bytes
  | .null => SwitchMcp.str "null"
  | .bool b => if b then SwitchMcp.str "true" else SwitchMcp.str "false"
  | .int i => (Number.ofInt i).text
  | .float n _ => n.text
  | .inf neg => if neg then SwitchMcp.str "-Infinity" else SwitchMcp.str "Infinity"
  | .nan => SwitchMcp.str "NaN"
  | .str s => dumpsStr s
  | .list l => ch '[' :: (dumpsList true l ++ [ch ']'])
  | .dict d => ch '{' :: (dumpsDict true d ++ [ch '}'])
def dumpsList : Bool → List PyJson → Bytes
  | _, [] => []
  | first, v :: l => (if first then [] else SwitchMcp.str ", ") ++ (dumps v ++ dumpsList false l)
def dumpsDict : Bool → List (PyStr × PyJson) → Bytes
  | _, [] => []
  | first, (k, v) :: d =>
    (if first then [] else SwitchMcp.str ", ") ++ (dumpsStr k ++ (SwitchMcp.str ": " ++ (dumps v ++ dumpsDict false d)))
end

/-! ## `json.loads` -/

def isWs (c : CodePoint) : Bool := decide (c = cp 32) || decide (c = cp 9) || decide (c = cp 10) || decide (c = cp 13)

def skipWs (s : PyStr) : PyStr := s.dropWhile isWs

def hexDigit (c : CodePoint) : Option Nat :=
  if 48 ≤ c.val ∧ c.val ≤ 57 then some (c.val - 48)
  else if 97 ≤ c.val ∧ c.val ≤ 102 then some (c.val - 87)
  else if 65 ≤ c.val ∧ c.val ≤ 70 then some (c.val - 55)
  else none

def hexQuad (h3 h2 h1 h0 : CodePoint) : Option Nat :=
  match hexDigit h3, hexDigit h2, hexDigit h1, hexDigit h0 with
  | some a, some b, some c, some d => some (((a * 16 + b) * 16 + c) * 16 + d)
  | _, _, _, _ => none

def unescape (e : CodePoint) : Option CodePoint :=
  if e = cp 34 then some (cp 34)
  else if e = cp 92 then some (cp 92)
  else if e = cp 47 then some (cp 47)
  else if e = cp 98 then some (cp 8)
  else if e = cp 102 then some (cp 12)
  else if e = cp 110 then some (cp 10)
  else if e = cp 114 then some (cp 13)
  else if e = cp 116 then some (cp 9)
  else none

/-- `scanstring` after the opening quote: control characters are refused, a surrogate pair is joined. -/
def scanString : PyStr → PyStr → Option (PyStr × PyStr)
  | _, [] => none
  | out, c :: s =>
    if c = cp 34 then some (out, s)
    else if c = cp 92 then
      match s with
      | [] => none
      | e :: s =>
        if e = cp 117 then
          match s with
          | h3 :: h2 :: h1 :: h0 :: s =>
            match hexQuad h3 h2 h1 h0 with
            | none => none
            | some u =>
              if 0xD800 ≤ u ∧ u < 0xDC00 then
                match s with
                | b :: e' :: g3 :: g2 :: g1 :: g0 :: s' =>
                  if b = cp 92 ∧ e' = cp 117 then
                    match hexQuad g3 g2 g1 g0 with
                    | none => none
                    | some l =>
                      if 0xDC00 ≤ l ∧ l < 0xE000 then
                        scanString (out ++ [cp (0x10000 + (u - 0xD800) * 1024 + (l - 0xDC00))]) s'
                      else scanString (out ++ [cp u]) (b :: e' :: g3 :: g2 :: g1 :: g0 :: s')
                  else scanString (out ++ [cp u]) (b :: e' :: g3 :: g2 :: g1 :: g0 :: s')
                | s => scanString (out ++ [cp u]) s
              else scanString (out ++ [cp u]) s
          | _ => none
        else
          match unescape e with
          | some b => scanString (out ++ [b]) s
          | none => none
    else if c.val < 0x20 then none
    else scanString (out ++ [c]) s

def isDigit (c : CodePoint) : Bool := decide (48 ≤ c.val) && decide (c.val ≤ 57)

def digitOf (c : CodePoint) : Digit := Fin.ofNat 10 (c.val - 48)

def scanDigits (s : PyStr) : List Digit × PyStr := ((s.takeWhile isDigit).map digitOf, s.dropWhile isDigit)

/-- `0|[1-9][0-9]*`. -/
def scanInt : PyStr → Option ({ds : List Digit // IntPart ds} × PyStr)
  | c :: s =>
    if isDigit c then
      if h : digitOf c = 0 then some (⟨[0], JsonText.intPart_zero⟩, s)
      else some (⟨digitOf c :: (scanDigits s).1, Or.inr ⟨_, _, rfl, h⟩⟩, (scanDigits s).2)
    else none
  | [] => none

/-- `(\.[0-9]+)?`. -/
def scanFrac : PyStr → List Digit × PyStr
  | c :: s => if c = cp 46 ∧ (scanDigits s).1 ≠ [] then scanDigits s else ([], c :: s)
  | [] => ([], [])

def scanSign : PyStr → Option Bool × PyStr
  | c :: s => if c = cp 45 then (some true, s) else if c = cp 43 then (some false, s) else (none, c :: s)
  | [] => (none, [])

/-- `([eE][-+]?[0-9]+)?`. -/
def scanExp : PyStr → Option Exponent × PyStr
  | c :: s =>
    if c = cp 101 ∨ c = cp 69 then
      if h : (scanDigits (scanSign s).2).1 = [] then (none, c :: s)
      else (some ⟨decide (c = cp 69), (scanSign s).1, (scanDigits (scanSign s).2).1, h⟩, (scanDigits (scanSign s).2).2)
    else (none, c :: s)
  | [] => (none, [])

/-- `int(text)` without fraction and exponent, `float(text)` with one. -/
def ofNum (n : Number) : PyJson := if h : n.isInt = false then .float n h else .int n.toInt

def scanNumber (s : PyStr) : Option (PyJson × PyStr) :=
  let neg := decide (s.head? = some (cp 45))
  match scanInt (if neg then s.tail else s) with
  | none => none
  | some (i, s) =>
    let f := scanFrac s
    let e := scanExp f.2
    some (ofNum ⟨neg, i.val, i.property, f.1, e.1⟩, e.2)

def keyword (w : String) (s : PyStr) : Option PyStr := if s.take (py w).length = py w then some (s.drop (py w).length) else none

mutual
/-- `scan_once`. -/
def scanOnce : Nat → PyStr → Option (PyJson × PyStr)
  | 0, _ => none
  | _ + 1, [] => none
  | n + 1, c :: s =>
    if c = cp 34 then (scanString [] s).map (fun r => (.str r.1, r.2))
    else if c = cp 123 then
      match skipWs s with
      | c' :: s' => if c' = cp 125 then some (.dict [], s') else scanObject n [] (c' :: s')
      | [] => none
    else if c = cp 91 then
      match skipWs s with
      | c' :: s' => if c' = cp 93 then some (.list [], s') else scanArray n [] (c' :: s')
      | [] => none
    else if c = cp 110 then (keyword "null" (c :: s)).map (fun r => (.null, r))
    else if c = cp 116 then (keyword "true" (c :: s)).map (fun r => (.bool true, r))
    else if c = cp 102 then (keyword "false" (c :: s)).map (fun r => (.bool false, r))
    else
      match keyword "NaN" (c :: s), keyword "Infinity" (c :: s), keyword "-Infinity" (c :: s) with
      | some r, _, _ => some (.nan, r)
      | none, some r, _ => some (.inf false, r)
      | none, none, some r => some (.inf true, r)
      | none, none, none => scanNumber (c :: s)
def scanArray : Nat → List PyJson → PyStr → Option (PyJson × PyStr)
  | 0, _, _ => none
  | n + 1, out, s =>
    match scanOnce n s with
    | none => none
    | some (v, r) =>
      match skipWs r with
      | [] => none
      | c :: s =>
        if c = cp 93 then some (.list (out ++ [v]), s)
        else if c = cp 44 then scanArray n (out ++ [v]) (skipWs s)
        else none
def scanObject : Nat → PyDict → PyStr → Option (PyJson × PyStr)
  | 0, _, _ => none
  | _ + 1, _, [] => none
  | n + 1, out, c :: s =>
    if c = cp 34 then
      match scanString [] s with
      | none => none
      | some (k, r) =>
        match skipWs r with
        | [] => none
        | c :: s =>
          if c = cp 58 then
            match scanOnce n (skipWs s) with
            | none => none
            | some (v, r) =>
              match skipWs r with
              | [] => none
              | c :: s =>
                if c = cp 125 then some (.dict (dictSet out k v), s)
                else if c = cp 44 then scanObject n (dictSet out k v) (skipWs s)
                else none
          else none
    else none
end

/-- `json.loads(text)`: `none` where it raises `ValueError`. -/
def loads (text : Bytes) : Option PyJson :=
  match utf8Decode text with
  | none => none
  | some s =>
    match scanOnce (2 * s.length + 2) (skipWs s) with
    | none => none
    | some (v, r) => if skipWs r = [] then some v else none

end PyJson
end SwitchMcp

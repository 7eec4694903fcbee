import SwitchMcp.Double
/-!
# Json — the agent's `json::Value`, its writer and its parser (agent/source/json.hpp, json.cpp)

A parser's cursor is the text that is left: `p >= end` is the empty list, and a byte is looked at only where the list
has one.  `parseValue`, `arrayLoop` and `objectLoop` call each other with a fuel that only the text's length bounds
(`parse` gives enough of it).  The recursion of the C++ has no such counter and no bound of its own.
-/
namespace SwitchMcp
namespace Json

open JsonText (isDigit)

/-! ## Values -/

inductive Value
  | null
  | bool (b : Bool)
  | int (i : Int64)
  | double (d : Double)
  | string (s : Bytes)
  | array (a : List Value)
  | object (o : List (Bytes × Value))

/-- `obj_[k] = v` on the members of a `std::map`, in the order of their keys. -/
def mapSet : List (Bytes × Value) → Bytes → Value → List (Bytes × Value)
  | [], k, v => [(k, v)]
  | (k', v') :: o, k, v =>
    if k = k' then (k, v) :: o
    else if k < k' then (k, v) :: (k', v') :: o
    else (k', v') :: mapSet o k v

def mapFind (o : List (Bytes × Value)) (k : Bytes) : Option Value := (o.find? (fun p => decide (p.1 = k))).map Prod.snd

namespace Value

def asBool (d : Bool) : Value → Bool
  | .bool b => b
  | _ => d

def asInt (d : Int64) : Value → Int64
  | .int i => i
  | .double x => x.toInt64
  | _ => d

def asString (d : Bytes) : Value → Bytes
  | .string s => s
  | _ => d

/-- `v[k]`: null where the value is no object or has no such member. -/
def get (v : Value) (k : Bytes) : Value :=
  match v with
  | .object o => (mapFind o k).getD .null
  | _ => .null

def has (v : Value) (k : Bytes) : Bool :=
  match v with
  | .object o => (mapFind o k).isSome
  | _ => false

def isObject : Value → Bool
  | .object _ => true
  | _ => false

/-- `v.set(k, x)`: a value that is no object becomes an empty one first. -/
def set (v : Value) (k : Bytes) (x : Value) : Value :=
  match v with
  | .object o => .object (mapSet o k x)
  | _ => .object [(k, x)]

/-- `Value(uint64_t)`: the cast to the `int64_t` that is stored. -/
def ofU64 (n : UInt64) : Value := .int n.toInt64

end Value

@[simp] theorem mapFind_nil (k : Bytes) : mapFind [] k = none := rfl

theorem mapFind_cons (k' : Bytes) (v : Value) (o : List (Bytes × Value)) (k : Bytes) :
    mapFind ((k', v) :: o) k = if k' = k then some v else mapFind o k := by
  unfold mapFind
  rw [List.find?_cons]
  by_cases h : k' = k <;> simp [h]

/-- **A member that was set is found, and every other member is as before.** -/
theorem mapFind_mapSet : ∀ (o : List (Bytes × Value)) (k : Bytes) (v : Value) (k' : Bytes),
    mapFind (mapSet o k v) k' = if k = k' then some v else mapFind o k'
  | [], k, v, k' => mapFind_cons k v [] k'
  | (k0, v0) :: o, k, v, k' => by
    unfold mapSet
    split
    · rename_i h; subst h
      rw [mapFind_cons, mapFind_cons]
      split <;> rfl
    · rename_i h
      split
      · rw [mapFind_cons]
      · rw [mapFind_cons, mapFind_mapSet o k v k', mapFind_cons]
        by_cases h0 : k0 = k'
        · subst h0; simp [h]
        · simp [h0]

/-- What holds of all members and of a new one holds of all when it is set. -/
theorem forall_mapSet {P : Value → Prop} {k : Bytes} {x : Value} (hx : P x) : ∀ o : List (Bytes × Value),
    (∀ p ∈ o, P p.2) → ∀ p ∈ mapSet o k x, P p.2
  | [], _, p, hp => by
    rw [List.mem_singleton.1 hp]
    exact hx
  | (k', v') :: o, h, p, hp => by
    have htail := forall_mapSet (k := k) hx o fun q hq => h q (List.mem_cons_of_mem _ hq)
    unfold mapSet at hp
    split at hp
    · rcases List.mem_cons.1 hp with rfl | hp
      · exact hx
      · exact h p (List.mem_cons_of_mem _ hp)
    · split at hp
      · rcases List.mem_cons.1 hp with rfl | hp
        · exact hx
        · exact h p hp
      · rcases List.mem_cons.1 hp with rfl | hp
        · exact h _ List.mem_cons_self
        · exact htail p hp

@[simp] theorem Value.get_set (v : Value) (k : Bytes) (x : Value) (k' : Bytes) :
    (v.set k x).get k' = if k = k' then x else v.get k' := by
  cases v with
  | object o =>
    simp only [set, get, mapFind_mapSet]
    split <;> rfl
  | _ =>
    simp only [set, get, mapFind_cons]
    split <;> rfl

@[simp] theorem Value.has_set (v : Value) (k : Bytes) (x : Value) (k' : Bytes) :
    (v.set k x).has k' = (decide (k = k') || v.has k') := by
  cases v with
  | object o =>
    simp only [set, has, mapFind_mapSet]
    split <;> rename_i h <;> simp [h]
  | _ =>
    simp only [set, has, mapFind_cons]
    split <;> rename_i h <;> simp [h]

/-! ## What a `std::map` promises -/

mutual
/-- The members of every object in the value are in the order of their keys, and no key is there twice. -/
def Ordered : Value → Prop
  | .array a => OrderedArray a
  | .object o => (o.map Prod.fst).Pairwise (· < ·) ∧ OrderedObject o
  | _ => True
def OrderedArray : List Value → Prop
  | [] => True
  | v :: a => Ordered v ∧ OrderedArray a
def OrderedObject : List (Bytes × Value) → Prop
  | [] => True
  | (_, v) :: o => Ordered v ∧ OrderedObject o
end

theorem mem_keys_mapSet : ∀ (o : List (Bytes × Value)) (k : Bytes) (v : Value) (k' : Bytes),
    k' ∈ (mapSet o k v).map Prod.fst → k' = k ∨ k' ∈ o.map Prod.fst
  | [], k, v, k', h => Or.inl (by simpa [mapSet] using h)
  | (k0, v0) :: o, k, v, k', h => by
    unfold mapSet at h
    split at h
    · rename_i e; subst e; exact Or.inr h
    · split at h
      · exact List.mem_cons.1 h
      · rw [List.map_cons, List.mem_cons] at h ⊢
        rcases h with h | h
        · exact Or.inr (Or.inl h)
        · exact (mem_keys_mapSet o k v k' h).imp_right Or.inr

theorem pairwise_mapSet : ∀ (o : List (Bytes × Value)) (k : Bytes) (v : Value),
    (o.map Prod.fst).Pairwise (· < ·) → ((mapSet o k v).map Prod.fst).Pairwise (· < ·)
  | [], k, v, _ => by simp [mapSet]
  | (k0, v0) :: o, k, v, h => by
    unfold mapSet
    split
    · rename_i e; subst e; exact h
    · rename_i hne
      rw [List.map_cons, List.pairwise_cons] at h
      split
      · rename_i hlt
        rw [List.map_cons, List.pairwise_cons, List.map_cons, List.pairwise_cons]
        refine ⟨fun x hx => ?_, h⟩
        rcases List.mem_cons.1 hx with rfl | hx
        · exact hlt
        · exact List.lt_trans hlt (h.1 x hx)
      · rename_i hlt
        rw [List.map_cons, List.pairwise_cons]
        refine ⟨fun x hx => ?_, pairwise_mapSet o k v h.2⟩
        rcases mem_keys_mapSet o k v x hx with rfl | hx
        · exact Decidable.not_not.1 fun hn => hne (Std.Trichotomous.trichotomous x k0 hlt hn)
        · exact h.1 x hx

theorem orderedObject_mapSet : ∀ (o : List (Bytes × Value)) (k : Bytes) (v : Value), OrderedObject o → Ordered v →
    OrderedObject (mapSet o k v)
  | [], k, v, _, hv => ⟨hv, trivial⟩
  | (k0, v0) :: o, k, v, ho, hv => by
    unfold mapSet
    split
    · exact ⟨hv, ho.2⟩
    · split
      · exact ⟨hv, ho⟩
      · exact ⟨ho.1, orderedObject_mapSet o k v ho.2 hv⟩

/-- **Setting a member keeps the order.** -/
theorem ordered_set (v : Value) (k : Bytes) (x : Value) (hv : Ordered v) (hx : Ordered x) : Ordered (v.set k x) := by
  cases v with
  | object o => exact ⟨pairwise_mapSet o k x hv.1, orderedObject_mapSet o k x hv.2 hx⟩
  | _ => exact ⟨List.pairwise_singleton _ _, hx, trivial⟩

/-! ## Writing -/

/-- `%04x`. -/
def hex4 (n : Nat) : Bytes :=
  [JsonText.lowHex (n / 4096), JsonText.lowHex (n / 256), JsonText.lowHex (n / 16), JsonText.lowHex n].map
    JsonText.HexDigit.byte

/-- The loop body of `Value::write_string`. -/
def writeChar (c : UInt8) : Bytes :=
  if c = ch '"' then str "\\\""
  else if c = ch '\\' then str "\\\\"
  else if c = 10 then str "\\n"
  else if c = 13 then str "\\r"
  else if c = 9 then str "\\t"
  else if c = 8 then str "\\b"
  else if c = 12 then str "\\f"
  else if c < 0x20 then str "\\u" ++ hex4 c.toNat
  else [c]

def writeString (s : Bytes) : Bytes := ch '"' :: (s.flatMap writeChar ++ [ch '"'])

/-- `%lld`. -/
def writeInt (i : Int64) : Bytes := (JsonText.Number.ofInt i.toInt).text

def writeDouble : Double → Bytes
  | .finite neg m e => (fmt10g neg m e).text
  | _ => str "null"

mutual
def write : Value → Bytes
  | .null => str "null"
  | .bool b => if b then str "true" else str "false"
  | .int i => writeInt i
  | .double d => writeDouble d
  | .string s => writeString s
  | .array a => ch '[' :: (writeArray true a ++ [ch ']'])
  | .object o => ch '{' :: (writeObject true o ++ [ch '}'])
def writeArray : Bool → List Value → Bytes
  | _, [] => []
  | first, v :: a => (if first then [] else [ch ',']) ++ (write v ++ writeArray false a)
def writeObject : Bool → List (Bytes × Value) → Bytes
  | _, [] => []
  | first, (k, v) :: o => (if first then [] else [ch ',']) ++ (writeString k ++ ch ':' :: (write v ++ writeObject false o))
end

def dump (v : Value) : Bytes := write v

/-! ## Parsing -/

def isWs (b : UInt8) : Bool := decide (b = ch ' ') || decide (b = 9) || decide (b = 10) || decide (b = 13)

def skipWs (s : Bytes) : Bytes := s.dropWhile isWs

def hexDigit (h : UInt8) : Option Nat :=
  if ch '0' ≤ h ∧ h ≤ ch '9' then some (h.toNat - 48)
  else if ch 'a' ≤ h ∧ h ≤ ch 'f' then some (h.toNat - 97 + 10)
  else if ch 'A' ≤ h ∧ h ≤ ch 'F' then some (h.toNat - 65 + 10)
  else none

/-- Four hexadecimal digits: `cp <<= 4; cp |= digit` four times. -/
def hexQuad (h3 h2 h1 h0 : UInt8) : Option Nat :=
  match hexDigit h3, hexDigit h2, hexDigit h1, hexDigit h0 with
  | some a, some b, some c, some d => some (((a * 16 + b) * 16 + c) * 16 + d)
  | _, _, _, _ => none

/-- The UTF-8 the `\u` escape is turned into; a surrogate is encoded like any other unit. -/
def encodeUnit (u : Nat) : Bytes :=
  if u < 0x80 then [UInt8.ofNat u]
  else if u < 0x800 then [UInt8.ofNat (0xC0 ||| u >>> 6), UInt8.ofNat (0x80 ||| (u &&& 0x3F))]
  else
    [UInt8.ofNat (0xE0 ||| u >>> 12), UInt8.ofNat (0x80 ||| (u >>> 6 &&& 0x3F)), UInt8.ofNat (0x80 ||| (u &&& 0x3F))]

/-- The byte an escape of one letter stands for. -/
def unescape (e : UInt8) : Option UInt8 :=
  if e = ch '"' then some (ch '"')
  else if e = ch '\\' then some (ch '\\')
  else if e = ch '/' then some (ch '/')
  else if e = ch 'n' then some 10
  else if e = ch 'r' then some 13
  else if e = ch 't' then some 9
  else if e = ch 'b' then some 8
  else if e = ch 'f' then some 12
  else none

/-- The loop of `parse_string`, after the opening quote. -/
def stringLoop : Bytes → Bytes → Option (Bytes × Bytes)
  | _, [] => none
  | out, c :: p =>
    if c = ch '"' then some (out, p)
    else if c = ch '\\' then
      match p with
      | [] => none
      | e :: p =>
        if e = ch 'u' then
          match p with
          | h3 :: h2 :: h1 :: h0 :: p =>
            match hexQuad h3 h2 h1 h0 with
            | some u => stringLoop (out ++ encodeUnit u) p
            | none => none
          | _ => none
        else
          match unescape e with
          | some b => stringLoop (out ++ [b]) p
          | none => none
    else stringLoop (out ++ [c]) p

def parseString : Bytes → Option (Bytes × Bytes)
  | c :: p => if c = ch '"' then stringLoop [] p else none
  | [] => none

/-- A byte the number scanner takes. -/
def isNumChar (c : UInt8) : Bool :=
  isDigit c || decide (c = ch '.') || decide (c = ch 'e') || decide (c = ch 'E') || decide (c = ch '+') ||
    decide (c = ch '-')

def signText : Bytes → Bytes
  | c :: _ => if c = ch '-' ∨ c = ch '+' then [c] else []
  | [] => []

def parseNumber (s : Bytes) : Option (Value × Bytes) :=
  let sign := signText s
  let p := s.drop sign.length
  let body := p.takeWhile isNumChar
  let num := sign ++ body
  if num = [] then none
  else some (if body.all isDigit then .int (strtoll num) else .double (strtod num), p.dropWhile isNumChar)

/-- `memcmp` against a keyword: what is left after it. -/
def keyword (w s : Bytes) : Option Bytes := if s.take w.length = w then some (s.drop w.length) else none

mutual
def parseValue : Nat → Bytes → Option (Value × Bytes)
  | 0, _ => none
  | n + 1, s =>
    match skipWs s with
    | [] => none
    | c :: p =>
      if c = ch '{' then parseObject n p
      else if c = ch '[' then parseArray n p
      else if c = ch '"' then (parseString (c :: p)).map (fun r => (.string r.1, r.2))
      else if c = ch 't' then (keyword (str "true") (c :: p)).map (fun r => (.bool true, r))
      else if c = ch 'f' then (keyword (str "false") (c :: p)).map (fun r => (.bool false, r))
      else if c = ch 'n' then (keyword (str "null") (c :: p)).map (fun r => (.null, r))
      else parseNumber (c :: p)
/-- After the `[`. -/
def parseArray : Nat → Bytes → Option (Value × Bytes)
  | 0, _ => none
  | n + 1, s =>
    match skipWs s with
    | c :: p => if c = ch ']' then some (.array [], p) else arrayLoop n [] (c :: p)
    | [] => arrayLoop n [] []
def arrayLoop : Nat → List Value → Bytes → Option (Value × Bytes)
  | 0, _, _ => none
  | n + 1, out, s =>
    match parseValue n s with
    | none => none
    | some (v, r) =>
      match skipWs r with
      | [] => none
      | c :: p =>
        if c = ch ',' then arrayLoop n (out ++ [v]) p
        else if c = ch ']' then some (.array (out ++ [v]), p)
        else none
/-- After the `{`. -/
def parseObject : Nat → Bytes → Option (Value × Bytes)
  | 0, _ => none
  | n + 1, s =>
    match skipWs s with
    | c :: p => if c = ch '}' then some (.object [], p) else objectLoop n [] (c :: p)
    | [] => objectLoop n [] []
def objectLoop : Nat → List (Bytes × Value) → Bytes → Option (Value × Bytes)
  | 0, _, _ => none
  | n + 1, out, s =>
    match parseString (skipWs s) with
    | none => none
    | some (key, r) =>
      match skipWs r with
      | [] => none
      | c :: p =>
        if c = ch ':' then
          match parseValue n p with
          | none => none
          | some (v, r) =>
            match skipWs r with
            | [] => none
            | c :: p =>
              if c = ch ',' then objectLoop n (mapSet out key v) p
              else if c = ch '}' then some (.object (mapSet out key v), p)
              else none
        else none
end

/-- `Value::parse`: `none` where it returns false; what follows the value is not looked at. -/
def parse (text : Bytes) : Option Value := (parseValue (3 * text.length + 3) text).map Prod.fst

end Json
end SwitchMcp

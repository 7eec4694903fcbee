import SwitchMcp.JsonParse
import SwitchMcp.PyJson
/-!
# JsonRequest — what the client's `json.dumps` means to the agent's parser

`json.dumps` writes a JSON text (`dumps_eq_text`), so the agent parses it to `ofPy` of the message (`parse_dumps`):
integers saturate at the `int64_t` range, and a character above U+FFFF arrives as the three-byte encodings of its two
surrogates.
-/
namespace SwitchMcp
namespace Json

open JsonText (Tree Elems Members Item Number Digit digitByte isDigit decimal IntPart strText fracText expText)

/-! ## A request's text -/

mutual
/-- No NaN and no infinity: what JSON can carry. -/
def isFinite : PyJson → Bool
  | .inf _ => false
  | .nan => false
  | .list l => isFiniteList l
  | .dict d => isFiniteDict d
  | _ => true
def isFiniteList : List PyJson → Bool
  | [] => true
  | v :: l => isFinite v && isFiniteList l
def isFiniteDict : List (PyStr × PyJson) → Bool
  | [] => true
  | (_, v) :: d => isFinite v && isFiniteDict d
end

/-- The items `json.dumps` writes for a character. -/
def charItems (c : CodePoint) : List Item :=
  if c = cp 34 then [.esc .quote]
  else if c = cp 92 then [.esc .backslash]
  else if c = cp 10 then [.esc .n]
  else if c = cp 13 then [.esc .r]
  else if c = cp 9 then [.esc .t]
  else if c = cp 12 then [.esc .f]
  else if c = cp 8 then [.esc .b]
  else if 0x20 ≤ c.val ∧ c.val ≤ 0x7E then
    if ok : UInt8.ofNat c.val ≠ ch '"' ∧ UInt8.ofNat c.val ≠ ch '\\' then [.raw (UInt8.ofNat c.val) ok] else []
  else (utf16Units c.val).map Item.ofUnit

def pyItems (s : PyStr) : List Item := s.flatMap charItems

mutual
/-- The syntax of what `json.dumps` writes. -/
def treeOf : PyJson → Tree
  | .bool b => .bool b
  | .int i => .num (.ofInt i)
  | .float n _ => .num n
  | .str s => .str (pyItems s)
  | .list [] => .arr0 []
  | .list (v :: l) => .arr (elemsOf [] (treeOf v) l)
  | .dict [] => .obj0 []
  | .dict ((k, v) :: d) => .obj (membersOf [] k (treeOf v) d)
  | _ => .null
def elemsOf (g : JsonText.Gap) (t : Tree) : List PyJson → Elems
  | [] => .last g t []
  | v :: l => .cons g t [] (elemsOf [.space] (treeOf v) l)
def membersOf (g : JsonText.Gap) (k : PyStr) (t : Tree) : List (PyStr × PyJson) → Members
  | [] => .last g (pyItems k) [] [.space] t []
  | (k', v) :: d => .cons g (pyItems k) [] [.space] t [] (membersOf [.space] k' (treeOf v) d)
end

theorem cp_ne {c : CodePoint} {n : Nat} (hn : n < 0x110000) (h : c ≠ cp n) : c.val ≠ n := fun e =>
  h (Fin.ext (by rw [e, cp, Fin.val_ofNat, Nat.mod_eq_of_lt hn]))

theorem raw_ok {c : CodePoint} (h34 : c.val ≠ 34) (h92 : c.val ≠ 92) (hc : c.val ≤ 0x7E) :
    UInt8.ofNat c.val ≠ ch '"' ∧ UInt8.ofNat c.val ≠ ch '\\' := by
  have e : (UInt8.ofNat c.val).toNat = c.val := toNat_ofNat_lt (by omega)
  refine ⟨fun h => h34 ?_, fun h => h92 ?_⟩
  · rw [← e, h]; decide
  · rw [← e, h]; decide

theorem text_charItems (c : CodePoint) : (charItems c).flatMap Item.text = PyJson.escapeChar c := by
  unfold charItems PyJson.escapeChar
  split; · rfl
  rename_i h34
  split; · rfl
  rename_i h92
  split; · rfl
  split; · rfl
  split; · rfl
  split; · rfl
  split; · rfl
  split
  · rename_i hr
    have ok := raw_ok (cp_ne (by omega) h34) (cp_ne (by omega) h92) hr.2
    rw [dif_pos ok]; rfl
  · rw [List.flatMap_map]; rfl

theorem text_pyItems (s : PyStr) : (pyItems s).flatMap Item.text = s.flatMap PyJson.escapeChar := by
  unfold pyItems
  rw [List.flatMap_assoc]
  exact List.flatMap_congr (fun c _ => text_charItems c)

theorem strText_pyItems (s : PyStr) : strText (pyItems s) = PyJson.dumpsStr s := by
  rw [strText, text_pyItems, PyJson.dumpsStr]

mutual
/-- **`json.dumps` writes a JSON text.** -/
theorem dumps_eq_text : ∀ v : PyJson, isFinite v = true → PyJson.dumps v = (treeOf v).text
  | .null, _ => by simp only [PyJson.dumps, treeOf, Tree.text]
  | .bool _, _ => by simp only [PyJson.dumps, treeOf, Tree.text]
  | .int _, _ => by simp only [PyJson.dumps, treeOf, Tree.text]
  | .float _ _, _ => by simp only [PyJson.dumps, treeOf, Tree.text]
  | .inf _, h => by simp [isFinite] at h
  | .nan, h => by simp [isFinite] at h
  | .str s, _ => by simp only [PyJson.dumps, treeOf, Tree.text, strText_pyItems]
  | .list [], _ => by simp [PyJson.dumps, treeOf, Tree.text, PyJson.dumpsList, JsonText.gapText]
  | .list (v :: l), h => by
    simp only [isFinite, isFiniteList, Bool.and_eq_true] at h
    have hl := dumpsList_eq_text [] (treeOf v) l h.2
    simp only [PyJson.dumps, treeOf, Tree.text, PyJson.dumpsList, if_true, List.nil_append, dumps_eq_text v h.1]
    rw [← hl]; simp [JsonText.gapText]
  | .dict [], _ => by simp [PyJson.dumps, treeOf, Tree.text, PyJson.dumpsDict, JsonText.gapText]
  | .dict ((k, v) :: d), h => by
    simp only [isFinite, isFiniteDict, Bool.and_eq_true] at h
    have hd := dumpsDict_eq_text [] k (treeOf v) d h.2
    simp only [PyJson.dumps, treeOf, Tree.text, PyJson.dumpsDict, if_true, List.nil_append, dumps_eq_text v h.1]
    rw [← hd]; simp [JsonText.gapText]
/-- The elements after the first one, whose text is `t`'s. -/
theorem dumpsList_eq_text (g : JsonText.Gap) (t : Tree) : ∀ l : List PyJson, isFiniteList l = true →
    JsonText.gapText g ++ (t.text ++ PyJson.dumpsList false l) = (elemsOf g t l).text
  | [], _ => by simp only [elemsOf, Elems.text, PyJson.dumpsList, JsonText.gapText, List.map_nil]
  | w :: l, h => by
    simp only [isFiniteList, Bool.and_eq_true] at h
    have ih := dumpsList_eq_text [.space] (treeOf w) l h.2
    simp only [elemsOf, Elems.text, dumps_eq_text w h.1, PyJson.dumpsList, ← ih]
    rfl
theorem dumpsDict_eq_text (g : JsonText.Gap) (k : PyStr) (t : Tree) : ∀ d : List (PyStr × PyJson),
    isFiniteDict d = true →
    JsonText.gapText g ++ (PyJson.dumpsStr k ++ (SwitchMcp.str ": " ++ (t.text ++ PyJson.dumpsDict false d)))
      = (membersOf g k t d).text
  | [], _ => by
    simp only [membersOf, Members.text, PyJson.dumpsDict, strText_pyItems]
    rfl
  | (k', w) :: d, h => by
    simp only [isFiniteDict, Bool.and_eq_true] at h
    have ih := dumpsDict_eq_text [.space] k' (treeOf w) d h.2
    simp only [membersOf, Members.text, dumps_eq_text w h.1, PyJson.dumpsDict, strText_pyItems, ← ih]
    rfl
end

/-! ## What the agent makes of it -/

/-- `strtoll` of an integer literal: the range of `int64_t` saturates. -/
def saturate (i : Int) : Int64 := Int64.ofInt (max (-2 ^ 63) (min (2 ^ 63 - 1) i))

/-- A string on the agent: every UTF-16 unit encoded by itself. -/
def agentStr (s : PyStr) : Bytes := s.flatMap (fun c => (utf16Units c.val).flatMap encodeUnit)

mutual
/-- The agent's value of a message. -/
def ofPy : PyJson → Value
  | .bool b => .bool b
  | .int i => .int (saturate i)
  | .float n _ => .double (strtod n.text)
  | .str s => .string (agentStr s)
  | .list l => .array (ofPyList l)
  | .dict d => .object (ofPyDict [] d)
  | _ => .null
def ofPyList : List PyJson → List Value
  | [] => []
  | v :: l => ofPy v :: ofPyList l
def ofPyDict (o : List (Bytes × Value)) : List (PyStr × PyJson) → List (Bytes × Value)
  | [] => o
  | (k, v) :: d => ofPyDict (mapSet o (agentStr k) (ofPy v)) d
end

theorem encodeUnit_ascii {u : Nat} (h : u < 0x80) : encodeUnit u = [UInt8.ofNat u] := by
  rw [encodeUnit, if_pos h]

theorem or_lead {a b k : Nat} (m : Nat) (h : b < 2 ^ k) (ha : a = 2 ^ k * m) : a ||| b = a + b := by
  rw [ha, ← Nat.two_pow_add_eq_or_of_lt h m]

theorem or_tail (n : Nat) : 0x80 ||| n &&& 0x3F = 0x80 + n % 64 := by
  have h : n &&& 0x3F = n % 64 := Nat.and_two_pow_sub_one_eq_mod n 6
  rw [h]
  exact or_lead (k := 7) 1 (by omega) rfl

/-- **The agent's escape decoder writes UTF-8, one UTF-16 unit at a time.** -/
theorem encodeUnit_eq_utf8Char {u : Nat} (h : u < 0x10000) : encodeUnit u = utf8Char u := by
  unfold encodeUnit utf8Char
  split
  · rfl
  · split
    · rw [or_tail, Nat.shiftRight_eq_div_pow, or_lead (k := 5) 6 (by omega) (by omega)]
    · rw [or_tail, or_tail, Nat.shiftRight_eq_div_pow, Nat.shiftRight_eq_div_pow,
        or_lead (k := 4) 14 (by omega) (by omega)]

theorem utf16Units_bmp {c : Nat} (h : c < 0x10000) : utf16Units c = [c] := by rw [utf16Units, if_pos h]

theorem utf16Units_lt (c : CodePoint) : ∀ u ∈ utf16Units c.val, u < 65536 := by
  have hc := c.isLt
  intro u hu
  unfold utf16Units at hu
  split at hu
  · rw [List.mem_singleton.1 hu]; omega
  · rcases List.mem_cons.1 hu with rfl | hu
    · omega
    · rw [List.mem_singleton.1 hu]; omega

theorem bytes_ofUnit {u : Nat} (h : u < 65536) : itemBytes (Item.ofUnit u) = encodeUnit u := by
  rw [Item.ofUnit, itemBytes, JsonText.hexVal_ofUnit u h]

theorem bytes_charItems (c : CodePoint) : (charItems c).flatMap itemBytes = (utf16Units c.val).flatMap encodeUnit := by
  unfold charItems
  split; · rename_i h; subst h; decide
  rename_i h34
  split; · rename_i h; subst h; decide
  rename_i h92
  split; · rename_i h; subst h; decide
  split; · rename_i h; subst h; decide
  split; · rename_i h; subst h; decide
  split; · rename_i h; subst h; decide
  split; · rename_i h; subst h; decide
  split
  · rename_i hr
    have ok := raw_ok (cp_ne (by omega) h34) (cp_ne (by omega) h92) hr.2
    rw [dif_pos ok, utf16Units_bmp (by omega), List.flatMap_singleton, List.flatMap_singleton, itemBytes,
      encodeUnit_ascii (by omega)]
  · rw [List.flatMap_map]
    exact List.flatMap_congr (fun u hu => bytes_ofUnit (utf16Units_lt c u hu))

theorem strBytes_pyItems (s : PyStr) : strBytes (pyItems s) = agentStr s := by
  rw [strBytes, pyItems, List.flatMap_assoc]
  exact List.flatMap_congr (fun c _ => bytes_charItems c)

theorem takeSign_ofInt (i : Int) :
    takeSign (Number.ofInt i).text = (decide (i < 0), (decimal i.natAbs).map digitByte) := by
  rw [Number.text_ofInt]
  by_cases h : i < 0
  · simp [h, takeSign]
  · obtain ⟨d, l, e⟩ := List.exists_cons_of_ne_nil (JsonText.decimal_intPart i.natAbs).ne_nil
    have hd := digitByte_not_sign d
    rw [not_or] at hd
    simp [h, e, takeSign, hd.1, hd.2]

/-- **An integer literal is read as the integer, saturated.** -/
theorem strtoll_ofInt (i : Int) : strtoll (Number.ofInt i).text = saturate i := by
  simp only [strtoll, takeSign_ofInt, takeDigits_map, JsonText.digitsVal_decimal, saturate, decide_eq_true_eq]
  have h : (if i < 0 then -(i.natAbs : Int) else i.natAbs) = i := by split <;> omega
  rw [h]

mutual
theorem readTree_treeOf : ∀ v : PyJson, readTree (treeOf v) = ofPy v
  | .null => by simp only [treeOf, readTree, ofPy]
  | .bool _ => by simp only [treeOf, readTree, ofPy]
  | .int i => by simp only [treeOf, readTree, readNum, Number.isInt_ofInt, if_true, strtoll_ofInt, ofPy]
  | .float n h => by simp only [treeOf, readTree, readNum, h, Bool.false_eq_true, if_false, ofPy]
  | .inf _ => by simp only [treeOf, readTree, ofPy]
  | .nan => by simp only [treeOf, readTree, ofPy]
  | .str s => by simp only [treeOf, readTree, strBytes_pyItems, ofPy]
  | .list [] => by simp only [treeOf, readTree, ofPy, ofPyList]
  | .list (v :: l) => by
    simp only [treeOf, readTree, ofPy, ofPyList, readElems_elemsOf [] (treeOf v) l, readTree_treeOf v]
  | .dict [] => by simp only [treeOf, readTree, ofPy, ofPyDict]
  | .dict ((k, v) :: d) => by
    simp only [treeOf, readTree, ofPy, ofPyDict, readMembers_membersOf [] k (treeOf v) d [], readTree_treeOf v]
theorem readElems_elemsOf (g : JsonText.Gap) (t : Tree) : ∀ l : List PyJson,
    readElems (elemsOf g t l) = readTree t :: ofPyList l
  | [] => by simp only [elemsOf, readElems, ofPyList]
  | v :: l => by
    simp only [elemsOf, readElems, ofPyList, readElems_elemsOf [.space] (treeOf v) l, readTree_treeOf v]
theorem readMembers_membersOf (g : JsonText.Gap) (k : PyStr) (t : Tree) : ∀ (d : List (PyStr × PyJson))
    (o : List (Bytes × Value)), readMembers o (membersOf g k t d) = ofPyDict (mapSet o (agentStr k) (readTree t)) d
  | [], o => by simp only [membersOf, readMembers, ofPyDict, strBytes_pyItems]
  | (k', v) :: d, o => by
    simp only [membersOf, readMembers, ofPyDict, strBytes_pyItems,
      readMembers_membersOf [.space] k' (treeOf v) d _, readTree_treeOf v]
end

/-- **The agent parses what the client writes.** -/
theorem parse_dumps (v : PyJson) (h : isFinite v = true) : parse (PyJson.dumps v) = some (ofPy v) := by
  rw [dumps_eq_text v h, parse_text, readTree_treeOf]

end Json
end SwitchMcp

import SwitchMcp.JsonRequest
/-!
# JsonDump — the agent reads back what it writes (agent/source/json.cpp)

`dump` writes a JSON text whatever the value (`write_eq_text`), and a value without a double is what that text denotes
to the same parser (`readTree_dumpTree`): every byte of a string comes back from its escape or as itself, an `int64_t`
does not saturate, and a map's members come in the order of their keys.
-/
namespace SwitchMcp
namespace Json

open JsonText (Tree Elems Members Item Number strText)

/-! ## A value's text -/

/-- What `write_string` writes for a byte. -/
def byteItem (c : UInt8) : Item :=
  if c = ch '"' then .esc .quote
  else if c = ch '\\' then .esc .backslash
  else if c = 10 then .esc .n
  else if c = 13 then .esc .r
  else if c = 9 then .esc .t
  else if c = 8 then .esc .b
  else if c = 12 then .esc .f
  else if c < 0x20 then Item.ofUnit c.toNat
  else if ok : c ≠ ch '"' ∧ c ≠ ch '\\' then .raw c ok else .esc .slash

mutual
def dumpTree : Value → Tree
  | .null => .null
  | .bool b => .bool b
  | .int i => .num (.ofInt i.toInt)
  | .double (.finite neg m e) => .num (fmt10g neg m e)
  | .double _ => .null
  | .string s => .str (s.map byteItem)
  | .array [] => .arr0 []
  | .array (v :: a) => .arr (dumpElems (dumpTree v) a)
  | .object [] => .obj0 []
  | .object ((k, v) :: o) => .obj (dumpMembers k (dumpTree v) o)
/-- The elements after one whose syntax is `t`. -/
def dumpElems (t : Tree) : List Value → Elems
  | [] => .last [] t []
  | v :: a => .cons [] t [] (dumpElems (dumpTree v) a)
def dumpMembers (k : Bytes) (t : Tree) : List (Bytes × Value) → Members
  | [] => .last [] (k.map byteItem) [] [] t []
  | (k', v) :: o => .cons [] (k.map byteItem) [] [] t [] (dumpMembers k' (dumpTree v) o)
end

theorem text_byteItem (c : UInt8) : (byteItem c).text = writeChar c := by
  unfold byteItem writeChar
  split; · rfl
  rename_i hq
  split; · rfl
  rename_i hb
  split; · rfl
  split; · rfl
  split; · rfl
  split; · rfl
  split; · rfl
  split; · rfl
  rw [dif_pos ⟨hq, hb⟩]
  rfl

theorem strText_byteItems (s : Bytes) : strText (s.map byteItem) = writeString s := by
  rw [strText, writeString, List.flatMap_map]
  congr 2
  exact List.flatMap_congr (fun c _ => text_byteItem c)

mutual
/-- **`dump` writes a JSON text.** -/
theorem write_eq_text : ∀ v : Value, write v = (dumpTree v).text
  | .null => by simp only [write, dumpTree, Tree.text]
  | .bool _ => by simp only [write, dumpTree, Tree.text]
  | .int i => by simp only [write, dumpTree, Tree.text, writeInt]
  | .double (.finite _ _ _) => by simp only [write, dumpTree, Tree.text, writeDouble]
  | .double (.inf _) => by simp only [write, dumpTree, Tree.text, writeDouble]
  | .double .nan => by simp only [write, dumpTree, Tree.text, writeDouble]
  | .string s => by simp only [write, dumpTree, Tree.text, strText_byteItems]
  | .array [] => by simp [write, dumpTree, Tree.text, writeArray, JsonText.gapText]
  | .array (v :: a) => by
    simp only [write, dumpTree, Tree.text, writeArray, if_true, List.nil_append, write_eq_text v,
      writeArray_eq_text (dumpTree v) a]
  | .object [] => by simp [write, dumpTree, Tree.text, writeObject, JsonText.gapText]
  | .object ((k, v) :: o) => by
    simp only [write, dumpTree, Tree.text, writeObject, if_true, List.nil_append, write_eq_text v,
      writeObject_eq_text k (dumpTree v) o]
theorem writeArray_eq_text (t : Tree) : ∀ a : List Value, t.text ++ writeArray false a = (dumpElems t a).text
  | [] => by simp [dumpElems, Elems.text, writeArray, JsonText.gapText]
  | v :: a => by
    have ih := writeArray_eq_text (dumpTree v) a
    simp only [dumpElems, Elems.text, writeArray, ← ih, write_eq_text v, Bool.false_eq_true, if_false,
      JsonText.gapText, List.map_nil, List.nil_append, List.cons_append]
theorem writeObject_eq_text (k : Bytes) (t : Tree) : ∀ o : List (Bytes × Value),
    writeString k ++ ch ':' :: (t.text ++ writeObject false o) = (dumpMembers k t o).text
  | [] => by simp [dumpMembers, Members.text, writeObject, JsonText.gapText, strText_byteItems]
  | (k', v) :: o => by
    have ih := writeObject_eq_text k' (dumpTree v) o
    simp only [dumpMembers, Members.text, writeObject, ← ih, write_eq_text v, strText_byteItems, Bool.false_eq_true,
      if_false, JsonText.gapText, List.map_nil, List.nil_append, List.cons_append]
end

/-! ## Reading it back -/

mutual
/-- No double anywhere in the value. -/
def NoDouble : Value → Prop
  | .double _ => False
  | .array a => NoDoubleArray a
  | .object o => NoDoubleObject o
  | _ => True
def NoDoubleArray : List Value → Prop
  | [] => True
  | v :: a => NoDouble v ∧ NoDoubleArray a
def NoDoubleObject : List (Bytes × Value) → Prop
  | [] => True
  | (_, v) :: o => NoDouble v ∧ NoDoubleObject o
end

theorem itemBytes_byteItem (c : UInt8) : itemBytes (byteItem c) = [c] := by
  unfold byteItem
  split; · rename_i h; subst h; rfl
  rename_i hq
  split; · rename_i h; subst h; rfl
  rename_i hb
  split; · rename_i h; subst h; rfl
  split; · rename_i h; subst h; rfl
  split; · rename_i h; subst h; rfl
  split; · rename_i h; subst h; rfl
  split; · rename_i h; subst h; rfl
  split
  · rename_i h
    have hn : c.toNat < 0x20 := h
    rw [bytes_ofUnit (by omega), encodeUnit_ascii (by omega), UInt8.ofNat_toNat]
  · rw [dif_pos ⟨hq, hb⟩]
    rfl

/-- **Every byte string comes back.** -/
theorem strBytes_byteItems (s : Bytes) : strBytes (s.map byteItem) = s := by
  rw [strBytes, List.flatMap_map]
  conv => rhs; rw [← List.flatMap_singleton' s]
  exact List.flatMap_congr (fun c _ => itemBytes_byteItem c)

/-- **An `int64_t` is inside the range that `strtoll` saturates at.** -/
theorem saturate_toInt (i : Int64) : saturate i.toInt = i := by
  have hlo := i.le_toInt
  have hhi := i.toInt_lt
  rw [saturate, min_eq_right (by omega), max_eq_right (by omega), Int64.ofInt_toInt]

/-- A key above all others goes to the end of the map. -/
theorem mapSet_above : ∀ (o : List (Bytes × Value)) (k : Bytes) (v : Value), (∀ p ∈ o, p.1 < k) →
    mapSet o k v = o ++ [(k, v)]
  | [], _, _, _ => rfl
  | (k0, v0) :: o, k, v, h => by
    have h0 : k0 < k := h (k0, v0) List.mem_cons_self
    unfold mapSet
    rw [if_neg (fun e => List.lt_irrefl k (by rw [e] at h0 ⊢; exact h0)), if_neg (List.lt_asymm h0),
      mapSet_above o k v (fun p hp => h p (List.mem_cons_of_mem _ hp))]
    rfl

mutual
/-- **A value without a double is what its text denotes.** -/
theorem readTree_dumpTree : ∀ v : Value, NoDouble v → Ordered v → readTree (dumpTree v) = v
  | .null, _, _ => by simp only [dumpTree, readTree]
  | .bool _, _, _ => by simp only [dumpTree, readTree]
  | .int i, _, _ => by
    simp only [dumpTree, readTree, readNum, Number.isInt_ofInt, if_true, strtoll_ofInt, saturate_toInt]
  | .double _, hd, _ => hd.elim
  | .string s, _, _ => by simp only [dumpTree, readTree, strBytes_byteItems]
  | .array [], _, _ => by simp only [dumpTree, readTree]
  | .array (v :: a), hd, ho => by
    simp only [NoDouble, NoDoubleArray] at hd
    simp only [Ordered, OrderedArray] at ho
    simp only [dumpTree, readTree, readElems_dumpElems (dumpTree v) a hd.2 ho.2, readTree_dumpTree v hd.1 ho.1]
  | .object [], _, _ => by simp only [dumpTree, readTree]
  | .object ((k, v) :: o), hd, ho => by
    simp only [NoDouble, NoDoubleObject] at hd
    simp only [Ordered, OrderedObject] at ho
    simp only [dumpTree, readTree,
      readMembers_dumpMembers k (dumpTree v) o [] hd.2 ho.2.2 ho.1 (fun p hp => nomatch hp),
      readTree_dumpTree v hd.1 ho.2.1, List.nil_append]
theorem readElems_dumpElems (t : Tree) : ∀ a : List Value, NoDoubleArray a → OrderedArray a →
    readElems (dumpElems t a) = readTree t :: a
  | [], _, _ => by simp only [dumpElems, readElems]
  | v :: a, hd, ho => by
    simp only [NoDoubleArray] at hd
    simp only [OrderedArray] at ho
    simp only [dumpElems, readElems, readElems_dumpElems (dumpTree v) a hd.2 ho.2, readTree_dumpTree v hd.1 ho.1]
/-- The members before a map's own have smaller keys. -/
theorem readMembers_dumpMembers (k : Bytes) (t : Tree) : ∀ (o pre : List (Bytes × Value)), NoDoubleObject o →
    OrderedObject o → (k :: o.map Prod.fst).Pairwise (· < ·) → (∀ p ∈ pre, p.1 < k) →
    readMembers pre (dumpMembers k t o) = pre ++ (k, readTree t) :: o
  | [], pre, _, _, _, hpre => by
    simp only [dumpMembers, readMembers, strBytes_byteItems, mapSet_above pre k _ hpre]
  | (k', v) :: o, pre, hd, ho, hs, hpre => by
    simp only [NoDoubleObject] at hd
    simp only [OrderedObject] at ho
    rw [List.map_cons, List.pairwise_cons] at hs
    have hk : k < k' := hs.1 k' List.mem_cons_self
    have hpre' : ∀ p ∈ pre ++ [(k, readTree t)], p.1 < k' := by
      intro p hp
      rcases List.mem_append.1 hp with hp | hp
      · exact List.lt_trans (hpre p hp) hk
      · rw [List.mem_singleton.1 hp]
        exact hk
    simp only [dumpMembers, readMembers, strBytes_byteItems, mapSet_above pre k _ hpre]
    rw [readMembers_dumpMembers k' (dumpTree v) o _ hd.2 ho.2 hs.2 hpre', readTree_dumpTree v hd.1 ho.1,
      List.append_assoc, List.singleton_append]
end

/-- **The agent's parser reads back what its writer wrote**, for every value without a double. -/
theorem parse_dump (v : Value) (hd : NoDouble v) (ho : Ordered v) : parse (dump v) = some v := by
  rw [dump, write_eq_text, parse_text, readTree_dumpTree v hd ho]

theorem parse_dump_nested :
    parse (dump (.object [([0, 34], .array [.int Int64.minValue, .string [255, 92, 31]])])) =
      some (.object [([0, 34], .array [.int Int64.minValue, .string [255, 92, 31]])]) :=
  parse_dump _ ⟨⟨trivial, trivial, trivial⟩, trivial⟩
    ⟨List.pairwise_singleton _ _, ⟨trivial, trivial, trivial⟩, trivial⟩

end Json
end SwitchMcp

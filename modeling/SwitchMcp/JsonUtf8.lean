import SwitchMcp.JsonReply
import SwitchMcp.Fields
import SwitchMcp.Utf8
/-!
# JsonUtf8 — which values are written as valid UTF-8 (agent/source/json.cpp, `write_string`)

The writer escapes control characters and passes every byte above U+007F through.  So the text of a value is valid UTF-8
exactly when each of its strings is (`validUtf8_dump_iff`), and for an object that was put together from members, exactly
when the values of its members are (`validValue_ofMembers_iff`).
-/
namespace SwitchMcp
namespace Json

mutual
/-- Every string in the value, keys included, is valid UTF-8. -/
def ValidValue : Value → Prop
  | .string s => ValidUtf8 s
  | .array a => ValidArray a
  | .object o => ValidObject o
  | _ => True
def ValidArray : List Value → Prop
  | [] => True
  | v :: a => ValidValue v ∧ ValidArray a
def ValidObject : List (Bytes × Value) → Prop
  | [] => True
  | (k, v) :: o => ValidUtf8 k ∧ ValidValue v ∧ ValidObject o
end

theorem validArray_iff (a : List Value) : ValidArray a ↔ ∀ v ∈ a, ValidValue v := by
  induction a with
  | nil => simp [ValidArray]
  | cons v a ih => rw [ValidArray, ih, List.forall_mem_cons]

theorem ValidUtf8.isUtf8 {s : Bytes} (h : ValidUtf8 s) : IsUtf8 s := by
  obtain ⟨l, hl⟩ := h
  exact ⟨l, (encode_eq_some.1 hl).2⟩

mutual
theorem ValidValue.utf8 : ∀ v : Value, ValidValue v → Utf8Value v
  | .null, _ | .bool _, _ | .int _, _ | .double _, _ => trivial
  | .string _, h => ValidUtf8.isUtf8 h
  | .array a, h => ValidArray.utf8 a h
  | .object o, h => ValidObject.utf8 o h
theorem ValidArray.utf8 : ∀ a : List Value, ValidArray a → Utf8Array a
  | [], _ => trivial
  | v :: a, h => ⟨ValidValue.utf8 v h.1, ValidArray.utf8 a h.2⟩
theorem ValidObject.utf8 : ∀ o : List (Bytes × Value), ValidObject o → Utf8Object o
  | [], _ => trivial
  | (_, v) :: o, h => ⟨ValidUtf8.isUtf8 h.1, ValidValue.utf8 v h.2.1, ValidObject.utf8 o h.2.2⟩
end

/-! ## Writing -/

/-- An ASCII byte is written as ASCII, and as something. -/
theorem writeChar_cons {b : UInt8} (h : b.toNat < 0x80) : ∃ x t, writeChar b = x :: t ∧ x.toNat < 0x80 ∧ ValidUtf8 t := by
  have hascii := writeChar_ascii b.toNat h
  rw [UInt8.ofNat_toNat] at hascii
  have hmem := allAscii_mem hascii
  have hne : ∀ n < 128, writeChar (UInt8.ofNat n) ≠ [] := by decide
  obtain ⟨x, t, hx⟩ := List.exists_cons_of_ne_nil (by have := hne b.toNat h; rwa [UInt8.ofNat_toNat] at this)
  rw [hx] at hmem
  exact ⟨x, t, hx, hmem x List.mem_cons_self, validUtf8_ascii fun y hy => hmem y (List.mem_cons_of_mem x hy)⟩

/-- **The characters of a string are written as valid UTF-8 exactly when they are.** -/
theorem validUtf8_writeChars (k s : Bytes) :
    ValidUtf8 (k.flatMap writeChar ++ ch '"' :: s) ↔ ValidUtf8 k ∧ ValidUtf8 s := by
  have hq : (ch '"').toNat < 0x80 := by decide
  generalize hn : k.length = n
  induction n using Nat.strong_induction_on generalizing k with
  | _ n ih =>
    have hhigh : ∀ b ∈ k.takeWhile (fun b => decide (0x80 ≤ b.toNat)), 0x80 ≤ b.toNat := fun b hb =>
      of_decide_eq_true (List.mem_takeWhile_imp (p := fun b : UInt8 => decide (0x80 ≤ b.toNat)) hb)
    have hsplit := List.takeWhile_append_dropWhile (p := fun b : UInt8 => decide (0x80 ≤ b.toNat)) (l := k)
    generalize k.takeWhile (fun b => decide (0x80 ≤ b.toNat)) = h at hhigh hsplit
    have hhead := List.head?_dropWhile_not (fun b : UInt8 => decide (0x80 ≤ b.toNat)) k
    generalize k.dropWhile (fun b => decide (0x80 ≤ b.toNat)) = d at hsplit hhead
    cases d with
    | nil =>
      rw [List.append_nil] at hsplit
      rw [← hsplit, flatMap_writeChar_high h hhigh, validUtf8_split hq]
    | cons c k' =>
      have hc : c.toNat < 0x80 := by simpa using hhead
      obtain ⟨x, t, hx, hxl, ht⟩ := writeChar_cons hc
      rw [← hsplit, List.length_append, List.length_cons] at hn
      have hk' : ValidUtf8 (k'.flatMap writeChar ++ ch '"' :: s) ↔ ValidUtf8 k' ∧ ValidUtf8 s :=
        ih k'.length (by omega) k' rfl
      rw [← hsplit, List.flatMap_append, flatMap_writeChar_high h hhigh, List.flatMap_cons, hx, List.append_assoc,
        List.append_assoc, List.cons_append, validUtf8_split hxl, validUtf8_append_iff ht, hk', validUtf8_split hc, and_assoc]

theorem validUtf8_writeString (k s : Bytes) : ValidUtf8 (writeString k ++ s) ↔ ValidUtf8 k ∧ ValidUtf8 s := by
  rw [writeString, List.cons_append, List.append_assoc, List.singleton_append, validUtf8_cons (by decide),
    validUtf8_writeChars]

/-- After an ASCII text, validity is the rest's. -/
theorem validUtf8_asc {a : Bytes} (h : ∀ b ∈ a, b.toNat < 0x80) (s : Bytes) : ValidUtf8 (a ++ s) ↔ ValidUtf8 s :=
  validUtf8_append_iff (validUtf8_ascii h) s

theorem validUtf8_comma (first : Bool) (s : Bytes) : ValidUtf8 ((if first then [] else [ch ',']) ++ s) ↔ ValidUtf8 s := by
  cases first with
  | true => exact Iff.rfl
  | false => exact validUtf8_asc (allAscii_mem (by decide)) s

theorem validUtf8_plain {a : Bytes} (h : ∀ b ∈ a, b.toNat < 0x80) (s : Bytes) :
    ValidUtf8 (a ++ s) ↔ True ∧ ValidUtf8 s := by
  rw [true_and, validUtf8_asc h]

mutual
theorem validUtf8_write : ∀ (v : Value) (s : Bytes), ValidUtf8 (write v ++ s) ↔ ValidValue v ∧ ValidUtf8 s
  | .null, s => validUtf8_plain (allAscii_mem (by decide)) s
  | .bool true, s => validUtf8_plain (allAscii_mem (by decide)) s
  | .bool false, s => validUtf8_plain (allAscii_mem (by decide)) s
  | .int _, s => validUtf8_plain (num_ascii _) s
  | .double (.finite _ _ _), s => validUtf8_plain (num_ascii _) s
  | .double (.inf _), s => validUtf8_plain (a := str "null") (allAscii_mem (by decide)) s
  | .double .nan, s => validUtf8_plain (a := str "null") (allAscii_mem (by decide)) s
  | .string k, s => validUtf8_writeString k s
  | .array a, s => by
    rw [write, ValidValue, List.cons_append, List.append_assoc, validUtf8_cons (by decide), validUtf8_writeArray true a,
      List.singleton_append, validUtf8_cons (by decide)]
  | .object o, s => by
    rw [write, ValidValue, List.cons_append, List.append_assoc, validUtf8_cons (by decide), validUtf8_writeObject true o,
      List.singleton_append, validUtf8_cons (by decide)]
theorem validUtf8_writeArray : ∀ (first : Bool) (a : List Value) (s : Bytes),
    ValidUtf8 (writeArray first a ++ s) ↔ ValidArray a ∧ ValidUtf8 s
  | _, [], s => by rw [writeArray, ValidArray, true_and, List.nil_append]
  | first, v :: a, s => by
    rw [writeArray, ValidArray, List.append_assoc, List.append_assoc, validUtf8_comma, validUtf8_write v,
      validUtf8_writeArray false a, and_assoc]
theorem validUtf8_writeObject : ∀ (first : Bool) (o : List (Bytes × Value)) (s : Bytes),
    ValidUtf8 (writeObject first o ++ s) ↔ ValidObject o ∧ ValidUtf8 s
  | _, [], s => by rw [writeObject, ValidObject, true_and, List.nil_append]
  | first, (k, v) :: o, s => by
    rw [writeObject, ValidObject, List.append_assoc, List.append_assoc, List.cons_append, List.append_assoc,
      validUtf8_comma, validUtf8_writeString k, validUtf8_cons (by decide), validUtf8_write v,
      validUtf8_writeObject false o, and_assoc, and_assoc]
end

/-- **The text of a value is valid UTF-8 exactly when its strings are.** -/
theorem validUtf8_dump_iff (v : Value) : ValidUtf8 (dump v) ↔ ValidValue v := by
  have h := validUtf8_write v []
  rw [List.append_nil] at h
  exact h.trans (and_iff_left validUtf8_nil)

/-- **Valid text is loaded.** -/
theorem loads_of_validValue {v : Value} (h : ValidValue v) : PyJson.loads (dump v) = some (toPy v) :=
  loads_dump v (ValidValue.utf8 v h)

/-! ## Objects -/

/-- Setting a new member. -/
theorem validObject_mapSet : ∀ (o : List (Bytes × Value)) (k : Bytes) (v : Value), mapFind o k = none →
    (ValidObject (mapSet o k v) ↔ ValidObject o ∧ ValidUtf8 k ∧ ValidValue v)
  | [], k, v, _ => by simp [mapSet, ValidObject]
  | (k0, v0) :: o, k, v, h => by
    rw [mapFind_cons] at h
    have hne : k0 ≠ k := fun e => by
      rw [if_pos e] at h
      cases h
    rw [if_neg hne] at h
    rw [mapSet, if_neg (Ne.symm hne)]
    split
    · rw [ValidObject, ValidObject]
      tauto
    · rw [ValidObject, ValidObject, validObject_mapSet o k v h]
      tauto

/-- An object with its members set one after the other. -/
def ofMembers (l : List (String × Value)) : Value := l.foldl (fun v m => v.set (str m.1) m.2) (.object [])

theorem ofMembers_snoc (l : List (String × Value)) (m : String × Value) :
    ofMembers (l ++ [m]) = (ofMembers l).set (str m.1) m.2 := by
  rw [ofMembers, List.foldl_append]
  rfl

theorem validUtf8_str {s : String} (h : asciiOnly s = true) : ValidUtf8 (str s) := by
  refine validUtf8_ascii fun b hb => ?_
  obtain ⟨c, hc, rfl⟩ := List.mem_map.1 hb
  have := asciiOnly_mem h c hc
  rw [ch, toNat_ofNat_lt (by omega)]
  exact this

/-- Keys of members: distinct and ASCII. -/
def MemberKeys (keys : List String) : Prop := (keys.map str).Nodup ∧ ∀ k ∈ keys, asciiOnly k = true

instance (keys : List String) : Decidable (MemberKeys keys) := inferInstanceAs (Decidable (_ ∧ _))

theorem object_ofMembers : ∀ l : List (String × Value), MemberKeys (l.map Prod.fst) →
    ∃ o, ofMembers l = .object o ∧ (∀ k, k ∉ (l.map Prod.fst).map str → mapFind o k = none) ∧
      (ValidObject o ↔ ∀ m ∈ l, ValidValue m.2) := by
  intro l
  induction l using List.reverseRecOn with
  | nil => exact fun _ => ⟨[], rfl, fun _ _ => rfl, iff_of_true trivial (by simp)⟩
  | append_singleton l m ih =>
    rintro ⟨hk, ha⟩
    rw [List.map_append, List.map_singleton] at hk ha ⊢
    rw [List.map_append, List.map_singleton] at hk ⊢
    rw [List.nodup_append] at hk
    obtain ⟨hk, -, hnew⟩ := hk
    obtain ⟨o, ho, hfind, hiff⟩ := ih ⟨hk, fun k hk => ha k (List.mem_append_left _ hk)⟩
    have hm : mapFind o (str m.1) = none := hfind _ fun hmem => hnew _ hmem _ (List.mem_singleton.2 rfl) rfl
    have hkey := validUtf8_str (ha m.1 (List.mem_append_right _ (List.mem_singleton.2 rfl)))
    refine ⟨mapSet o (str m.1) m.2, by rw [ofMembers_snoc, ho]; rfl, fun k hkn => ?_, ?_⟩
    · rw [List.mem_append, not_or] at hkn
      rw [mapFind_mapSet, if_neg fun e => hkn.2 (List.mem_singleton.2 e.symm)]
      exact hfind k hkn.1
    · rw [validObject_mapSet o _ _ hm, hiff, List.forall_mem_append, List.forall_mem_singleton]
      exact and_congr_right fun _ => and_iff_right hkey

/-- **An object's text is valid exactly when the values of its members are.** -/
theorem validValue_ofMembers_iff (keys : List String) {l : List (String × Value)} (hl : l.map Prod.fst = keys)
    (hk : MemberKeys keys) : ValidValue (ofMembers l) ↔ ∀ m ∈ l, ValidValue m.2 := by
  obtain ⟨o, ho, -, hiff⟩ := object_ofMembers l (by rwa [hl])
  rw [ho]
  exact hiff

end Json
end SwitchMcp

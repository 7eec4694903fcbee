import SwitchMcp.Unicode
/-!
# Utf8 — cutting UTF-8 text

`ValidUtf8` is what a strict decoder accepts.  A character is told from its first byte, which is no continuation byte, so
valid text splits at every ASCII byte (`validUtf8_split`) and a cut at `k` leaves valid text exactly where no character is
in progress (`validUtf8_take_iff`, `validUtf8_drop_iff`).
-/
namespace SwitchMcp

/-- Bytes that are the UTF-8 of some text, without surrogates. -/
def ValidUtf8 (s : Bytes) : Prop := ∃ l : PyStr, encode l = some s

/-- No character is in progress at `k`: the byte there continues none. -/
def AtChar (s : Bytes) (k : Nat) : Prop := ∀ b, s[k]? = some b → isTail b = false

instance (s : Bytes) (k : Nat) : Decidable (AtChar s k) :=
  inferInstanceAs (Decidable (∀ b ∈ s[k]?, isTail b = false))

theorem encode_eq_some {l : PyStr} {s : Bytes} :
    encode l = some s ↔ (∀ c ∈ l, isSurrogate c.val = false) ∧ s = utf8 l := by
  unfold encode
  by_cases h : (l.any fun c => isSurrogate c.val) = true
  · rw [if_pos h]
    refine iff_of_false (by simp) fun hl => ?_
    obtain ⟨c, hc, hs⟩ := List.any_eq_true.1 h
    rw [hl.1 c hc] at hs
    cases hs
  · rw [if_neg h, Option.some.injEq]
    rw [List.any_eq_true] at h
    exact ⟨fun e => ⟨fun c hc => Bool.eq_false_iff.2 fun hs => h ⟨c, hc, hs⟩, e.symm⟩, fun e => e.2.symm⟩

theorem validUtf8_nil : ValidUtf8 [] := ⟨[], rfl⟩

theorem validUtf8_utf8 {l : PyStr} (h : ∀ c ∈ l, isSurrogate c.val = false) : ValidUtf8 (utf8 l) :=
  ⟨l, encode_eq_some.2 ⟨h, rfl⟩⟩

/-- **After valid text, validity is the rest's.** -/
theorem validUtf8_append_iff {a : Bytes} (ha : ValidUtf8 a) (s : Bytes) : ValidUtf8 (a ++ s) ↔ ValidUtf8 s := by
  obtain ⟨l, hl⟩ := ha
  obtain ⟨hsur, rfl⟩ := encode_eq_some.1 hl
  constructor
  · rintro ⟨m, hm⟩
    obtain ⟨hm, e⟩ := encode_eq_some.1 hm
    have hdec := utf8Decode_append l s
    rw [e, utf8Decode_utf8] at hdec
    obtain ⟨m', -, rfl⟩ := Option.map_eq_some_iff.1 hdec.symm
    rw [utf8_append, List.append_cancel_left_eq] at e
    rw [e]
    exact validUtf8_utf8 fun c hc => hm c (List.mem_append_right l hc)
  · rintro ⟨m, hm⟩
    obtain ⟨hsur', rfl⟩ := encode_eq_some.1 hm
    rw [← utf8_append]
    refine validUtf8_utf8 fun c hc => ?_
    rcases List.mem_append.1 hc with hc | hc
    · exact hsur c hc
    · exact hsur' c hc

theorem ValidUtf8.append {a b : Bytes} (ha : ValidUtf8 a) (hb : ValidUtf8 b) : ValidUtf8 (a ++ b) :=
  (validUtf8_append_iff ha b).2 hb

theorem validUtf8_byte {b : UInt8} (h : b.toNat < 0x80) : ValidUtf8 [b] := by
  have hv : (cp b.toNat).val = b.toNat := Nat.mod_eq_of_lt (by omega)
  have he : utf8 [cp b.toNat] = [b] := by
    rw [utf8, List.flatMap_singleton, hv, utf8Char, if_pos h, UInt8.ofNat_toNat]
  rw [← he]
  refine validUtf8_utf8 fun c hc => ?_
  rw [List.mem_singleton.1 hc, hv, isSurrogate, Bool.and_eq_false_iff]
  exact Or.inl (decide_eq_false (by omega))

theorem validUtf8_cons {b : UInt8} (h : b.toNat < 0x80) (s : Bytes) : ValidUtf8 (b :: s) ↔ ValidUtf8 s :=
  validUtf8_append_iff (validUtf8_byte h) s

theorem validUtf8_ascii {a : Bytes} (h : ∀ b ∈ a, b.toNat < 0x80) : ValidUtf8 a := by
  induction a with
  | nil => exact validUtf8_nil
  | cons b a ih =>
    rw [validUtf8_cons (h b List.mem_cons_self)]
    exact ih fun c hc => h c (List.mem_cons_of_mem b hc)

/-! ## One character -/

/-- How many bytes the character has that starts with `b`. -/
def utf8Width (b : UInt8) : Nat := if b.toNat < 0x80 then 1 else if b.toNat < 0xE0 then 2 else if b.toNat < 0xF0 then 3 else 4

/-- **A character's first byte says how long it is and continues nothing; its other bytes do.** -/
theorem utf8Char_cons (c : CodePoint) : ∃ b t, utf8Char c.val = b :: t ∧ utf8Width b = t.length + 1 ∧ isTail b = false ∧
    ∀ x ∈ t, isTail x = true := by
  have hc := c.isLt
  have notTail : ∀ {n : Nat}, n < 256 → (n < 0x80 ∨ 0xC0 ≤ n) → isTail (UInt8.ofNat n) = false := by
    intro n hn h
    rw [isTail, toNat_ofNat_lt hn, Bool.and_eq_false_iff]
    rcases h with h | h
    · exact Or.inl (decide_eq_false (by omega))
    · exact Or.inr (decide_eq_false (by omega))
  have width : ∀ {n : Nat}, n < 256 → utf8Width (UInt8.ofNat n) =
      if n < 0x80 then 1 else if n < 0xE0 then 2 else if n < 0xF0 then 3 else 4 := by
    intro n hn
    rw [utf8Width, toNat_ofNat_lt hn]
  unfold utf8Char
  split
  · refine ⟨_, [], rfl, ?_, notTail (by omega) (by omega), by simp⟩
    rw [width (by omega), if_pos (by omega)]
    rfl
  · split
    · refine ⟨_, _, rfl, ?_, notTail (by omega) (by omega), ?_⟩
      · rw [width (by omega), if_neg (by omega), if_pos (by omega)]
        rfl
      · simp only [List.forall_mem_singleton, isTail_ofNat]
    · split
      · refine ⟨_, _, rfl, ?_, notTail (by omega) (by omega), ?_⟩
        · rw [width (by omega), if_neg (by omega), if_neg (by omega), if_pos (by omega)]
          rfl
        · simp only [List.forall_mem_cons, isTail_ofNat, List.not_mem_nil, false_imp_iff, implies_true, and_self]
      · refine ⟨_, _, rfl, ?_, notTail (by omega) (by omega), ?_⟩
        · rw [width (by omega), if_neg (by omega), if_neg (by omega), if_neg (by omega)]
          rfl
        · simp only [List.forall_mem_cons, isTail_ofNat, List.not_mem_nil, false_imp_iff, implies_true, and_self]

theorem isTail_of_ascii {b : UInt8} (h : b.toNat < 0x80) : isTail b = false := by
  rw [isTail, Bool.and_eq_false_iff]
  exact Or.inl (decide_eq_false (by omega))

/-- Part of a character is no text. -/
theorem not_validUtf8_part {b : UInt8} {t p : Bytes} (hb : utf8Width b = t.length + 1) (hp : p.length < t.length) :
    ¬ValidUtf8 (b :: p) := by
  rintro ⟨m, hm⟩
  obtain ⟨-, e⟩ := encode_eq_some.1 hm
  cases m with
  | nil => cases e
  | cons d m =>
    obtain ⟨b', t', hd, hw, -, -⟩ := utf8Char_cons d
    rw [utf8_cons, hd, List.cons_append, List.cons.injEq] at e
    obtain ⟨rfl, rfl⟩ := e
    rw [List.length_append] at hp
    omega

/-- Text starts with no continuation byte. -/
theorem not_validUtf8_tail {b : UInt8} (h : isTail b = true) (p : Bytes) : ¬ValidUtf8 (b :: p) := by
  rintro ⟨m, hm⟩
  obtain ⟨-, e⟩ := encode_eq_some.1 hm
  cases m with
  | nil => cases e
  | cons d m =>
    obtain ⟨b', t', hd, -, ht, -⟩ := utf8Char_cons d
    rw [utf8_cons, hd, List.cons_append, List.cons.injEq] at e
    rw [e.1, ht] at h
    cases h

/-! ## Splitting and cutting -/

theorem validUtf8_before_ascii {x : UInt8} (hx : x.toNat < 0x80) : ∀ (l : PyStr) (a b : Bytes),
    (∀ c ∈ l, isSurrogate c.val = false) → utf8 l = a ++ x :: b → ValidUtf8 a
  | [], a, b, _, e => by
    rw [utf8, List.flatMap_nil] at e
    exact absurd e.symm (by simp)
  | c :: l, a, b, h, e => by
    obtain ⟨y, t, hc, -, -, htail⟩ := utf8Char_cons c
    have hchar : ValidUtf8 (y :: t) := by
      rw [← hc, ← List.append_nil (utf8Char c.val)]
      exact validUtf8_utf8 (l := [c]) fun d hd => h d (by rw [List.mem_singleton.1 hd]; exact List.mem_cons_self)
    cases a with
    | nil => exact validUtf8_nil
    | cons y' a =>
      rw [utf8_cons, hc, List.cons_append, List.cons_append, List.cons.injEq] at e
      obtain ⟨rfl, e⟩ := e
      rcases List.append_eq_append_iff.1 e with ⟨u, rfl, hrest⟩ | ⟨u, ht, hrest⟩
      · have ih := validUtf8_before_ascii hx l u b (fun d hd => h d (List.mem_cons_of_mem c hd)) hrest
        rw [← List.cons_append]
        exact hchar.append ih
      · cases u with
        | nil =>
          rw [List.append_nil] at ht
          rw [← ht]
          exact hchar
        | cons z u =>
          rw [List.cons_append, List.cons.injEq] at hrest
          have hz := htail z (by rw [ht]; simp)
          rw [← hrest.1, isTail_of_ascii hx] at hz
          cases hz

/-- **Text splits at an ASCII byte.** -/
theorem validUtf8_split {x : UInt8} (hx : x.toNat < 0x80) (a b : Bytes) :
    ValidUtf8 (a ++ x :: b) ↔ ValidUtf8 a ∧ ValidUtf8 b := by
  constructor
  · rintro ⟨l, hl⟩
    obtain ⟨h, e⟩ := encode_eq_some.1 hl
    have ha := validUtf8_before_ascii hx l a b h e.symm
    refine ⟨ha, (validUtf8_cons hx b).1 ((validUtf8_append_iff ha _).1 ?_)⟩
    rw [e]
    exact validUtf8_utf8 h
  · rintro ⟨ha, hb⟩
    exact ha.append ((validUtf8_cons hx b).2 hb)

/-- Taking a character, or part of it, off the front of a text. -/
theorem cut_utf8 : ∀ (l : PyStr) (k : Nat), (∀ c ∈ l, isSurrogate c.val = false) →
    (ValidUtf8 ((utf8 l).take k) ↔ AtChar (utf8 l) k) ∧ (ValidUtf8 ((utf8 l).drop k) ↔ AtChar (utf8 l) k)
  | [], k, _ => by
    have hat : AtChar (utf8 []) k := fun b hb => by simp [utf8] at hb
    rw [utf8, List.flatMap_nil, List.take_nil, List.drop_nil]
    exact ⟨iff_of_true validUtf8_nil hat, iff_of_true validUtf8_nil hat⟩
  | c :: l, k, h => by
    obtain ⟨y, t, hc, hw, hy, htail⟩ := utf8Char_cons c
    have hrest : ∀ d ∈ l, isSurrogate d.val = false := fun d hd => h d (List.mem_cons_of_mem c hd)
    have hchar : ValidUtf8 (y :: t) := by
      rw [← hc, ← List.append_nil (utf8Char c.val)]
      exact validUtf8_utf8 (l := [c]) fun d hd => h d (by rw [List.mem_singleton.1 hd]; exact List.mem_cons_self)
    have hall : ValidUtf8 (y :: t ++ utf8 l) := hchar.append (validUtf8_utf8 hrest)
    rw [utf8_cons, hc]
    cases k with
    | zero =>
      have hat : AtChar (y :: t ++ utf8 l) 0 := fun b hb => by
        cases hb
        exact hy
      exact ⟨iff_of_true validUtf8_nil hat, iff_of_true hall hat⟩
    | succ k =>
      by_cases hk : k < t.length
      · have hget : (y :: t ++ utf8 l)[k + 1]? = some t[k] := by
          rw [List.cons_append, List.getElem?_cons_succ, List.getElem?_append_left hk, List.getElem?_eq_getElem hk]
        have htk := htail t[k] (List.getElem_mem hk)
        have hno : ¬AtChar (y :: t ++ utf8 l) (k + 1) := fun hat => by
          have := hat _ hget
          rw [htk] at this
          cases this
        constructor
        · refine iff_of_false ?_ hno
          rw [List.cons_append, List.take_succ_cons, List.take_append_of_le_length (by omega)]
          exact not_validUtf8_part hw (by rw [List.length_take]; omega)
        · refine iff_of_false ?_ hno
          rw [List.cons_append, List.drop_succ_cons, List.drop_append_of_le_length (by omega), List.drop_eq_getElem_cons hk]
          exact not_validUtf8_tail htk _
      · obtain ⟨j, rfl⟩ : ∃ j, k = t.length + j := ⟨k - t.length, by omega⟩
        obtain ⟨ih1, ih2⟩ := cut_utf8 l j hrest
        have hat : AtChar (y :: t ++ utf8 l) (t.length + j + 1) ↔ AtChar (utf8 l) j := by
          unfold AtChar
          rw [List.cons_append, List.getElem?_cons_succ, List.getElem?_append_right (by omega), Nat.add_sub_cancel_left]
        rw [hat, List.cons_append, List.take_succ_cons, List.drop_succ_cons, List.take_append, List.take_of_length_le (by omega),
          List.drop_append, List.drop_of_length_le (by omega), List.nil_append, Nat.add_sub_cancel_left, ← List.cons_append,
          validUtf8_append_iff hchar]
        exact ⟨ih1, ih2⟩

/-- **The beginning of a text is text exactly where no character is in progress.** -/
theorem validUtf8_take_iff {s : Bytes} (h : ValidUtf8 s) (k : Nat) : ValidUtf8 (s.take k) ↔ AtChar s k := by
  obtain ⟨l, hl⟩ := h
  obtain ⟨hsur, rfl⟩ := encode_eq_some.1 hl
  exact (cut_utf8 l k hsur).1

/-- **The end of a text is text exactly where no character is in progress.** -/
theorem validUtf8_drop_iff {s : Bytes} (h : ValidUtf8 s) (k : Nat) : ValidUtf8 (s.drop k) ↔ AtChar s k := by
  obtain ⟨l, hl⟩ := h
  obtain ⟨hsur, rfl⟩ := encode_eq_some.1 hl
  exact (cut_utf8 l k hsur).2

/-- **Text stays text without the occurrences of an ASCII byte.** -/
theorem ValidUtf8.filter_ne {s : Bytes} (h : ValidUtf8 s) {x : UInt8} (hx : x.toNat < 0x80) :
    ValidUtf8 (s.filter (· ≠ x)) := by
  generalize hn : s.length = n
  induction n using Nat.strong_induction_on generalizing s with
  | _ n ih =>
    have keeps : ∀ {a : Bytes}, x ∉ a → a.filter (· ≠ x) = a := fun ha =>
      List.filter_eq_self.2 fun y hy => decide_eq_true fun e => ha (by rwa [← e])
    by_cases hmem : x ∈ s
    · obtain ⟨a, b, rfl, ha⟩ := List.eq_append_cons_of_mem hmem
      obtain ⟨h1, h2⟩ := (validUtf8_split hx a b).1 h
      rw [List.filter_append, keeps ha, List.filter_cons_of_neg (by simp)]
      rw [List.length_append, List.length_cons] at hn
      exact h1.append (ih b.length (by omega) h2 rfl)
    · rw [keeps hmem]
      exact h

end SwitchMcp

import SwitchMcp.ConfigBoot
import SwitchMcp.Path
/-!
# ConfigComments — what a comment in config.ini can do

`LoadConfig` takes the file in pieces of at most 511 bytes and reads each of them as if it were a line.  So a setting's
value goes on into the comment behind it, and a piece of a long comment can be a setting itself.  The text and the text
without its comments give one configuration exactly when, of each setting, the last piece that sets it has no such effect
(`comments_inert_iff`).
-/
namespace SwitchMcp
namespace Agent

open JsonText (isDigit)

/-! ## A text without its comments -/

/-- The first byte of the line that is not blank is `#` or `;`. -/
def IsComment (line : Bytes) : Prop :=
  (line.dropWhile isBlank).head? = some (ch '#') ∨ (line.dropWhile isBlank).head? = some (ch ';')

instance : DecidablePred IsComment := fun _ => inferInstanceAs (Decidable (_ ∨ _))

/-- The bytes before the first blank that is followed by `#`. -/
def beforeComment : Bytes → Bytes
  | [] => []
  | b :: s => if isBlank b = true ∧ s.head? = some (ch '#') then [] else b :: beforeComment s

/-- What a line says when its comment is taken off. -/
def lineCode (line : Bytes) : Bytes := if IsComment line then [] else beforeComment line

/-- The text without its comment lines and its trailing comments. -/
def uncomment (text : Bytes) : Bytes :=
  [newline].intercalate (((text.splitOn newline).filter (fun l => !decide (IsComment l))).map beforeComment)

/-- A piece of a line as `fgets` hands it out, and its bytes before the comment. -/
structure LinePiece where
  bytes : Bytes
  code : Bytes

/-- The pieces of a line of which `n` bytes stand before the comment. -/
def markCode : Nat → List Bytes → List LinePiece
  | _, [] => []
  | n, p :: ps => ⟨p, p.take n⟩ :: markCode (n - p.length) ps

def linePieces (line : Bytes) : List LinePiece := markCode (lineCode line).length (fgetsLines 512 line)

/-- The pieces of a text, without their newlines. -/
def textPieces (text : Bytes) : List LinePiece := (text.splitOn newline).flatMap linePieces

/-! ## Trimming -/

theorem cStr_append (s t : Bytes) : cStr (s ++ t) = if 0 ∈ s then cStr s else s ++ cStr t := by
  induction s with
  | nil => simp
  | cons b s ih =>
    rw [List.cons_append, cStr_cons, cStr_cons, ih]
    by_cases hb : b = 0
    · simp [hb]
    · by_cases hs : 0 ∈ s <;> simp [hb, Ne.symm hb, hs]

theorem blank_cases {b : UInt8} (h : isBlank b = true) : b = 32 ∨ b = 9 ∨ b = 13 ∨ b = 10 := of_decide_eq_true h

theorem blank_facts {b : UInt8} (h : isBlank b = true) : b ≠ 0 ∧ isSpace b = true ∧ isDigit b = false := by
  rcases blank_cases h with rfl | rfl | rfl | rfl <;> decide

theorem trim_nil_of_blanks {s : Bytes} (h : ∀ b ∈ s, isBlank b = true) : trim s = [] := by
  rw [trim, List.dropWhile_eq_nil_iff.2 h]
  rfl

/-- The blanks `Trim` takes off behind. -/
theorem trimEnd_split (s : Bytes) :
    ∃ suf, (∀ b ∈ suf, isBlank b = true) ∧ s = (s.reverse.dropWhile isBlank).reverse ++ suf := by
  refine ⟨(s.reverse.takeWhile isBlank).reverse, fun b hb => ?_, ?_⟩
  · exact List.mem_takeWhile_imp (List.mem_reverse.1 hb)
  · rw [← List.reverse_append, List.takeWhile_append_dropWhile, List.reverse_reverse]

theorem trim_split (s : Bytes) : ∃ pre suf, (∀ b ∈ pre, isBlank b = true) ∧ (∀ b ∈ suf, isBlank b = true) ∧
    s = pre ++ trim s ++ suf := by
  obtain ⟨suf, hsuf, hs⟩ := trimEnd_split (s.dropWhile isBlank)
  refine ⟨s.takeWhile isBlank, suf, fun b hb => List.mem_takeWhile_imp hb, hsuf, ?_⟩
  rw [trim, List.append_assoc, ← hs, List.takeWhile_append_dropWhile]

theorem dropWhile_head {s : Bytes} (h : s.dropWhile isBlank ≠ []) :
    ∃ b, (s.dropWhile isBlank).head? = some b ∧ isBlank b = false := by
  obtain ⟨b, l, hl⟩ := List.exists_cons_of_ne_nil h
  refine ⟨b, by rw [hl]; rfl, ?_⟩
  have hb := List.dropWhile_get_zero_not isBlank s (List.length_pos_iff.2 h)
  simpa [hl] using hb

theorem trim_last {s : Bytes} (h : trim s ≠ []) : ∃ b, (trim s).reverse.head? = some b ∧ isBlank b = false := by
  unfold trim at h ⊢
  rw [List.reverse_reverse]
  exact dropWhile_head fun h0 => h (by rw [h0]; rfl)

theorem trim_first {s : Bytes} (h : trim s ≠ []) : ∃ b, (trim s).head? = some b ∧ isBlank b = false := by
  have hd : s.dropWhile isBlank ≠ [] := fun h0 => h (by rw [trim, h0]; rfl)
  obtain ⟨b, hb, hblank⟩ := dropWhile_head hd
  obtain ⟨suf, -, hs⟩ := trimEnd_split (s.dropWhile isBlank)
  refine ⟨b, ?_, hblank⟩
  rw [hs, List.head?_append] at hb
  obtain ⟨c, l, hc⟩ := List.exists_cons_of_ne_nil h
  rw [trim] at hc ⊢
  rw [hc] at hb ⊢
  exact hb

theorem trim_append_blank (s : Bytes) {b : UInt8} (h : isBlank b = true) : trim (s ++ [b]) = trim s := by
  by_cases hnil : trim s = []
  · obtain ⟨pre, suf, hpre, hsuf, hs⟩ := trim_split s
    rw [hnil, List.append_nil] at hs
    rw [hnil]
    refine trim_nil_of_blanks fun x hx => ?_
    rw [hs, List.mem_append, List.mem_append, List.mem_singleton] at hx
    rcases hx with (hx | hx) | rfl
    · exact hpre x hx
    · exact hsuf x hx
    · exact h
  · obtain ⟨pre, suf, hpre, hsuf, hs⟩ := trim_split s
    have hsuf' : ∀ x ∈ suf ++ [b], isBlank x = true := by
      intro x hx
      rcases List.mem_append.1 hx with hx | hx
      · exact hsuf x hx
      · rw [List.mem_singleton.1 hx]
        exact h
    have heq : s ++ [b] = pre ++ trim s ++ (suf ++ [b]) := by
      conv_lhs => rw [hs]
      rw [List.append_assoc]
    rw [heq, trim_blanks hpre hsuf' (trim_first hnil) (trim_last hnil)]

theorem lineSetting_blank (s : Bytes) {b : UInt8} (h : isBlank b = true) : lineSetting (s ++ [b]) = lineSetting s := by
  have htrim : trim (cStr (s ++ [b])) = trim (cStr s) := by
    have hb : cStr [b] = [b] := by rw [cStr_cons, if_neg (blank_facts h).1]; rfl
    rw [cStr_append]
    split
    · rfl
    · rename_i h0
      rw [hb, trim_append_blank s h, cStr_of_no_nul s h0]
  unfold lineSetting configLine
  rw [htrim]

theorem lineSetting_nil : lineSetting [] = none := by decide

/-! ## The settings line by line -/

theorem setting_toList (line : Bytes) :
    (if line = [] then [] else [line]).filterMap lineSetting = (lineSetting line).toList := by
  split
  · rename_i h
    rw [h, lineSetting_nil]
    rfl
  · rw [List.filterMap_cons, List.filterMap_nil]
    cases lineSetting line <;> rfl

theorem fgetsLoop_newline (max : Nat) : ∀ (l : Bytes) (k : Nat) (s line : Bytes), newline ∉ l →
    (fgetsLoop max k (l ++ newline :: s) line).filterMap lineSetting =
      (fgetsLoop max k l line).filterMap lineSetting ++ (fgetsLoop max max s []).filterMap lineSetting
  | [], k, s, line, _ => by
    have hline : fgetsLoop max k (newline :: s) line = (line ++ [newline]) :: fgetsLoop max max s [] := by
      rw [fgetsLoop, if_pos (Or.inl rfl)]
    rw [List.nil_append, hline, List.filterMap_cons, lineSetting_blank line (by decide), fgetsLoop]
    rw [setting_toList]
    cases lineSetting line <;> rfl
  | b :: l, k, s, line, hn => by
    rw [List.mem_cons, not_or] at hn
    rw [List.cons_append, fgetsLoop, fgetsLoop]
    by_cases hb : b = newline ∨ k ≤ 1
    · rw [if_pos hb, if_pos hb, List.filterMap_cons, List.filterMap_cons, fgetsLoop_newline max l max s [] hn.2]
      cases lineSetting (line ++ [b]) <;> rfl
    · rw [if_neg hb, if_neg hb]
      exact fgetsLoop_newline max l (k - 1) s _ hn.2

theorem fileSettings_nil : fileSettings [] = [] := rfl

theorem fileSettings_intercalate : ∀ (lines : List Bytes), (∀ l ∈ lines, newline ∉ l) →
    fileSettings ([newline].intercalate lines) = lines.flatMap fileSettings
  | [], _ => rfl
  | [l], _ => by rw [List.intercalate_singleton, List.flatMap_cons, List.flatMap_nil, List.append_nil]
  | l :: l' :: lines, h => by
    have ih := fileSettings_intercalate (l' :: lines) fun x hx => h x (List.mem_cons_of_mem _ hx)
    rw [List.intercalate_cons_cons, List.append_assoc, List.singleton_append, List.flatMap_cons, ← ih]
    exact fgetsLoop_newline 511 l 511 _ [] (h l (by simp))

theorem fileSettings_lines (text : Bytes) : fileSettings text = (text.splitOn newline).flatMap fileSettings := by
  conv_lhs => rw [← @List.intercalate_splitOn _ text _ _ newline]
  exact fileSettings_intercalate _ fun l hl => not_mem_of_mem_splitOn hl

theorem beforeComment_front : ∀ l : Bytes, beforeComment l <+: l
  | [] => List.prefix_refl []
  | b :: s => by
    rw [beforeComment]
    split
    · exact List.nil_prefix
    · exact (List.prefix_cons_inj b).2 (beforeComment_front s)

theorem lineCode_front (l : Bytes) : lineCode l <+: l := by
  unfold lineCode
  split
  · exact List.nil_prefix
  · exact beforeComment_front l

theorem fileSettings_uncomment (text : Bytes) :
    fileSettings (uncomment text) = (text.splitOn newline).flatMap (fun l => fileSettings (lineCode l)) := by
  have hlines : ∀ lines : List Bytes,
      ((lines.filter (fun l => !decide (IsComment l))).map beforeComment).flatMap fileSettings =
        lines.flatMap (fun l => fileSettings (lineCode l)) := by
    intro lines
    induction lines with
    | nil => rfl
    | cons l lines ih =>
      rw [List.flatMap_cons, ← ih, List.filter_cons]
      by_cases h : IsComment l
      · simp [h, lineCode, fileSettings_nil]
      · simp [h, lineCode]
  rw [uncomment, fileSettings_intercalate, hlines]
  intro l hl hn
  obtain ⟨l', hl', rfl⟩ := List.mem_map.1 hl
  exact not_mem_of_mem_splitOn (List.mem_of_mem_filter hl') ((beforeComment_front l').subset hn)

/-! ## The settings piece by piece -/

theorem fgetsLoop_flatten (max : Nat) : ∀ (l : Bytes) (k : Nat) (line : Bytes),
    (fgetsLoop max k l line).flatten = line ++ l
  | [], k, line => by
    rw [fgetsLoop]
    split
    · rename_i h
      rw [h]
      rfl
    · simp
  | b :: l, k, line => by
    rw [fgetsLoop]
    split
    · rw [List.flatten_cons, fgetsLoop_flatten max l max [], List.append_assoc]
      rfl
    · rw [fgetsLoop_flatten max l (k - 1), List.append_assoc]
      rfl

theorem markCode_bytes : ∀ (ps : List Bytes) (n : Nat), (markCode n ps).map LinePiece.bytes = ps
  | [], _ => rfl
  | p :: ps, n => by rw [markCode, List.map_cons, markCode_bytes ps]

theorem markCode_zero {p : LinePiece} : ∀ {ps : List Bytes}, p ∈ markCode 0 ps → p.code = []
  | _ :: ps, h => by
    rw [markCode, Nat.zero_sub] at h
    rcases List.mem_cons.1 h with rfl | h
    · rfl
    · exact markCode_zero h

theorem filterMap_code_zero (ps : List Bytes) : (markCode 0 ps).filterMap (fun p => lineSetting p.code) = [] := by
  refine List.filterMap_eq_nil_iff.2 fun p hp => ?_
  rw [markCode_zero hp]
  exact lineSetting_nil

/-- Behind the bytes that are kept, nothing is set. -/
theorem fgetsLoop_behind (max : Nat) (line : Bytes) : ∀ (l : Bytes) (k : Nat) (t : Bytes),
    (markCode line.length (fgetsLoop max k l (line ++ t))).filterMap (fun p => lineSetting p.code) =
      (lineSetting line).toList
  | [], k, t => by
    rw [fgetsLoop]
    split
    · rename_i h
      rw [(List.append_eq_nil_iff.1 h).1, lineSetting_nil]
      rfl
    · rw [markCode, List.filterMap_cons, List.take_left]
      cases lineSetting line <;> rfl
  | b :: l, k, t => by
    rw [fgetsLoop]
    split
    · have hsub : line.length - (line ++ t ++ [b]).length = 0 := by
        rw [List.length_append, List.length_append]
        omega
      rw [markCode, hsub, List.filterMap_cons, filterMap_code_zero, List.append_assoc, List.take_left]
      cases lineSetting line <;> rfl
    · rw [List.append_assoc]
      exact fgetsLoop_behind max line l (k - 1) (t ++ [b])

/-- The pieces of the first `n` bytes set what is kept of the pieces sets. -/
theorem fgetsLoop_take (max : Nat) : ∀ (l : Bytes) (n k : Nat) (line : Bytes),
    (markCode (line.length + n) (fgetsLoop max k l line)).filterMap (fun p => lineSetting p.code) =
      (fgetsLoop max k (l.take n) line).filterMap lineSetting
  | [], n, k, line => by
    rw [List.take_nil, fgetsLoop]
    split
    · rfl
    · rw [markCode, List.filterMap_cons, List.filterMap_cons, List.take_of_length_le (Nat.le_add_right _ _)]
      rfl
  | b :: l, 0, k, line => by
    have h := fgetsLoop_behind max line (b :: l) k []
    rw [List.append_nil] at h
    rw [Nat.add_zero, h, List.take_zero, fgetsLoop, setting_toList]
  | b :: l, n + 1, k, line => by
    have hlen : line.length + (n + 1) = (line ++ [b]).length + n := by
      rw [List.length_append, List.length_singleton]
      omega
    rw [List.take_succ_cons, fgetsLoop, fgetsLoop, hlen]
    by_cases h : b = newline ∨ k ≤ 1
    · have ih := fgetsLoop_take max l n max []
      rw [List.length_nil, Nat.zero_add] at ih
      rw [if_pos h, if_pos h, markCode, Nat.add_sub_cancel_left, List.filterMap_cons, List.filterMap_cons,
        List.take_of_length_le (Nat.le_add_right _ _), ih]
    · rw [if_neg h, if_neg h]
      exact fgetsLoop_take max l n (k - 1) (line ++ [b])

theorem linePieces_bytes (l : Bytes) : (linePieces l).filterMap (fun p => lineSetting p.bytes) = fileSettings l := by
  rw [linePieces, fileSettings, ← markCode_bytes (fgetsLines 512 l) (lineCode l).length, List.filterMap_map,
    markCode_bytes]
  rfl

theorem linePieces_code (l : Bytes) :
    (linePieces l).filterMap (fun p => lineSetting p.code) = fileSettings (lineCode l) := by
  have h := fgetsLoop_take 511 l (lineCode l).length 511 []
  rw [List.length_nil, Nat.zero_add, ← List.prefix_iff_eq_take.1 (lineCode_front l)] at h
  exact h

theorem pieces_bytes (text : Bytes) : (textPieces text).filterMap (fun p => lineSetting p.bytes) = fileSettings text := by
  rw [textPieces, List.filterMap_flatMap, fileSettings_lines]
  exact congrArg (List.flatMap · _) (funext linePieces_bytes)

theorem pieces_code (text : Bytes) :
    (textPieces text).filterMap (fun p => lineSetting p.code) = fileSettings (uncomment text) := by
  rw [textPieces, List.filterMap_flatMap, fileSettings_uncomment]
  exact congrArg (List.flatMap · _) (funext linePieces_code)

/-! ## Where a comment starts in a piece -/

/-- What stands behind the bytes that are kept is no part of the piece, or the start of a comment. -/
def Cut (rest : Bytes) : Prop :=
  rest = [] ∨ ∃ b s, rest = b :: s ∧ isBlank b = true ∧ (s = [] ∨ s.head? = some (ch '#'))

theorem cut_beforeComment : ∀ l : Bytes, Cut (l.drop (beforeComment l).length)
  | [] => .inl rfl
  | b :: s => by
    rw [beforeComment]
    split
    · rename_i h
      exact .inr ⟨b, s, rfl, h.1, .inr h.2⟩
    · exact cut_beforeComment s

theorem cut_append {a b : Bytes} (h : Cut (a ++ b)) : Cut a := by
  rcases h with h | ⟨x, s, hs, hblank, hend⟩
  · exact .inl (List.append_eq_nil_iff.1 h).1
  · cases a with
    | nil => exact .inl rfl
    | cons y a =>
      rw [List.cons_append, List.cons.injEq] at hs
      rw [hs.1]
      refine .inr ⟨x, a, rfl, hblank, ?_⟩
      rcases hend with rfl | hend
      · exact .inl (List.append_eq_nil_iff.1 hs.2).1
      · cases a with
        | nil => exact .inl rfl
        | cons z a =>
          rw [← hs.2] at hend
          exact .inr hend

theorem markCode_cut {p : LinePiece} : ∀ {ps : List Bytes} {n : Nat}, p ∈ markCode n ps → Cut (ps.flatten.drop n) →
    p.code = [] ∨ ∃ rest, p.bytes = p.code ++ rest ∧ Cut rest
  | q :: ps, n, h, hcut => by
    rw [List.flatten_cons] at hcut
    rw [markCode] at h
    rcases List.mem_cons.1 h with rfl | h
    · refine .inr ⟨q.drop n, (List.take_append_drop n q).symm, ?_⟩
      rw [List.drop_append] at hcut
      exact cut_append hcut
    · by_cases hn : n ≤ q.length
      · rw [Nat.sub_eq_zero_of_le hn] at h
        exact .inl (markCode_zero h)
      · rw [List.drop_append, List.drop_eq_nil_of_le (by omega), List.nil_append] at hcut
        exact markCode_cut h hcut

theorem piece_cut {text : Bytes} {p : LinePiece} (h : p ∈ textPieces text) :
    p.code = [] ∨ ∃ rest, p.bytes = p.code ++ rest ∧ Cut rest := by
  obtain ⟨l, -, hp⟩ := List.mem_flatMap.1 h
  unfold linePieces lineCode at hp
  split at hp
  · exact .inl (markCode_zero hp)
  · refine markCode_cut hp ?_
    rw [fgetsLines, fgetsLoop_flatten, List.nil_append]
    exact cut_beforeComment l

/-! ## The value behind which a comment starts -/

/-- A value that ends before a comment, or goes on into it. -/
def RunsOn (value code : Bytes) : Prop :=
  value = code ∨ ∃ blanks rest, value = code ++ blanks ++ ch '#' :: rest ∧ (∀ b ∈ blanks, isBlank b = true)

theorem configLine_eq_some_iff {line key val : Bytes} : configLine line = some (key, val) ↔
    ((trim (cStr line)).head? ≠ some (ch '#') ∧ (trim (cStr line)).head? ≠ some (ch ';')) ∧
      ∃ x y, trim (cStr line) = x ++ ch '=' :: y ∧ ch '=' ∉ x ∧ key = trim x ∧ val = trim y := by
  unfold configLine
  generalize trim (cStr line) = s
  have hsplit : ∀ {x y : Bytes}, ch '=' ∉ x →
      (x ++ ch '=' :: y).takeWhile (fun b => decide (b ≠ ch '=')) = x ∧
        ((x ++ ch '=' :: y).dropWhile (fun b => decide (b ≠ ch '='))).drop 1 = y := by
    intro x y hx
    have hall : ∀ b ∈ x, decide (b ≠ ch '=') = true := fun b hb => decide_eq_true fun h => hx (h ▸ hb)
    rw [List.takeWhile_append_of_pos hall, List.dropWhile_append_of_pos hall]
    simp
  constructor
  · intro h
    dsimp only at h
    split at h
    · cases h
    · rename_i hc
      split at h
      · rename_i hmem
        obtain ⟨x, y, hs, hx⟩ := List.eq_append_cons_of_mem hmem
        rw [hs, (hsplit hx).1, (hsplit hx).2, Option.some.injEq, Prod.mk.injEq] at h
        rw [not_or, not_or] at hc
        exact ⟨hc.2, x, y, hs, hx, h.1.symm, h.2.symm⟩
      · cases h
  · rintro ⟨hc, x, y, hs, hx, rfl, rfl⟩
    dsimp only
    rw [if_neg (by rw [not_or, not_or]; exact ⟨by rw [hs]; simp, hc.1, hc.2⟩), if_pos (by rw [hs]; simp), hs,
      (hsplit hx).1, (hsplit hx).2]

theorem trim_hash (r : Bytes) : ∃ z suf, ch '#' :: r = ch '#' :: z ++ suf ∧ (∀ b ∈ suf, isBlank b = true) ∧
    ∃ b, (ch '#' :: z).reverse.head? = some b ∧ isBlank b = false := by
  have hfirst : (ch '#' :: r).dropWhile isBlank = ch '#' :: r := dropWhile_blank (by rintro b ⟨⟩; decide)
  obtain ⟨suf, hsuf, hs⟩ := trimEnd_split (ch '#' :: r)
  have htrim : trim (ch '#' :: r) = ((ch '#' :: r).reverse.dropWhile isBlank).reverse := by rw [trim, hfirst]
  rw [← htrim] at hs
  have hne : trim (ch '#' :: r) ≠ [] := by
    intro h
    rw [h, List.nil_append] at hs
    have := hsuf (ch '#') (by rw [← hs]; simp)
    exact absurd this (by decide)
  obtain ⟨b, z, hz⟩ := List.exists_cons_of_ne_nil hne
  have hb : b = ch '#' := by
    rw [hz] at hs
    exact (List.cons.inj hs).1.symm
  subst hb
  refine ⟨z, suf, by rw [← hz]; exact hs, hsuf, ?_⟩
  rw [← hz]
  exact trim_last hne

/-- What `Trim` makes of a text that goes on into a comment. -/
theorem trim_comment {y blanks : Bytes} (hb : ∀ b ∈ blanks, isBlank b = true) (r : Bytes) :
    ∃ bl z, (∀ b ∈ bl, isBlank b = true) ∧ trim (y ++ blanks ++ ch '#' :: r) = trim y ++ bl ++ ch '#' :: z := by
  obtain ⟨z, suf, hz, hsuf, c, hc, hcb⟩ := trim_hash r
  obtain ⟨pre, mid, hpre, hmid, hy⟩ := trim_split y
  have hlast : ∀ w : Bytes, ∃ b, (w ++ ch '#' :: z).reverse.head? = some b ∧ isBlank b = false := by
    intro w
    refine ⟨c, ?_, hcb⟩
    rw [List.reverse_append, List.head?_append, hc]
    rfl
  have hblanks : ∀ b ∈ mid ++ blanks, isBlank b = true := by
    intro b hm
    exact (List.mem_append.1 hm).elim (hmid b) (hb b)
  have heq : y ++ blanks ++ ch '#' :: r = pre ++ (trim y ++ (mid ++ blanks) ++ ch '#' :: z) ++ suf := by
    rw [hz]
    conv_lhs => rw [hy]
    simp only [List.append_assoc]
  by_cases hnil : trim y = []
  · have hfront : ∀ b ∈ pre ++ (mid ++ blanks), isBlank b = true := by
      intro b hm
      exact (List.mem_append.1 hm).elim (hpre b) (hblanks b)
    refine ⟨[], z, by simp, ?_⟩
    rw [heq, hnil, List.nil_append, ← List.append_assoc, List.append_nil, List.nil_append]
    exact trim_blanks hfront hsuf ⟨ch '#', rfl, by decide⟩ (hlast [])
  · obtain ⟨b, hfirst, hblank⟩ := trim_first hnil
    refine ⟨mid ++ blanks, z, hblanks, ?_⟩
    rw [heq]
    refine trim_blanks hpre hsuf ⟨b, ?_, hblank⟩ (hlast _)
    rw [List.append_assoc, List.head?_append, hfirst]
    rfl

/-- **A piece that a comment follows sets what its code sets, to a value that may go on into the comment.** -/
theorem lineSetting_cut {code rest : Bytes} (hcut : Cut rest) {k : Setting} {w : Bytes}
    (h : lineSetting code = some (k, w)) :
    ∃ v, lineSetting (code ++ rest) = some (k, v) ∧ RunsOn v w := by
  rcases hcut with rfl | ⟨b, s, rfl, hb, rfl | hs⟩
  · exact ⟨w, by rw [List.append_nil]; exact h, .inl rfl⟩
  · exact ⟨w, by rw [lineSetting_blank code hb]; exact h, .inl rfl⟩
  · obtain ⟨c, r, rfl⟩ : ∃ c r, s = c :: r := List.exists_cons_of_ne_nil (by rintro rfl; cases hs)
    obtain rfl : c = ch '#' := Option.some.inj hs
    by_cases h0 : 0 ∈ code
    · refine ⟨w, ?_, .inl rfl⟩
      unfold lineSetting configLine at h ⊢
      rw [cStr_append, if_pos h0]
      exact h
    · obtain ⟨⟨key, val⟩, hline, hk⟩ := Option.bind_eq_some_iff.1 h
      obtain ⟨k', hk', hw⟩ := Option.bind_eq_some_iff.1 hk
      obtain ⟨rfl, rfl⟩ := Prod.mk.inj (Option.some.inj hw)
      obtain ⟨hc, x, y, htrim, hx, rfl, rfl⟩ := configLine_eq_some_iff.1 hline
      rw [cStr_of_no_nul code h0] at htrim hc
      have hcstr : cStr (code ++ b :: ch '#' :: r) = code ++ [b] ++ ch '#' :: cStr r := by
        rw [cStr_append, if_neg h0, cStr_cons, if_neg (blank_facts hb).1, cStr_cons, if_neg (by decide)]
        simp
      -- the piece's text and its value both go on into the comment
      obtain ⟨bl, z, hbl, htext⟩ := @trim_comment code [b] (by simpa using hb) (cStr r)
      obtain ⟨bl', z', hbl', hval⟩ := @trim_comment y bl hbl z
      have hhead : (trim code ++ bl ++ ch '#' :: z).head? = (trim code).head? := by
        rw [htrim, List.append_assoc, List.head?_append]
        cases x <;> rfl
      have hset : configLine (code ++ b :: ch '#' :: r) = some (trim x, trim (y ++ bl ++ ch '#' :: z)) := by
        refine configLine_eq_some_iff.2 ⟨?_, x, _, ?_, hx, rfl, rfl⟩
        · rw [hcstr, htext, hhead]
          exact hc
        · rw [hcstr, htext, htrim]
          simp only [List.append_assoc, List.cons_append]
      refine ⟨_, ?_, .inr ⟨bl', z', hval, hbl'⟩⟩
      rw [lineSetting, hset]
      exact Option.bind_eq_some_iff.2 ⟨_, rfl, Option.bind_eq_some_iff.2 ⟨k', hk', rfl⟩⟩

/-! ## What a value says of its setting -/

/-- What the boot takes from the value of a setting, or from its absence. -/
def reading (k : Setting) (v : Option Bytes) : BootConfig := v.elim .initial (fun v => BootConfig.initial.set (k, v))

/-- The setting's field of a configuration. -/
def BootConfig.only (cfg : BootConfig) : Setting → BootConfig
  | .port => { BootConfig.initial with port := cfg.port }
  | .token => { BootConfig.initial with token := cfg.token }
  | .logLevel => { BootConfig.initial with logLevel := cfg.logLevel }
  | .allowNandWrite => { BootConfig.initial with allowNandWrite := cfg.allowNandWrite }
  | .allowOverclock => { BootConfig.initial with allowOverclock := cfg.allowOverclock }
  | .allowHardware => { BootConfig.initial with allowHardware := cfg.allowHardware }
  | .tier => { BootConfig.initial with tier := cfg.tier }
  | .clearLockscreenOnBoot => { BootConfig.initial with clearLockscreenOnBoot := cfg.clearLockscreenOnBoot }
  | .enableUsb => { BootConfig.initial with enableUsb := cfg.enableUsb }
  | .enablePsc => { BootConfig.initial with enablePsc := cfg.enablePsc }
  | .requireHmacAuth => { BootConfig.initial with requireHmacAuth := cfg.requireHmacAuth }
  | .keepAwakeMinutes => { BootConfig.initial with keepAwakeMinutes := cfg.keepAwakeMinutes }

theorem only_set (cfg : BootConfig) (p : Setting × Bytes) (k : Setting) :
    (cfg.set p).only k = if p.1 = k then BootConfig.initial.set (k, p.2) else cfg.only k := by
  obtain ⟨k', v⟩ := p
  cases k' <;> cases k <;> rfl

theorem only_initial (k : Setting) : BootConfig.initial.only k = .initial := by cases k <;> rfl

theorem only_foldl (l : List (Setting × Bytes)) (k : Setting) :
    (l.foldl BootConfig.set .initial).only k = reading k (valueOf k l) := by
  have hset := fun cfg p => only_set cfg p k
  rw [foldl_field (fun cfg => cfg.only k) k (fun v => BootConfig.initial.set (k, v)) hset, only_initial]
  cases valueOf k l <;> rfl

theorem isEmummc_foldl (l : List (Setting × Bytes)) (cfg : BootConfig) :
    (l.foldl BootConfig.set cfg).isEmummc = cfg.isEmummc := by
  induction l generalizing cfg with
  | nil => rfl
  | cons p l ih =>
    obtain ⟨k, v⟩ := p
    rw [List.foldl_cons, ih]
    cases k <;> rfl

theorem ext_only {cfg cfg' : BootConfig} (he : cfg.isEmummc = cfg'.isEmummc) (h : ∀ k, cfg.only k = cfg'.only k) :
    cfg = cfg' := by
  rw [BootConfig.mk.injEq, AgentConfig.mk.injEq]
  exact ⟨⟨congrArg (·.token) (h .token), congrArg (·.tier) (h .tier), congrArg (·.allowNandWrite) (h .allowNandWrite),
    congrArg (·.allowOverclock) (h .allowOverclock), congrArg (·.allowHardware) (h .allowHardware),
    congrArg (·.requireHmacAuth) (h .requireHmacAuth), he⟩, congrArg (·.port) (h .port),
    congrArg (·.logLevel) (h .logLevel), congrArg (·.clearLockscreenOnBoot) (h .clearLockscreenOnBoot),
    congrArg (·.keepAwakeMinutes) (h .keepAwakeMinutes), congrArg (·.enablePsc) (h .enablePsc),
    congrArg (·.enableUsb) (h .enableUsb)⟩

/-- **Two lists of settings give one configuration exactly when their values of every setting say the same.** -/
theorem foldl_eq_iff (l l' : List (Setting × Bytes)) :
    l.foldl BootConfig.set .initial = l'.foldl BootConfig.set .initial ↔
      ∀ k, reading k (valueOf k l) = reading k (valueOf k l') := by
  constructor
  · intro h k
    rw [← only_foldl, ← only_foldl, h]
  · intro h
    refine ext_only (by rw [isEmummc_foldl, isEmummc_foldl]) fun k => ?_
    rw [only_foldl, only_foldl, h k]

/-- The values a setting knows, where there are a few. -/
def Setting.words : Setting → List Bytes
  | .port | .token | .keepAwakeMinutes => []
  | .logLevel => [str "error", str "warn", str "debug"]
  | .tier => [str "control", str "invasive"]
  | .allowNandWrite | .allowOverclock | .allowHardware | .clearLockscreenOnBoot | .enableUsb | .enablePsc
  | .requireHmacAuth => [str "true", str "1"]

/-- The comment behind a value does no harm: the value ends before it, or a number does, or the code is none of the values
the setting knows. -/
def Harmless (k : Setting) (value code : Bytes) : Prop :=
  value = code ∨ k = .port ∨ k = .keepAwakeMinutes ∨ (k ≠ .token ∧ code ∉ k.words)

theorem no_hash_words (k : Setting) : ∀ w ∈ k.words, ch '#' ∉ w := by cases k <;> decide

/-- A number ends at a blank or a `#`. -/
theorem number_comment {w blanks r : Bytes} (hb : ∀ b ∈ blanks, isBlank b = true) :
    let n := takeSign ((cStr (w ++ blanks ++ ch '#' :: r)).dropWhile isSpace)
    let m := takeSign ((cStr w).dropWhile isSpace)
    n.1 = m.1 ∧ takeDigits n.2 = takeDigits m.2 := by
  dsimp only
  have hnul : 0 ∉ blanks := fun h => (blank_facts (hb 0 h)).1 rfl
  have hspace : ∀ b ∈ blanks, isSpace b = true := fun b h => (blank_facts (hb b h)).2.1
  rw [List.append_assoc, cStr_append]
  split
  · exact ⟨rfl, rfl⟩
  · rename_i h0
    rw [cStr_of_no_nul w h0, cStr_append, if_neg hnul, cStr_cons, if_neg (by decide), List.dropWhile_append]
    generalize cStr r = r'
    have hstop : (blanks ++ ch '#' :: r').takeWhile isDigit = [] := by
      cases blanks with
      | nil => rfl
      | cons b bl =>
        rw [List.cons_append, List.takeWhile_cons, (blank_facts (hb b (by simp))).2.2]
        rfl
    split
    · rename_i hw
      rw [List.isEmpty_iff.1 hw, List.dropWhile_append_of_pos hspace]
      exact ⟨rfl, rfl⟩
    · rename_i hw
      generalize w.dropWhile isSpace = u at hw ⊢
      cases u with
      | nil => exact absurd rfl hw
      | cons c u =>
        have hsign : takeSign (c :: u ++ (blanks ++ ch '#' :: r')) =
            ((takeSign (c :: u)).1, (takeSign (c :: u)).2 ++ (blanks ++ ch '#' :: r')) := by
          rw [List.cons_append, takeSign, takeSign]
          split
          · rfl
          · split <;> rfl
        have hdigits : ∀ x : Bytes, takeDigits (x ++ (blanks ++ ch '#' :: r')) = takeDigits x := by
          intro x
          rw [takeDigits, takeDigits, List.takeWhile_append, hstop, List.append_nil]
          split
          · rename_i hall
            rw [List.IsPrefix.eq_of_length (List.takeWhile_prefix _) hall]
          · rfl
        rw [hsign]
        exact ⟨rfl, hdigits _⟩

theorem parsePort_comment {w blanks r : Bytes} (hb : ∀ b ∈ blanks, isBlank b = true) :
    parsePort (w ++ blanks ++ ch '#' :: r) = parsePort w := by
  have h := @number_comment w blanks r hb
  unfold parsePort strtoul10
  dsimp only at h ⊢
  rw [h.1, h.2]

theorem parseKeepAwake_comment {w blanks r : Bytes} (hb : ∀ b ∈ blanks, isBlank b = true) :
    parseKeepAwake (w ++ blanks ++ ch '#' :: r) = parseKeepAwake w := by
  have h := @number_comment w blanks r hb
  unfold parseKeepAwake strtol10 strtoll
  dsimp only at h ⊢
  rw [h.1, h.2]

/-- A setting that takes its value as it stands, or a number. -/
def Setting.IsPlain (k : Setting) : Prop := k = .port ∨ k = .token ∨ k = .keepAwakeMinutes

theorem set_unknown {k : Setting} (hk : ¬k.IsPlain) {v : Bytes} (h : v ∉ k.words) :
    BootConfig.initial.set (k, v) = BootConfig.initial.set (k, []) := by
  have hflag : v ∉ [str "true", str "1"] → parseFlag v = parseFlag [] := by
    intro h
    simp only [List.mem_cons, List.not_mem_nil, or_false] at h
    rw [parseFlag, decide_eq_false h]
    rfl
  cases k with
  | port => exact absurd (.inl rfl) hk
  | token => exact absurd (.inr (.inl rfl)) hk
  | keepAwakeMinutes => exact absurd (.inr (.inr rfl)) hk
  | logLevel =>
    simp only [Setting.words, List.mem_cons, List.not_mem_nil, or_false, not_or] at h
    rw [BootConfig.set, parseLogLevel, if_neg h.1, if_neg h.2.1, if_neg h.2.2]
    rfl
  | tier =>
    simp only [Setting.words, List.mem_cons, List.not_mem_nil, or_false, not_or] at h
    rw [BootConfig.set, parseTier, if_neg h.1, if_neg h.2]
    rfl
  | _ =>
    rw [BootConfig.set, hflag h]
    rfl

theorem set_word {k : Setting} {v : Bytes} (h : v ∈ k.words) :
    BootConfig.initial.set (k, v) ≠ BootConfig.initial.set (k, []) := by
  revert v
  cases k <;> decide

/-- **A value that goes on into a comment says what the code says exactly where that does no harm.** -/
theorem reading_runsOn {k : Setting} {v w : Bytes} (h : RunsOn v w) :
    reading k (some v) = reading k (some w) ↔ Harmless k v w := by
  rcases h with rfl | ⟨blanks, r, rfl, hb⟩
  · exact ⟨fun _ => .inl rfl, fun _ => rfl⟩
  · have hne : w ++ blanks ++ ch '#' :: r ≠ w := by
      rw [List.append_assoc]
      intro h
      simp at h
    have hword : w ++ blanks ++ ch '#' :: r ∉ k.words := fun h => no_hash_words k _ h (by simp)
    have hport := @parsePort_comment w blanks r hb
    have hawake := @parseKeepAwake_comment w blanks r hb
    generalize w ++ blanks ++ ch '#' :: r = v at *
    unfold Harmless
    by_cases hplain : k.IsPlain
    · rcases hplain with rfl | rfl | rfl
      · simp [reading, BootConfig.set, hport]
      · have htoken : reading .token (some v) = reading .token (some w) ↔ v = w :=
          ⟨fun h => congrArg (·.token) h, fun h => by rw [h]⟩
        simp [htoken]
      · simp [reading, BootConfig.set, hawake]
    · have hunknown : reading k (some v) = BootConfig.initial.set (k, []) := set_unknown hplain hword
      rw [hunknown]
      simp only [Setting.IsPlain, not_or] at hplain
      by_cases hw : w ∈ k.words
      · have hcode : reading k (some w) ≠ BootConfig.initial.set (k, []) := set_word hw
        simp [hne, hplain, hw, hcode.symm]
      · have hcode : reading k (some w) = BootConfig.initial.set (k, []) :=
          set_unknown (by simpa only [Setting.IsPlain, not_or] using hplain) hw
        simp [hplain, hw, hcode]

/-! ## The last piece of each setting -/

/-- The last piece that sets a setting. -/
def lastPiece (k : Setting) (text : Bytes) : Option LinePiece :=
  Trace.latest (fun p => decide ((lineSetting p.bytes).map Prod.fst = some k)) (textPieces text)

/-- What a text says once its comments are taken off. -/
def codeValue (k : Setting) (text : Bytes) : Option Bytes :=
  valueOf k ((textPieces text).filterMap (fun p => lineSetting p.code))

/-- Of each setting, the last piece that sets it either sets it before a comment that does no harm, or lies in a comment and
says what the rest of the file says. -/
structure CommentsHarmless (text : Bytes) : Prop where
  behind : ∀ k p v w, lastPiece k text = some p → lineSetting p.bytes = some (k, v) →
    lineSetting p.code = some (k, w) → Harmless k v w
  inside : ∀ k p v, lastPiece k text = some p → lineSetting p.bytes = some (k, v) → lineSetting p.code = none →
    reading k (some v) = reading k (codeValue k text)

theorem valueOf_snoc (k : Setting) (l : List (Setting × Bytes)) (p : Setting × Bytes) :
    valueOf k (l ++ [p]) = if p.1 = k then some p.2 else valueOf k l := by
  unfold valueOf
  rw [Trace.latest_snoc]
  by_cases h : p.1 = k <;> simp [h]

theorem latest_mem {ε : Type} {p : ε → Bool} {l : List ε} {e : ε} (h : Trace.latest p l = some e) :
    e ∈ l ∧ p e = true :=
  ⟨List.mem_reverse.1 (List.mem_of_find?_eq_some h), List.find?_some h⟩

/-- The last value of a setting is the one of the last piece that sets it. -/
theorem valueOf_pieces (f : LinePiece → Option (Setting × Bytes)) (k : Setting) (l : List LinePiece) :
    valueOf k (l.filterMap f) =
      (Trace.latest (fun p => decide ((f p).map Prod.fst = some k)) l).bind (fun p => (f p).map Prod.snd) := by
  induction l using List.reverseRecOn with
  | nil => rfl
  | append_singleton l p ih =>
    rw [List.filterMap_append, Trace.latest_snoc, List.filterMap_cons, List.filterMap_nil]
    cases h : f p with
    | none => simp [ih]
    | some s =>
      rw [valueOf_snoc, ih]
      by_cases hk : s.1 = k <;> simp [hk, h]

/-- The last code of a setting stands in its last piece, or the last piece lies in a comment. -/
theorem latest_code {k : Setting} {p : LinePiece} {w : Bytes} {l : List LinePiece}
    (hsets : ∀ q ∈ l, ∀ j x, lineSetting q.code = some (j, x) → ∃ v, lineSetting q.bytes = some (j, v))
    (h : Trace.latest (fun q => decide ((lineSetting q.bytes).map Prod.fst = some k)) l = some p)
    (hw : lineSetting p.code = some (k, w)) :
    Trace.latest (fun q => decide ((lineSetting q.code).map Prod.fst = some k)) l = some p := by
  induction l using List.reverseRecOn with
  | nil => cases h
  | append_singleton l q ih =>
    rw [Trace.latest_snoc] at h ⊢
    have ih' := ih fun x hx => hsets x (List.mem_append_left _ hx)
    split at h
    · obtain rfl := Option.some.inj h
      rw [if_pos (by simp [hw])]
    · rename_i hq
      rw [if_neg, ih' h]
      intro hcode
      obtain ⟨⟨j, x⟩, hx, hj⟩ := Option.map_eq_some_iff.1 (of_decide_eq_true hcode)
      obtain ⟨v, hv⟩ := hsets q (by simp) j x hx
      exact hq (by rw [hv]; simpa using hj)

theorem piece_sets {text : Bytes} {p : LinePiece} (hp : p ∈ textPieces text) {k : Setting} {w : Bytes}
    (h : lineSetting p.code = some (k, w)) : ∃ v, lineSetting p.bytes = some (k, v) ∧ RunsOn v w := by
  rcases piece_cut hp with hnil | ⟨rest, hbytes, hcut⟩
  · rw [hnil, lineSetting_nil] at h
    cases h
  · rw [hbytes]
    exact lineSetting_cut hcut h

theorem valueOf_text (k : Setting) (text : Bytes) :
    valueOf k (fileSettings text) = (lastPiece k text).bind (fun p => (lineSetting p.bytes).map Prod.snd) := by
  rw [← pieces_bytes, valueOf_pieces (fun p => lineSetting p.bytes)]
  rfl

/-- Without a piece that sets a setting, no code sets it either. -/
theorem codeValue_of_none {k : Setting} {text : Bytes} (h : lastPiece k text = none) : codeValue k text = none := by
  rw [codeValue, valueOf_pieces (fun p => lineSetting p.code), Option.bind_eq_none_iff]
  intro p hp
  obtain ⟨hmem, hk⟩ := latest_mem hp
  obtain ⟨⟨j, x⟩, hx, hj⟩ := Option.map_eq_some_iff.1 (of_decide_eq_true hk)
  obtain ⟨v, hv, -⟩ := piece_sets hmem hx
  have hnone := List.find?_eq_none.1 h p (List.mem_reverse.2 hmem)
  exact absurd (by rw [hv]; simpa using hj) hnone

theorem codeValue_behind {k : Setting} {text : Bytes} {p : LinePiece} {w : Bytes} (h : lastPiece k text = some p)
    (hw : lineSetting p.code = some (k, w)) : codeValue k text = some w := by
  have hlast := latest_code (fun q hq j x hx => (piece_sets hq hx).imp fun v hv => hv.1) h hw
  rw [codeValue, valueOf_pieces (fun p => lineSetting p.code), hlast, Option.bind_some, hw]
  rfl

/-- **Of one setting, the text and its code say the same exactly when its last piece does no harm.** -/
theorem reading_text_iff (k : Setting) (text : Bytes) :
    reading k (valueOf k (fileSettings text)) = reading k (codeValue k text) ↔
      ∀ p v, lastPiece k text = some p → lineSetting p.bytes = some (k, v) →
        (∀ w, lineSetting p.code = some (k, w) → Harmless k v w) ∧
          (lineSetting p.code = none → reading k (some v) = reading k (codeValue k text)) := by
  rw [valueOf_text]
  cases hlast : lastPiece k text with
  | none =>
    rw [codeValue_of_none hlast]
    exact ⟨fun _ p v hp => (by cases hp), fun _ => rfl⟩
  | some p =>
    obtain ⟨hmem, hk⟩ := latest_mem hlast
    obtain ⟨⟨j, v⟩, hv, hj⟩ := Option.map_eq_some_iff.1 (of_decide_eq_true hk)
    obtain rfl : j = k := hj
    have hiff : (∀ q v', some p = some q → lineSetting q.bytes = some (j, v') →
        (∀ w, lineSetting q.code = some (j, w) → Harmless j v' w) ∧
          (lineSetting q.code = none → reading j (some v') = reading j (codeValue j text))) ↔
        (∀ w, lineSetting p.code = some (j, w) → Harmless j v w) ∧
          (lineSetting p.code = none → reading j (some v) = reading j (codeValue j text)) := by
      constructor
      · intro h
        exact h p v rfl hv
      · rintro h q v' hq hv'
        obtain rfl := Option.some.inj hq
        obtain rfl : v = v' := congrArg Prod.snd (Option.some.inj (hv.symm.trans hv'))
        exact h
    rw [hiff, Option.bind_some, hv, Option.map_some]
    cases hcode : lineSetting p.code with
    | none => simp
    | some s =>
      obtain ⟨i, w⟩ := s
      obtain ⟨v', hv', hruns⟩ := piece_sets hmem hcode
      obtain ⟨rfl, rfl⟩ := Prod.mk.inj (Option.some.inj (hv.symm.trans hv'))
      rw [codeValue_behind hlast hcode, reading_runsOn hruns]
      simp

theorem commentsHarmless_iff (text : Bytes) :
    (∀ k, reading k (valueOf k (fileSettings text)) = reading k (valueOf k (fileSettings (uncomment text)))) ↔
      CommentsHarmless text := by
  have hcode : ∀ k, valueOf k (fileSettings (uncomment text)) = codeValue k text := by
    intro k
    rw [codeValue, pieces_code]
  constructor
  · intro h
    have hk := fun k => (reading_text_iff k text).1 ((h k).trans (congrArg _ (hcode k)))
    exact ⟨fun k p v w hp hv => (hk k p v hp hv).1 w, fun k p v hp hv => (hk k p v hp hv).2⟩
  · intro h k
    rw [hcode k]
    exact (reading_text_iff k text).2 fun p v hp hv => ⟨fun w => h.behind k p v w hp hv, h.inside k p v hp hv⟩

/-! ## The configuration of the boot -/

theorem token_loadConfig (boot : Boot) (card : BootCard) : (loadConfig boot card).1.token =
    if (readConfig card).token = [] then randomToken boot.random else (readConfig card).token := by
  unfold loadConfig
  dsimp only
  split <;> rfl

theorem loadConfig_fst (boot : Boot) (card : BootCard) : (loadConfig boot card).1 =
    { readConfig card with token := (loadConfig boot card).1.token, isEmummc := detectEmummc card } := by
  unfold loadConfig
  dsimp only
  split <;> rfl

theorem randomToken_zero_ne : randomToken (fun _ => 0) ≠ randomToken (fun _ => 1) := by decide

/-- A token that every boot runs on is the one that was read. -/
theorem token_eq_of_forall {t t' : Bytes}
    (h : ∀ random, (if t = [] then randomToken random else t) = if t' = [] then randomToken random else t') : t = t' := by
  have hne := randomToken_zero_ne
  have h0 := h fun _ => 0
  have h1 := h fun _ => 1
  by_cases ht : t = [] <;> by_cases ht' : t' = []
  · rw [ht, ht']
  · rw [if_pos ht, if_neg ht'] at h0 h1
    exact absurd (h0.trans h1.symm) hne
  · rw [if_neg ht, if_pos ht'] at h0 h1
    exact absurd (h0.symm.trans h1) hne
  · rw [if_neg ht, if_neg ht'] at h0
    exact h0

/-- **Two cards that differ in config.ini give one configuration on every boot exactly when they are read alike.** -/
theorem loadConfig_eq_iff {card card' : BootCard} (h : detectEmummc card = detectEmummc card') :
    (∀ boot, (loadConfig boot card).1 = (loadConfig boot card').1) ↔ readConfig card = readConfig card' := by
  constructor
  · intro hall
    have htoken : (readConfig card).token = (readConfig card').token := by
      refine token_eq_of_forall fun random => ?_
      have ht := congrArg (·.token) (hall ⟨random, .refused⟩)
      rw [token_loadConfig, token_loadConfig] at ht
      exact ht
    have hrest := hall ⟨fun _ => 0, .refused⟩
    rw [loadConfig_fst, loadConfig_fst _ card'] at hrest
    have hemummc : (readConfig card).isEmummc = (readConfig card').isEmummc := by
      rw [readConfig, readConfig, isEmummc_foldl, isEmummc_foldl]
    refine ext_only hemummc fun k => ?_
    have hk := congrArg (fun cfg => BootConfig.only cfg k) hrest
    by_cases hkt : k = .token
    · rw [hkt, BootConfig.only, BootConfig.only, htoken]
    · cases k <;> first | exact hk | exact absurd rfl hkt
  · intro hread boot
    rw [loadConfig_fst, loadConfig_fst _ card', token_loadConfig, token_loadConfig, hread, h]

/-- **Comments do nothing on any boot exactly when the last piece of every setting does no harm.** -/
theorem comments_inert_iff (text : Bytes) (emuMMC emummc : Option Bytes) :
    (∀ boot, (loadConfig boot ⟨some text, emuMMC, emummc⟩).1 =
        (loadConfig boot ⟨some (uncomment text), emuMMC, emummc⟩).1) ↔ CommentsHarmless text := by
  rw [loadConfig_eq_iff (by rfl), ← commentsHarmless_iff]
  exact foldl_eq_iff (fileSettings text) (fileSettings (uncomment text))

/-- **The gate behind which a comment stands stays shut, and a long comment raises the tier.** -/
theorem comment_changes_settings :
    (loadConfig plainBoot ⟨some (str "allow_nand_write = true  # writes"), none, none⟩).1 ≠
        (loadConfig plainBoot ⟨some (uncomment (str "allow_nand_write = true  # writes")), none, none⟩).1 ∧
      (loadConfig plainBoot ⟨some (List.replicate 511 (ch '#') ++ str "tier = invasive"), none, none⟩).1.tier =
        .invasive ∧
      uncomment (List.replicate 511 (ch '#') ++ str "tier = invasive") = [] := by
  decide +kernel

end Agent
end SwitchMcp

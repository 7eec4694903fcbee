import SwitchMcp.Reports
/-!
# GrepLines — which lines `fs.grep` finds (agent/source/handlers/fs.cpp)

`textLines` are the lines of a file: their numbers, where they start, and whether a newline ends them.  `FsGrep` finds those that
a newline ends and that have the needle in the first 4096 bytes that are no carriage returns (`grepLoop_lines`);
`grep_complete_iff` compares this with the lines that contain the pattern.
-/
namespace SwitchMcp
namespace Agent

open Json (Value)

structure TextLine where
  number : Nat
  offset : Nat
  bytes : Bytes
  ended : Bool

/-- The lines of a text, the first of which has begun with `line`; an empty end is no line. -/
def textLines : Nat → Nat → Bytes → Bytes → List TextLine
  | n, start, line, [] => if line = [] then [] else [⟨n + 1, start, line, false⟩]
  | n, start, line, c :: s =>
    if c = 10 then ⟨n + 1, start, line, true⟩ :: textLines (n + 1) (start + line.length + 1) [] s
    else textLines n start (line ++ [c]) s

/-- The line without carriage returns. -/
def TextLine.text (l : TextLine) : Bytes := l.bytes.filter (· ≠ 13)

/-- What `FsGrep` keeps of a line in its buffer. -/
def TextLine.kept (l : TextLine) : Bytes := l.text.take 4096

def TextLine.found (a : GrepArgs) (l : TextLine) : Bool := l.ended && a.finds l.kept

/-- The pattern is somewhere in the line. -/
def TextLine.contains (a : GrepArgs) (l : TextLine) : Bool := a.finds l.bytes

def TextLine.entry (l : TextLine) : GrepMatch := ⟨l.number, l.offset, clip l.text⟩

/-- The lines put together are the text. -/
theorem flatMap_textLines : ∀ (n start : Nat) (line s : Bytes),
    (textLines n start line s).flatMap (fun l => l.bytes ++ if l.ended then [10] else []) = line ++ s
  | n, start, line, [] => by
    rw [textLines, List.append_nil]
    split
    · rename_i h
      rw [h]
      rfl
    · rw [List.flatMap_singleton]
      exact List.append_nil line
  | n, start, line, c :: s => by
    rw [textLines]
    split
    · rename_i hc
      rw [List.flatMap_cons, flatMap_textLines (n + 1) _ [] s, hc, List.nil_append, List.append_assoc]
      rfl
    · rw [flatMap_textLines n start (line ++ [c]) s, List.append_assoc, List.singleton_append]

theorem clip_kept (l : TextLine) : clip l.kept = clip l.text := by
  unfold TextLine.kept clip
  rw [List.length_take, List.take_take, show min 300 4096 = 300 from rfl]
  by_cases h : 300 < l.text.length
  · rw [if_pos (by omega), if_pos h]
  · rw [if_neg (by omega), if_neg h, List.take_of_length_le (by omega)]

/-- **The matches of the loop are the lines it finds**, up to the limit, and `truncated` tells that there are more. -/
theorem grepLoop_lines (a : GrepArgs) : ∀ (s line : Bytes) (g : Grep), g.line = (line.filter (· ≠ 13)).take 4096 →
    g.offset = g.lineStart + line.length → g.truncated = false → g.found.length ≤ a.limit →
      (grepLoop a s g).found = g.found ++
        (((textLines g.lineno g.lineStart line s).filter (TextLine.found a)).take (a.limit - g.found.length)).map TextLine.entry ∧
      (grepLoop a s g).truncated = decide
        (a.limit < g.found.length + ((textLines g.lineno g.lineStart line s).filter (TextLine.found a)).length)
  | [], line, g, _, _, ht, hf => by
    have hnone : (textLines g.lineno g.lineStart line []).filter (TextLine.found a) = [] := by
      rw [textLines]
      split <;> rfl
    rw [grepLoop, hnone, List.take_nil, List.map_nil, List.append_nil, List.length_nil, Nat.add_zero, ht]
    exact ⟨rfl, (decide_eq_false (Nat.not_lt.2 hf)).symm⟩
  | c :: s, line, g, hg, ho, ht, hf => by
    rw [grepLoop, textLines]
    by_cases hc : c = 10
    · have hstart : g.offset + 1 = g.lineStart + line.length + 1 := by rw [ho]
      have hfound : TextLine.found a ⟨g.lineno + 1, g.lineStart, line, true⟩ = a.finds g.line := by rw [hg]; rfl
      have hclip : clip g.line = clip (line.filter (· ≠ 13)) := by
        rw [hg]
        exact clip_kept ⟨g.lineno + 1, g.lineStart, line, true⟩
      rw [if_pos hc, if_pos hc, List.filter_cons, hfound]
      by_cases hm : a.finds g.line = true
      · rw [if_pos hm, if_pos hm]
        by_cases hl : a.limit ≤ g.found.length
        · rw [if_pos hl, Nat.sub_eq_zero_of_le hl, List.take_zero, List.map_nil, List.append_nil, List.length_cons]
          exact ⟨rfl, (decide_eq_true (by omega)).symm⟩
        · obtain ⟨n, hn⟩ : ∃ n, a.limit - g.found.length = n + 1 := ⟨a.limit - g.found.length - 1, by omega⟩
          rw [if_neg hl]
          obtain ⟨h1, h2⟩ := grepLoop_lines a s [] { g with
            offset := g.offset + 1
            lineno := g.lineno + 1
            found := g.found ++ [⟨g.lineno + 1, g.lineStart, clip g.line⟩]
            line := []
            lineStart := g.offset + 1 } rfl rfl ht (by rw [List.length_append, List.length_singleton]; omega)
          rw [h1, h2]
          dsimp only
          rw [hn, List.take_succ_cons, List.map_cons, List.length_append, List.length_singleton, List.append_assoc,
            show a.limit - (g.found.length + 1) = n by omega, hstart, hclip, List.length_cons]
          refine ⟨rfl, ?_⟩
          congr 1
          rw [Nat.add_assoc, Nat.add_comm 1]
      · rw [if_neg hm, if_neg hm]
        obtain ⟨h1, h2⟩ := grepLoop_lines a s [] { g with
          offset := g.offset + 1
          lineno := g.lineno + 1
          line := []
          lineStart := g.offset + 1 } rfl rfl ht hf
        rw [h1, h2]
        dsimp only
        rw [hstart]
        exact ⟨rfl, rfl⟩
    · rw [if_neg hc, if_neg hc]
      have hlen : g.offset + 1 = g.lineStart + (line ++ [c]).length := by
        rw [ho, List.length_append, List.length_singleton, Nat.add_assoc]
      by_cases hr : c = 13
      · rw [if_pos hr]
        refine grepLoop_lines a s (line ++ [c]) { g with offset := g.offset + 1 } ?_ hlen ht hf
        rw [List.filter_append, hr, List.filter_cons_of_neg (by decide), List.filter_nil, List.append_nil]
        exact hg
      · have hkeep : [c].filter (· ≠ 13) = [c] := by simp [hr]
        rw [if_neg hr]
        refine grepLoop_lines a s (line ++ [c]) { g with
          offset := g.offset + 1
          line := if g.line.length < 4096 then g.line ++ [c] else g.line } ?_ hlen ht hf
        dsimp only
        rw [List.filter_append, hkeep, hg]
        exact take_push _ c

/-! ## Two ways to pick the lines -/

section
variable {α β : Type} (p q : α → Bool)

/-- Picking by `p` or by `q` gives the same, as long as there is room, and tells the same of whether there is more: the first
element on which they differ, if it comes before there is no room and more, comes when there is none, and one that the other
picks follows. -/
def PickAlike : Nat → List α → Prop
  | _, [] => True
  | 0, x :: l => if p x = q x then p x = true ∨ PickAlike 0 l else ∃ y ∈ l, (if p x then q y else p y) = true
  | room + 1, x :: l => p x = q x ∧ PickAlike (if p x then room else room + 1) l

variable {p q}

theorem map_take_filter_ne {f : α → β} {x : α} {l : List α} (h : ∀ y ∈ l, f x ≠ f y) (r : α → Bool) (n : Nat) (rest : List β) :
    ((l.filter r).take n).map f ≠ f x :: rest := by
  intro heq
  have hmem : f x ∈ ((l.filter r).take n).map f := by
    rw [heq]
    exact List.mem_cons_self
  obtain ⟨y, hy, hfy⟩ := List.mem_map.1 hmem
  exact h y (List.mem_of_mem_filter (List.mem_of_mem_take hy)) hfy.symm

theorem pos_length_filter {l : List α} (r : α → Bool) : 0 < (l.filter r).length ↔ ∃ y ∈ l, r y = true := by
  rw [List.length_pos_iff_exists_mem]
  simp only [List.mem_filter]

theorem pickAlike_iff {f : α → β} : ∀ (l : List α) (room : Nat), l.Pairwise (fun x y => f x ≠ f y) →
    ((((l.filter p).take room).map f = ((l.filter q).take room).map f ∧
        (room < (l.filter p).length ↔ room < (l.filter q).length)) ↔ PickAlike p q room l)
  | [], room, _ => by
    rw [PickAlike]
    exact iff_of_true ⟨rfl, Iff.rfl⟩ trivial
  | x :: l, room, hf => by
    obtain ⟨hx, hl⟩ := List.pairwise_cons.1 hf
    have ih := fun room => pickAlike_iff (f := f) l room hl
    cases hp : p x <;> cases hq : q x
    · -- Neither picks it.
      rw [List.filter_cons_of_neg (Bool.not_eq_true _ ▸ hp), List.filter_cons_of_neg (Bool.not_eq_true _ ▸ hq), ih room]
      cases room with
      | zero =>
        rw [PickAlike, hp, hq, if_pos rfl]
        exact (or_iff_right Bool.false_ne_true).symm
      | succ room =>
        rw [PickAlike, hp, hq, if_neg Bool.false_ne_true]
        exact (and_iff_right rfl).symm
    · rw [List.filter_cons_of_neg (Bool.not_eq_true _ ▸ hp), List.filter_cons_of_pos hq]
      cases room with
      | zero =>
        rw [PickAlike, hp, hq, if_neg (by decide), List.length_cons, pos_length_filter]
        exact ⟨fun h => h.2.2 (Nat.succ_pos _), fun h => ⟨rfl, fun _ => Nat.succ_pos _, fun _ => h⟩⟩
      | succ room =>
        rw [PickAlike, hp, hq, List.take_succ_cons, List.map_cons]
        exact iff_of_false (fun h => map_take_filter_ne hx p _ _ h.1) (fun h => absurd h.1 (by decide))
    · rw [List.filter_cons_of_pos hp, List.filter_cons_of_neg (Bool.not_eq_true _ ▸ hq)]
      cases room with
      | zero =>
        rw [PickAlike, hp, hq, if_neg (by decide), List.length_cons, pos_length_filter]
        exact ⟨fun h => h.2.1 (Nat.succ_pos _), fun h => ⟨rfl, fun _ => h, fun _ => Nat.succ_pos _⟩⟩
      | succ room =>
        rw [PickAlike, hp, hq, List.take_succ_cons, List.map_cons]
        exact iff_of_false (fun h => map_take_filter_ne hx q _ _ h.1.symm) (fun h => absurd h.1 (by decide))
    · -- Both pick it.
      rw [List.filter_cons_of_pos hp, List.filter_cons_of_pos hq, List.length_cons, List.length_cons]
      cases room with
      | zero =>
        rw [PickAlike, hp, hq, if_pos rfl]
        exact iff_of_true ⟨rfl, iff_of_true (Nat.succ_pos _) (Nat.succ_pos _)⟩ (Or.inl rfl)
      | succ room =>
        rw [PickAlike, hp, hq, if_pos rfl, List.take_succ_cons, List.take_succ_cons, List.map_cons, List.map_cons,
          List.cons.injEq, and_iff_right rfl, and_iff_right rfl, Nat.succ_lt_succ_iff, Nat.succ_lt_succ_iff]
        exact ih room

end

/-! ## The lines that contain the pattern -/

theorem number_textLines : ∀ (n start : Nat) (line s : Bytes),
    (∀ l ∈ textLines n start line s, n < l.number) ∧ (textLines n start line s).Pairwise (fun l l' => l.number < l'.number)
  | n, start, line, [] => by
    rw [textLines]
    split
    · exact ⟨fun l hl => absurd hl List.not_mem_nil, List.Pairwise.nil⟩
    · refine ⟨fun l hl => ?_, List.pairwise_singleton _ _⟩
      rw [List.mem_singleton.1 hl]
      exact Nat.lt_succ_self n
  | n, start, line, c :: s => by
    rw [textLines]
    split
    · obtain ⟨h1, h2⟩ := number_textLines (n + 1) (start + line.length + 1) [] s
      refine ⟨fun l hl => ?_, List.pairwise_cons.2 ⟨h1, h2⟩⟩
      rcases List.mem_cons.1 hl with rfl | hl
      · exact Nat.lt_succ_self n
      · exact (Nat.lt_succ_self n).trans (h1 l hl)
    · exact number_textLines n start (line ++ [c]) s

def fileLines (content : Bytes) : List TextLine := textLines 0 0 [] content

theorem entries_apart (content : Bytes) : (fileLines content).Pairwise fun l l' => l.entry ≠ l'.entry :=
  (number_textLines 0 0 [] content).2.imp fun h heq => (Nat.ne_of_lt h) (congrArg GrepMatch.line heq)

/-- What `fs.grep` should report of a file: the first lines that contain the pattern, and whether there are more. -/
structure GrepsAll (a : GrepArgs) (content : Bytes) (g : Grep) : Prop where
  found : g.found = (((fileLines content).filter (TextLine.contains a)).take a.limit).map TextLine.entry
  truncated : g.truncated = true ↔ a.limit < ((fileLines content).filter (TextLine.contains a)).length

/-- **`fs.grep` reports the lines that contain the pattern exactly where** the lines that it finds are picked alike: those that
a newline ends and that have the pattern in the first 4096 bytes of what is left without carriage returns. -/
theorem grep_complete_iff {d : Disk} {req : Request} {content : Bytes} (h : grepFile d req = .ok content) :
    ∃ g, fsGrep d req = grepReply g ∧ (GrepsAll (grepArgs req) content g ↔
      PickAlike (TextLine.found (grepArgs req)) (TextLine.contains (grepArgs req)) (grepArgs req).limit (fileLines content)) := by
  refine ⟨grepLoop (grepArgs req) content {}, ?_, ?_⟩
  · unfold fsGrep replyWith
    rw [h]
  obtain ⟨hfound, htruncated⟩ := grepLoop_lines (grepArgs req) content [] {} rfl rfl rfl (Nat.zero_le _)
  have hf : (grepLoop (grepArgs req) content {}).found =
      (((fileLines content).filter (TextLine.found (grepArgs req))).take (grepArgs req).limit).map TextLine.entry := hfound
  have ht : (grepLoop (grepArgs req) content {}).truncated = true ↔
      (grepArgs req).limit < ((fileLines content).filter (TextLine.found (grepArgs req))).length := by
    rw [htruncated, decide_eq_true_iff]
    dsimp only [List.length_nil]
    rw [Nat.zero_add]
    exact Iff.rfl
  rw [← pickAlike_iff (f := TextLine.entry) (fileLines content) (grepArgs req).limit (entries_apart content)]
  constructor
  · rintro ⟨h1, h2⟩
    exact ⟨hf.symm.trans h1, ht.symm.trans h2⟩
  · rintro ⟨h1, h2⟩
    exact ⟨hf.trans h1, ht.trans h2⟩

/-- `fs.grep` of /f for `b`. -/
def grepB : Request := ⟨((Value.object []).set (str "path") (.string (str "/f"))).set (str "pattern") (.string (str "b")), []⟩

/-- A card with the one file /f. -/
def diskOf (content : Bytes) : Disk :=
  ⟨false, fun p => if p = str "sdmc:/f" then some content else none, fun _ => none, fun _ => none⟩

theorem grep_complete_iff_ended : ∃ g, fsGrep (diskOf (str "ab\n")) grepB = grepReply g ∧
    GrepsAll (grepArgs grepB) (str "ab\n") g := by
  obtain ⟨g, hg, hiff⟩ := grep_complete_iff (show grepFile (diskOf (str "ab\n")) grepB = .ok (str "ab\n") from rfl)
  exact ⟨g, hg, hiff.2 ⟨by decide, trivial⟩⟩

/-- **The last line is not found without a newline**, and nothing tells. -/
theorem last_line_left_out :
    (fsGrep (diskOf (str "ab")) grepB).json.has (str "truncated") = false ∧
    (grepLoop (grepArgs grepB) (str "ab") {}).found.length = 0 ∧
    ((fileLines (str "ab")).filter (TextLine.contains (grepArgs grepB))).length = 1 := by
  refine ⟨by decide +kernel, by decide +kernel, by decide +kernel⟩

end Agent
end SwitchMcp

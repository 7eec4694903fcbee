import SwitchMcp.Saves
/-!
# PathForms — what `NormalizePath` makes of a path (agent/source/path.cpp)

`normalizePath_spec` relates the loop to a split at the slashes, a filter and a join, and says that it is done after one
time.  A name put behind a path, after a slash, is behind its segments (`segments_snoc`), and leads below the path's place
(`place_pathOf_append`).
-/
namespace SwitchMcp
namespace Agent

/-- The segments of a path that are kept. -/
def segments (p : Bytes) : List Bytes := (p.splitOn slash).filter keptSegment

/-- The segments one after the other, each after a slash. -/
def pathOf (segs : List Bytes) : Bytes := slash :: [slash].intercalate segs

theorem keptSegment_iff {seg : Bytes} : keptSegment seg = true ↔ seg ≠ [] ∧ seg ≠ str "." := by
  simp [keptSegment]

theorem normalizePath_some {p out : Bytes} : normalizePath p = some out ↔
    (p.head? = some slash ∧ str ".." ∉ p.splitOn slash) ∧ out = pathOf (segments p) := by
  rw [normalizePath_eq]
  by_cases h : p.head? = some slash ∧ str ".." ∉ p.splitOn slash
  · rw [if_pos h]
    exact ⟨fun e => ⟨h, (Option.some.inj e).symm⟩, fun e => congrArg some e.2.symm⟩
  · rw [if_neg h]
    exact ⟨fun e => (nomatch e), fun e => absurd e.1 h⟩

/-- Segments that a path is made of are found again. -/
theorem splitOn_pathOf {segs : List Bytes} (h : ∀ seg ∈ segs, slash ∉ seg) :
    (pathOf segs).splitOn slash = [] :: if segs = [] then [[]] else segs := by
  rw [pathOf, show slash :: [slash].intercalate segs = [] ++ slash :: [slash].intercalate segs from rfl,
    splitOn_device List.not_mem_nil]
  by_cases hs : segs = []
  · rw [if_pos hs, hs]
    rfl
  · rw [if_neg hs, List.splitOn_intercalate slash h hs]

theorem segments_pathOf {segs : List Bytes} (h : ∀ seg ∈ segs, slash ∉ seg) (hk : ∀ seg ∈ segs, keptSegment seg = true) :
    segments (pathOf segs) = segs := by
  have hnil : keptSegment [] = false := by decide
  rw [segments, splitOn_pathOf h, List.filter_cons_of_neg (by rw [hnil]; exact Bool.false_ne_true)]
  by_cases hs : segs = []
  · rw [if_pos hs, hs, List.filter_cons_of_neg (by rw [hnil]; exact Bool.false_ne_true), List.filter_nil]
  · rw [if_neg hs, List.filter_eq_self.2 hk]

theorem slash_not_mem_segments {p seg : Bytes} (h : seg ∈ segments p) : slash ∉ seg :=
  not_mem_of_mem_splitOn (List.mem_of_mem_filter h)

theorem kept_of_mem_segments {p seg : Bytes} (h : seg ∈ segments p) : keptSegment seg = true := List.of_mem_filter h

theorem segments_normalized (p : Bytes) : segments (pathOf (segments p)) = segments p :=
  segments_pathOf (fun _ h => slash_not_mem_segments h) fun _ h => kept_of_mem_segments h

theorem dotdot_pathOf {p : Bytes} (h : str ".." ∉ p.splitOn slash) : str ".." ∉ (pathOf (segments p)).splitOn slash := by
  rw [splitOn_pathOf fun _ h => slash_not_mem_segments h, List.mem_cons, not_or]
  refine ⟨by decide, ?_⟩
  by_cases hs : segments p = []
  · rw [if_pos hs]
    decide
  · rw [if_neg hs]
    exact fun hm => h (List.mem_of_mem_filter hm)

/-- **`NormalizePath` accepts the paths that start with a slash and have no segment `..`, puts out the segments that are
neither empty nor a dot, and leaves what it put out as it is**; two accepted paths have one output exactly when these
segments are the same. -/
theorem normalizePath_spec :
    (∀ p, (normalizePath p).isSome = true ↔ p.head? = some slash ∧ ∀ seg ∈ p.splitOn slash, seg ≠ str "..") ∧
    (∀ p out, normalizePath p = some out →
      out = slash :: [slash].intercalate ((p.splitOn slash).filter fun seg => decide (seg ≠ [] ∧ seg ≠ str ".")) ∧
      normalizePath out = some out) ∧
    ∀ p q out out', normalizePath p = some out → normalizePath q = some out' → (out = out' ↔ segments p = segments q) := by
  refine ⟨fun p => ?_, fun p out h => ?_, fun p q out out' h h' => ?_⟩
  · have hall : (∀ seg ∈ p.splitOn slash, seg ≠ str "..") ↔ str ".." ∉ p.splitOn slash :=
      ⟨fun h hm => h _ hm rfl, fun h seg hm e => h (e ▸ hm)⟩
    rw [hall, Option.isSome_iff_exists]
    exact ⟨fun ⟨out, h⟩ => (normalizePath_some.1 h).1, fun h => ⟨_, normalizePath_some.2 ⟨h, rfl⟩⟩⟩
  · obtain ⟨⟨-, hdots⟩, rfl⟩ := normalizePath_some.1 h
    refine ⟨?_, normalizePath_some.2 ⟨⟨rfl, dotdot_pathOf hdots⟩, by rw [segments_normalized]⟩⟩
    rw [pathOf, segments]
    congr 3
    funext seg
    rw [Bool.eq_iff_iff, keptSegment_iff, decide_eq_true_iff]
  · obtain ⟨-, rfl⟩ := normalizePath_some.1 h
    obtain ⟨-, rfl⟩ := normalizePath_some.1 h'
    refine ⟨fun e => ?_, fun e => by rw [e]⟩
    rw [← segments_normalized p, ← segments_normalized q, e]

/-- A path with redundant segments. -/
theorem normalizePath_spec_dots : normalizePath (str "/a//./b/") = some (str "/a/b") ∧
    normalizePath (str "/a/b") = some (str "/a/b") ∧ segments (str "/a//./b/") = segments (str "/a/b") := by
  have h : normalizePath (str "/a//./b/") = some (str "/a/b") := by decide +kernel
  have hout := (normalizePath_spec.2.1 _ _ h).2
  exact ⟨h, hout, (normalizePath_spec.2.2 _ _ _ _ h hout).1 rfl⟩

/-! ## Names behind a path -/

/-- A name that is behind a path, after a slash. -/
theorem segments_snoc (p : Bytes) (n : Name) : segments (p ++ slash :: n.val) = segments p ++ [n.val] := by
  obtain ⟨hne, hdot, -, hslash, -⟩ := n.2
  rw [segments, List.splitOn_append_cons_self, List.splitOn_eq_singleton hslash, List.filter_append, segments,
    List.filter_cons_of_pos (keptSegment_iff.2 ⟨hne, hdot⟩), List.filter_nil]

theorem dotdot_snoc {p : Bytes} (h : str ".." ∉ p.splitOn slash) (n : Name) :
    str ".." ∉ (p ++ slash :: n.val).splitOn slash := by
  obtain ⟨-, -, hdots, hslash, -⟩ := n.2
  rw [List.splitOn_append_cons_self, List.splitOn_eq_singleton hslash, List.mem_append, List.mem_singleton]
  exact fun hm => hm.elim h hdots.symm

/-- The segments of a path are entered one by one below the root of its device. -/
theorem place_pathOf {pre : Bytes} {segs : List Bytes} (hpre : slash ∉ pre) (h0 : 0 ∉ pre ++ pathOf segs)
    (h : ∀ seg ∈ segs, slash ∉ seg) : place (pre ++ pathOf segs) = segs.foldl enter [] := by
  have hsplit : (pre ++ pathOf segs).splitOn slash = pre :: if segs = [] then [[]] else segs := by
    rw [pathOf, splitOn_device hpre]
    by_cases hs : segs = []
    · rw [if_pos hs, hs]
      rfl
    · rw [if_neg hs, List.splitOn_intercalate slash h hs]
  rw [place, cStr_of_no_nul _ h0, hsplit, List.drop_one, List.tail_cons]
  by_cases hs : segs = []
  · rw [if_pos hs, hs, List.foldl_cons, enter, dif_neg (by decide), if_neg (by decide)]
  · rw [if_neg hs]

theorem foldl_enter_names : ∀ (r : List Name) (p : List Name), (r.map Subtype.val).foldl enter p = p ++ r
  | [], p => (List.append_nil p).symm
  | n :: r, p => by
    rw [List.map_cons, List.foldl_cons, enter, dif_pos n.2, foldl_enter_names r]
    simp

theorem nul_mem_pathOf {segs : List Bytes} : 0 ∈ pathOf segs ↔ ∃ seg ∈ segs, 0 ∈ seg := by
  rw [pathOf, List.mem_cons, mem_intercalate (by decide)]
  exact ⟨fun h => h.resolve_left (by decide), Or.inr⟩

/-- **Names behind the segments of a path lead below its place.** -/
theorem place_pathOf_append {pre : Bytes} {segs : List Bytes} (hpre : slash ∉ pre) (h0 : 0 ∉ pre ++ pathOf segs)
    (h : ∀ seg ∈ segs, slash ∉ seg) (r : List Name) :
    place (pre ++ pathOf (segs ++ r.map Subtype.val)) = place (pre ++ pathOf segs) ++ r := by
  have hall : ∀ seg ∈ segs ++ r.map Subtype.val, slash ∉ seg ∧ (0 ∉ pathOf segs → 0 ∉ seg) := by
    intro seg hs
    rcases List.mem_append.1 hs with hs | hs
    · exact ⟨h seg hs, fun hn hz => hn (nul_mem_pathOf.2 ⟨seg, hs, hz⟩)⟩
    · obtain ⟨n, -, rfl⟩ := List.mem_map.1 hs
      exact ⟨n.2.2.2.2.1, fun _ => n.2.2.2.2.2⟩
  rw [List.mem_append, not_or] at h0
  have h0' : 0 ∉ pre ++ pathOf (segs ++ r.map Subtype.val) := by
    rw [List.mem_append, not_or, nul_mem_pathOf]
    exact ⟨h0.1, fun ⟨seg, hs, hz⟩ => (hall seg hs).2 h0.2 hz⟩
  rw [place_pathOf hpre h0' fun seg hs => (hall seg hs).1, List.foldl_append, foldl_enter_names,
    place_pathOf hpre (by rw [List.mem_append, not_or]; exact h0) h]

end Agent
end SwitchMcp

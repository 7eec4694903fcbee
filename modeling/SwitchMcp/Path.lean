import SwitchMcp.Protocol
/-!
# Path — the path policy of the filesystem handlers (agent/source/path.cpp, server.cpp, handlers/fs.cpp)

`normalizePath` walks the segments of a path: `normalizePath_eq` says which paths it accepts and what it makes of them.
The check is on the whole `std::string`; the filesystem sees `cStr` of it.  `paths_contained_iff`: what a handler opens is
inside the device it resolved to, free of `..` and the very string that was checked, exactly when the request's path has
no NUL byte.
-/
namespace SwitchMcp
namespace Agent

open Json (Value)

/-! ## `NormalizePath` -/

def slash : UInt8 := ch '/'

/-- `in.find('/', i)` and `substr`: the segment up to the next slash, and what follows the slash. -/
def nextSegment (s : Bytes) : Bytes × Bytes :=
  (s.takeWhile (fun b => decide (b ≠ slash)), (s.dropWhile (fun b => decide (b ≠ slash))).drop 1)

/-- The loop over the segments; every round takes at least a byte, so the length is fuel enough. -/
def normalizeLoop : Nat → List Bytes → Bytes → Option (List Bytes)
  | 0, parts, _ => some parts
  | _ + 1, parts, [] => some parts
  | n + 1, parts, b :: s =>
    let seg := (nextSegment (b :: s)).1
    if seg = str ".." then none
    else normalizeLoop n (if seg ≠ [] ∧ seg ≠ str "." then parts ++ [seg] else parts) (nextSegment (b :: s)).2

/-- The loop that writes the parts out. -/
def joinParts : List Bytes → Bytes
  | [] => []
  | [p] => p
  | p :: q :: l => p ++ slash :: joinParts (q :: l)

def normalizePath (p : Bytes) : Option Bytes :=
  if p.head? = some slash then (normalizeLoop p.length [] p).map (fun parts => slash :: joinParts parts) else none

/-- A segment that is kept. -/
def keptSegment (seg : Bytes) : Bool := decide (seg ≠ []) && decide (seg ≠ str ".")

theorem not_mem_takeWhile (s : Bytes) : slash ∉ s.takeWhile (fun b => decide (b ≠ slash)) := fun h => by
  have := List.mem_takeWhile_imp h
  simp at this

/-- Either the next segment is all that is left, or a slash follows it. -/
theorem nextSegment_cases (s : Bytes) :
    (s = (nextSegment s).1 ∧ (nextSegment s).2 = []) ∨ s = (nextSegment s).1 ++ slash :: (nextSegment s).2 := by
  have h := List.takeWhile_append_dropWhile (p := fun b => decide (b ≠ slash)) (l := s)
  unfold nextSegment
  cases hd : s.dropWhile (fun b => decide (b ≠ slash)) with
  | nil =>
    rw [hd, List.append_nil] at h
    exact Or.inl ⟨h.symm, rfl⟩
  | cons b t =>
    have hb : b = slash := by
      have := List.head?_dropWhile_not (fun b => decide (b ≠ slash)) s
      rw [hd] at this
      simpa using this
    rw [hd, hb] at h
    exact Or.inr h.symm

/-- **The loop fails on a `..` segment, and keeps every segment that is neither empty nor a dot.** -/
theorem normalizeLoop_eq : ∀ (n : Nat) (parts : List Bytes) (s : Bytes), s.length ≤ n →
    normalizeLoop n parts s =
      if str ".." ∈ s.splitOn slash then none else some (parts ++ (s.splitOn slash).filter keptSegment)
  | 0, parts, s, h => by
    have hs : s = [] := List.length_eq_zero_iff.1 (by omega)
    subst hs
    rw [normalizeLoop]; simp [keptSegment, str]
  | n + 1, parts, [], _ => by rw [normalizeLoop]; simp [keptSegment, str]
  | n + 1, parts, b :: s, h => by
    have hns : slash ∉ (nextSegment (b :: s)).1 := not_mem_takeWhile (b :: s)
    have hkeep : ∀ (seg : Bytes) (l : List Bytes),
        (if seg ≠ [] ∧ seg ≠ str "." then parts ++ [seg] else parts) ++ l.filter keptSegment
          = parts ++ (seg :: l).filter keptSegment := by
      intro seg l
      by_cases hk : seg ≠ [] ∧ seg ≠ str "."
      · rw [if_pos hk, List.filter_cons_of_pos (by simpa [keptSegment] using hk)]; simp
      · rw [if_neg hk, List.filter_cons_of_neg (by simpa [keptSegment] using hk)]
    rw [normalizeLoop]
    rcases nextSegment_cases (b :: s) with ⟨he, hr⟩ | he
    · have hsplit : (b :: s).splitOn slash = [(nextSegment (b :: s)).1] := by
        rw [← he]; exact List.splitOn_eq_singleton (he ▸ hns)
      have hend : ∀ parts, normalizeLoop n parts [] = some parts := fun parts => by cases n <;> rw [normalizeLoop]
      rw [hsplit, hr, hend]
      by_cases hd : (nextSegment (b :: s)).1 = str ".."
      · rw [if_pos hd, if_pos (by rw [hd]; simp)]
      · have hk := hkeep (nextSegment (b :: s)).1 []
        have hmem : str ".." ∉ [(nextSegment (b :: s)).1] := by simpa using Ne.symm hd
        rw [List.filter_nil, List.append_nil] at hk
        rw [if_neg hd, if_neg hmem, hk]
    · have hsplit : (b :: s).splitOn slash = (nextSegment (b :: s)).1 :: (nextSegment (b :: s)).2.splitOn slash := by
        conv_lhs => rw [he]
        exact List.splitOn_append_cons_self_of_not_mem hns _
      have hlen : (nextSegment (b :: s)).2.length ≤ n := by
        have := congrArg List.length he
        simp only [List.length_cons, List.length_append] at this h
        omega
      rw [hsplit, normalizeLoop_eq n _ _ hlen, hkeep]
      by_cases hd : (nextSegment (b :: s)).1 = str ".."
      · rw [if_pos hd, if_pos (by rw [hd]; simp)]
      · rw [if_neg hd]
        simp only [List.mem_cons, Ne.symm hd, false_or]

theorem joinParts_eq : ∀ l : List Bytes, joinParts l = [slash].intercalate l
  | [] => rfl
  | [p] => by rw [joinParts, List.intercalate_singleton]
  | p :: q :: l => by rw [joinParts, joinParts_eq (q :: l), List.intercalate_cons_cons]; simp

/-- **A path is accepted when it starts with a slash and no segment of it is `..`; what comes out are its segments that are
neither empty nor a dot, each after one slash.** -/
theorem normalizePath_eq (p : Bytes) :
    normalizePath p =
      if p.head? = some slash ∧ str ".." ∉ p.splitOn slash then
        some (slash :: [slash].intercalate ((p.splitOn slash).filter keptSegment))
      else none := by
  unfold normalizePath
  rw [normalizeLoop_eq p.length [] p le_rfl]
  by_cases h1 : p.head? = some slash
  · by_cases h2 : str ".." ∈ p.splitOn slash <;> simp [h1, h2, joinParts_eq]
  · simp [h1]

/-! ## Devices -/

def resolveSdPath (p : Bytes) : Option Bytes := (normalizePath p).map (str "sdmc:" ++ ·)

def kSaveMountName : Bytes := str "save_ro"

/-- The device path and whether it may be written to. -/
def resolveDevicePath (saveMounted : Bool) (device p : Bytes) : Option (Bytes × Bool) :=
  match normalizePath p with
  | none => none
  | some norm =>
    if device = [] ∨ device = str "sd" ∨ device = str "sdmc" then some (str "sdmc:" ++ norm, true)
    else if device = str "save" then
      if saveMounted then some (kSaveMountName ++ ch ':' :: norm, false) else none
    else none

/-- A path of a request and the device path a handler passes on for it. -/
structure Resolved where
  raw : Bytes
  dev : Bytes

/-- `ResolveDevicePath(req["device"].as_string("sd"), p, dev, nullptr)` or fail. -/
def readable (saveMounted : Bool) (req : Request) (p : Bytes) (code message : String) : Except Reply Resolved :=
  match resolveDevicePath saveMounted ((req.get "device").asString (str "sd")) p with
  | some (dev, _) => .ok ⟨p, dev⟩
  | none => .error (fail code (str message))

def fsListPath (saveMounted : Bool) (req : Request) : Except Reply Resolved :=
  readable saveMounted req ((req.get "path").asString (str "/")) "bad_path" "invalid path, or unknown/unmounted device"

def fsReadPath (saveMounted : Bool) (req : Request) : Except Reply Resolved :=
  readable saveMounted req ((req.get "path").asString []) "bad_path" "invalid path, or unknown/unmounted device"

def fsStatPath (saveMounted : Bool) (req : Request) : Except Reply Resolved :=
  readable saveMounted req ((req.get "path").asString []) "bad_path" "invalid path, or unknown/unmounted device"

def fsHashPath (saveMounted : Bool) (req : Request) : Except Reply Resolved :=
  readable saveMounted req ((req.get "path").asString []) "bad_path" "invalid path, or unknown/unmounted device"

def fsFindPath (saveMounted : Bool) (req : Request) : Except Reply Resolved :=
  readable saveMounted req ((req.get "path").asString (str "/")) "bad_path" "invalid path or unknown device"

def fsGrepPath (saveMounted : Bool) (req : Request) : Except Reply Resolved :=
  readable saveMounted req ((req.get "path").asString []) "bad_path" "invalid path or unknown device"

def fsFreeSpacePath (saveMounted : Bool) (req : Request) : Except Reply Resolved :=
  readable saveMounted req (str "/") "bad_device" "unknown or unmounted device"

/-- Mutating handlers are SD-only. -/
def requireWritableSd (req : Request) : Except Reply Resolved :=
  let device := (req.get "device").asString (str "sd")
  if device ≠ str "sd" ∧ device ≠ str "sdmc" then
    .error (fail "read_only_device" (str "device '" ++ device ++
      str "' is mounted read-only; only the SD card (device=\"sd\") can be written to"))
  else
    match resolveSdPath ((req.get "path").asString []) with
    | some dev => .ok ⟨(req.get "path").asString [], dev⟩
    | none => .error (fail "bad_path" (str "invalid or unsafe path"))

def fsWritePath (req : Request) : Except Reply Resolved := requireWritableSd req

def fsDeletePath (req : Request) : Except Reply Resolved := requireWritableSd req

def fsMkdirPath (req : Request) : Except Reply Resolved := requireWritableSd req

/-- Both ends of a move or a copy. -/
def fromTo (req : Request) (message : String) : Except Reply (Resolved × Resolved) :=
  let device := (req.get "device").asString (str "sd")
  if device ≠ str "sd" ∧ device ≠ str "sdmc" then .error (fail "read_only_device" (str message))
  else
    match resolveSdPath ((req.get "from").asString []), resolveSdPath ((req.get "to").asString []) with
    | some src, some dst => .ok (⟨(req.get "from").asString [], src⟩, ⟨(req.get "to").asString [], dst⟩)
    | _, _ => .error (fail "bad_path" (str "invalid or unsafe path"))

def fsRenamePaths (req : Request) : Except Reply (Resolved × Resolved) :=
  fromTo req "rename is only possible on the SD card (device=\"sd\")"

def fsCopyPaths (req : Request) : Except Reply (Resolved × Resolved) :=
  fromTo req "fs.copy writes, so it only works on the SD card (device=\"sd\")"

/-- The handlers that pass a request's path to the filesystem. -/
inductive PathHandler
  | fsList | fsRead | fsStat | fsHash | fsFind | fsGrep | fsFreeSpace
  | fsWrite | fsDelete | fsMkdir | fsRename | fsCopy
deriving DecidableEq

def PathHandler.readOnly : PathHandler → Bool
  | .fsList | .fsRead | .fsStat | .fsHash | .fsFind | .fsGrep | .fsFreeSpace => true
  | .fsWrite | .fsDelete | .fsMkdir | .fsRename | .fsCopy => false

/-- The paths a handler passes on. -/
def PathHandler.paths (saveMounted : Bool) (req : Request) : PathHandler → Except Reply (List Resolved)
  | .fsList => (fsListPath saveMounted req).map ([·])
  | .fsRead => (fsReadPath saveMounted req).map ([·])
  | .fsStat => (fsStatPath saveMounted req).map ([·])
  | .fsHash => (fsHashPath saveMounted req).map ([·])
  | .fsFind => (fsFindPath saveMounted req).map ([·])
  | .fsGrep => (fsGrepPath saveMounted req).map ([·])
  | .fsFreeSpace => (fsFreeSpacePath saveMounted req).map ([·])
  | .fsWrite => (fsWritePath req).map ([·])
  | .fsDelete => (fsDeletePath req).map ([·])
  | .fsMkdir => (fsMkdirPath req).map ([·])
  | .fsRename => (fsRenamePaths req).map (fun p => [p.1, p.2])
  | .fsCopy => (fsCopyPaths req).map (fun p => [p.1, p.2])

/-! ## What the filesystem sees -/

/-- What a path policy promises of the path a handler opens: it lies on a device the handler may use, no component of it is
`..`, and it is the string that was checked. -/
def Contained (saveMounted readOnly : Bool) (dev : Bytes) : Prop :=
  (str "sdmc:/" <+: cStr dev ∨ (str "save_ro:/" <+: cStr dev ∧ saveMounted = true ∧ readOnly = true)) ∧
    str ".." ∉ (cStr dev).splitOn slash ∧ cStr dev = dev

/-- A device's name has no slash and no NUL. -/
theorem splitOn_device {pre : Bytes} (hpre : slash ∉ pre) (s : Bytes) :
    (pre ++ slash :: s).splitOn slash = pre :: s.splitOn slash := List.splitOn_append_cons_self_of_not_mem hpre s

theorem not_mem_of_mem_splitOn {sep : UInt8} {s seg : Bytes} (h : seg ∈ s.splitOn sep) : sep ∉ seg := by
  induction s generalizing seg with
  | nil => rw [List.splitOn_nil] at h; rw [List.mem_singleton.1 h]; simp
  | cons b s ih =>
    rw [List.splitOn_cons_eq_if_modifyHead] at h
    split at h
    · rcases List.mem_cons.1 h with rfl | h
      · simp
      · exact ih h
    · rename_i hb
      cases hs : s.splitOn sep with
      | nil => exact absurd hs (List.splitOn_ne_nil sep s)
      | cons x l =>
        rw [hs, List.modifyHead_cons] at h
        rcases List.mem_cons.1 h with rfl | h
        · intro hm
          rcases List.mem_cons.1 hm with e | hm
          · exact hb (by simp [e])
          · exact ih (by rw [hs]; simp) hm
        · exact ih (by rw [hs]; simp [h])

/-- The bytes of a list of segments are those of the segments and the slashes between them. -/
theorem mem_intercalate {b : UInt8} (hb : b ≠ slash) : ∀ l : List Bytes, b ∈ [slash].intercalate l ↔ ∃ seg ∈ l, b ∈ seg
  | [] => by simp
  | [p] => by simp
  | p :: q :: l => by
    have ih := mem_intercalate hb (q :: l)
    rw [List.intercalate_cons_cons, List.mem_append, List.mem_append, List.mem_singleton, ih]
    simp [hb]

/-- A NUL in a path is in a segment that is kept. -/
theorem nul_mem_normalizePath {p out : Bytes} (h : normalizePath p = some out) : 0 ∈ out ↔ 0 ∈ p := by
  have h0 : (0 : UInt8) ≠ slash := by decide
  rw [normalizePath_eq] at h
  split at h
  · cases h
    have hp : 0 ∈ p ↔ ∃ seg ∈ p.splitOn slash, 0 ∈ seg := by
      conv_lhs => rw [← @List.intercalate_splitOn _ p _ _ slash]
      exact mem_intercalate h0 _
    rw [hp, List.mem_cons, mem_intercalate h0]
    constructor
    · rintro (h | ⟨seg, hs, h⟩)
      · exact absurd h h0
      · exact ⟨seg, List.mem_of_mem_filter hs, h⟩
    · rintro ⟨seg, hs, h⟩
      refine Or.inr ⟨seg, List.mem_filter.2 ⟨hs, ?_⟩, h⟩
      have hne : seg ≠ [] := by rintro rfl; cases h
      have hdot : seg ≠ str "." := by rintro rfl; revert h; decide
      simp [keptSegment, hne, hdot]
  · cases h

/-- No component of an accepted path is `..`. -/
theorem dotdot_normalizePath {p out pre : Bytes} (h : normalizePath p = some out) (hpre : slash ∉ pre)
    (hdots : pre ≠ str "..") : str ".." ∉ (pre ++ out).splitOn slash := by
  rw [normalizePath_eq] at h
  split at h
  · rename_i hp
    cases h
    rw [splitOn_device hpre, List.mem_cons, not_or]
    refine ⟨Ne.symm hdots, ?_⟩
    cases hl : (p.splitOn slash).filter keptSegment with
    | nil => simp [str]
    | cons q l =>
      rw [← hl, List.splitOn_intercalate slash]
      · exact fun hm => hp.2 (List.mem_of_mem_filter hm)
      · exact fun seg hs => not_mem_of_mem_splitOn (List.mem_of_mem_filter hs)
      · rw [hl]; simp
  · cases h

theorem head_normalizePath {p out : Bytes} (h : normalizePath p = some out) : ∃ t, out = slash :: t := by
  rw [normalizePath_eq] at h
  split at h <;> cases h
  exact ⟨_, rfl⟩

/-- **A resolved path is seen whole by the filesystem exactly when the request's path has no NUL byte.** -/
theorem cStr_resolved_iff {p out pre : Bytes} (h : normalizePath p = some out) (hpre : 0 ∉ pre) :
    cStr (pre ++ out) = pre ++ out ↔ 0 ∉ p := by
  rw [cStr_eq_self_iff, List.mem_append, nul_mem_normalizePath h]
  simp [hpre]

theorem contained_iff {p out pre : Bytes} {saveMounted readOnly : Bool} (h : normalizePath p = some out) (h0 : 0 ∉ pre)
    (hpre : slash ∉ pre) (hdots : pre ≠ str "..")
    (hdev : pre = str "sdmc:" ∨ pre = str "save_ro:" ∧ saveMounted = true ∧ readOnly = true) :
    Contained saveMounted readOnly (pre ++ out) ↔ 0 ∉ p := by
  rw [← cStr_resolved_iff h h0]
  constructor
  · exact fun hc => hc.2.2
  · intro hc
    obtain ⟨t, rfl⟩ := head_normalizePath h
    refine ⟨?_, by rw [hc]; exact dotdot_normalizePath h hpre hdots, hc⟩
    rw [hc]
    rcases hdev with rfl | ⟨rfl, hs, hr⟩
    · exact Or.inl ⟨t, rfl⟩
    · exact Or.inr ⟨⟨t, rfl⟩, hs, hr⟩

theorem resolveSdPath_contained {p dev : Bytes} (saveMounted readOnly : Bool) (h : resolveSdPath p = some dev) :
    Contained saveMounted readOnly dev ↔ 0 ∉ p := by
  unfold resolveSdPath at h
  rw [Option.map_eq_some_iff] at h
  obtain ⟨out, hn, rfl⟩ := h
  exact contained_iff hn (by decide) (by decide) (by decide) (Or.inl rfl)

theorem resolveDevicePath_contained {saveMounted writable readOnly : Bool} {device p dev : Bytes}
    (h : resolveDevicePath saveMounted device p = some (dev, writable)) (hw : writable = true ∨ readOnly = true) :
    Contained saveMounted readOnly dev ↔ 0 ∉ p := by
  unfold resolveDevicePath at h
  cases hn : normalizePath p with
  | none => rw [hn] at h; cases h
  | some out =>
    rw [hn] at h
    simp only at h
    split at h
    · cases h
      exact contained_iff hn (by decide) (by decide) (by decide) (Or.inl rfl)
    · split at h
      · split at h
        · rename_i hm
          cases h
          rw [show kSaveMountName ++ ch ':' :: out = str "save_ro:" ++ out by
            rw [show str "save_ro:" = kSaveMountName ++ [ch ':'] by decide, List.append_assoc]; rfl]
          exact contained_iff hn (by decide) (by decide) (by decide) (Or.inr ⟨rfl, hm, hw.resolve_left (by decide)⟩)
        · cases h
      · cases h

theorem readable_contained {saveMounted : Bool} {req : Request} {p : Bytes} {code message : String} {u : Resolved}
    (h : readable saveMounted req p code message = .ok u) : Contained saveMounted true u.dev ↔ 0 ∉ u.raw := by
  unfold readable at h
  split at h
  · rename_i dev w hr
    cases h
    exact resolveDevicePath_contained hr (Or.inr rfl)
  · cases h

theorem requireWritableSd_contained {req : Request} {u : Resolved} (saveMounted readOnly : Bool)
    (h : requireWritableSd req = .ok u) : Contained saveMounted readOnly u.dev ↔ 0 ∉ u.raw := by
  unfold requireWritableSd at h
  simp only at h
  split at h
  · cases h
  · split at h
    · rename_i dev hr
      cases h
      exact resolveSdPath_contained saveMounted readOnly hr
    · cases h

theorem fromTo_contained {req : Request} {message : String} {p : Resolved × Resolved} (saveMounted readOnly : Bool)
    (h : fromTo req message = .ok p) :
    (Contained saveMounted readOnly p.1.dev ↔ 0 ∉ p.1.raw) ∧ (Contained saveMounted readOnly p.2.dev ↔ 0 ∉ p.2.raw) := by
  unfold fromTo at h
  simp only at h
  split at h
  · cases h
  · split at h
    · rename_i src dst hs hd
      cases h
      exact ⟨resolveSdPath_contained saveMounted readOnly hs, resolveSdPath_contained saveMounted readOnly hd⟩
    · cases h

theorem map_ok {α β : Type} {f : α → β} {e : Except Reply α} {b : β} (h : e.map f = .ok b) : ∃ a, e = .ok a ∧ b = f a := by
  cases e with
  | error _ => cases h
  | ok a => cases h; exact ⟨a, rfl, rfl⟩

theorem handler_contained {saveMounted : Bool} {h : PathHandler} {req : Request} {us : List Resolved}
    (hok : h.paths saveMounted req = .ok us) : ∀ u ∈ us, (Contained saveMounted h.readOnly u.dev ↔ 0 ∉ u.raw) := by
  intro u hu
  cases h with
  | fsList | fsRead | fsStat | fsHash | fsFind | fsGrep | fsFreeSpace =>
    obtain ⟨a, ha, rfl⟩ := map_ok hok
    rw [List.mem_singleton.1 hu]
    exact readable_contained ha
  | fsWrite | fsDelete | fsMkdir =>
    obtain ⟨a, ha, rfl⟩ := map_ok hok
    rw [List.mem_singleton.1 hu]
    exact requireWritableSd_contained saveMounted false ha
  | fsRename | fsCopy =>
    obtain ⟨a, ha, rfl⟩ := map_ok hok
    have hc := fromTo_contained saveMounted false ha
    rcases List.mem_cons.1 hu with rfl | hu
    · exact hc.1
    · rw [List.mem_singleton.1 hu]; exact hc.2

/-- **What the filesystem opens is inside the device, free of `..` and what was checked, exactly when the request's path
has no NUL byte**: for either way to resolve a path, and for every path of every handler. -/
theorem paths_contained_iff (saveMounted : Bool) :
    (∀ p dev, resolveSdPath p = some dev → (Contained saveMounted false dev ↔ 0 ∉ p)) ∧
    (∀ device p dev writable, resolveDevicePath saveMounted device p = some (dev, writable) →
      (Contained saveMounted (!writable) dev ↔ 0 ∉ p)) ∧
    (∀ (h : PathHandler) (req : Request) (us : List Resolved), h.paths saveMounted req = .ok us →
      ∀ u ∈ us, (Contained saveMounted h.readOnly u.dev ↔ 0 ∉ u.raw)) :=
  ⟨fun _ _ h => resolveSdPath_contained saveMounted false h,
    fun _ _ _ w h => resolveDevicePath_contained h (by cases w <;> simp), fun _ _ _ h => handler_contained h⟩

theorem paths_contained_save : Contained true true (str "save_ro:/a/b") ∧ Contained true false (str "sdmc:/a") := by
  obtain ⟨h1, h2, -⟩ := paths_contained_iff true
  exact ⟨(h2 (str "save") (str "//a/./b") (str "save_ro:/a/b") false (by decide +kernel)).2 (by decide),
    (h1 (str "/a/") (str "sdmc:/a") (by decide +kernel)).2 (by decide)⟩

/-- **A NUL hides a `..` from the check**: the request's `"/..\u0000x"` is accepted, and `sdmc:/..` is opened. -/
theorem nul_hides_dotdot :
    ((Json.parse (str "\x7b\"path\": \"/..\\u0000x\"\x7d")).bind
      (fun msg => resolveSdPath ((msg.get (str "path")).asString []))).map cStr = some (str "sdmc:/..") ∧
    ¬Contained false false (str "sdmc:/.." ++ 0 :: str "x") :=
  ⟨by decide +kernel, fun h => absurd h.2.2 (by decide)⟩

end Agent
end SwitchMcp

import SwitchMcp.Fs
import SwitchMcp.Volume
/-!
# Saves — backing up and restoring a title's save (agent/source/handlers/fs.cpp)

`CopyTree` over two volumes, `BackupSave` and `RestoreSave` around it, and the title id they share: the number is what
`strtoull` finds at the front of the request's string, the directory is named by the whole string.
`backup_dirs_iff` compares the two.
-/
namespace SwitchMcp
namespace Agent

open Json (Value)

/-! ## Title ids -/

def isXDigit (b : UInt8) : Bool := (Json.hexDigit b).isSome

def hexPrefix : Bytes → Bytes
  | a :: b :: _ => if a = ch '0' ∧ (b = ch 'x' ∨ b = ch 'X') then [a, b] else []
  | _ => []

/-- The parts of a string that `strtoull(s, nullptr, 16)` tells apart. -/
structure HexText where
  blanks : Bytes
  sign : Bytes
  marker : Bytes
  digits : Bytes
  rest : Bytes
deriving DecidableEq

def hexText (s : Bytes) : HexText :=
  let blanks := s.takeWhile isSpace
  let s := s.dropWhile isSpace
  let sign := Json.signText s
  let s := s.drop sign.length
  let marker := hexPrefix s
  let s := s.drop marker.length
  ⟨blanks, sign, marker, s.takeWhile isXDigit, s.dropWhile isXDigit⟩

/-- `std::strtoull(s.c_str(), nullptr, 16)`. -/
def strtoull16 (s : Bytes) : UInt64 :=
  let t := hexText (cStr s)
  let n := t.digits.foldl (fun n d => 16 * n + (Json.hexDigit d).getD 0) 0
  if 2 ^ 64 ≤ n then UInt64.ofNat (2 ^ 64 - 1)
  else if t.sign = [ch '-'] then 0 - UInt64.ofNat n
  else UInt64.ofNat n

def savesDir : Bytes := str "sdmc:/switch-agentd/saves"

/-- The string `BackupSave` and `RestoreSave` build for a title id. -/
def saveDir (tid : Bytes) : Bytes := savesDir ++ slash :: tid

/-! ## Paths -/

/-- A name that a directory can hold. -/
def PlainName (n : Bytes) : Prop := n ≠ [] ∧ n ≠ str "." ∧ n ≠ str ".." ∧ slash ∉ n ∧ 0 ∉ n

instance (n : Bytes) : Decidable (PlainName n) := inferInstanceAs (Decidable (_ ∧ _ ∧ _ ∧ _ ∧ _))

abbrev Name := {n : Bytes // PlainName n}

/-- One segment of a path, read below `p`. -/
def enter (p : List Name) (seg : Bytes) : List Name :=
  if h : PlainName seg then p ++ [⟨seg, h⟩] else if seg = str ".." then p.dropLast else p

/-- Where a path leads on its device: what comes before the first slash is the device. -/
def place (path : Bytes) : List Name := (((cStr path).splitOn slash).drop 1).foldl enter []

abbrev FileTree := Volume Name Bytes

def mkdir (v : FileTree) (path : Bytes) : FileTree :=
  if h : v.Free (place path) ∧ v.entryAt (place path) = none then v.put (place path) .dir h.1 else v

/-- `fopen(path, "wb")`, the writes and the close. -/
def writeFile (v : FileTree) (path content : Bytes) : Option FileTree :=
  if h : v.Free (place path) then some (v.put (place path) (.file content) h) else none

/-! ## `CopyTree` -/

def kCopyBuffer : Nat := 64 * 1024

/-- The loop that copies a file through the buffer; a round that reads nothing ends it. -/
def copyLoop : Nat → Bytes → Bytes → Bytes
  | 0, out, _ => out
  | n + 1, out, left =>
    if left = [] then out else copyLoop n (out ++ left.take kCopyBuffer) (left.drop kCopyBuffer)

def copyFile (content : Bytes) : Bytes := copyLoop content.length [] content

/-- The loop over a directory's entries; `copyDir` is `CopyTree` for the directories among them. -/
def copyEntries (source : FileTree) (copyDir : Bytes → Bytes → FileTree → Option (Bool × FileTree)) (src dst : Bytes) :
    List Name → Bool → FileTree → Option (Bool × FileTree)
  | [], ok, target => some (ok, target)
  | name :: names, ok, target =>
    if isDots name.val then copyEntries source copyDir src dst names ok target
    else
      match source.entryAt (place (src ++ slash :: name.val)) with
      | none => copyEntries source copyDir src dst names ok target
      | some .dir =>
        match copyDir (src ++ slash :: name.val) (dst ++ slash :: name.val) target with
        | none => none
        | some (ok', target) => copyEntries source copyDir src dst names (ok && ok') target
      | some (.file content) =>
        match writeFile target (dst ++ slash :: name.val) (copyFile content) with
        | some target => copyEntries source copyDir src dst names ok target
        | none => copyEntries source copyDir src dst names false target

/-- `CopyTree(src, dst)` from one volume to another.  The recursion has no bound of its own: `none` is a call that does
not come back within the fuel. -/
def copyTree (source : FileTree) : Nat → Bytes → Bytes → FileTree → Option (Bool × FileTree)
  | 0, _, _, _ => none
  | n + 1, src, dst, target =>
    let target := mkdir target dst
    if source.entryAt (place src) = some .dir then
      copyEntries source (copyTree source n) src dst (source.names (place src)) true target
    else some (false, target)

/-! ## The handlers -/

/-- The SD card, and the committed save of each title and user. -/
structure Console where
  card : FileTree
  save : UInt64 → UInt64 × UInt64 → FileTree

/-- Whether `fsdevMountSaveData` and `fsdevCommitDevice` succeed. -/
structure SaveFault where
  mounts : Bool
  commits : Bool

def reqTid (req : Request) : UInt64 := strtoull16 ((req.get "tid").asString (str "0"))

def reqUid (req : Request) : UInt64 × UInt64 := (asU64 (req.get "uid_lo") 0, asU64 (req.get "uid_hi") 0)

def reqDir (req : Request) : Bytes := saveDir ((req.get "tid").asString [])

def saveRoot : Bytes := str "save:/"

def backupSave (fuel : Nat) (fault : SaveFault) (req : Request) (con : Console) : Option ((Bool × Reply) × Console) :=
  if reqTid req = 0 then some ((false, fail "bad_arg" (str "missing tid")), con)
  else if !fault.mounts then some ((false, fail "mount_failed" (str "cannot mount save data")), con)
  else
    let card := mkdir (mkdir con.card (str "sdmc:/switch-agentd")) savesDir
    match copyTree (con.save (reqTid req) (reqUid req)) fuel saveRoot (reqDir req) card with
    | none => none
    | some (ok, card) =>
      if ok then
        some ((true, (({} : Reply).set "ok" (.bool true)).set "path" (.string (reqDir req))), { con with card := card })
      else some ((false, fail "io_error" (str "backup copy failed")), { con with card := card })

def Console.commit (con : Console) (tid : UInt64) (uid : UInt64 × UInt64) (v : FileTree) : Console :=
  { con with save := fun t u => if t = tid ∧ u = uid then v else con.save t u }

def restoreSave (fuel : Nat) (fault : SaveFault) (req : Request) (con : Console) : Option ((Bool × Reply) × Console) :=
  if reqTid req = 0 then some ((false, fail "bad_arg" (str "missing tid")), con)
  else if !fault.mounts then some ((false, fail "mount_failed" (str "cannot mount save data")), con)
  else
    match copyTree con.card fuel (reqDir req) saveRoot (con.save (reqTid req) (reqUid req)) with
    | none => none
    | some (ok, save) =>
      if ok && fault.commits then
        some ((true, ({} : Reply).set "ok" (.bool true)), con.commit (reqTid req) (reqUid req) save)
      else some ((false, fail "io_error" (str "restore/commit failed")), con)

/-! ## Which directory a title id names -/

theorem hexText_text (s : Bytes) : (hexText s).blanks ++ ((hexText s).sign ++ ((hexText s).marker ++
    ((hexText s).digits ++ (hexText s).rest))) = s := by
  have hsign : ∀ s : Bytes, Json.signText s ++ s.drop (Json.signText s).length = s := by
    intro s
    unfold Json.signText
    split
    · split <;> rfl
    · rfl
  have hmark : ∀ s : Bytes, hexPrefix s ++ s.drop (hexPrefix s).length = s := by
    intro s
    unfold hexPrefix
    split
    · split <;> rfl
    · rfl
  simp only [hexText]
  rw [List.takeWhile_append_dropWhile, hmark, hsign, List.takeWhile_append_dropWhile]

/-- The bytes before the rest: blanks, a sign, the marker and hexadecimal digits. -/
theorem hexText_front (s : Bytes) {b : UInt8}
    (h : b ∈ (hexText s).blanks ++ ((hexText s).sign ++ ((hexText s).marker ++ (hexText s).digits))) :
    b ≠ slash ∧ b ≠ ch '.' := by
  have hclass : ∀ b : UInt8, isSpace b = true ∨ b = ch '-' ∨ b = ch '+' ∨ b = ch 'x' ∨ b = ch 'X' ∨ isXDigit b = true →
      b ≠ slash ∧ b ≠ ch '.' := by decide +kernel
  refine hclass b ?_
  rcases List.mem_append.1 h with h | h
  · exact Or.inl (List.mem_takeWhile_imp h)
  rcases List.mem_append.1 h with h | h
  · simp only [hexText, Json.signText] at h
    split at h
    · split at h
      · rename_i hc
        rw [List.mem_singleton.1 h]
        exact Or.inr (hc.imp_right Or.inl)
      · cases h
    · cases h
  rcases List.mem_append.1 h with h | h
  · simp only [hexText] at h
    unfold hexPrefix at h
    split at h
    · split at h
      · rename_i hc
        rcases List.mem_cons.1 h with rfl | h
        · rw [hc.1]
          exact Or.inr (Or.inr (Or.inr (Or.inr (Or.inr (by decide)))))
        · rw [List.mem_singleton.1 h]
          exact Or.inr (Or.inr (Or.inr (hc.2.imp_right Or.inl)))
      · cases h
    · cases h
  · simp only [hexText] at h
    exact Or.inr (Or.inr (Or.inr (Or.inr (Or.inr (List.mem_takeWhile_imp h)))))

theorem digits_ne_nil {tid : Bytes} (h : strtoull16 tid ≠ 0) : (hexText (cStr tid)).digits ≠ [] := by
  intro h0
  refine h ?_
  simp [strtoull16, h0]

/-- The directory the C functions are given. -/
def usedDir (tid : Bytes) : Bytes := cStr (saveDir tid)

theorem usedDir_eq (tid : Bytes) : usedDir tid = savesDir ++ slash :: cStr tid := by
  have happ : ∀ (a b : Bytes), 0 ∉ a → cStr (a ++ b) = a ++ cStr b := by
    intro a b h
    unfold cStr
    rw [List.takeWhile_append_of_pos]
    intro x hx
    refine decide_eq_true ?_
    rintro rfl
    exact h hx
  rw [usedDir, saveDir, happ savesDir _ (by decide), cStr_cons, if_neg (by decide)]

/-- One component below the directory of the saves, and no `..` in it. -/
def OwnDirectory (tid : Bytes) : Prop :=
  ∃ c, usedDir tid = savesDir ++ slash :: c ∧ c ≠ [] ∧ slash ∉ c ∧ ¬str ".." <:+: c

/-- What follows the digits has no slash and no `..`. -/
def PlainTail (tid : Bytes) : Prop :=
  slash ∉ (hexText (cStr tid)).rest ∧ ¬str ".." <:+: (hexText (cStr tid)).rest

theorem infix_of_front {a b : Bytes} (ha : ch '.' ∉ a) (h : str ".." <:+: a ++ b) : str ".." <:+: b := by
  obtain ⟨l, r, e⟩ := h
  rw [List.append_assoc] at e
  rcases List.append_eq_append_iff.1 e with ⟨m, rfl, hm⟩ | ⟨m, rfl, hm⟩
  · cases m with
    | nil => exact ⟨[], r, hm⟩
    | cons x m =>
      have hx : ch '.' = x := (List.cons.inj hm).1
      exact absurd (by rw [hx]; simp) ha
  · exact ⟨m, r, by rw [hm, List.append_assoc]⟩

theorem ownDirectory_iff {tid : Bytes} (h : strtoull16 tid ≠ 0) : OwnDirectory tid ↔ PlainTail tid := by
  have htext := hexText_text (cStr tid)
  rw [← List.append_assoc, ← List.append_assoc, ← List.append_assoc] at htext
  have hfront := @hexText_front (cStr tid)
  rw [← List.append_assoc, ← List.append_assoc] at hfront
  have hdig := digits_ne_nil h
  unfold PlainTail
  generalize hexText (cStr tid) = t at htext hfront hdig
  have hown : OwnDirectory tid ↔ slash ∉ cStr tid ∧ ¬str ".." <:+: cStr tid := by
    constructor
    · rintro ⟨c, hc, -, h1, h2⟩
      rw [usedDir_eq] at hc
      rw [(List.cons.inj (List.append_cancel_left hc)).2]
      exact ⟨h1, h2⟩
    · rintro ⟨h1, h2⟩
      refine ⟨cStr tid, usedDir_eq tid, ?_, h1, h2⟩
      rw [← htext]
      simp [hdig]
  rw [hown, ← htext, List.mem_append, not_or]
  constructor
  · rintro ⟨⟨-, h1⟩, h2⟩
    exact ⟨h1, fun hi => h2 (hi.trans (List.suffix_append _ _).isInfix)⟩
  · rintro ⟨h1, h2⟩
    exact ⟨⟨fun hm => (hfront hm).1 rfl, h1⟩, fun hi => h2 (infix_of_front (fun hm => (hfront hm).2 rfl) hi)⟩

/-- **Two accepted title ids have a directory of their own each, and one directory between them where they denote one
title, exactly when no slash and no `..` follows their digits, and ids of one title are written alike up to the first
NUL.** -/
theorem backup_dirs_iff (s t : Bytes) (hs : strtoull16 s ≠ 0) (ht : strtoull16 t ≠ 0) :
    (OwnDirectory s ∧ OwnDirectory t ∧ (strtoull16 s = strtoull16 t → usedDir s = usedDir t)) ↔
    (PlainTail s ∧ PlainTail t ∧ (strtoull16 s = strtoull16 t → cStr s = cStr t)) := by
  rw [ownDirectory_iff hs, ownDirectory_iff ht, usedDir_eq, usedDir_eq, List.append_cancel_left_eq, List.cons.injEq,
    and_iff_right rfl]

theorem backup_dirs_own :
    strtoull16 (str "0100000000010000") ≠ 0 ∧
    (OwnDirectory (str "0100000000010000") ∧ OwnDirectory (str "0100000000010000") ∧
      (strtoull16 (str "0100000000010000") = strtoull16 (str "0100000000010000") →
        usedDir (str "0100000000010000") = usedDir (str "0100000000010000"))) := by
  have h : strtoull16 (str "0100000000010000") ≠ 0 := by decide +kernel
  refine ⟨h, (backup_dirs_iff _ _ h h).2 ⟨?_, ?_, fun _ => rfl⟩⟩
  · rw [PlainTail, show (hexText (cStr (str "0100000000010000"))).rest = [] by decide +kernel]
    exact ⟨by simp, by simp [str]⟩
  · rw [PlainTail, show (hexText (cStr (str "0100000000010000"))).rest = [] by decide +kernel]
    exact ⟨by simp, by simp [str]⟩

/-- **An accepted id can lead out of the directory of the saves, and one title can have two directories.** -/
theorem tid_leads_out :
    strtoull16 (str "1/../../x") = 1 ∧ usedDir (str "1/../../x") = str "sdmc:/switch-agentd/saves/1/../../x" ∧
    (place (saveDir (str "1/../../x"))).map Subtype.val = [str "switch-agentd", str "x"] ∧
    strtoull16 (str "01") = 1 ∧ strtoull16 (str "1") = 1 ∧ usedDir (str "01") ≠ usedDir (str "1") := by
  refine ⟨by decide +kernel, by decide +kernel, by decide +kernel, by decide +kernel, by decide +kernel, by decide +kernel⟩

end Agent
end SwitchMcp

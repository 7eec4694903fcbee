import SwitchMcp.FileCopy
import SwitchMcp.SaveCopy
/-!
# SaveFaults — a save's copy when calls fail (agent/source/handlers/fs.cpp)

`CopyTree` once more, with the calls in it that can fail: `mkdir`, `opendir`, `stat`, `fopen`, `fread`, `fwrite`.  What does
not open makes it return false; an entry whose `stat` fails is passed over, and what `mkdir`, `fread` and `fwrite` return
is not looked at.  `tree_complete_iff` says which of the copies that return true are whole.
-/
namespace SwitchMcp
namespace Agent

/-! ## Faults -/

/-- Which calls succeed in one run of `CopyTree`, by the path below its two directories. -/
structure TreeFault where
  mkdir : List Name → Bool
  openDir : List Name → Bool
  stat : List Name → Bool
  file : List Name → CopyFault

/-- The faults of the run for a directory's entry. -/
def TreeFault.enter (fault : TreeFault) (n : Name) : TreeFault where
  mkdir r := fault.mkdir (n :: r)
  openDir r := fault.openDir (n :: r)
  stat r := fault.stat (n :: r)
  file r := fault.file (n :: r)

def makeDir (ok : Bool) (v : FileTree) (path : Bytes) : FileTree := if ok then mkdir v path else v

/-- What the loop over the buffer writes: the loop of `FsCopy`, without its count. -/
def moved (f : CopyFault) (content : Bytes) : Bytes := (fsCopyLoop f content.length 0 content [] 0).1

/-- Both files are opened, whatever becomes of the other, and a destination that opens is emptied. -/
def faultyFile (f : CopyFault) (content : Bytes) (target : FileTree) (dst : Bytes) : Bool × FileTree :=
  match (if f.openWb then writeFile target dst (if f.openRb then moved f content else []) else none) with
  | some target => (f.openRb, target)
  | none => (false, target)

def faultyCopyEntries (fault : TreeFault) (source : FileTree)
    (copyDir : TreeFault → Bytes → Bytes → FileTree → Option (Bool × FileTree)) (src dst : Bytes) :
    List Name → Bool → FileTree → Option (Bool × FileTree)
  | [], ok, target => some (ok, target)
  | name :: names, ok, target =>
    if isDots name.val then faultyCopyEntries fault source copyDir src dst names ok target
    else
      match (if fault.stat [name] then source.entryAt (place (src ++ slash :: name.val)) else none) with
      | none => faultyCopyEntries fault source copyDir src dst names ok target
      | some .dir =>
        match copyDir (fault.enter name) (src ++ slash :: name.val) (dst ++ slash :: name.val) target with
        | none => none
        | some (ok', target) => faultyCopyEntries fault source copyDir src dst names (ok && ok') target
      | some (.file content) =>
        let r := faultyFile (fault.file [name]) content target (dst ++ slash :: name.val)
        faultyCopyEntries fault source copyDir src dst names (ok && r.1) r.2

/-- `CopyTree(src, dst)` under faults. -/
def faultyCopyTree (source : FileTree) : Nat → TreeFault → Bytes → Bytes → FileTree → Option (Bool × FileTree)
  | 0, _, _, _, _ => none
  | n + 1, fault, src, dst, target =>
    let target := makeDir (fault.mkdir []) target dst
    if fault.openDir [] = true ∧ source.entryAt (place src) = some .dir then
      faultyCopyEntries fault source (faultyCopyTree source n) src dst (source.names (place src)) true target
    else some (false, target)

/-- The faults of a handler: those of the mount and the commit, of `BackupSave`'s own two `mkdir`, and of the copy. -/
structure HandlerFault where
  save : SaveFault
  agentDir : Bool
  savesDir : Bool
  tree : TreeFault

/-- The card as `CopyTree` finds it. -/
def preparedUnder (fault : HandlerFault) (card : FileTree) : FileTree :=
  makeDir fault.savesDir (makeDir fault.agentDir card (str "sdmc:/switch-agentd")) savesDir

def faultyBackupSave (fuel : Nat) (fault : HandlerFault) (req : Request) (con : Console) :
    Option ((Bool × Reply) × Console) :=
  if reqTid req = 0 then some ((false, fail "bad_arg" (str "missing tid")), con)
  else if !fault.save.mounts then some ((false, fail "mount_failed" (str "cannot mount save data")), con)
  else
    match faultyCopyTree (con.save (reqTid req) (reqUid req)) fuel fault.tree saveRoot (reqDir req)
        (preparedUnder fault con.card) with
    | none => none
    | some (ok, card) =>
      if ok then
        some ((true, (({} : Reply).set "ok" (.bool true)).set "path" (.string (reqDir req))), { con with card := card })
      else some ((false, fail "io_error" (str "backup copy failed")), { con with card := card })

def faultyRestoreSave (fuel : Nat) (fault : HandlerFault) (req : Request) (con : Console) :
    Option ((Bool × Reply) × Console) :=
  if reqTid req = 0 then some ((false, fail "bad_arg" (str "missing tid")), con)
  else if !fault.save.mounts then some ((false, fail "mount_failed" (str "cannot mount save data")), con)
  else
    match faultyCopyTree con.card fuel fault.tree (reqDir req) saveRoot (con.save (reqTid req) (reqUid req)) with
    | none => none
    | some (ok, save) =>
      if ok && fault.save.commits then
        some ((true, ({} : Reply).set "ok" (.bool true)), con.commit (reqTid req) (reqUid req) save)
      else some ((false, fail "io_error" (str "restore/commit failed")), con)

/-! ## No faults -/

def TreeFault.none : TreeFault := ⟨fun _ => true, fun _ => true, fun _ => true, fun _ => CopyFault.none⟩

/-- Only the mount and the commit may fail. -/
def SaveFault.only (fault : SaveFault) : HandlerFault := ⟨fault, true, true, TreeFault.none⟩

theorem enter_none (n : Name) : TreeFault.none.enter n = TreeFault.none := rfl

theorem moved_eq_iff {f : CopyFault} {content : Bytes} : moved f content = content ↔ MovesAll f 0 content.length := by
  have h := fsCopyLoop_all_iff (f := f) content.length 0 content [] 0 le_rfl
  rwa [List.nil_append] at h

theorem movesAll_none (i len : Nat) : MovesAll .none i len :=
  fun _ _ => ⟨show 0 < kCopyBuf by decide, Nat.min_le_left _ _⟩

theorem faultyFile_none (content : Bytes) (target : FileTree) (dst : Bytes) :
    faultyFile .none content target dst =
      match writeFile target dst (copyFile content) with
      | some target => (true, target)
      | none => (false, target) := by
  have hmoved : moved .none content = content := moved_eq_iff.2 (movesAll_none 0 content.length)
  simp only [faultyFile, CopyFault.none, if_true] at hmoved ⊢
  rw [hmoved, copyFile_eq]

theorem faultyCopyEntries_none {source : FileTree}
    {copyDir : TreeFault → Bytes → Bytes → FileTree → Option (Bool × FileTree)} (src dst : Bytes) :
    ∀ (names : List Name) (ok : Bool) (target : FileTree),
      faultyCopyEntries .none source copyDir src dst names ok target =
        copyEntries source (copyDir .none) src dst names ok target
  | [], ok, target => rfl
  | name :: names, ok, target => by
    have ih := @faultyCopyEntries_none source copyDir src dst names
    rw [faultyCopyEntries, copyEntries, show TreeFault.none.stat [name] = true from rfl, if_pos rfl]
    simp only [ih, enter_none, show TreeFault.none.file [name] = CopyFault.none from rfl, faultyFile_none]
    by_cases hdots : isDots name.val = true
    · rw [if_pos hdots, if_pos hdots]
    rw [if_neg hdots, if_neg hdots]
    rcases source.entryAt (place (src ++ slash :: name.val)) with _ | (_ | content)
    · rfl
    · rfl
    · dsimp only
      cases writeFile target (dst ++ slash :: name.val) (copyFile content) <;> simp

/-- **Without faults it is `copyTree`.** -/
theorem faultyCopyTree_none (source : FileTree) : ∀ (n : Nat) (src dst : Bytes) (target : FileTree),
    faultyCopyTree source n .none src dst target = copyTree source n src dst target
  | 0, _, _, _ => rfl
  | n + 1, src, dst, target => by
    have ih : faultyCopyTree source n .none = copyTree source n := by
      funext s d w
      exact faultyCopyTree_none source n s d w
    rw [faultyCopyTree, copyTree, faultyCopyEntries_none, ih]
    simp [makeDir, TreeFault.none]

theorem faultyBackupSave_only (n : Nat) (fault : SaveFault) (req : Request) (con : Console) :
    faultyBackupSave n fault.only req con = backupSave n fault req con := by
  unfold faultyBackupSave backupSave
  rw [show fault.only.tree = TreeFault.none from rfl, faultyCopyTree_none]
  rfl

theorem faultyRestoreSave_only (n : Nat) (fault : SaveFault) (req : Request) (con : Console) :
    faultyRestoreSave n fault.only req con = restoreSave n fault req con := by
  unfold faultyRestoreSave restoreSave
  rw [show fault.only.tree = TreeFault.none from rfl, faultyCopyTree_none]
  rfl

/-! ## Where a run gets to -/

/-- The string that the recursion builds for the path `r` below a directory. -/
def below (path : Bytes) : List Name → Bytes
  | [] => path
  | n :: r => below (path ++ slash :: n.val) r

theorem place_below : ∀ (r : List Name) (path : Bytes),
    place (below path r) = if 0 ∈ path then place path else place path ++ r
  | [], path => by simp [below]
  | n :: r, path => by
    rw [below, place_below r]
    by_cases h : 0 ∈ path
    · obtain ⟨h0, hp⟩ := place_nul h (slash :: n.val)
      rw [if_pos h, if_pos h0, hp]
    · obtain ⟨h0, hp⟩ := place_child h n
      rw [if_neg h, if_neg h0, hp, List.append_assoc, List.singleton_append]

/-- The names on the way are read, and their `stat` succeeds. -/
def GetsTo (v : FileTree) : TreeFault → Bytes → List Name → Prop
  | _, _, [] => True
  | fault, src, n :: r =>
    n ∈ v.names (place src) ∧ fault.stat [n] = true ∧ GetsTo v (fault.enter n) (src ++ slash :: n.val) r

/-- The directory at `r`, and those above it, are there or can be made. -/
def DirMade (fault : TreeFault) (w : FileTree) (pd r : List Name) : Prop :=
  (w.entryAt pd = some .dir ∨ w.Free pd) ∧
    ∀ q, q <+: r → w.entryAt (pd ++ q) = some .dir ∨ (w.entryAt (pd ++ q) = none ∧ fault.mkdir q = true)

theorem dirMade_of_dir {fault : TreeFault} {w : FileTree} {pd r : List Name} (h : w.entryAt (pd ++ r) = some .dir) :
    DirMade fault w pd r := by
  have hup : ∀ q, q <+: r → w.entryAt (pd ++ q) = some .dir := by
    rintro q ⟨t, rfl⟩
    by_cases ht : t = []
    · rwa [ht, List.append_nil] at h
    · rw [← List.append_assoc] at h
      exact Volume.at_ancestor h ht
  refine ⟨Or.inl ?_, fun q hq => Or.inl (hup q hq)⟩
  have h0 := hup [] List.nil_prefix
  rwa [List.append_nil] at h0

theorem dirMade_nil {fault : TreeFault} {w : FileTree} {pd : List Name} :
    DirMade fault w pd [] ↔ w.entryAt pd = some .dir ∨ (w.Free pd ∧ w.entryAt pd = none ∧ fault.mkdir [] = true) := by
  have hnil : ∀ q : List Name, q <+: [] ↔ q = [] := fun q => List.prefix_nil
  simp only [DirMade, hnil, forall_eq, List.append_nil]
  constructor
  · rintro ⟨h | h, h' | h'⟩
    · exact Or.inl h
    · exact Or.inl h
    · exact Or.inl h'
    · exact Or.inr ⟨h, h'⟩
  · rintro (h | ⟨hf, h⟩)
    · exact ⟨Or.inl h, Or.inl h⟩
    · exact ⟨Or.inr hf, Or.inr h⟩

/-- Two volumes that agree on a path, on its parent and on what is below it. -/
structure AgreeAt (w w1 : FileTree) (p : List Name) : Prop where
  parent : w1.entryAt p.dropLast = w.entryAt p.dropLast
  below : ∀ q, w1.entryAt (p ++ q) = w.entryAt (p ++ q)

theorem AgreeAt.dirMade {fault : TreeFault} {w w1 : FileTree} {pd : List Name} (h : AgreeAt w w1 pd) (r : List Name) :
    DirMade fault w1 pd r ↔ DirMade fault w pd r := by
  have hat := h.below []
  rw [List.append_nil] at hat
  simp only [DirMade, Volume.Free, h.parent, h.below, hat]

/-- A directory below one that is there, or that its `mkdir` makes. -/
theorem dirMade_cons {fault : TreeFault} {w w1 : FileTree} {pd : List Name} {n : Name}
    (hd : w1.entryAt pd = some .dir ↔ DirMade fault w pd [])
    (hbelow : ∀ q, w1.entryAt (pd ++ n :: q) = w.entryAt (pd ++ n :: q)) (r : List Name) :
    DirMade (fault.enter n) w1 (pd ++ [n]) r ↔ DirMade fault w pd (n :: r) := by
  have hbase : (w1.entryAt (pd ++ [n]) = some .dir ∨ w1.Free (pd ++ [n])) ↔ w1.entryAt pd = some .dir := by
    rw [Volume.free_snoc]
    constructor
    · rintro (h | h)
      · exact Volume.at_parent h
      · exact h.1
    · intro h
      by_cases hn : w1.entryAt (pd ++ [n]) = some .dir
      · exact Or.inl hn
      · exact Or.inr ⟨h, hn⟩
  rw [DirMade, hbase, hd]
  simp only [← append_cons_eq, hbelow]
  constructor
  · rintro ⟨⟨h0, hq0⟩, hq⟩
    refine ⟨h0, fun q hp => ?_⟩
    rcases List.prefix_cons_iff.1 hp with rfl | ⟨t, rfl, ht⟩
    · exact hq0 [] (List.prefix_refl _)
    · exact hq t ht
  · rintro ⟨h0, hq⟩
    refine ⟨⟨h0, fun q hp => ?_⟩, fun q hp => ?_⟩
    · rw [List.prefix_nil.1 hp]
      exact hq [] List.nil_prefix
    · exact hq (n :: q) (List.cons_prefix_cons.2 ⟨rfl, hp⟩)

/-! ## What a run that returns true leaves -/

/-- What is at the path `r` below the destination after it. -/
inductive Left (v : FileTree) (fault : TreeFault) (src : Bytes) (w : FileTree) (pd r : List Name) :
    Option (Entry Bytes) → Prop
  | file {c : Bytes} : GetsTo v fault src r → v.entryAt (place (below src r)) = some (.file c) →
      Left v fault src w pd r (some (.file (moved (fault.file r) c)))
  | made : GetsTo v fault src r → v.entryAt (place (below src r)) = some .dir → DirMade fault w pd r →
      Left v fault src w pd r (some .dir)
  | unmade : GetsTo v fault src r → v.entryAt (place (below src r)) = some .dir → ¬DirMade fault w pd r →
      Left v fault src w pd r (w.entryAt (pd ++ r))
  | missed : ¬GetsTo v fault src r → Left v fault src w pd r (w.entryAt (pd ++ r))

theorem Left.agree {v : FileTree} {fault : TreeFault} {src : Bytes} {w w1 : FileTree} {pd r : List Name}
    {x : Option (Entry Bytes)} (h : Left v fault src w1 pd r x) (hw : AgreeAt w w1 pd) : Left v fault src w pd r x := by
  cases h with
  | file hr hv => exact .file hr hv
  | made hr hv hm => exact .made hr hv ((hw.dirMade r).1 hm)
  | unmade hr hv hm =>
    rw [hw.below]
    exact .unmade hr hv (fun h => hm ((hw.dirMade r).2 h))
  | missed hr =>
    rw [hw.below]
    exact .missed hr

/-- What an entry's own run leaves is what the run for its directory leaves there. -/
theorem Left.enter {v : FileTree} {fault : TreeFault} {src : Bytes} {w w1 : FileTree} {pd : List Name} {n : Name}
    {r : List Name} {x : Option (Entry Bytes)} (h : Left v (fault.enter n) (src ++ slash :: n.val) w1 (pd ++ [n]) r x)
    (hn : n ∈ v.names (place src)) (hstat : fault.stat [n] = true)
    (hd : w1.entryAt pd = some .dir ↔ DirMade fault w pd [])
    (hbelow : ∀ q, w1.entryAt (pd ++ n :: q) = w.entryAt (pd ++ n :: q)) : Left v fault src w pd (n :: r) x := by
  have hmade := dirMade_cons hd hbelow r
  cases h with
  | file hr hv => exact .file ⟨hn, hstat, hr⟩ hv
  | made hr hv hm => exact .made ⟨hn, hstat, hr⟩ hv (hmade.1 hm)
  | unmade hr hv hm =>
    rw [← append_cons_eq, hbelow]
    exact .unmade ⟨hn, hstat, hr⟩ hv (fun h => hm (hmade.2 h))
  | missed hr =>
    rw [← append_cons_eq, hbelow]
    exact .missed (fun h => hr h.2.2)

/-! ## The calls -/

theorem makeDir_other (ok : Bool) (v : FileTree) {path : Bytes} {q : List Name} (h : q ≠ place path) :
    (makeDir ok v path).entryAt q = v.entryAt q := by
  unfold makeDir
  split
  · exact mkdir_other v h
  · rfl

theorem makeDir_at (fault : TreeFault) (w : FileTree) (dst : Bytes) :
    ((makeDir (fault.mkdir []) w dst).entryAt (place dst) = some .dir ↔ DirMade fault w (place dst) []) ∧
      (¬DirMade fault w (place dst) [] → (makeDir (fault.mkdir []) w dst).entryAt (place dst) = w.entryAt (place dst)) := by
  rw [dirMade_nil]
  unfold makeDir mkdir
  split
  · split
    · rename_i hok hf
      rw [Volume.entryAt_put, if_pos rfl]
      exact ⟨iff_of_true rfl (Or.inr ⟨hf.1, hf.2, hok⟩), fun h => absurd (Or.inr ⟨hf.1, hf.2, hok⟩) h⟩
    · rename_i hf
      exact ⟨⟨Or.inl, fun h => h.resolve_right (fun h => hf ⟨h.1, h.2.1⟩)⟩, fun _ => rfl⟩
  · rename_i hok
    exact ⟨⟨Or.inl, fun h => h.resolve_right (fun h => hok h.2.2)⟩, fun _ => rfl⟩

theorem writeFile_some {v w : FileTree} {path content : Bytes} (h : writeFile v path content = some w) :
    v.entryAt (place path) ≠ some .dir ∧
      ∀ q, w.entryAt q = if q = place path then some (.file content) else v.entryAt q := by
  unfold writeFile at h
  split at h
  · rename_i hf
    cases h
    exact ⟨hf.2.2, fun q => Volume.entryAt_put v _ _ hf q⟩
  · cases h

theorem faultyFile_other (f : CopyFault) (content : Bytes) (w : FileTree) {dst : Bytes} {q : List Name}
    (h : q ≠ place dst) : (faultyFile f content w dst).2.entryAt q = w.entryAt q := by
  unfold faultyFile
  split
  · rename_i w1 hw
    split at hw
    · rw [(writeFile_some hw).2, if_neg h]
    · cases hw
  · rfl

theorem faultyFile_ok {f : CopyFault} {content : Bytes} {w : FileTree} {dst : Bytes}
    (h : (faultyFile f content w dst).1 = true) : w.entryAt (place dst) ≠ some .dir ∧
      (faultyFile f content w dst).2.entryAt (place dst) = some (.file (moved f content)) := by
  unfold faultyFile at h ⊢
  split at h
  · rename_i w1 hw
    dsimp only at h ⊢
    rw [h, if_pos rfl] at hw
    split at hw
    · refine ⟨(writeFile_some hw).1, ?_⟩
      rw [(writeFile_some hw).2, if_pos rfl]
    · cases hw
  · cases h

/-! ## The loop over a directory -/

section
variable {v : FileTree} {copyDir : TreeFault → Bytes → Bytes → FileTree → Option (Bool × FileTree)}

/-- What one name of a directory comes to. -/
inductive NameRun (v : FileTree) (copyDir : TreeFault → Bytes → Bytes → FileTree → Option (Bool × FileTree))
    (fault : TreeFault) (src dst : Bytes) (n : Name) (w : FileTree) : Bool → FileTree → Prop
  | skipped : (fault.stat [n] = true → v.entryAt (place (src ++ slash :: n.val)) = none) →
      NameRun v copyDir fault src dst n w true w
  | dir {ok : Bool} {w1 : FileTree} : fault.stat [n] = true → v.entryAt (place (src ++ slash :: n.val)) = some .dir →
      copyDir (fault.enter n) (src ++ slash :: n.val) (dst ++ slash :: n.val) w = some (ok, w1) →
      NameRun v copyDir fault src dst n w ok w1
  | file {c : Bytes} : fault.stat [n] = true → v.entryAt (place (src ++ slash :: n.val)) = some (.file c) →
      NameRun v copyDir fault src dst n w (faultyFile (fault.file [n]) c w (dst ++ slash :: n.val)).1
        (faultyFile (fault.file [n]) c w (dst ++ slash :: n.val)).2

/-- One name, and the names after it. -/
theorem faultyCopyEntries_cons {fault : TreeFault} {src dst : Bytes} {n : Name} {l : List Name} {ok ok' : Bool}
    {w w' : FileTree} (h : faultyCopyEntries fault v copyDir src dst (n :: l) ok w = some (ok', w')) :
    ∃ ok1 w1, NameRun v copyDir fault src dst n w ok1 w1 ∧
      faultyCopyEntries fault v copyDir src dst l (ok && ok1) w1 = some (ok', w') := by
  rw [faultyCopyEntries, isDots_name, if_neg Bool.false_ne_true] at h
  split at h
  · rename_i hv
    refine ⟨true, w, .skipped (fun hs => ?_), by rwa [Bool.and_true]⟩
    rwa [if_pos hs] at hv
  · rename_i hv
    split at hv
    · rename_i hs
      split at h
      · cases h
      · rename_i ok1 w1 hc
        exact ⟨ok1, w1, .dir hs hv hc, h⟩
    · cases hv
  · rename_i c hv
    split at hv
    · rename_i hs
      exact ⟨_, _, .file hs hv, h⟩
    · cases hv

/-- A way to copy directories that touches only what is below the destination. -/
def Touches (copyDir : TreeFault → Bytes → Bytes → FileTree → Option (Bool × FileTree)) : Prop :=
  ∀ fault s d w ok w', copyDir fault s d w = some (ok, w') →
    ∀ q, (∀ r, q ≠ place (below d r)) → w'.entryAt q = w.entryAt q

theorem NameRun.other {fault : TreeFault} {src dst : Bytes} {n : Name} {w : FileTree} {ok : Bool} {w1 : FileTree}
    (h : NameRun v copyDir fault src dst n w ok w1) (hc : Touches copyDir) {q : List Name}
    (hq : ∀ r, q ≠ place (below dst (n :: r))) : w1.entryAt q = w.entryAt q := by
  cases h with
  | skipped _ => rfl
  | dir _ _ hrun => exact hc _ _ _ _ _ _ hrun q hq
  | file _ _ => exact faultyFile_other _ _ _ (hq [])

theorem faultyCopyEntries_other (hc : Touches copyDir) {fault : TreeFault} {src dst : Bytes} :
    ∀ (l : List Name) (ok : Bool) (w : FileTree) (ok' : Bool) (w' : FileTree),
      faultyCopyEntries fault v copyDir src dst l ok w = some (ok', w') →
      ∀ q, (∀ n ∈ l, ∀ r, q ≠ place (below dst (n :: r))) → w'.entryAt q = w.entryAt q
  | [], ok, w, ok', w', h, q, _ => by
    cases h
    rfl
  | n :: l, ok, w, ok', w', h, q, hq => by
    obtain ⟨ok1, w1, h1, h⟩ := faultyCopyEntries_cons h
    rw [faultyCopyEntries_other hc l _ _ _ _ h q (fun m hm => hq m (List.mem_cons_of_mem _ hm)),
      h1.other hc (hq n List.mem_cons_self)]

/-- A way to copy directories that, where it returns true, leaves what is to be left. -/
def Leaves (v : FileTree) (copyDir : TreeFault → Bytes → Bytes → FileTree → Option (Bool × FileTree)) : Prop :=
  ∀ fault s d w w', 0 ∉ d → copyDir fault s d w = some (true, w') →
    ∀ r, Left v fault s w (place d) r (w'.entryAt (place d ++ r))

/-- A name that a directory lists leads to an entry. -/
theorem child_isSome {src : Bytes} {n : Name} (h : n ∈ v.names (place src)) :
    v.entryAt (place (src ++ slash :: n.val)) ≠ none := by
  rw [Volume.mem_names] at h
  obtain ⟨e, he⟩ := Option.isSome_iff_exists.1 h
  by_cases h0 : 0 ∈ src
  · rw [(place_nul h0 _).2, Volume.at_parent he]
    simp
  · rw [(place_child h0 n).2, he]
    simp

/-- What a name's own run leaves below it, or nothing new where its `stat` fails. -/
structure EntryLeft (v : FileTree) (fault : TreeFault) (src : Bytes) (w : FileTree) (pd : List Name) (n : Name)
    (r : List Name) (x : Option (Entry Bytes)) : Prop where
  seen : fault.stat [n] = true → Left v (fault.enter n) (src ++ slash :: n.val) w (pd ++ [n]) r x
  unseen : fault.stat [n] = false → x = w.entryAt (pd ++ n :: r)

theorem NameRun.left {fault : TreeFault} {src dst : Bytes} {n : Name} {w w1 : FileTree}
    (h : NameRun v copyDir fault src dst n w true w1) (hc : Leaves v copyDir) (hd : 0 ∉ dst)
    (hn : n ∈ v.names (place src)) (r : List Name) :
    EntryLeft v fault src w (place dst) n r (w1.entryAt (place dst ++ n :: r)) := by
  obtain ⟨hd0, hdp⟩ := place_child hd n
  generalize hok : true = ok at h
  cases h with
  | skipped hv =>
    exact ⟨fun hs => absurd (hv hs) (child_isSome hn), fun _ => rfl⟩
  | dir hs hv hrun =>
    subst hok
    refine ⟨fun _ => ?_, fun hs' => absurd hs (by rw [hs']; simp)⟩
    have h := hc _ _ _ _ _ hd0 hrun r
    rwa [hdp, List.append_assoc, List.singleton_append] at h
  | @file c hs hv =>
    refine ⟨fun _ => ?_, fun hs' => absurd hs (by rw [hs']; simp)⟩
    obtain ⟨hw, hw1⟩ := faultyFile_ok hok.symm
    cases r with
    | nil =>
      rw [← hdp, hw1]
      exact .file trivial hv
    | cons m r =>
      -- Nothing is below a file, on either side.
      have hreach : ¬GetsTo v (fault.enter n) (src ++ slash :: n.val) (m :: r) := by
        rintro ⟨hm, -⟩
        rw [Volume.mem_names] at hm
        obtain ⟨e, he⟩ := Option.isSome_iff_exists.1 hm
        rw [Volume.at_parent he] at hv
        cases hv
      rw [faultyFile_other _ _ _ (by rw [hdp]; simp), append_cons_eq _ n (m :: r)]
      exact .missed hreach

/-- **The loop over a directory**: below each name it leaves what the name's run leaves. -/
theorem faultyCopyEntries_left (ht : Touches copyDir) (hc : Leaves v copyDir) {fault : TreeFault} {src dst : Bytes}
    (hd : 0 ∉ dst) : ∀ (l : List Name), l.Nodup → (∀ n ∈ l, n ∈ v.names (place src)) →
      ∀ (ok : Bool) (w w' : FileTree), faultyCopyEntries fault v copyDir src dst l ok w = some (true, w') →
        ok = true ∧ ∀ n ∈ l, ∀ r, EntryLeft v fault src w (place dst) n r (w'.entryAt (place dst ++ n :: r))
  | [], _, _, ok, w, w', h => by
    cases h
    exact ⟨rfl, fun _ hn => nomatch hn⟩
  | n :: l, hl, hnames, ok, w, w', h => by
    obtain ⟨hn, hl⟩ := List.nodup_cons.1 hl
    obtain ⟨ok1, w1, h1, hrest⟩ := faultyCopyEntries_cons h
    obtain ⟨hok, ih⟩ := faultyCopyEntries_left ht hc hd l hl (fun m hm => hnames m (List.mem_cons_of_mem _ hm)) _ _ _ hrest
    rw [Bool.and_eq_true] at hok
    obtain ⟨hok, rfl⟩ := hok
    have hbelow : ∀ m r, place (below dst (m :: r)) = place dst ++ m :: r := fun m r => by rw [place_below, if_neg hd]
    refine ⟨hok, fun m hm r => ?_⟩
    rcases List.mem_cons.1 hm with rfl | hm
    · have hlast : w'.entryAt (place dst ++ m :: r) = w1.entryAt (place dst ++ m :: r) := by
        refine faultyCopyEntries_other ht l _ _ _ _ hrest _ (fun x hx r' he => hn ?_)
        rw [hbelow, List.append_cancel_left_eq, List.cons.injEq] at he
        rwa [he.1]
      rw [hlast]
      exact h1.left hc hd (hnames m List.mem_cons_self) r
    · have hagree : ∀ q, w1.entryAt (place dst ++ m :: q) = w.entryAt (place dst ++ m :: q) := by
        refine fun q => h1.other ht (fun r' he => hn ?_)
        rw [hbelow, List.append_cancel_left_eq, List.cons.injEq] at he
        rwa [← he.1]
      have hparent : w1.entryAt (place dst) = w.entryAt (place dst) :=
        h1.other ht (fun r' he => by rw [hbelow] at he; simp at he)
      obtain ⟨hseen, hunseen⟩ := ih m hm r
      refine ⟨fun hs => (hseen hs).agree ⟨?_, fun q => ?_⟩, fun hs => (hunseen hs).trans (hagree r)⟩
      · rw [List.dropLast_concat, hparent]
      · rw [List.append_assoc, List.singleton_append, hagree]

end

/-! ## `CopyTree` -/

theorem faultyCopyTree_other (v : FileTree) : ∀ n, Touches (faultyCopyTree v n)
  | 0, _, _, _, _, _, _, h, _, _ => by cases h
  | n + 1, fault, src, dst, w, ok, w', h, q, hq => by
    rw [faultyCopyTree] at h
    have hmade : (makeDir (fault.mkdir []) w dst).entryAt q = w.entryAt q := makeDir_other _ w (hq [])
    split at h
    · rw [faultyCopyEntries_other (faultyCopyTree_other v n) _ _ _ _ _ h q (fun m _ r => hq (m :: r)), hmade]
    · cases h
      exact hmade

/-- **What a run that returns true leaves**, at every path below the destination. -/
theorem faultyCopyTree_left (v : FileTree) : ∀ n, Leaves v (faultyCopyTree v n)
  | 0, _, _, _, _, _, _, h, _ => by cases h
  | n + 1, fault, src, dst, w, w', hd, h, r => by
    rw [faultyCopyTree] at h
    split at h
    swap
    · cases h
    rename_i hopen
    have ht := faultyCopyTree_other v n
    obtain ⟨hat, hunmade⟩ := makeDir_at fault w dst
    have hother : ∀ m q, (makeDir (fault.mkdir []) w dst).entryAt (place dst ++ m :: q) = w.entryAt (place dst ++ m :: q) :=
      fun m q => makeDir_other _ w (by simp)
    have hframe := faultyCopyEntries_other ht _ _ _ _ _ h
    have hbelow : ∀ m q, place (below dst (m :: q)) = place dst ++ m :: q := fun m q => by rw [place_below, if_neg hd]
    cases r with
    | nil =>
      rw [List.append_nil, hframe (place dst) (fun m _ q he => by rw [hbelow] at he; simp at he)]
      by_cases hm : DirMade fault w (place dst) []
      · rw [hat.2 hm]
        exact .made trivial hopen.2 hm
      · have hleft : Left v fault src w (place dst) [] (w.entryAt (place dst ++ [])) := .unmade trivial hopen.2 hm
        rwa [List.append_nil, ← hunmade hm] at hleft
    | cons m r =>
      by_cases hm : m ∈ v.names (place src)
      · obtain ⟨-, hleft⟩ := faultyCopyEntries_left ht (faultyCopyTree_left v n) hd _ (v.nodup_names _) (fun _ => id) _ _ _ h
        obtain ⟨hseen, hunseen⟩ := hleft m hm r
        by_cases hs : fault.stat [m] = true
        · exact (hseen hs).enter hm hs hat (hother m)
        · rw [hunseen (Bool.eq_false_iff.2 hs), hother]
          exact .missed (fun hr => hs hr.2.1)
      · rw [hframe _ (fun x hx q he => hm ?_), hother]
        · exact .missed (fun hr => hm hr.1)
        · rw [hbelow, List.append_cancel_left_eq, List.cons.injEq] at he
          rwa [he.1]

/-! ## Whole copies -/

/-- Every entry below `ps` is below `pd`, and the same. -/
def WholeCopy (v : FileTree) (ps : List Name) (w : FileTree) (pd : List Name) : Prop :=
  ∀ r e, r ≠ [] → v.entryAt (ps ++ r) = some e → w.entryAt (pd ++ r) = some e

/-- What it takes for the entry `e` at `r` to arrive.  One that the run does not get to must have been there before. -/
structure Delivers (v : FileTree) (fault : TreeFault) (src : Bytes) (w : FileTree) (dst : Bytes) (r : List Name)
    (e : Entry Bytes) : Prop where
  held : 0 ∈ dst ∨ ¬GetsTo v fault src r ∨ (0 ∈ src ∧ e ≠ .dir) → w.entryAt (place dst ++ r) = some e
  dir : 0 ∉ dst → GetsTo v fault src r → e = .dir → DirMade fault w (place dst) r
  file : 0 ∉ dst → 0 ∉ src → GetsTo v fault src r → ∀ c, e = .file c → MovesAll (fault.file r) 0 c.length

def AllDelivered (v : FileTree) (fault : TreeFault) (src : Bytes) (w : FileTree) (dst : Bytes) : Prop :=
  ∀ r e, r ≠ [] → v.entryAt (place src ++ r) = some e → Delivers v fault src w dst r e

/-- The entry that the run meets on the way to `r`, where its paths say what they lead to. -/
theorem entryAt_below {v : FileTree} {src : Bytes} {r : List Name} {e e' : Entry Bytes} (hr : r ≠ [])
    (h : v.entryAt (place src ++ r) = some e) (h' : v.entryAt (place (below src r)) = some e') :
    (0 ∈ src ∧ e' = .dir) ∨ (0 ∉ src ∧ e' = e) := by
  rw [place_below] at h'
  by_cases h0 : 0 ∈ src
  · rw [if_pos h0, Volume.at_ancestor h hr] at h'
    exact Or.inl ⟨h0, (Option.some.inj h').symm⟩
  · rw [if_neg h0, h] at h'
    exact Or.inr ⟨h0, (Option.some.inj h').symm⟩

theorem Left.eq_iff {v : FileTree} {fault : TreeFault} {src : Bytes} {w : FileTree} {dst : Bytes} {r : List Name}
    {x : Option (Entry Bytes)} (h : Left v fault src w (place dst) r x) (hd : 0 ∉ dst) (hr : r ≠ []) {e : Entry Bytes}
    (he : v.entryAt (place src ++ r) = some e) : x = some e ↔ Delivers v fault src w dst r e := by
  cases h with
  | @file c hreach hv =>
    rcases entryAt_below hr he hv with ⟨-, hk⟩ | ⟨h0, rfl⟩
    · cases hk
    rw [Option.some.injEq, Entry.file.injEq, moved_eq_iff]
    constructor
    · intro hm
      refine ⟨?_, fun _ _ hk => (by cases hk), fun _ _ _ c' hc => (by cases hc; exact hm)⟩
      rintro (h | h | ⟨h, -⟩)
      · exact absurd h hd
      · exact absurd hreach h
      · exact absurd h h0
    · intro h
      exact h.file hd h0 hreach c rfl
  | made hreach hv hm =>
    constructor
    · intro h
      cases h
      refine ⟨?_, fun _ _ _ => hm, fun _ _ _ c hc => (by cases hc)⟩
      rintro (h | h | ⟨-, h⟩)
      · exact absurd h hd
      · exact absurd hreach h
      · exact absurd rfl h
    · intro h
      rcases entryAt_below hr he hv with ⟨h0, -⟩ | ⟨-, rfl⟩
      · -- Where a directory is made there was no file.
        by_cases hk : e = .dir
        · rw [hk]
        · have hheld := h.held (Or.inr (Or.inr ⟨h0, hk⟩))
          rcases hm.2 r (List.prefix_refl r) with h | ⟨h, -⟩
          · rw [← h, hheld]
          · rw [hheld] at h
            cases h
      · rfl
  | unmade hreach hv hm =>
    constructor
    · intro h
      refine ⟨fun _ => h, fun _ _ hk => ?_, fun _ h0 _ c hc => ?_⟩
      · rw [hk] at h
        exact absurd (dirMade_of_dir h) hm
      · rcases entryAt_below hr he hv with ⟨h0', -⟩ | ⟨-, hk⟩
        · exact absurd h0' h0
        · rw [hc] at hk
          cases hk
    · intro h
      rcases entryAt_below hr he hv with ⟨h0, -⟩ | ⟨-, rfl⟩
      · by_cases hk : e = .dir
        · exact absurd (h.dir hd hreach hk) hm
        · exact h.held (Or.inr (Or.inr ⟨h0, hk⟩))
      · exact absurd (h.dir hd hreach rfl) hm
  | missed hreach =>
    constructor
    · intro h
      exact ⟨fun _ => h, fun _ h' => absurd h' hreach, fun _ _ h' => absurd h' hreach⟩
    · intro h
      exact h.held (Or.inr (Or.inl hreach))

theorem faultyCopyTree_complete {v : FileTree} {n : Nat} {fault : TreeFault} {src dst : Bytes} {w w' : FileTree}
    (h : faultyCopyTree v n fault src dst w = some (true, w')) :
    WholeCopy v (place src) w' (place dst) ↔ AllDelivered v fault src w dst := by
  refine forall₂_congr fun r e => forall₂_congr fun hr he => ?_
  by_cases hd : 0 ∈ dst
  · -- Every path below the destination leads to the destination itself.
    have hsame : w'.entryAt (place dst ++ r) = w.entryAt (place dst ++ r) := by
      refine faultyCopyTree_other v n _ _ _ _ _ _ h _ (fun q => ?_)
      rw [place_below, if_pos hd]
      simp [hr]
    rw [hsame]
    exact ⟨fun h => ⟨fun _ => h, fun h' => absurd hd h', fun h' => absurd hd h'⟩, fun h => h.held (Or.inl hd)⟩
  · exact (faultyCopyTree_left v n _ _ _ _ _ hd h r).eq_iff hd hr he

theorem getsTo_of_stat {v : FileTree} : ∀ (r : List Name) {fault : TreeFault} {src : Bytes} {e : Entry Bytes}, 0 ∉ src →
    v.entryAt (place src ++ r) = some e → (∀ q, q <+: r → fault.stat q = true) → GetsTo v fault src r
  | [], _, _, _, _, _, _ => trivial
  | n :: r, fault, src, e, h0, he, hstat => by
    obtain ⟨h0', hp⟩ := place_child h0 n
    rw [append_cons_eq] at he
    refine ⟨?_, hstat [n] (List.cons_prefix_cons.2 ⟨rfl, List.nil_prefix⟩), ?_⟩
    · rw [Volume.mem_names]
      by_cases hr : r = []
      · rw [hr, List.append_nil] at he
        rw [he]
        rfl
      · rw [Volume.at_ancestor he hr]
        rfl
    · exact getsTo_of_stat r h0' (by rw [hp]; exact he)
        (fun q hq => hstat (n :: q) (List.cons_prefix_cons.2 ⟨rfl, hq⟩))

/-- **Without faults all is delivered** where no directory meets a file. -/
theorem allDelivered_none {v : FileTree} {src : Bytes} {w : FileTree} {dst : Bytes} (hs : 0 ∉ src) (hd : 0 ∉ dst)
    (hc : Compatible v (place src) w (place dst)) (htop : w.entryAt (place dst) = some .dir ∨ w.Free (place dst)) :
    AllDelivered v .none src w dst := by
  intro r e hr he
  have hreach : GetsTo v .none src r := getsTo_of_stat r hs he (fun _ _ => rfl)
  refine ⟨?_, fun _ _ hk => ⟨htop, ?_⟩, fun _ _ _ c _ => movesAll_none 0 c.length⟩
  · rintro (h | h | ⟨h, -⟩)
    · exact absurd h hd
    · exact absurd hreach h
    · exact absurd h hs
  · rintro q ⟨t, rfl⟩
    have hdir : v.entryAt (place src ++ q) = some .dir := by
      by_cases ht : t = []
      · rwa [ht, List.append_nil, hk] at he
      · rw [← List.append_assoc] at he
        exact Volume.at_ancestor he ht
    rcases hw : w.entryAt (place dst ++ q) with _ | (_ | c)
    · exact Or.inr ⟨rfl, rfl⟩
    · exact Or.inl rfl
    · exact absurd hw (hc q c hdir)

/-! ## The handlers -/

theorem faultyBackupSave_ok {n : Nat} {fault : HandlerFault} {req : Request} {con con' : Console} {r : Reply}
    (h : faultyBackupSave n fault req con = some ((true, r), con')) :
    faultyCopyTree (con.save (reqTid req) (reqUid req)) n fault.tree saveRoot (reqDir req) (preparedUnder fault con.card) =
      some (true, con'.card) := by
  unfold faultyBackupSave at h
  split at h
  · cases h
  split at h
  · cases h
  split at h
  · cases h
  · rename_i ok card hc
    split at h
    · rename_i hok
      cases h
      rw [hc, hok]
    · cases h

theorem faultyRestoreSave_ok {n : Nat} {fault : HandlerFault} {req : Request} {con con' : Console} {r : Reply}
    (h : faultyRestoreSave n fault req con = some ((true, r), con')) :
    faultyCopyTree con.card n fault.tree (reqDir req) saveRoot (con.save (reqTid req) (reqUid req)) =
      some (true, con'.save (reqTid req) (reqUid req)) := by
  unfold faultyRestoreSave at h
  split at h
  · cases h
  split at h
  · cases h
  split at h
  · cases h
  · rename_i ok save hc
    split at h
    · rename_i hok
      rw [Bool.and_eq_true] at hok
      cases h
      rw [hc, hok.1]
      simp [Console.commit]
    · cases h

/-- **A restore that does not reply ok commits nothing.** -/
theorem faultyRestoreSave_refused {n : Nat} {fault : HandlerFault} {req : Request} {con con' : Console} {r : Reply}
    (h : faultyRestoreSave n fault req con = some ((false, r), con')) : con' = con := by
  unfold faultyRestoreSave at h
  split at h
  · cases h
    rfl
  split at h
  · cases h
    rfl
  split at h
  · cases h
  · split at h
    · cases h
    · cases h
      rfl

/-- **A copy that returns true is whole exactly where every entry is delivered**, whatever fails on the way: so for
`CopyTree`, for a backup that replies ok and for a restore that commits; one that does not reply ok commits nothing. -/
theorem tree_complete_iff (n : Nat) (fault : HandlerFault) :
    (∀ (v : FileTree) (src dst : Bytes) (w w' : FileTree), faultyCopyTree v n fault.tree src dst w = some (true, w') →
      (WholeCopy v (place src) w' (place dst) ↔ AllDelivered v fault.tree src w dst)) ∧
    (∀ (req : Request) (con con' : Console) (r : Reply), faultyBackupSave n fault req con = some ((true, r), con') →
      (WholeCopy (con.save (reqTid req) (reqUid req)) (place saveRoot) con'.card (place (reqDir req)) ↔
        AllDelivered (con.save (reqTid req) (reqUid req)) fault.tree saveRoot (preparedUnder fault con.card)
          (reqDir req))) ∧
    (∀ (req : Request) (con con' : Console) (ok : Bool) (r : Reply),
      faultyRestoreSave n fault req con = some ((ok, r), con') →
        (ok = true → (WholeCopy con.card (place (reqDir req)) (con'.save (reqTid req) (reqUid req)) (place saveRoot) ↔
          AllDelivered con.card fault.tree (reqDir req) (con.save (reqTid req) (reqUid req)) saveRoot)) ∧
        (ok = false → con' = con)) := by
  refine ⟨?_, ?_, ?_⟩
  · intro v src dst w w' h
    exact faultyCopyTree_complete h
  · intro req con con' r h
    exact faultyCopyTree_complete (faultyBackupSave_ok h)
  · intro req con con' ok r h
    refine ⟨?_, ?_⟩
    · rintro rfl
      exact faultyCopyTree_complete (faultyRestoreSave_ok h)
    · rintro rfl
      exact faultyRestoreSave_refused h

theorem tree_complete_iff_file :
    ∃ w', faultyCopyTree (oneFile "save:/a" [1]) 2 .none saveRoot (str "sdmc:/b") Volume.empty = some (true, w') ∧
      WholeCopy (oneFile "save:/a" [1]) (place saveRoot) w' (place (str "sdmc:/b")) := by
  have hrun : (faultyCopyTree (oneFile "save:/a" [1]) 2 .none saveRoot (str "sdmc:/b") Volume.empty).map Prod.fst =
      some true := by decide +kernel
  obtain ⟨⟨ok, w'⟩, hw, hok⟩ := Option.map_eq_some_iff.1 hrun
  dsimp only at hok
  subst hok
  refine ⟨w', hw, ((tree_complete_iff 2 (SaveFault.only noFault)).1 _ _ _ _ _ hw).2 ?_⟩
  have hempty : ∀ q : List Name, (Volume.empty : FileTree).entryAt q = if q = [] then some .dir else none := fun q => rfl
  refine allDelivered_none no_nul_saveRoot (by decide) (fun r c _ h => ?_) (Or.inr (by decide +kernel))
  rw [hempty] at h
  split at h
  · cases h
  · cases h

/-! ## Copies that are not whole -/

/-- A save with the file `a` and the empty directory `d`. -/
def fileAndDir : FileTree := mkdir (oneFile "save:/a" [1, 2]) (str "save:/d")

/-- The card after a backup of it, when that replies ok. -/
def backedUpUnder (fault : TreeFault) : Option FileTree :=
  (faultyBackupSave 5 ⟨noFault, true, true, fault⟩ titleRequest (freshConsole fileAndDir)).bind fun r =>
    if r.1.1 then some r.2.card else none

/-- The save that a restore of its backup commits over an empty one. -/
def restoredUnder (fault : TreeFault) : Option FileTree :=
  (thenBackup (some (freshConsole Volume.empty)) fileAndDir).bind fun con =>
    (faultyRestoreSave 5 ⟨noFault, true, true, fault⟩ titleRequest
      { con with save := fun _ _ => Volume.empty }).bind fun r =>
      if r.1.1 then some (r.2.save (reqTid titleRequest) (reqUid titleRequest)) else none

def statFails : TreeFault := { TreeFault.none with stat := fun _ => false }

def mkdirFails : TreeFault := { TreeFault.none with mkdir := fun r => r.isEmpty }

/-- No `fwrite` takes more than a byte. -/
def writesShort : TreeFault := { TreeFault.none with file := fun _ => { CopyFault.none with writes := fun _ => 1 } }

/-- **A file that `stat` does not find, a directory that `mkdir` does not make and the bytes that `fwrite` does not take
are missing** from backups that reply ok and from saves that are committed. -/
theorem partial_copies_pass :
    fileAndDir.entryAt (place (str "save:/a")) = some (.file [1, 2]) ∧
    fileAndDir.entryAt (place (str "save:/d")) = some .dir ∧
    (backedUpUnder statFails).map (fun v => v.entryAt (place (reqDir titleRequest ++ str "/a"))) = some none ∧
    (backedUpUnder mkdirFails).map (fun v => v.entryAt (place (reqDir titleRequest ++ str "/d"))) = some none ∧
    (backedUpUnder writesShort).map (fun v => v.entryAt (place (reqDir titleRequest ++ str "/a"))) =
      some (some (.file [1])) ∧
    (restoredUnder statFails).map (fun v => v.entryAt (place (str "save:/a"))) = some none ∧
    (restoredUnder mkdirFails).map (fun v => v.entryAt (place (str "save:/d"))) = some none ∧
    (restoredUnder writesShort).map (fun v => v.entryAt (place (str "save:/a"))) = some (some (.file [1])) := by
  refine ⟨by decide +kernel, by decide +kernel, by decide +kernel, by decide +kernel, by decide +kernel, by decide +kernel,
    by decide +kernel, by decide +kernel⟩

end Agent
end SwitchMcp

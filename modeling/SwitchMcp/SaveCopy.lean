import SwitchMcp.Saves
/-!
# SaveCopy — what a restored save holds (agent/source/handlers/fs.cpp)

`CopyTree` lays one tree over another: it adds and overwrites, and nothing it does removes an entry or turns a directory
into a file (`copyTree_copied`).  So a backup keeps what an older one left behind, and a restore keeps what the live save
had besides: `restored_iff` says exactly when the committed save is the one that was backed up.
-/
namespace SwitchMcp
namespace Agent

/-! ## Paths below a directory -/

theorem cStr_no_nul_append {s t : Bytes} (h : 0 ∉ s) (h' : 0 ∉ t) : cStr (s ++ slash :: t) = s ++ slash :: t := by
  refine cStr_of_no_nul _ (fun hm => ?_)
  rcases List.mem_append.1 hm with hm | hm
  · exact h hm
  · rcases List.mem_cons.1 hm with hm | hm
    · exact absurd hm (by decide)
    · exact h' hm

/-- **A name after a path leads to that name in the path's directory.** -/
theorem place_child {s : Bytes} (h : 0 ∉ s) (n : Name) :
    0 ∉ s ++ slash :: n.val ∧ place (s ++ slash :: n.val) = place s ++ [n] := by
  obtain ⟨hne, hdot, hdots, hslash, hnul⟩ := n.2
  have hc := cStr_no_nul_append h hnul
  refine ⟨?_, ?_⟩
  · rw [← hc]
    exact no_nul_cStr _
  · have hlen : 1 ≤ (s.splitOn slash).length := List.length_pos_iff.2 (List.splitOn_ne_nil slash s)
    unfold place
    rw [hc, cStr_of_no_nul s h, List.splitOn_append_cons_self, List.splitOn_eq_singleton hslash,
      List.drop_append_of_le_length hlen, List.foldl_append, List.foldl_cons, List.foldl_nil, enter, dif_pos n.2]

theorem isDots_name (n : Name) : isDots n.val = false := by
  obtain ⟨-, hdot, hdots, -, -⟩ := n.2
  simp [isDots, hdot, hdots]

theorem copyLoop_eq : ∀ (n : Nat) (out left : Bytes), left.length ≤ n → copyLoop n out left = out ++ left
  | 0, out, left, h => by
    rw [List.length_eq_zero_iff.1 (Nat.le_zero.1 h), List.append_nil]
    rfl
  | n + 1, out, left, h => by
    unfold copyLoop
    split
    · rename_i he
      rw [he, List.append_nil]
    · rename_i he
      have hlen : (left.drop kCopyBuffer).length ≤ n := by
        have hpos := List.length_pos_iff.2 he
        rw [List.length_drop, kCopyBuffer]
        omega
      rw [copyLoop_eq n _ _ hlen, List.append_assoc, List.take_append_drop]

/-- The buffer copies the whole file. -/
theorem copyFile_eq (content : Bytes) : copyFile content = content := copyLoop_eq _ [] content le_rfl

/-! ## `mkdir` -/

theorem grows_mkdir (v : FileTree) (path : Bytes) : v.Grows (mkdir v path) := by
  unfold mkdir
  split
  · rename_i h
    exact Volume.grows_put v _ _ h.1 (fun e he => by rw [h.2] at he; cases he)
  · exact Volume.Grows.refl v

theorem mkdir_other (v : FileTree) {path : Bytes} {q : List Name} (h : q ≠ place path) :
    (mkdir v path).entryAt q = v.entryAt q := by
  unfold mkdir
  split
  · rw [Volume.entryAt_put, if_neg h]
  · rfl

theorem mkdir_free {v : FileTree} {path : Bytes} (h : v.Free (place path)) (hn : v.entryAt (place path) = none) :
    (mkdir v path).entryAt (place path) = some .dir := by
  unfold mkdir
  rw [dif_pos ⟨h, hn⟩, Volume.entryAt_put, if_pos rfl]

/-- A directory that is there was there, or could be made. -/
theorem mkdir_dir {v : FileTree} {path : Bytes} (h : (mkdir v path).entryAt (place path) = some .dir) :
    v.entryAt (place path) = some .dir ∨ v.Free (place path) := by
  unfold mkdir at h
  split at h
  · rename_i hf
    exact Or.inr hf.1
  · exact Or.inl h

/-! ## One tree over another -/

/-- No directory of the source meets a file of the target. -/
def Compatible (v : FileTree) (ps : List Name) (w : FileTree) (pd : List Name) : Prop :=
  ∀ r c, v.entryAt (ps ++ r) = some .dir → w.entryAt (pd ++ r) ≠ some (.file c)

/-- What a copy of the tree at `ps` to `pd` did. -/
structure Copied (v : FileTree) (ps : List Name) (w : FileTree) (pd : List Name) (ok : Bool) (w' : FileTree) : Prop where
  grows : w.Grows w'
  top : w'.entryAt pd = some .dir → w.entryAt pd = some .dir ∨ w.Free pd
  frame : ∀ q, ¬pd <+: q → w'.entryAt q = w.entryAt q
  files : ok = true → ∀ r c, v.entryAt (ps ++ r) = some (.file c) → w'.entryAt (pd ++ r) = some (.file c)
  laid : ok = true → Compatible v ps w pd → w.entryAt pd = some .dir ∨ w.Free pd →
    ∀ r, w'.entryAt (pd ++ r) = (v.entryAt (ps ++ r)).or (w.entryAt (pd ++ r))

/-- What the loop over the names `l` of a directory did. -/
structure Looped (v : FileTree) (ps : List Name) (w : FileTree) (pd : List Name) (l : List Name) (ok ok' : Bool)
    (w' : FileTree) : Prop where
  kept : ok' = true → ok = true
  grows : w.Grows w'
  frame : ∀ q, (∀ n ∈ l, ¬pd ++ [n] <+: q) → w'.entryAt q = w.entryAt q
  files : ok' = true → ∀ n ∈ l, ∀ r c, v.entryAt (ps ++ n :: r) = some (.file c) →
    w'.entryAt (pd ++ n :: r) = some (.file c)
  laid : ok' = true → w.entryAt pd = some .dir → (∀ n ∈ l, Compatible v (ps ++ [n]) w (pd ++ [n])) →
    ∀ n ∈ l, ∀ r, w'.entryAt (pd ++ n :: r) = (v.entryAt (ps ++ n :: r)).or (w.entryAt (pd ++ n :: r))

theorem prefix_snoc_iff {pd : List Name} {n m : Name} {r : List Name} : pd ++ [n] <+: pd ++ m :: r ↔ n = m := by
  rw [List.prefix_append_right_inj, List.cons_prefix_cons]
  exact ⟨fun h => h.1, fun h => ⟨h, List.nil_prefix⟩⟩

theorem append_cons_eq {α : Type} (p : List α) (n : α) (r : List α) : p ++ n :: r = p ++ [n] ++ r := by
  rw [List.append_assoc, List.singleton_append]

theorem looped_nil (v : FileTree) (ps : List Name) (w : FileTree) (pd : List Name) (ok : Bool) :
    Looped v ps w pd [] ok ok w where
  kept := id
  grows := Volume.Grows.refl w
  frame := fun _ _ => rfl
  files := fun _ _ h => nomatch h
  laid := fun _ _ _ _ h => nomatch h

/-- One name, and the names after it. -/
theorem Copied.looped {v : FileTree} {ps : List Name} {w : FileTree} {pd : List Name} {n : Name} {ok1 : Bool}
    {w1 : FileTree} (h1 : Copied v (ps ++ [n]) w (pd ++ [n]) ok1 w1) {l : List Name} (hn : n ∉ l) {ok ok' : Bool}
    {w' : FileTree} (h : Looped v ps w1 pd l (ok && ok1) ok' w') : Looped v ps w pd (n :: l) ok ok' w' where
  kept := fun h' => (Bool.and_eq_true_iff.1 (h.kept h')).1
  grows := h1.grows.trans h.grows
  frame := by
    intro q hq
    rw [h.frame q (fun m hm => hq m (List.mem_cons_of_mem _ hm)), h1.frame q (hq n List.mem_cons_self)]
  files := by
    intro h' m hm r c hv
    rcases List.mem_cons.1 hm with rfl | hm
    · have hlast : w'.entryAt (pd ++ m :: r) = w1.entryAt (pd ++ m :: r) :=
        h.frame _ (fun x hx hp => hn (by rw [← prefix_snoc_iff.1 hp]; exact hx))
      rw [hlast, append_cons_eq]
      rw [append_cons_eq] at hv
      exact h1.files (Bool.and_eq_true_iff.1 (h.kept h')).2 r c hv
    · exact h.files h' m hm r c hv
  laid := by
    intro h' hd hc m hm r
    have hok1 : ok1 = true := (Bool.and_eq_true_iff.1 (h.kept h')).2
    rcases List.mem_cons.1 hm with rfl | hm
    · have hlast : w'.entryAt (pd ++ m :: r) = w1.entryAt (pd ++ m :: r) :=
        h.frame _ (fun x hx hp => hn (by rw [← prefix_snoc_iff.1 hp]; exact hx))
      have hfree : w.entryAt (pd ++ [m]) = some .dir ∨ w.Free (pd ++ [m]) := by
        by_cases hdir : w.entryAt (pd ++ [m]) = some .dir
        · exact Or.inl hdir
        · exact Or.inr (Volume.free_snoc.2 ⟨hd, hdir⟩)
      rw [hlast, append_cons_eq pd, append_cons_eq ps]
      exact h1.laid hok1 (hc m List.mem_cons_self) hfree r
    · have hsame : ∀ x ∈ l, ∀ r, w1.entryAt (pd ++ x :: r) = w.entryAt (pd ++ x :: r) := fun x hx r =>
        h1.frame _ (fun hp => hn (by rw [prefix_snoc_iff.1 hp]; exact hx))
      rw [← hsame m hm r]
      refine h.laid h' (h1.grows.dir hd) (fun x hx => ?_) m hm r
      intro r c hv
      have hx' := hsame x hx r
      rw [append_cons_eq] at hx'
      rw [hx']
      exact hc x (List.mem_cons_of_mem _ hx) r c hv

/-- A name that the source does not have. -/
theorem copied_absent {v : FileTree} {ps : List Name} {w : FileTree} {pd : List Name} (h : v.entryAt ps = none) :
    Copied v ps w pd true w where
  grows := Volume.Grows.refl w
  top := Or.inl
  frame := fun _ _ => rfl
  files := by
    intro _ r c hv
    by_cases hr : r = []
    · rw [hr, List.append_nil, h] at hv
      cases hv
    · rw [Volume.at_ancestor hv hr] at h
      cases h
  laid := by
    intro _ _ _ r
    have hv : v.entryAt (ps ++ r) = none := by
      by_cases hr : r = []
      · rw [hr, List.append_nil, h]
      · exact Volume.at_below (by rw [h]; simp) hr
    rw [hv, Option.none_or]

/-- A copy that failed leaves what it found. -/
theorem copied_failed (v : FileTree) (ps : List Name) (w : FileTree) (pd : List Name) : Copied v ps w pd false w where
  grows := Volume.Grows.refl w
  top := Or.inl
  frame := fun _ _ => rfl
  files := fun h => nomatch h
  laid := fun h => nomatch h

/-- A file. -/
theorem copied_file {v : FileTree} {ps : List Name} {content : Bytes} (hv : v.entryAt ps = some (.file content))
    (w : FileTree) (pd : List Name) (hf : w.Free pd) : Copied v ps w pd true (w.put pd (.file content) hf) where
  grows := by
    refine Volume.grows_put w pd _ hf (fun e he => ?_)
    cases e with
    | dir => exact absurd he hf.2.2
    | file c => rfl
  top := fun _ => Or.inr hf
  frame := by
    intro q hq
    rw [Volume.entryAt_put, if_neg]
    rintro rfl
    exact hq (List.prefix_refl _)
  files := by
    intro _ r c hr
    by_cases h : r = []
    · rw [h, List.append_nil, hv] at hr
      rw [h, List.append_nil, Volume.entryAt_put, if_pos rfl, hr]
    · rw [Volume.at_below (by rw [hv]; simp) h] at hr
      cases hr
  laid := by
    intro _ _ _ r
    rw [Volume.entryAt_put]
    by_cases h : r = []
    · rw [h, List.append_nil, List.append_nil, if_pos rfl, hv, Option.some_or]
    · have hvn : v.entryAt (ps ++ r) = none := Volume.at_below (by rw [hv]; simp) h
      rw [if_neg (by simp [h]), hvn, Option.none_or]

/-- **The loop over a directory**, for any way to copy the directories in it that copies them. -/
theorem copyEntries_looped {v : FileTree} {copyDir : Bytes → Bytes → FileTree → Option (Bool × FileTree)} {src dst : Bytes}
    (hs : 0 ∉ src) (hd : 0 ∉ dst)
    (hcopy : ∀ s d w ok w', 0 ∉ s → 0 ∉ d → copyDir s d w = some (ok, w') → Copied v (place s) w (place d) ok w') :
    ∀ (l : List Name), l.Nodup → ∀ (ok : Bool) (w : FileTree) (ok' : Bool) (w' : FileTree),
      copyEntries v copyDir src dst l ok w = some (ok', w') → Looped v (place src) w (place dst) l ok ok' w'
  | [], _, ok, w, ok', w', h => by
    simp only [copyEntries, Option.some.injEq, Prod.mk.injEq] at h
    obtain ⟨rfl, rfl⟩ := h
    exact looped_nil v _ w _ ok
  | n :: l, hl, ok, w, ok', w', h => by
    obtain ⟨hn, hl⟩ := List.nodup_cons.1 hl
    obtain ⟨hs0, hsp⟩ := place_child hs n
    obtain ⟨hd0, hdp⟩ := place_child hd n
    have rest := copyEntries_looped hs hd hcopy l hl
    rw [copyEntries, isDots_name, if_neg Bool.false_ne_true, hsp] at h
    rcases hv : v.entryAt (place src ++ [n]) with _ | (_ | content)
    · rw [hv] at h
      have h' := rest _ _ _ _ h
      exact (copied_absent hv).looped hn (by rw [Bool.and_true]; exact h')
    · rw [hv] at h
      dsimp only at h
      rcases hc : copyDir (src ++ slash :: n.val) (dst ++ slash :: n.val) w with _ | ⟨ok1, w1⟩
      · rw [hc] at h
        cases h
      · rw [hc] at h
        have h1 := hcopy _ _ _ _ _ hs0 hd0 hc
        rw [hsp, hdp] at h1
        exact h1.looped hn (rest _ _ _ _ h)
    · rw [hv] at h
      dsimp only at h
      unfold writeFile at h
      split at h
      · rename_i w1 hw
        split at hw
        · rename_i hf
          simp only [hdp, copyFile_eq, Option.some.injEq] at hw hf
          subst hw
          exact (copied_file hv w _ hf).looped hn (by rw [Bool.and_true]; exact rest _ _ _ _ h)
        · cases hw
      · exact (copied_failed v _ w _).looped hn (by rw [Bool.and_false]; exact rest _ _ _ _ h)

/-- **A copy that comes back laid one tree over the other.** -/
theorem copyTree_copied (v : FileTree) : ∀ (n : Nat) (src dst : Bytes) (w : FileTree) (ok : Bool) (w' : FileTree),
    0 ∉ src → 0 ∉ dst → copyTree v n src dst w = some (ok, w') → Copied v (place src) w (place dst) ok w'
  | 0, src, dst, w, ok, w', _, _, h => by cases h
  | n + 1, src, dst, w, ok, w', hs, hd, h => by
    rw [copyTree] at h
    have hgrow := grows_mkdir w dst
    have hother := fun q => @mkdir_other w dst q
    split at h
    swap
    · simp only [Option.some.injEq, Prod.mk.injEq] at h
      obtain ⟨rfl, rfl⟩ := h
      exact ⟨hgrow, mkdir_dir, fun q hq => hother q (fun e => hq (by rw [e])), nofun, nofun⟩
    rename_i hv
    have hloop := copyEntries_looped hs hd (fun s d w ok w' hs hd hx => copyTree_copied v n s d w ok w' hs hd hx)
      (v.names (place src)) (v.nodup_names _) true _ ok w' h
    have hnames : ∀ m r e, v.entryAt (place src ++ m :: r) = some e → m ∈ v.names (place src) := by
      intro m r e he
      rw [Volume.mem_names]
      rw [append_cons_eq] at he
      by_cases hr : r = []
      · rw [hr, List.append_nil] at he
        rw [he]; rfl
      · rw [Volume.at_ancestor he hr]; rfl
    refine ⟨hgrow.trans hloop.grows, ?_, ?_, ?_, ?_⟩
    · intro htop
      refine mkdir_dir ?_
      rw [← hloop.frame (place dst) (fun m _ hp => absurd hp.length_le (by simp)), htop]
    · intro q hq
      rw [hloop.frame q (fun m _ hp => hq ((List.prefix_append _ _).trans hp)), hother q (fun e => hq (by rw [e]))]
    · intro hok r c hr
      cases r with
      | nil => rw [List.append_nil, hv] at hr; cases hr
      | cons m r => exact hloop.files hok m (hnames m r _ hr) r c hr
    · intro hok hc hfree r
      have hdir : (mkdir w dst).entryAt (place dst) = some .dir := by
        rcases hfree with hdir | hfree
        · exact hgrow.dir hdir
        · refine mkdir_free hfree ?_
          rcases hw : w.entryAt (place dst) with _ | (_ | c)
          · rfl
          · exact absurd hw hfree.2.2
          · exact absurd (by rw [List.append_nil, hw]) (hc [] c (by rw [List.append_nil, hv]))
      have hbelow : ∀ m r, (mkdir w dst).entryAt (place dst ++ m :: r) = w.entryAt (place dst ++ m :: r) := fun m r =>
        hother _ (by simp)
      cases r with
      | nil => rw [List.append_nil, List.append_nil, hv, Option.some_or, hloop.grows.dir hdir]
      | cons m r =>
        by_cases hm : m ∈ v.names (place src)
        · rw [← hbelow]
          refine hloop.laid hok hdir (fun x _ => ?_) m hm r
          intro r c hr
          rw [← append_cons_eq, hbelow]
          rw [← append_cons_eq] at hr
          exact hc (x :: r) c hr
        · have hvn : v.entryAt (place src ++ m :: r) = none := by
            rcases hx : v.entryAt (place src ++ m :: r) with _ | e
            · rfl
            · exact absurd (hnames m r e hx) hm
          rw [hvn, Option.none_or, hloop.frame _ (fun x hx hp => hm (by rw [← prefix_snoc_iff.1 hp]; exact hx)), hbelow]

/-! ## Title ids with a NUL -/

theorem cStr_append_nul {a : Bytes} (h : 0 ∉ a) (b : Bytes) : cStr (a ++ 0 :: b) = a := by
  induction a with
  | nil => rw [List.nil_append, cStr_cons, if_pos rfl]
  | cons x a ih =>
    rw [List.mem_cons, not_or] at h
    rw [List.cons_append, cStr_cons, if_neg (Ne.symm h.1), ih h.2]

/-- A name after a path with a NUL leads to the path itself. -/
theorem place_nul {s : Bytes} (h : 0 ∈ s) (t : Bytes) : 0 ∈ s ++ t ∧ place (s ++ t) = place s := by
  have hc : cStr (s ++ t) = cStr s := by
    obtain ⟨a, b, rfl, ha⟩ := List.eq_append_cons_of_mem h
    rw [List.append_assoc, List.cons_append, cStr_append_nul ha, cStr_append_nul ha]
  exact ⟨List.mem_append_left _ h, by rw [place, hc, place]⟩

/-- **A copy out of a directory that is named with a NUL does not come back** once the directory has an entry: every name
in it leads to the directory again. -/
theorem copyTree_nul (v : FileTree) {src : Bytes} (hs : 0 ∈ src) (hn : v.names (place src) ≠ []) :
    ∀ (n : Nat) (t dst : Bytes) (w : FileTree) (w' : FileTree), copyTree v n (src ++ t) dst w ≠ some (true, w') := by
  have hdir : v.entryAt (place src) = some .dir := by
    obtain ⟨m, hm⟩ := List.exists_mem_of_ne_nil _ hn
    rw [Volume.mem_names] at hm
    obtain ⟨e, he⟩ := Option.isSome_iff_exists.1 hm
    exact Volume.at_parent he
  have never : ∀ (n : Nat) (t dst : Bytes) (w : FileTree), copyTree v n (src ++ t) dst w = none := by
    intro n
    induction n with
    | zero => intro t dst w; rfl
    | succ n ih =>
      intro t dst w
      rw [copyTree, (place_nul hs t).2, if_pos hdir]
      obtain ⟨m, l, hml⟩ := List.exists_cons_of_ne_nil hn
      have hp : place (src ++ t ++ slash :: m.val) = place src := by
        rw [List.append_assoc]
        exact (place_nul hs _).2
      rw [hml, copyEntries, isDots_name, if_neg Bool.false_ne_true, hp, hdir]
      dsimp only
      rw [List.append_assoc, ih]
  intro n t dst w w' h
  rw [never] at h
  cases h

/-! ## The handlers -/

theorem place_saveRoot : place saveRoot = [] := by decide

theorem no_nul_saveRoot : 0 ∉ saveRoot := by decide

theorem nul_mem_saveDir (tid : Bytes) : 0 ∈ saveDir tid ↔ 0 ∈ tid := by
  have h : (0 : UInt8) ∉ savesDir ∧ (0 : UInt8) ≠ slash := by decide
  simp [saveDir, h.1, h.2]

/-- The card as `CopyTree` finds it. -/
def prepared (card : FileTree) : FileTree := mkdir (mkdir card (str "sdmc:/switch-agentd")) savesDir

/-- A backup that replied ok. -/
theorem backupSave_ok {n : Nat} {fault : SaveFault} {req : Request} {con con' : Console} {r : Reply}
    (h : backupSave n fault req con = some ((true, r), con')) :
    copyTree (con.save (reqTid req) (reqUid req)) n saveRoot (reqDir req) (prepared con.card) = some (true, con'.card) := by
  unfold backupSave at h
  split at h
  · cases h
  split at h
  · cases h
  dsimp only at h
  unfold prepared
  split at h
  · cases h
  · rename_i ok card hc
    split at h
    · rename_i hok
      cases h
      rw [hc, hok]
    · cases h

/-- A restore that replied ok. -/
theorem restoreSave_ok {n : Nat} {fault : SaveFault} {req : Request} {con con' : Console} {r : Reply}
    (h : restoreSave n fault req con = some ((true, r), con')) :
    copyTree con.card n (reqDir req) saveRoot (con.save (reqTid req) (reqUid req)) =
      some (true, con'.save (reqTid req) (reqUid req)) := by
  unfold restoreSave at h
  split at h
  · cases h
  split at h
  · cases h
  split at h
  · cases h
  · rename_i ok save hc
    split at h
    · rename_i hok
      rw [Bool.and_eq_true] at hok
      cases h
      rw [hc, hok.1]
      simp [Console.commit]
    · cases h

/-! ## The round trip -/

/-- Every entry of `t` is an entry of `s`, a directory or a file alike. -/
def Within (t s : List Name → Option (Entry Bytes)) : Prop :=
  ∀ p e, t p = some e → ∃ e', s p = some e' ∧ e'.isDir = e.isDir

/-- **Two overlays give back the first tree exactly when what lay below each was within it.** -/
theorem overlay_back {live card card' save save' : FileTree} {d : List Name} {ok : Bool}
    (hb : Copied live [] card d true card') (hr : Copied card' d save [] ok save') (hok : ok = true)
    (hd : card'.entryAt d = some .dir) :
    (∀ p, save'.entryAt p = live.entryAt p) ↔
      Within (fun p => card.entryAt (d ++ p)) live.entryAt ∧ Within save.entryAt live.entryAt := by
  have hbf := hb.files rfl
  have hrf := hr.files hok
  simp only [List.nil_append] at hbf hrf
  constructor
  · intro heq
    have hgrow := hr.grows
    refine ⟨?_, fun p e he => by rw [← heq]; exact hgrow p e he⟩
    intro p e he
    obtain ⟨e1, h1, hk1⟩ := hb.grows _ _ he
    cases e with
    | file c =>
      cases e1 with
      | dir => cases hk1
      | file c1 => exact ⟨.file c1, by rw [← heq, hrf p c1 h1], rfl⟩
    | dir =>
      rw [Entry.isDir_iff.1 hk1] at h1
      by_cases hc : Compatible card' d save []
      · have hp := hr.laid hok hc (Or.inl (Volume.entryAt_nil _)) p
        rw [List.nil_append, h1, Option.some_or, heq] at hp
        exact ⟨.dir, hp, rfl⟩
      · -- a file of the save in a directory's way stays a file
        simp only [Compatible, not_forall, not_not, List.nil_append] at hc
        obtain ⟨q, c, hq, hs⟩ := hc
        obtain ⟨c', hc'⟩ := hgrow.not_dir hs
        rw [heq] at hc'
        rw [hbf q c' hc'] at hq
        cases hq
  · rintro ⟨hwb, hws⟩ p
    have hcb : Compatible live [] card d := by
      intro q c hq hc
      obtain ⟨e, he, hk⟩ := hwb q _ hc
      rw [List.nil_append, he] at hq
      cases hq
      cases hk
    have hlaid : ∀ q, card'.entryAt (d ++ q) = live.entryAt q := by
      intro q
      have hq := hb.laid rfl hcb (hb.top hd) q
      rw [List.nil_append] at hq
      rw [hq]
      rcases hl : live.entryAt q with _ | e
      · rw [Option.none_or]
        rcases hx : card.entryAt (d ++ q) with _ | e
        · rfl
        · obtain ⟨e', he', -⟩ := hwb q e hx
          rw [hl] at he'
          cases he'
      · rw [Option.some_or]
    have hcr : Compatible card' d save [] := by
      intro q c hq hc
      obtain ⟨e, he, hk⟩ := hws q _ hc
      rw [hlaid, he] at hq
      cases hq
      cases hk
    have hp := hr.laid hok hcr (Or.inl (Volume.entryAt_nil _)) p
    rw [List.nil_append, hlaid] at hp
    rw [hp]
    rcases hl : live.entryAt p with _ | e
    · rw [Option.none_or]
      rcases hx : save.entryAt p with _ | e
      · rfl
      · obtain ⟨e', he', -⟩ := hws p e hx
        rw [hl] at he'
        cases he'
    · rw [Option.some_or]

/-- **A restore brings back what was backed up exactly when there was nothing else.**  A backup replied ok on a console
with any history; then, with the card as the backup left it and the live saves in any state, a restore with the same
title id replied ok.  The committed save is the one backed up exactly when every entry that the backup directory held
before, and every entry of the live save at the restore, is an entry of the backed-up save and of the same kind; for a
title id with a NUL, when the live save at the restore is already that save. -/
theorem restored_iff {n m : Nat} {faultB faultR : SaveFault} {reqB reqR : Request} {con con1 con2 con3 : Console}
    {rb rr : Reply} (htid : reqR.get "tid" = reqB.get "tid")
    (hb : backupSave n faultB reqB con = some ((true, rb), con1)) (hcard : con2.card = con1.card)
    (hr : restoreSave m faultR reqR con2 = some ((true, rr), con3)) :
    (∀ p, (con3.save (reqTid reqR) (reqUid reqR)).entryAt p = (con.save (reqTid reqB) (reqUid reqB)).entryAt p) ↔
      if 0 ∈ (reqB.get "tid").asString [] then
        ∀ p, (con2.save (reqTid reqR) (reqUid reqR)).entryAt p = (con.save (reqTid reqB) (reqUid reqB)).entryAt p
      else
        Within (fun p => (prepared con.card).entryAt (place (reqDir reqB) ++ p))
            (con.save (reqTid reqB) (reqUid reqB)).entryAt ∧
          Within (con2.save (reqTid reqR) (reqUid reqR)).entryAt (con.save (reqTid reqB) (reqUid reqB)).entryAt := by
  have hdir : reqDir reqR = reqDir reqB := by rw [reqDir, reqDir, htid]
  have hB := backupSave_ok hb
  have hR := restoreSave_ok hr
  rw [hdir, hcard] at hR
  have hopen : con1.card.entryAt (place (reqDir reqB)) = some .dir := by
    cases m with
    | zero => cases hR
    | succ m =>
      rw [copyTree] at hR
      split at hR
      · rename_i hv
        exact hv
      · cases hR
  split
  · rename_i h0
    have h0' : 0 ∈ reqDir reqB := (nul_mem_saveDir _).2 h0
    have hnames : con1.card.names (place (reqDir reqB)) = [] := by
      by_contra hne
      have hnever := copyTree_nul con1.card h0' hne m [] saveRoot (con2.save (reqTid reqR) (reqUid reqR))
        (con3.save (reqTid reqR) (reqUid reqR))
      rw [List.append_nil] at hnever
      exact hnever hR
    have hsame : con3.save (reqTid reqR) (reqUid reqR) = con2.save (reqTid reqR) (reqUid reqR) := by
      cases m with
      | zero => cases hR
      | succ m =>
        rw [copyTree, if_pos hopen, hnames, copyEntries, Option.some.injEq, Prod.mk.injEq] at hR
        rw [← hR.2, mkdir, dif_neg]
        rintro ⟨hf, -⟩
        exact hf.1 place_saveRoot
    rw [hsame]
  · rename_i h0
    have h0' : 0 ∉ reqDir reqB := fun h => h0 ((nul_mem_saveDir _).1 h)
    have hcb := copyTree_copied _ n saveRoot (reqDir reqB) _ _ _ no_nul_saveRoot h0' hB
    have hcr := copyTree_copied _ m (reqDir reqB) saveRoot _ _ _ h0' no_nul_saveRoot hR
    rw [place_saveRoot] at hcb hcr
    exact overlay_back hcb hcr rfl hopen

/-! ## A console to run -/

/-- A save with one file. -/
def oneFile (path : String) (content : Bytes) : FileTree := (writeFile Volume.empty (str path) content).getD Volume.empty

def titleRequest : Request where
  msg := (Json.Value.object []).set (str "tid") (.string (str "0100000000010000"))
  payload := []

/-- An empty card, and one live save for everyone. -/
def freshConsole (live : FileTree) : Console := ⟨Volume.empty, fun _ _ => live⟩

def noFault : SaveFault := ⟨true, true⟩

/-- A backup of the live save `live` that replies ok, after whatever came before. -/
def thenBackup (con : Option Console) (live : FileTree) : Option Console :=
  con.bind fun con => (backupSave 5 noFault titleRequest { con with save := fun _ _ => live }).bind fun r =>
    if r.1.1 then some r.2 else none

/-- The save that a restore over `live` commits when it replies ok. -/
def thenRestore (con : Option Console) (live : FileTree) : Option FileTree :=
  con.bind fun con => (restoreSave 5 noFault titleRequest { con with save := fun _ _ => live }).bind fun r =>
    if r.1.1 then some (r.2.save (reqTid titleRequest) (reqUid titleRequest)) else none

theorem ok_of_map {x : Option ((Bool × Reply) × Console)} (h : x.map (fun r => r.1.1) = some true)
    (d : (Bool × Reply) × Console) : x = some ((true, (x.getD d).1.2), (x.getD d).2) := by
  rcases x with _ | ⟨⟨b, r⟩, con⟩
  · cases h
  · cases h
    rfl

theorem restored_iff_fresh :
    ∃ con1 con3 rb rr,
      backupSave 5 noFault titleRequest (freshConsole (oneFile "save:/a" [1])) = some ((true, rb), con1) ∧
      restoreSave 5 noFault titleRequest con1 = some ((true, rr), con3) ∧
      ∀ p, (con3.save (reqTid titleRequest) (reqUid titleRequest)).entryAt p = (oneFile "save:/a" [1]).entryAt p := by
  let d : (Bool × Reply) × Console := ((false, {}), freshConsole Volume.empty)
  have hb : (backupSave 5 noFault titleRequest (freshConsole (oneFile "save:/a" [1]))).map (fun r => r.1.1) = some true := by
    decide +kernel
  have hr : (restoreSave 5 noFault titleRequest
      ((backupSave 5 noFault titleRequest (freshConsole (oneFile "save:/a" [1]))).getD d).2).map (fun r => r.1.1) =
        some true := by decide +kernel
  have hsave : ((backupSave 5 noFault titleRequest (freshConsole (oneFile "save:/a" [1]))).getD d).2.save =
      (freshConsole (oneFile "save:/a" [1])).save := by
    rw [ok_of_map hb d, Option.getD_some]
    have h := ok_of_map hb d
    unfold backupSave at h
    split at h; · cases h
    split at h; · cases h
    dsimp only at h
    split at h; · cases h
    split at h
    · have hc := congrArg (fun x => Console.save (Prod.snd x)) (Option.some.inj h)
      exact hc.symm
    · cases h
  refine ⟨_, _, _, _, ok_of_map hb d, ok_of_map hr d, ?_⟩
  refine (restored_iff rfl (ok_of_map hb d) rfl (ok_of_map hr d)).2 ?_
  have h0 : ¬0 ∈ (titleRequest.get "tid").asString [] := by decide +kernel
  rw [if_neg h0, hsave]
  refine ⟨?_, fun p e he => ⟨e, he, rfl⟩⟩
  have hnone : (prepared Volume.empty).entryAt (place (reqDir titleRequest)) = none := by decide +kernel
  intro p e he
  have hp : (prepared Volume.empty).entryAt (place (reqDir titleRequest) ++ p) = none := by
    by_cases hp : p = []
    · rw [hp, List.append_nil, hnone]
    · exact Volume.at_below (by rw [hnone]; simp) hp
  exact absurd (hp.symm.trans he) (by simp)

/-- **A file that only an older backup held, and one made after the backup, are in the restored save.** -/
theorem restore_keeps_stale :
    (thenRestore (thenBackup (thenBackup (some (freshConsole Volume.empty)) (oneFile "save:/a" [1])) (oneFile "save:/b" [2]))
      (oneFile "save:/c" [3])).map (fun v => (v.entryAt (place (str "save:/a")), v.entryAt (place (str "save:/b")),
        v.entryAt (place (str "save:/c")))) = some (some (.file [1]), some (.file [2]), some (.file [3])) ∧
    (oneFile "save:/b" [2]).entryAt (place (str "save:/a")) = none ∧
    (oneFile "save:/b" [2]).entryAt (place (str "save:/c")) = none := by
  refine ⟨by decide +kernel, by decide +kernel, by decide +kernel⟩

end Agent
end SwitchMcp

import SwitchMcp.Confirm
import SwitchMcp.Saves
import SwitchMcp.Symlinks
/-!
# LocalPaths — the host files a tool may open (guards.py)

`resolve_local_path` over a host's directory tree with its links.  `Host.pathExists` and `Host.opens` follow a path as the
kernel does; `Host.resolve` is `Path.resolve()`, which at a loop of links goes on by the text alone.  A path that does not
exist is judged by its resolved parent and its name, and the name can be a link, and so can what comes after a loop:
`confined_iff` says when the file that is opened lies inside the roots.
-/
namespace SwitchMcp
namespace Guards

open Agent (Name PlainName)

/-! ## Names and paths -/

def fsencodeChar (c : CodePoint) : Option Bytes :=
  if isSurrogate c.val then
    if 0xDC80 ≤ c.val ∧ c.val ≤ 0xDCFF then some [UInt8.ofNat (c.val - 0xDC00)] else none
  else some (utf8Char c.val)

/-- `os.fsencode`: UTF-8 with surrogate escapes. -/
def fsencode (s : PyStr) : Option Bytes := (s.mapM fsencodeChar).map List.flatten

/-- A path component that an entry can be named by. -/
structure Comp where
  text : PyStr
  name : Name
  encoded : fsencode text = some name.val
deriving DecidableEq

theorem Comp.ext_text {c d : Comp} (h : c.text = d.text) : c = d := by
  obtain ⟨s, n, hn⟩ := c
  obtain ⟨s', n', hn'⟩ := d
  dsimp only at h
  subst h
  have e : n = n' := Subtype.ext (Option.some.inj (hn.symm.trans hn'))
  subst e
  rfl

def Comp.ofText (s : PyStr) : Option Comp :=
  match h : fsencode s with
  | none => none
  | some b => if hp : PlainName b then some ⟨s, ⟨b, hp⟩, h⟩ else none

def segOf (s : PyStr) : Seg Comp :=
  if s = [] then .here true
  else if s = py "." then .here false
  else if s = py ".." then .up
  else match Comp.ofText s with
    | some c => .enter c
    | none => .bad

def slashCp : CodePoint := cp 47

/-- The parts of a `Path`. -/
def pathParts (s : PyStr) : List PyStr := (s.splitOn slashCp).filter (fun p => decide (p ≠ [] ∧ p ≠ py "."))

/-- A `Path`. -/
structure HostPath where
  absolute : Bool
  parts : List PyStr
deriving DecidableEq

def HostPath.ofText (s : PyStr) : HostPath := ⟨decide (s.head? = some slashCp), pathParts s⟩

def HostPath.parent (p : HostPath) : HostPath := ⟨p.absolute, p.parts.dropLast⟩

/-- `p / name` on the parts of an absolute path. -/
def joinName (p : List PyStr) (name : PyStr) : List PyStr := if name = [] then p else p ++ [name]

def HostPath.name (p : HostPath) : PyStr := p.parts.getLast?.getD []

/-- `str(p)` of an absolute path. -/
def pathText (parts : List PyStr) : PyStr := slashCp :: List.intercalate [slashCp] parts

example : pathText (HostPath.ofText (py "/r//./l/")).parts = py "/r/l" := by decide +kernel

/-! ## The host -/

/-- The host's files, the server's working directory, and how deep the interpreter's calls may nest. -/
structure Host where
  tree : Volume Name (Leaf Comp Bytes)
  cwd : List Comp
  cwd_dir : tree.entryAt (cwd.map Comp.name) = some .dir
  calls : Nat

/-- What the server's environment says; `home` is `os.path.expanduser` on a first part, `none` where it finds no home. -/
structure ServerEnv where
  localRoots : Option PyStr
  transport : Option PyStr
  home : PyStr → Option PyStr

/-- `Path.expanduser`; `none` is an exception. -/
def HostPath.expanduser (env : ServerEnv) (p : HostPath) : Option HostPath :=
  match p.parts with
  | [] => some p
  | part :: rest =>
    if p.absolute = false ∧ part.head? = some (cp 126) then
      (env.home part).map (fun s => ⟨(HostPath.ofText s).absolute, (HostPath.ofText s).parts ++ rest⟩)
    else some p

/-- The links a walk follows before it gives up. -/
def maxLinks : Nat := 40

namespace Host

variable (h : Host)

/-- Where a path starts. -/
def base (p : HostPath) : List Comp := if p.absolute then [] else h.cwd

def follow (k : Nat) (p : List Name) (l : List (Seg Comp)) : Reached Name := Symlinks.walk Comp.name h.tree k p l

/-- `p.exists()`. -/
def pathExists (p : HostPath) : Bool :=
  match h.follow maxLinks ((h.base p).map Comp.name) (p.parts.map segOf) with
  | .at _ => true
  | _ => false

/-- `os.path.realpath(p)`; `none` is an exception.  What its `seen` keeps of links that were resolved is left out: resolving
them again gives the same. -/
def realpath (p : HostPath) : Option (List Comp) :=
  match Symlinks.real Comp.name h.tree h.cwd h.calls [] ⟨if p.absolute then .root else .above 0, []⟩ (p.parts.map segOf) with
  | none => none
  | some (.done w) => some (w.place h.cwd)
  | some (.stuck w rest) =>
    -- A path that begins with two slashes lies below no root; it is left out.
    if w.start = .doubled then none else (Symlinks.lexical ((w.place h.cwd).map some) rest).mapM id

/-- `p.resolve()`; `none` is an exception.  `realpath` raises at no loop of links, but the `stat` after it does when the path it
gave leads into one. -/
def resolve (p : HostPath) : Option (List Comp) :=
  (h.realpath p).bind fun q =>
    match h.follow maxLinks [] (q.map .enter) with
    | .loop => none
    | _ => some q

/-- The file that an `open` at the end of a walk reads, or, for writing, overwrites or creates. -/
def opened (forWrite : Bool) : Reached Name → Option (List Name)
  | .at loc =>
    match h.tree.entryAt loc with
    | some (.file _) => some loc
    | _ => none
  | .free p n => if forWrite then some (p ++ [n]) else none
  | .nowhere | .loop => none

/-- The file that `open(q)` reads, or overwrites or creates, for an absolute path. -/
def opens (q : List PyStr) (forWrite : Bool) : Option (List Name) :=
  h.opened forWrite (h.follow maxLinks [] (q.map segOf))

end Host

/-! ## resolve_local_path -/

/-- `str.isspace` on one character. -/
def isPySpace (c : CodePoint) : Bool :=
  decide ((9 ≤ c.val ∧ c.val ≤ 13) ∨ (28 ≤ c.val ∧ c.val ≤ 32) ∨ c.val = 0x85 ∨ c.val = 0xA0 ∨ c.val = 0x1680 ∨
    (0x2000 ≤ c.val ∧ c.val ≤ 0x200A) ∨ c.val = 0x2028 ∨ c.val = 0x2029 ∨ c.val = 0x202F ∨ c.val = 0x205F ∨ c.val = 0x3000)

def strip (s : PyStr) : PyStr := ((s.dropWhile isPySpace).reverse.dropWhile isPySpace).reverse

/-- `Blocked`, or an exception of pathlib. -/
inductive PathError
  | blocked (message : PyStr)
  | raised
deriving DecidableEq

def pathsep : CodePoint := cp 58

/-- `_allowed_roots`. -/
def allowedRoots (h : Host) (env : ServerEnv) : Except PathError (Option (List (List Comp))) :=
  let raw := strip (env.localRoots.getD [])
  if raw = [] then .ok none
  else
    match ((raw.splitOn pathsep).filter (fun p => decide (p ≠ []))).mapM
      (fun p => ((HostPath.ofText p).expanduser env).bind h.resolve) with
    | none => .error .raised
    | some roots => .ok (some roots)

def isRemoteTransport (env : ServerEnv) : Bool := decide (lower (env.transport.getD (py "stdio")) ≠ py "stdio")

def remoteWriteMessage : PyStr :=
  py "Writing host files is disabled over a network transport unless SWITCH_MCP_LOCAL_ROOTS is set to an explicit allowlist."

def outsideMessage (path : PyStr) (roots : List (List Comp)) : PyStr :=
  py "Path '" ++ path ++ py "' is outside the allowed local roots (" ++
    List.intercalate [pathsep] (roots.map (fun r => pathText (r.map Comp.text))) ++
    py "). Set SWITCH_MCP_LOCAL_ROOTS to widen this."

/-- `resolved == root or root in resolved.parents`. -/
def underRoot (resolved : List PyStr) (root : List Comp) : Bool := (root.map Comp.text).isPrefixOf resolved

/-- The path that is compared with the roots. -/
def resolved (h : Host) (p : HostPath) : Option (List PyStr) :=
  if h.pathExists p then (h.resolve p).map (fun r => r.map Comp.text)
  else (h.resolve p.parent).map (fun r => joinName (r.map Comp.text) p.name)

/-- `resolve_local_path`: the parts of the absolute path it returns. -/
def resolveLocalPath (h : Host) (env : ServerEnv) (path : PyStr) (forWrite : Bool) : Except PathError (List PyStr) :=
  match ((HostPath.ofText path).expanduser env).bind (resolved h) with
  | none => .error .raised
  | some q =>
    match allowedRoots h env with
    | .error e => .error e
    | .ok none => if isRemoteTransport env && forWrite then .error (.blocked remoteWriteMessage) else .ok q
    | .ok (some roots) =>
      if roots.any (underRoot q) then .ok q else .error (.blocked (outsideMessage path roots))

/-! ## Components -/

theorem Comp.text_ne (c : Comp) : c.text ≠ [] ∧ c.text ≠ py "." ∧ c.text ≠ py ".." := by
  have he := c.encoded
  have hp := c.name.property
  refine ⟨fun h => hp.1 ?_, fun h => hp.2.1 ?_, fun h => hp.2.2.1 ?_⟩ <;> rw [h] at he
  · exact (Option.some.inj he).symm
  · exact (Option.some.inj he).symm.trans (by decide)
  · exact (Option.some.inj he).symm.trans (by decide)

theorem Comp.ofText_text (c : Comp) : Comp.ofText c.text = some c := by
  unfold Comp.ofText
  split
  · rename_i h
    rw [c.encoded] at h
    cases h
  · rename_i b h
    have hb : c.name.val = b := Option.some.inj (c.encoded.symm.trans h)
    subst hb
    rw [dif_pos c.name.property]

theorem segOf_text (c : Comp) : segOf c.text = .enter c := by
  have hne := c.text_ne
  unfold segOf
  rw [if_neg hne.1, if_neg hne.2.1, if_neg hne.2.2, c.ofText_text]

theorem map_segOf_text (p : List Comp) : (p.map Comp.text).map segOf = p.map .enter := by
  rw [List.map_map]
  exact List.map_congr_left fun c _ => segOf_text c

/-- What names a component by its text. -/
theorem text_of_segOf {s : PyStr} {c : Comp} (h : segOf s = .enter c) : s = c.text := by
  unfold segOf at h
  split at h
  · cases h
  split at h
  · cases h
  split at h
  · cases h
  split at h
  · rename_i d hd
    cases h
    unfold Comp.ofText at hd
    split at hd
    · cases hd
    · split at hd
      · cases hd; rfl
      · cases hd
  · cases h

/-! ## Where an open leads -/

/-- A place at or below a root. -/
def Inside (root : List Comp) (loc : List Name) : Prop := root.map Comp.name <+: loc

instance (root : List Comp) (loc : List Name) : Decidable (Inside root loc) := inferInstanceAs (Decidable (_ <+: _))

theorem inside_of_text {root r : List Comp} (h : root.map Comp.text <+: r.map Comp.text) :
    Inside root (r.map Comp.name) := by
  have hr : root <+: r := by
    rw [List.prefix_iff_eq_take] at h ⊢
    rw [← List.map_take, List.length_map] at h
    exact (List.map_inj_right fun c d hcd => Comp.ext_text hcd).1 h
  exact hr.map Comp.name

variable {h : Host}

theorem opened_dir {forWrite : Bool} {p : List Name} (hd : h.tree.entryAt p = some .dir) :
    h.opened forWrite (.at p) = none := by
  rw [Host.opened, hd]

theorem opened_at {forWrite : Bool} {p loc : List Name} (ho : h.opened forWrite (.at p) = some loc) : loc = p := by
  unfold Host.opened at ho
  dsimp only at ho
  split at ho
  · exact (Option.some.inj ho).symm
  · cases ho

theorem opened_free {forWrite : Bool} {p loc : List Name} {n : Name} (ho : h.opened forWrite (.free p n) = some loc) :
    loc = p ++ [n] := by
  unfold Host.opened at ho
  dsimp only at ho
  split at ho
  · exact (Option.some.inj ho).symm
  · cases ho

/-- A name in a directory that is no link: a file is opened, or created, under it and nowhere else. -/
theorem opened_plain {forWrite : Bool} {dir : List Comp} {c : Comp} {loc : List Name} (k : Nat)
    (hd : h.tree.entryAt (dir.map Comp.name) = some .dir)
    (hc : ∀ a t, h.tree.entryAt (dir.map Comp.name ++ [c.name]) ≠ some (.file (.link a t)))
    (ho : h.opened forWrite (h.follow k (dir.map Comp.name) [.enter c]) = some loc) :
    loc = (dir ++ [c]).map Comp.name := by
  rw [List.map_append, List.map_singleton]
  unfold Host.follow at ho
  rcases Symlinks.under_cases h.tree (dir.map Comp.name) c.name with hn | ⟨a, t, hl⟩ | ⟨e, he, hlink⟩
  · rw [Symlinks.walk_missing Comp.name h.tree k [] hd hn] at ho
    exact opened_free ho
  · exact absurd hl (hc a t)
  · rw [Symlinks.walk_enter Comp.name h.tree k [] hd he hlink, Symlinks.walk_nil] at ho
    exact opened_at ho

theorem linkless_base (p : HostPath) : Symlinks.Linkless Comp.name h.tree (h.base p) := by
  unfold Host.base
  split
  · exact Symlinks.linkless_nil
  · exact Symlinks.linkless_of_dir h.cwd_dir

/-- **What exists is resolved to a path without links.** -/
theorem linkless_resolve {p : HostPath} (hp : h.pathExists p = true) {r : List Comp} (hr : h.resolve p = some r) :
    Symlinks.Linkless Comp.name h.tree r := by
  have hstart : (⟨if p.absolute then .root else .above 0, []⟩ : Written Comp).place h.cwd = h.base p := by
    unfold Host.base
    cases p.absolute with
    | true => rfl
    | false => exact (List.append_nil _).trans List.take_length
  have hlinkless := linkless_base (h := h) p
  rw [← hstart] at hlinkless
  obtain ⟨q, hq, hstat⟩ := Option.bind_eq_some_iff.1 hr
  have hqr : q = r := by
    split at hstat
    · cases hstat
    · exact Option.some.inj hstat
  subst hqr
  unfold Host.pathExists at hp
  split at hp
  · rename_i loc hwalk
    rw [← hstart] at hwalk
    have hreal := Symlinks.real_of_walk Comp.name h.tree h.cwd h.calls maxLinks [] _ _ loc hwalk
      (fun _ _ hs => absurd hs List.not_mem_nil)
    unfold Host.realpath at hq
    split at hq
    · cases hq
    · rename_i w hw
      cases hq
      exact Symlinks.real_linkless h.cwd h.calls [] _ _ hlinkless w hw
    · rename_i w rest hw
      obtain ⟨w', hdone, -⟩ := hreal _ hw
      cases hdone
  · cases hp

theorem follow_linkless {dir : List Comp} (hdir : Symlinks.Linkless Comp.name h.tree dir) {l : List (Seg Comp)} (hl : l ≠ []) :
    h.follow maxLinks [] (dir.map .enter ++ l) =
      if Symlinks.isDir h.tree (dir.map Comp.name) = true then h.follow maxLinks (dir.map Comp.name) l else .nowhere := by
  have hw := Symlinks.walk_linkless maxLinks dir [] hl
    (show Symlinks.Linkless Comp.name h.tree ([] ++ dir) by rwa [List.nil_append]) (Volume.entryAt_nil _)
  rw [List.nil_append, List.map_nil] at hw
  exact hw

/-- **On a path without links a file is opened at the path and nowhere else.** -/
theorem opens_linkless {r : List Comp} (hr : Symlinks.Linkless Comp.name h.tree r) {forWrite : Bool} {loc : List Name}
    (ho : h.opens (r.map Comp.text) forWrite = some loc) : loc = r.map Comp.name := by
  unfold Host.opens at ho
  rw [map_segOf_text] at ho
  rcases List.eq_nil_or_concat r with rfl | ⟨dir, c, rfl⟩
  · rw [List.map_nil, Host.follow, Symlinks.walk_nil] at ho
    exact opened_at ho
  · rw [List.concat_eq_append] at hr ho ⊢
    rw [List.map_append, List.map_singleton, follow_linkless (hr.mono (List.prefix_append _ _)) (List.cons_ne_nil _ _)] at ho
    split at ho
    · rename_i hd
      refine opened_plain maxLinks (Symlinks.isDir_iff.1 hd) (fun a t => ?_) ho
      have := hr _ List.prefix_rfl a t
      rwa [List.map_append, List.map_singleton] at this
    · cases ho

/-- A directory's parent is one. -/
theorem dir_dropLast {p : List Name} (hd : h.tree.entryAt p = some .dir) : h.tree.entryAt p.dropLast = some .dir := by
  rcases List.eq_nil_or_concat p with rfl | ⟨q, n, rfl⟩
  · exact hd
  · rw [List.concat_eq_append] at hd ⊢
    rw [List.dropLast_concat]
    exact Volume.at_parent hd

/-- **A file is opened only by a path that ends in a name.** -/
theorem opened_last {forWrite : Bool} {k : Nat} {p loc : List Name} {l : List (Seg Comp)} {s : Seg Comp}
    (ho : h.opened forWrite (h.follow k p (l ++ [s])) = some loc) : ∃ c, s = .enter c := by
  have hends : Symlinks.Ends [s] (h.follow k p (l ++ [s])) := by
    rcases hr : h.follow k p (l ++ [s]) with q | ⟨d, n⟩ | _ | _
    · exact Or.inl ⟨q, rfl⟩
    · exact Or.inr ⟨List.cons_ne_nil _ _, d, n, rfl⟩
    · rw [hr] at ho
      cases ho
    · rw [hr] at ho
      cases ho
  obtain ⟨k', -, m, -, hm⟩ := Symlinks.walk_append Comp.name h.tree k l [s] p hends
  rw [Host.follow, ← hm] at ho
  by_cases hd : h.tree.entryAt m = some .dir
  · cases s with
    | here b =>
      rw [Symlinks.walk_here _ _ _ _ _ hd, Symlinks.walk_nil, opened_dir hd] at ho
      cases ho
    | up =>
      rw [Symlinks.walk_up _ _ _ _ hd, Symlinks.walk_nil, opened_dir (dir_dropLast hd)] at ho
      cases ho
    | bad =>
      rw [Symlinks.walk_bad] at ho
      cases ho
    | enter c => exact ⟨c, rfl⟩
  · rw [Symlinks.walk_not_dir _ _ _ _ _ hd] at ho
    cases ho

/-! ## resolve_local_path and the roots -/

/-- On this path stands a link, and the first one leads to a file outside the roots. -/
def LeadsOut (h : Host) (roots : List (List Comp)) (forWrite : Bool) (q : List Comp) : Prop :=
  ∃ d c rest a t loc, q = d ++ c :: rest ∧ Symlinks.Linkless Comp.name h.tree d ∧
    h.tree.entryAt ((d ++ [c]).map Comp.name) = some (.file (.link a t)) ∧
    h.opened forWrite (h.follow (maxLinks - 1) (Symlinks.startOf a (d.map Comp.name)) (t ++ rest.map .enter)) = some loc ∧
    ∀ r ∈ roots, ¬Inside r loc

/-- The path does not exist, but in its parent, as it is resolved, its name is within the roots, and a link on the way to it,
or under it, leads to a file outside them. -/
def LinkLeadsOut (h : Host) (env : ServerEnv) (roots : List (List Comp)) (path : PyStr) (forWrite : Bool) : Prop :=
  ∃ p dir c, (HostPath.ofText path).expanduser env = some p ∧ h.pathExists p = false ∧ p.parts.getLast? = some c.text ∧
    h.resolve p.parent = some dir ∧ (∃ r ∈ roots, r.map Comp.text <+: (dir ++ [c]).map Comp.text) ∧
    LeadsOut h roots forWrite (dir ++ [c])

/-- Opening the path leads to no file outside the roots. -/
def Confined (h : Host) (roots : List (List Comp)) (forWrite : Bool) (q : List PyStr) : Prop :=
  ∀ loc, h.opens q forWrite = some loc → ∃ r ∈ roots, Inside r loc

theorem underRoot_iff {q : List PyStr} {root : List Comp} : underRoot q root = true ↔ root.map Comp.text <+: q :=
  List.isPrefixOf_iff_prefix

/-- With roots, what is returned is the resolved path, and it is written below a root. -/
theorem resolveLocalPath_ok_iff {env : ServerEnv} {roots : List (List Comp)} (hroots : allowedRoots h env = .ok (some roots))
    {path : PyStr} {forWrite : Bool} {q : List PyStr} :
    resolveLocalPath h env path forWrite = .ok q ↔
      (∃ p, (HostPath.ofText path).expanduser env = some p ∧ resolved h p = some q) ∧
        ∃ r ∈ roots, r.map Comp.text <+: q := by
  unfold resolveLocalPath
  rw [← Option.bind_eq_some_iff (x := (HostPath.ofText path).expanduser env) (f := resolved h)]
  cases ((HostPath.ofText path).expanduser env).bind (resolved h) with
  | none => simp
  | some q' =>
    dsimp only
    rw [hroots]
    dsimp only
    by_cases hany : roots.any (underRoot q') = true
    · rw [if_pos hany]
      obtain ⟨r, hr, hu⟩ := List.any_eq_true.1 hany
      constructor
      · intro hq
        cases hq
        exact ⟨rfl, r, hr, underRoot_iff.1 hu⟩
      · rintro ⟨hq, -⟩
        rw [Option.some.inj hq]
    · rw [if_neg hany]
      constructor
      · intro hq
        cases hq
      · rintro ⟨hq, r, hr, hu⟩
        cases hq
        exact absurd (List.any_eq_true.2 ⟨r, hr, underRoot_iff.2 hu⟩) hany

/-- **What exists is opened where it is.** -/
theorem confined_of_exists {p : HostPath} (hp : h.pathExists p = true) {roots : List (List Comp)} {forWrite : Bool}
    {q : List PyStr} (hq : resolved h p = some q) (hroot : ∃ r ∈ roots, r.map Comp.text <+: q) :
    Confined h roots forWrite q := by
  unfold resolved at hq
  rw [if_pos hp, Option.map_eq_some_iff] at hq
  obtain ⟨dir, hdir, rfl⟩ := hq
  obtain ⟨r, hr, hpre⟩ := hroot
  intro loc ho
  rw [opens_linkless (linkless_resolve hp hdir) ho]
  exact ⟨r, hr, inside_of_text hpre⟩

/-- A path that does not exist has a last part. -/
theorem getLast_of_missing {p : HostPath} (hp : h.pathExists p = false) : ∃ s, p.parts.getLast? = some s := by
  cases hl : p.parts.getLast? with
  | some s => exact ⟨s, rfl⟩
  | none =>
    rw [List.getLast?_eq_none_iff] at hl
    rw [Host.pathExists, hl, List.map_nil, Host.follow, Symlinks.walk_nil] at hp
    cases hp

theorem maxLinks_succ : maxLinks = maxLinks - 1 + 1 := rfl

theorem opens_first_link {d : List Comp} {c : Comp} {a : Bool} {t : List (Seg Comp)}
    (hd : Symlinks.Linkless Comp.name h.tree d) (hc : h.tree.entryAt ((d ++ [c]).map Comp.name) = some (.file (.link a t)))
    (rest : List Comp) (forWrite : Bool) :
    h.opens ((d ++ c :: rest).map Comp.text) forWrite =
      h.opened forWrite (h.follow (maxLinks - 1) (Symlinks.startOf a (d.map Comp.name)) (t ++ rest.map .enter)) := by
  have hw := Symlinks.walk_first_link (v := h.tree) (maxLinks - 1) hd hc (rest.map .enter)
  rw [← maxLinks_succ] at hw
  rw [Host.opens, map_segOf_text, List.map_append, List.map_cons, Host.follow, hw]
  rfl

/-- **A path within the roots is opened there, unless a link on it leads out.** -/
theorem confined_iff_leadsOut {roots : List (List Comp)} {forWrite : Bool} {q : List Comp}
    (hroot : ∃ r ∈ roots, r.map Comp.text <+: q.map Comp.text) :
    Confined h roots forWrite (q.map Comp.text) ↔ ¬LeadsOut h roots forWrite q := by
  constructor
  · rintro hc ⟨d, c, rest, a, t, loc, rfl, hd, hlink, hloc, hout⟩
    obtain ⟨r, hr, hin⟩ := hc loc ((opens_first_link hd hlink rest forWrite).trans hloc)
    exact hout r hr hin
  · intro hno loc hopen
    rcases @Symlinks.linkless_or _ _ _ _ Comp.name h.tree q with hq | ⟨d, c, rest, a, t, rfl, hd, hlink⟩
    · obtain ⟨r, hr, hpre⟩ := hroot
      rw [opens_linkless hq hopen]
      exact ⟨r, hr, inside_of_text hpre⟩
    · rw [opens_first_link hd hlink] at hopen
      by_contra hout
      exact hno ⟨d, c, rest, a, t, loc, rfl, hd, hlink, hopen, fun r hr hin => hout ⟨r, hr, hin⟩⟩

/-- No part of a path is empty. -/
theorem part_ne_nil {env : ServerEnv} {path : PyStr} {p : HostPath} (hp : (HostPath.ofText path).expanduser env = some p) :
    ∀ s ∈ p.parts, s ≠ [] := by
  have hparts : ∀ text, ∀ s ∈ pathParts text, s ≠ [] := fun text s hs => (of_decide_eq_true (List.mem_filter.1 hs).2).1
  unfold HostPath.expanduser at hp
  split at hp
  · cases hp
    exact hparts path
  · rename_i part rest hpath
    split at hp
    · obtain ⟨text, -, rfl⟩ := Option.map_eq_some_iff.1 hp
      intro s hs
      rcases List.mem_append.1 hs with hs | hs
      · exact hparts text s hs
      · exact hparts path s (by rw [show pathParts path = part :: rest from hpath]; exact List.mem_cons_of_mem _ hs)
    · cases hp
      exact hparts path

theorem resolved_missing {env : ServerEnv} {path : PyStr} {p : HostPath} (hp : (HostPath.ofText path).expanduser env = some p)
    (hmissing : h.pathExists p = false) {s : PyStr} (hlast : p.parts.getLast? = some s) :
    resolved h p = (h.resolve p.parent).map fun dir => dir.map Comp.text ++ [s] := by
  have hne : s ≠ [] := part_ne_nil hp s (List.mem_of_getLast? hlast)
  rw [resolved, if_neg (by rw [hmissing]; exact Bool.false_ne_true), HostPath.name, hlast, Option.getD_some]
  simp only [joinName, if_neg hne]

/-- **Where no link leads out, what is returned is confined.** -/
theorem confined_of_no_link {env : ServerEnv} {roots : List (List Comp)} (hroots : allowedRoots h env = .ok (some roots))
    {path : PyStr} {forWrite : Bool} (hno : ¬LinkLeadsOut h env roots path forWrite) {q : List PyStr}
    (hok : resolveLocalPath h env path forWrite = .ok q) : Confined h roots forWrite q := by
  obtain ⟨⟨p, hp, hq⟩, hroot⟩ := (resolveLocalPath_ok_iff hroots).1 hok
  by_cases hex : h.pathExists p = true
  · exact confined_of_exists hex hq hroot
  have hmissing : h.pathExists p = false := by simpa using hex
  obtain ⟨s, hlast⟩ := getLast_of_missing hmissing
  rw [resolved_missing hp hmissing hlast, Option.map_eq_some_iff] at hq
  obtain ⟨dir, hdir, rfl⟩ := hq
  by_cases hs : ∃ c, segOf s = .enter c
  · obtain ⟨c, hc⟩ := hs
    obtain rfl := text_of_segOf hc
    have hsnoc : dir.map Comp.text ++ [c.text] = (dir ++ [c]).map Comp.text := by simp
    rw [hsnoc] at hroot ⊢
    exact (confined_iff_leadsOut hroot).2 fun hout => hno ⟨p, dir, c, hp, hmissing, hlast, hdir, hroot, hout⟩
  · intro loc hopen
    rw [Host.opens, List.map_append, List.map_singleton] at hopen
    exact absurd (opened_last hopen) hs

/-- **Where a link leads out, what is returned is not confined.** -/
theorem unconfined_of_link {env : ServerEnv} {roots : List (List Comp)} (hroots : allowedRoots h env = .ok (some roots))
    {path : PyStr} {forWrite : Bool} (hlink : LinkLeadsOut h env roots path forWrite) :
    ∃ q, resolveLocalPath h env path forWrite = .ok q ∧ ¬Confined h roots forWrite q := by
  obtain ⟨p, dir, c, hp, hmissing, hlast, hdir, hroot, hout⟩ := hlink
  have hsnoc : dir.map Comp.text ++ [c.text] = (dir ++ [c]).map Comp.text := by simp
  have hq : resolved h p = some ((dir ++ [c]).map Comp.text) := by
    rw [resolved_missing hp hmissing hlast, hdir, Option.map_some, hsnoc]
  exact ⟨_, (resolveLocalPath_ok_iff hroots).2 ⟨⟨p, hp, hq⟩, hroot⟩, fun hc => (confined_iff_leadsOut hroot).1 hc hout⟩

/-- **What resolve_local_path returns opens no file outside the roots, unless the path does not exist and a link that resolving
its parent left, or its name, leads out.** -/
theorem confined_iff (h : Host) (env : ServerEnv) (path : PyStr) (forWrite : Bool) (roots : List (List Comp))
    (hroots : allowedRoots h env = .ok (some roots)) :
    (∀ q, resolveLocalPath h env path forWrite = .ok q → Confined h roots forWrite q) ↔
      ¬LinkLeadsOut h env roots path forWrite := by
  constructor
  · intro hall hlink
    obtain ⟨q, hok, hc⟩ := unconfined_of_link hroots hlink
    exact hc (hall q hok)
  · intro hno q hok
    exact confined_of_no_link hroots hno hok

/-! ## A link that leads out -/

theorem plain_letter : ∀ i : Fin 26, PlainName [UInt8.ofNat (97 + i.val)] := by decide

theorem encoded_letter : ∀ i : Fin 26, fsencode [cp (97 + i.val)] = some [UInt8.ofNat (97 + i.val)] := by decide +kernel

/-- A component of one letter. -/
def letter (i : Fin 26) : Comp := ⟨[cp (97 + i.val)], ⟨[UInt8.ofNat (97 + i.val)], plain_letter i⟩, encoded_letter i⟩

def plant (v : Volume Name (Leaf Comp Bytes)) (p : List Comp) (e : Entry (Leaf Comp Bytes)) :
    Volume Name (Leaf Comp Bytes) :=
  if hf : v.Free (p.map Comp.name) then v.put (p.map Comp.name) e hf else v

/-- The directories `/r` and `/o`, and the link `/r/l` to `/o/f`, which is not there. -/
def danglingTree : Volume Name (Leaf Comp Bytes) :=
  plant (plant (plant .empty [letter 17] .dir) [letter 14] .dir) [letter 17, letter 11]
    (.file (.link true [.enter (letter 14), .enter (letter 5)]))

def danglingHost : Host := ⟨danglingTree, [], Volume.entryAt_nil _, 8⟩

/-- The one root is `/r`. -/
def rootedEnv : ServerEnv := ⟨some (py "/r"), none, fun _ => none⟩

theorem dangling_roots : allowedRoots danglingHost rootedEnv = .ok (some [[letter 17]]) := by decide

theorem dangling_resolved :
    resolveLocalPath danglingHost rootedEnv (py "/r/l") true = .ok [py "r", py "l"] := by decide

theorem dangling_opens : danglingHost.opens [py "r", py "l"] true = some [(letter 14).name, (letter 5).name] := by
  decide

theorem dangling_outside : ¬Confined danglingHost [[letter 17]] true [py "r", py "l"] := by
  intro hc
  obtain ⟨r, hr, hin⟩ := hc _ dangling_opens
  rw [List.mem_singleton.1 hr] at hin
  exact absurd hin (by decide +kernel)

/-- **A write through a dangling link creates a file outside the roots.** -/
theorem dangling_link_escapes :
    ¬∀ (h : Host) (env : ServerEnv) (path : PyStr) (forWrite : Bool) (roots : List (List Comp)),
      allowedRoots h env = .ok (some roots) →
        ∀ q, resolveLocalPath h env path forWrite = .ok q → Confined h roots forWrite q :=
  fun hall => dangling_outside (hall _ _ _ _ _ dangling_roots _ dangling_resolved)

theorem confined_iff_dangling : LinkLeadsOut danglingHost rootedEnv [[letter 17]] (py "/r/l") true := by
  by_contra hno
  exact dangling_outside ((confined_iff danglingHost rootedEnv (py "/r/l") true _ dangling_roots).2 hno _ dangling_resolved)

/-- `/r/l` leads to the file `/o/f`, and `/o/p` to itself. -/
def loopingTree : Volume Name (Leaf Comp Bytes) :=
  plant (plant danglingTree [letter 14, letter 5] (.file (.file []))) [letter 14, letter 15]
    (.file (.link false [.enter (letter 15)]))

def loopingHost : Host := ⟨loopingTree, [], Volume.entryAt_nil _, 8⟩

/-- Behind the loop `/o/p` the path is collapsed as text, and the link `/r/l` is returned. -/
example : resolveLocalPath loopingHost rootedEnv (py "/o/p/../../r/l") false = .ok [py "r", py "l"] ∧
    loopingHost.opens [py "r", py "l"] false = some [(letter 14).name, (letter 5).name] := by decide +kernel

end Guards
end SwitchMcp

import SwitchMcp.PathForms
import SwitchMcp.Reports
import SwitchMcp.SaveCopy
/-!
# Find — the search for file names (agent/source/handlers/fs.cpp, `FsFind`)

`WalkFind` over a directory tree.  It stops at the limit and at the scan cap, which the reply tells, and at a depth and
at a directory that does not open, which it does not.  `find_complete_iff` says when a reply that tells of no cut has every
entry that matches, and `found_path_leads` that the path it reports for one leads there.
-/
namespace SwitchMcp
namespace Agent

open Json (Value ofMembers)

/-! ## The walk -/

def kMaxWalkDepth : Nat := 12

/-- `max_scan`. -/
def kMaxScan : Nat := 40000

structure FindArgs where
  needle : Bytes
  filesOnly : Bool
  limit : Nat

def findArgs (req : Request) : FindArgs where
  needle := lower ((req.get "name_contains").asString [])
  filesOnly := (req.get "files_only").asBool false
  limit :=
    let limit := ((req.get "limit").asInt 200).toInt32.toInt
    if limit < 1 ∨ 2000 < limit then 200 else limit.toNat

/-- An entry of `matches`; the size is that of a file. -/
structure Found where
  path : Bytes
  size : Option Nat
deriving DecidableEq

def Found.value (m : Found) : Value :=
  match m.size with
  | none => ofMembers [("path", .string m.path), ("type", .string (str "dir"))]
  | some n => ofMembers [("path", .string m.path), ("type", .string (str "file")), ("size", .int (Int64.ofNat n))]

/-- `FindCtx`; `found` counts what is in `out`. -/
structure FindCtx where
  scanned : Nat := 0
  out : List Found := []
deriving DecidableEq

/-- The limit or the scan cap is reached. -/
def FindArgs.Full (a : FindArgs) (ctx : FindCtx) : Prop := a.limit ≤ ctx.out.length ∨ kMaxScan ≤ ctx.scanned

instance (a : FindArgs) (ctx : FindCtx) : Decidable (a.Full ctx) := inferInstanceAs (Decidable (_ ∨ _))

/-- The path that is reported for a name. -/
def childLog (logical name : Bytes) : Bytes := if logical = str "/" then str "/" ++ name else logical ++ slash :: name

/-- An entry that is listed: its name has the needle, and it is no directory when files are asked for. -/
def FindArgs.Wants (a : FindArgs) (name : Bytes) (e : Entry Bytes) : Prop :=
  (a.needle = [] ∨ a.needle <:+: lower name) ∧ ¬(a.filesOnly = true ∧ e.isDir = true)

instance (a : FindArgs) (name : Bytes) (e : Entry Bytes) : Decidable (a.Wants name e) :=
  inferInstanceAs (Decidable ((_ ∨ _) ∧ ¬(_ ∧ _)))

def entrySize : Entry Bytes → Option Nat
  | .dir => none
  | .file content => some content.length

/-- What is listed of one entry. -/
def FindArgs.hit (a : FindArgs) (logical : Bytes) (name : Name) (e : Entry Bytes) : List Found :=
  if a.Wants name.val e then [⟨childLog logical name.val, entrySize e⟩] else []

/-- The loop over a directory's entries; `sub` is `WalkFind` for the directories among them. -/
def walkEntries (tree : FileTree) (a : FindArgs) (sub : Bytes → Bytes → FindCtx → FindCtx) (devDir logical : Bytes) :
    List Name → FindCtx → FindCtx
  | [], ctx => ctx
  | name :: names, ctx =>
    if a.Full ctx then ctx
    else if isDots name.val then walkEntries tree a sub devDir logical names ctx
    else
      match tree.entryAt (place (devDir ++ slash :: name.val)) with
      | none => walkEntries tree a sub devDir logical names { ctx with scanned := ctx.scanned + 1 }
      | some e =>
        let ctx := { ctx with scanned := ctx.scanned + 1, out := ctx.out ++ a.hit logical name e }
        let ctx := if e.isDir then sub (devDir ++ slash :: name.val) (childLog logical name.val) ctx else ctx
        walkEntries tree a sub devDir logical names ctx

/-- `WalkFind`, with so many levels left; `opens` says which directories open. -/
def walkFind (tree : FileTree) (opens : Bytes → Bool) (a : FindArgs) : Nat → Bytes → Bytes → FindCtx → FindCtx
  | 0, _, _, ctx => ctx
  | n + 1, devDir, logical, ctx =>
    if a.Full ctx then ctx
    else if opens (cStr devDir) = true ∧ tree.entryAt (place devDir) = some .dir then
      walkEntries tree a (walkFind tree opens a n) devDir logical (tree.names (place devDir)) ctx
    else ctx

/-- What `FsFind` asks for: the arguments, the path and the directory it is resolved to. -/
def findRun (tree : FileTree) (opens : Bytes → Bool) (req : Request) (dev : Bytes) : FindCtx :=
  walkFind tree opens (findArgs req) (kMaxWalkDepth + 1) dev ((req.get "path").asString (str "/")) {}

def findReply (a : FindArgs) (ctx : FindCtx) : Reply :=
  .ofMembers ([("scanned", .int (Int64.ofNat ctx.scanned)), ("count", .int (Int64.ofNat ctx.out.length))] ++
    (if a.limit ≤ ctx.out.length then [("truncated_by_limit", .bool true)] else []) ++
    (if kMaxScan ≤ ctx.scanned then [("truncated_by_scan_cap", .bool true)] else []) ++
    [("matches", .array (ctx.out.map Found.value))])

/-- `FsFind` on a device with this tree. -/
def fsFind (saveMounted : Bool) (tree : FileTree) (opens : Bytes → Bool) (req : Request) : Reply :=
  replyWith (fsFindPath saveMounted req) fun p => findReply (findArgs req) (findRun tree opens req p.dev)

/-! ## What there is within reach -/

/-- What the walk lists when nothing stops it. -/
def listing (tree : FileTree) (opens : Bytes → Bool) (a : FindArgs) : Nat → Bytes → Bytes → List Found
  | 0, _, _ => []
  | n + 1, devDir, logical =>
    if opens (cStr devDir) = true ∧ tree.entryAt (place devDir) = some .dir then
      (tree.names (place devDir)).flatMap fun name =>
        match tree.entryAt (place (devDir ++ slash :: name.val)) with
        | none => []
        | some e => a.hit logical name e ++
          if e.isDir then listing tree opens a n (devDir ++ slash :: name.val) (childLog logical name.val) else []
    else []

/-- What a part of the walk adds: the start of a list, and all of it when it is not stopped. -/
structure Adds (a : FindArgs) (ctx ctx' : FindCtx) (l : List Found) : Prop where
  new : ∃ new, ctx'.out = ctx.out ++ new ∧ new <+: l ∧ (¬a.Full ctx' → new = l)
  scanned : ctx.scanned ≤ ctx'.scanned

theorem Adds.full {a : FindArgs} {ctx ctx' : FindCtx} {l : List Found} (h : Adds a ctx ctx' l) (hf : a.Full ctx) :
    a.Full ctx' := by
  obtain ⟨new, hnew, -⟩ := h.new
  refine hf.imp (fun hl => hl.trans ?_) (fun hs => hs.trans h.scanned)
  rw [hnew, List.length_append]
  omega

theorem Adds.refl (a : FindArgs) (ctx : FindCtx) : Adds a ctx ctx [] where
  new := ⟨[], (List.append_nil _).symm, List.nil_prefix, fun _ => rfl⟩
  scanned := le_rfl

/-- A full context is left as it is. -/
theorem Adds.stopped {a : FindArgs} {ctx : FindCtx} (hf : a.Full ctx) (l : List Found) : Adds a ctx ctx l where
  new := ⟨[], (List.append_nil _).symm, List.nil_prefix, fun h => absurd hf h⟩
  scanned := le_rfl

theorem Adds.trans {a : FindArgs} {ctx ctx1 ctx2 : FindCtx} {l l' : List Found} (h : Adds a ctx ctx1 l)
    (h' : Adds a ctx1 ctx2 l') (hstays : a.Full ctx1 → ctx2 = ctx1) : Adds a ctx ctx2 (l ++ l') := by
  obtain ⟨new, hnew, hpre, hall⟩ := h.new
  by_cases hf : a.Full ctx1
  · rw [hstays hf]
    exact ⟨⟨new, hnew, hpre.trans (List.prefix_append l l'), fun hn => absurd hf hn⟩, h.scanned⟩
  · obtain ⟨new', hnew', hpre', hall'⟩ := h'.new
    have hl : new = l := hall hf
    subst hl
    refine ⟨⟨new ++ new', by rw [hnew', hnew, List.append_assoc], (List.prefix_append_right_inj new).2 hpre', fun hn => ?_⟩,
      h.scanned.trans h'.scanned⟩
    rw [hall' hn]

section
variable {tree : FileTree} {opens : Bytes → Bool} {a : FindArgs}

theorem walkEntries_full {sub : Bytes → Bytes → FindCtx → FindCtx} {devDir logical : Bytes} {ctx : FindCtx}
    (hf : a.Full ctx) : ∀ names, walkEntries tree a sub devDir logical names ctx = ctx
  | [] => rfl
  | _ :: _ => by rw [walkEntries, if_pos hf]

theorem walkFind_full {n : Nat} {devDir logical : Bytes} {ctx : FindCtx} (hf : a.Full ctx) :
    walkFind tree opens a n devDir logical ctx = ctx := by
  cases n with
  | zero => rfl
  | succ n => rw [walkFind, if_pos hf]

/-- **A directory's entries add what is listed of them, one after the other.** -/
theorem walkEntries_adds {sub : Bytes → Bytes → FindCtx → FindCtx} {list : Bytes → Bytes → List Found}
    (hfull : ∀ d l ctx, a.Full ctx → sub d l ctx = ctx) (hsub : ∀ d l ctx, Adds a ctx (sub d l ctx) (list d l))
    (devDir logical : Bytes) : ∀ (names : List Name) (ctx : FindCtx),
      Adds a ctx (walkEntries tree a sub devDir logical names ctx) (names.flatMap fun name =>
        match tree.entryAt (place (devDir ++ slash :: name.val)) with
        | none => []
        | some e => a.hit logical name e ++ if e.isDir then list (devDir ++ slash :: name.val) (childLog logical name.val) else [])
  | [], ctx => Adds.refl a ctx
  | name :: names, ctx => by
    rw [walkEntries, List.flatMap_cons]
    by_cases hf : a.Full ctx
    · rw [if_pos hf]
      exact .stopped hf _
    rw [if_neg hf, if_neg (by rw [isDots_name]; exact Bool.false_ne_true)]
    cases he : tree.entryAt (place (devDir ++ slash :: name.val)) with
    | none =>
      refine Adds.trans ⟨⟨[], ?_, List.nil_prefix, fun _ => rfl⟩, Nat.le_succ _⟩
        (walkEntries_adds hfull hsub devDir logical names _) fun hf => walkEntries_full hf names
      exact (List.append_nil _).symm
    | some e =>
      dsimp only
      have hhit : Adds a ctx { scanned := ctx.scanned + 1, out := ctx.out ++ a.hit logical name e }
          (a.hit logical name e) := ⟨⟨_, rfl, List.prefix_rfl, fun _ => rfl⟩, Nat.le_succ _⟩
      refine Adds.trans ?_ (walkEntries_adds hfull hsub devDir logical names _) fun hf => walkEntries_full hf names
      by_cases hd : e.isDir = true
      · rw [if_pos hd, if_pos hd]
        exact hhit.trans (hsub _ _ _) fun hf => hfull _ _ _ hf
      · rw [if_neg hd, if_neg hd, List.append_nil]
        exact hhit

/-- **The walk adds what is within reach.** -/
theorem walkFind_adds : ∀ (n : Nat) (devDir logical : Bytes) (ctx : FindCtx),
    Adds a ctx (walkFind tree opens a n devDir logical ctx) (listing tree opens a n devDir logical)
  | 0, _, _, ctx => Adds.refl a ctx
  | n + 1, devDir, logical, ctx => by
    rw [walkFind, listing]
    by_cases hf : a.Full ctx
    · rw [if_pos hf]
      exact .stopped hf _
    rw [if_neg hf]
    by_cases ho : opens (cStr devDir) = true ∧ tree.entryAt (place devDir) = some .dir
    · rw [if_pos ho, if_pos ho]
      exact walkEntries_adds (fun _ _ _ h => walkFind_full h) (walkFind_adds n) devDir logical _ ctx
    · rw [if_neg ho, if_neg ho]
      exact Adds.refl a ctx

end

/-! ## Chains of names -/

/-- The path that is reported for a chain of names below a path. -/
def reported (logical : Bytes) (r : List Name) : Bytes := r.foldl (fun l n => childLog l n.val) logical

/-- The path by which a directory is opened. -/
def devOf (dev : Bytes) (r : List Name) : Bytes := r.foldl (fun d n => d ++ slash :: n.val) dev

theorem segments_childLog (l : Bytes) (n : Name) : segments (childLog l n.val) = segments l ++ [n.val] := by
  unfold childLog
  split
  · rename_i h
    have hroot : str "/" ++ n.val = [] ++ slash :: n.val := rfl
    rw [h, hroot, segments_snoc]
    rfl
  · exact segments_snoc l n

theorem segments_reported (l : Bytes) (r : List Name) : segments (reported l r) = segments l ++ r.map Subtype.val := by
  induction r generalizing l with
  | nil => exact (List.append_nil _).symm
  | cons n r ih =>
    have hcons : reported l (n :: r) = reported (childLog l n.val) r := rfl
    rw [hcons, ih, segments_childLog, List.map_cons, List.append_assoc]
    rfl

/-- Different chains are reported differently. -/
theorem reported_inj {l : Bytes} {r r' : List Name} (h : reported l r = reported l r') : r = r' := by
  have hs := congrArg segments h
  rw [segments_reported, segments_reported, List.append_cancel_left_eq] at hs
  exact List.map_injective_iff.2 Subtype.val_injective hs

section
variable {tree : FileTree} {opens : Bytes → Bool} {a : FindArgs}

/-- Every directory on the way opens. -/
def Opens (opens : Bytes → Bool) (dev : Bytes) (r : List Name) : Prop := ∀ r1 r2, r = r1 ++ r2 → opens (devOf dev r1) = true

theorem opens_nil {dev : Bytes} : Opens opens dev [] ↔ opens dev = true := by
  constructor
  · intro h
    exact h [] [] rfl
  · intro h r1 r2 hr
    rw [(List.append_eq_nil_iff.1 hr.symm).1]
    exact h

theorem opens_cons {dev : Bytes} {n : Name} {r : List Name} :
    Opens opens dev (n :: r) ↔ opens dev = true ∧ Opens opens (dev ++ slash :: n.val) r := by
  constructor
  · intro h
    refine ⟨h [] (n :: r) rfl, fun r1 r2 hr => h (n :: r1) r2 ?_⟩
    rw [hr]
    rfl
  · rintro ⟨h, h'⟩ r1 r2 hr
    cases r1 with
    | nil => exact h
    | cons m r1 =>
      rw [List.cons_append, List.cons.injEq] at hr
      obtain ⟨rfl, hr⟩ := hr
      exact h' r1 r2 hr

/-- An entry that is listed, below the directories `r`. -/
def Hit (tree : FileTree) (a : FindArgs) (p : List Name) (logical : Bytes) (r : List Name) (last : Name) (m : Found) : Prop :=
  ∃ e, tree.entryAt (p ++ r ++ [last]) = some e ∧ a.Wants last.val e ∧ m = ⟨reported logical (r ++ [last]), entrySize e⟩

theorem mem_hit {p : List Name} {logical : Bytes} {name : Name} {e : Entry Bytes} {m : Found}
    (he : tree.entryAt (p ++ [name]) = some e) : m ∈ a.hit logical name e ↔ Hit tree a p logical [] name m := by
  unfold FindArgs.hit Hit
  rw [List.append_nil, he]
  by_cases hw : a.Wants name.val e
  · rw [if_pos hw, List.mem_singleton]
    exact ⟨fun h => ⟨e, rfl, hw, h⟩, fun ⟨e', he', _, h⟩ => by cases he'; exact h⟩
  · rw [if_neg hw]
    exact ⟨fun h => (nomatch h), fun ⟨e', he', hw', _⟩ => by cases he'; exact absurd hw' hw⟩

/-- **What is within reach**: the entries that are wanted, below so many directories that all open. -/
theorem mem_listing : ∀ (n : Nat) {devDir : Bytes} (logical : Bytes) {m : Found}, 0 ∉ devDir →
    (m ∈ listing tree opens a n devDir logical ↔
      ∃ r last, r.length < n ∧ Opens opens devDir r ∧ Hit tree a (place devDir) logical r last m)
  | 0, _, _, _, _ => by simp [listing]
  | n + 1, devDir, logical, m, h0 => by
    rw [listing, cStr_of_no_nul _ h0]
    constructor
    · intro hm
      by_cases ho : opens devDir = true ∧ tree.entryAt (place devDir) = some .dir
      · rw [if_pos ho] at hm
        obtain ⟨name, -, hm⟩ := List.mem_flatMap.1 hm
        obtain ⟨hn0, hplace⟩ := place_child h0 name
        rw [hplace] at hm
        cases he : tree.entryAt (place devDir ++ [name]) with
        | none =>
          rw [he] at hm
          cases hm
        | some e =>
          rw [he] at hm
          rcases List.mem_append.1 hm with hm | hm
          · exact ⟨[], name, Nat.succ_pos n, opens_nil.2 ho.1, (mem_hit he).1 hm⟩
          · by_cases hd : e.isDir = true
            · rw [if_pos hd] at hm
              obtain ⟨r, last, hr, hopen, e', he', hw, rfl⟩ := (mem_listing n _ hn0).1 hm
              rw [hplace] at he'
              refine ⟨name :: r, last, Nat.succ_lt_succ hr, opens_cons.2 ⟨ho.1, hopen⟩, e', ?_, hw, rfl⟩
              rw [← he']
              simp
            · rw [if_neg hd] at hm
              cases hm
      · rw [if_neg ho] at hm
        cases hm
    · rintro ⟨r, last, hr, hopen, e, he, hw, rfl⟩
      have hdir : tree.entryAt (place devDir) = some .dir := by
        rw [List.append_assoc] at he
        exact Volume.at_ancestor he (by simp)
      cases r with
      | nil =>
        rw [if_pos ⟨opens_nil.1 hopen, hdir⟩, List.mem_flatMap]
        rw [List.append_nil] at he
        refine ⟨last, Volume.mem_names.2 (by rw [he]; rfl), ?_⟩
        rw [(place_child h0 last).2, he, List.mem_append]
        exact Or.inl ((mem_hit he).2 ⟨e, by rwa [List.append_nil], hw, rfl⟩)
      | cons name r =>
        obtain ⟨hopen1, hopen⟩ := opens_cons.1 hopen
        obtain ⟨hn0, hplace⟩ := place_child h0 name
        have hsub : tree.entryAt (place devDir ++ [name] ++ r ++ [last]) = some e := by
          rw [← he]
          simp
        have hname : tree.entryAt (place devDir ++ [name]) = some .dir := by
          rw [List.append_assoc] at hsub
          exact Volume.at_ancestor hsub (by simp)
        rw [if_pos ⟨hopen1, hdir⟩, List.mem_flatMap]
        refine ⟨name, Volume.mem_names.2 (by rw [hname]; rfl), ?_⟩
        rw [hplace, hname, List.mem_append]
        right
        refine (mem_listing n (childLog logical name.val) hn0).2 ⟨r, last, Nat.lt_of_succ_lt_succ hr, hopen, e, ?_, hw, rfl⟩
        rw [hplace]
        exact hsub

theorem nodup_hit (logical : Bytes) (name : Name) (e : Entry Bytes) : ((a.hit logical name e).map Found.path).Nodup := by
  unfold FindArgs.hit
  split
  · exact List.nodup_singleton _
  · exact List.nodup_nil

/-- **Nothing is listed twice.** -/
theorem nodup_listing : ∀ (n : Nat) {devDir : Bytes} (logical : Bytes), 0 ∉ devDir →
    ((listing tree opens a n devDir logical).map Found.path).Nodup
  | 0, _, _, _ => List.nodup_nil
  | n + 1, devDir, logical, h0 => by
    rw [listing]
    split
    · -- What is listed for a name starts with it.
      have hpiece : ∀ (name : Name) (path : Bytes), path ∈ (match tree.entryAt (place (devDir ++ slash :: name.val)) with
          | none => []
          | some e => a.hit logical name e ++ if e.isDir then
              listing tree opens a n (devDir ++ slash :: name.val) (childLog logical name.val) else []).map Found.path →
          ∃ r, path = reported logical (name :: r) := by
        intro name path hp
        obtain ⟨m, hm, rfl⟩ := List.mem_map.1 hp
        obtain ⟨hn0, hplace⟩ := place_child h0 name
        rw [hplace] at hm
        cases he : tree.entryAt (place devDir ++ [name]) with
        | none =>
          rw [he] at hm
          cases hm
        | some e =>
          rw [he] at hm
          rcases List.mem_append.1 hm with hm | hm
          · obtain ⟨-, -, -, rfl⟩ := (mem_hit he).1 hm
            exact ⟨[], rfl⟩
          · split at hm
            · obtain ⟨r, last, -, -, -, -, -, rfl⟩ := (mem_listing n _ hn0).1 hm
              exact ⟨r ++ [last], rfl⟩
            · cases hm
      rw [List.map_flatMap, List.nodup_flatMap]
      refine ⟨fun name _ => ?_, (Volume.nodup_names tree _).imp fun {x y} hxy path hx hy => ?_⟩
      · obtain ⟨hn0, hplace⟩ := place_child h0 name
        cases tree.entryAt (place (devDir ++ slash :: name.val)) with
        | none => exact List.nodup_nil
        | some e =>
          rw [List.map_append, List.nodup_append']
          refine ⟨nodup_hit _ _ _, ?_, fun path hx hy => ?_⟩
          · split
            · exact nodup_listing n _ hn0
            · exact List.nodup_nil
          · obtain ⟨m, hm, rfl⟩ := List.mem_map.1 hx
            obtain ⟨m', hm', hpath⟩ := List.mem_map.1 hy
            unfold FindArgs.hit at hm
            split at hm
            · split at hm'
              · obtain ⟨r, last, -, -, e', -, -, he'⟩ := (mem_listing n _ hn0).1 hm'
                rw [he', List.mem_singleton.1 hm] at hpath
                have hnil : name :: (r ++ [last]) = [name] := reported_inj hpath
                simp at hnil
              · cases hm'
            · cases hm
      · obtain ⟨r, rfl⟩ := hpiece x path hx
        obtain ⟨r', hr'⟩ := hpiece y _ hy
        exact hxy (List.cons.inj (reported_inj hr')).1
    · exact List.nodup_nil

end

/-! ## What the reply says -/

/-- The paths of a reply's matches. -/
def matchPaths (r : Reply) : List Bytes :=
  match r.json.get (str "matches") with
  | .array l => l.map fun m => (m.get (str "path")).asString []
  | _ => []

theorem path_value (m : Found) : (m.value.get (str "path")).asString [] = m.path := by
  have h1 : str "type" ≠ str "path" := by decide
  have h2 : str "size" ≠ str "path" := by decide
  unfold Found.value
  cases m.size <;> simp [ofMembers, h1, h2, Value.asString]

/-- The members of the reply. -/
theorem findReply_members (a : FindArgs) (ctx : FindCtx) :
    matchPaths (findReply a ctx) = ctx.out.map Found.path ∧
    (findReply a ctx).json.get (str "count") = .int (Int64.ofNat ctx.out.length) ∧
    ((findReply a ctx).json.has (str "truncated_by_limit") = false ∧
      (findReply a ctx).json.has (str "truncated_by_scan_cap") = false ↔ ¬a.Full ctx) := by
  have hcm : str "matches" ≠ str "count" := by decide
  have hlc : str "truncated_by_limit" ≠ str "count" := by decide
  have hdc : str "truncated_by_scan_cap" ≠ str "count" := by decide
  have hsl : str "scanned" ≠ str "truncated_by_limit" := by decide
  have hcl : str "count" ≠ str "truncated_by_limit" := by decide
  have hdl : str "truncated_by_scan_cap" ≠ str "truncated_by_limit" := by decide
  have hml : str "matches" ≠ str "truncated_by_limit" := by decide
  have hsd : str "scanned" ≠ str "truncated_by_scan_cap" := by decide
  have hcd : str "count" ≠ str "truncated_by_scan_cap" := by decide
  have hmd : str "matches" ≠ str "truncated_by_scan_cap" := by decide
  have hempty : ∀ k, (Value.object []).has k = false := fun _ => rfl
  unfold findReply matchPaths Reply.ofMembers ofMembers FindArgs.Full
  by_cases h1 : a.limit ≤ ctx.out.length <;> by_cases h2 : kMaxScan ≤ ctx.scanned <;>
    simp [h1, h2, path_value, hcm, hlc, hdc, hsl, hcl, hdl, hml, hsd, hcd, hmd, hdl.symm, hempty]

/-! ## What is found -/

/-- How a device is resolved: a name before what the path is normalized to. -/
theorem resolveDevicePath_form {saveMounted w : Bool} {device p dev : Bytes}
    (h : resolveDevicePath saveMounted device p = some (dev, w)) : ∃ pre norm, slash ∉ pre ∧ 0 ∉ pre ∧
      normalizePath p = some norm ∧ dev = pre ++ norm ∧
      ∀ q norm', normalizePath q = some norm' → resolveDevicePath saveMounted device q = some (pre ++ norm', w) := by
  unfold resolveDevicePath at h ⊢
  cases hn : normalizePath p with
  | none =>
    rw [hn] at h
    cases h
  | some norm =>
    rw [hn] at h
    dsimp only at h
    by_cases hsd : device = [] ∨ device = str "sd" ∨ device = str "sdmc"
    · rw [if_pos hsd] at h
      cases h
      refine ⟨str "sdmc:", norm, by decide, by decide, rfl, rfl, fun q norm' hq => ?_⟩
      rw [hq]
      dsimp only
      rw [if_pos hsd]
    · rw [if_neg hsd] at h
      by_cases hs : device = str "save"
      · rw [if_pos hs] at h
        cases hm : saveMounted with
        | false =>
          rw [hm] at h
          cases h
        | true =>
          rw [hm, if_pos rfl] at h
          cases h
          refine ⟨kSaveMountName ++ [ch ':'], norm, by decide, by decide, rfl, by simp, fun q norm' hq => ?_⟩
          rw [hq]
          dsimp only
          rw [if_neg hsd, if_pos hs, if_pos rfl, List.append_assoc]
          rfl
      · rw [if_neg hs] at h
        cases h

/-- The device of a request. -/
def findDevice (req : Request) : Bytes := (req.get "device").asString (str "sd")

theorem fsFindPath_ok {saveMounted : Bool} {req : Request} {p : Resolved} (h : fsFindPath saveMounted req = .ok p) :
    p.raw = (req.get "path").asString (str "/") ∧
      ∃ w, resolveDevicePath saveMounted (findDevice req) p.raw = some (p.dev, w) := by
  unfold fsFindPath readable at h
  split at h
  · rename_i dev w hr
    cases h
    exact ⟨rfl, w, hr⟩
  · cases h

theorem no_nul_dev {saveMounted w : Bool} {device p dev : Bytes}
    (h : resolveDevicePath saveMounted device p = some (dev, w)) (h0 : 0 ∉ p) : 0 ∉ dev := by
  obtain ⟨pre, norm, -, hpre, hn, rfl, -⟩ := resolveDevicePath_form h
  rw [List.mem_append, nul_mem_normalizePath hn]
  exact fun hm => hm.elim hpre h0

/-- The matches of a reply are the entries below a directory that are asked for, each once, and counted. -/
def Finds (tree : FileTree) (a : FindArgs) (p : Resolved) (r : Reply) : Prop :=
  (matchPaths r).Nodup ∧ r.json.get (str "count") = .int (Int64.ofNat (matchPaths r).length) ∧
    ∀ path, path ∈ matchPaths r ↔ ∃ dirs last e, path = reported p.raw (dirs ++ [last]) ∧
      tree.entryAt (place p.dev ++ dirs ++ [last]) = some e ∧ a.Wants last.val e

/-- An entry below these directories is within reach of the walk. -/
def Reached (opens : Bytes → Bool) (dev : Bytes) (dirs : List Name) : Prop :=
  dirs.length ≤ kMaxWalkDepth ∧ Opens opens dev dirs

/-- **A reply that tells of no cut has every entry that matches, exactly when each of them is below at most twelve
directories, and all of these open.** -/
theorem find_complete_iff (saveMounted : Bool) (tree : FileTree) (opens : Bytes → Bool) {req : Request} {p : Resolved}
    (hp : fsFindPath saveMounted req = .ok p) (h0 : 0 ∉ p.raw)
    (hlimit : (fsFind saveMounted tree opens req).json.has (str "truncated_by_limit") = false)
    (hcap : (fsFind saveMounted tree opens req).json.has (str "truncated_by_scan_cap") = false) :
    Finds tree (findArgs req) p (fsFind saveMounted tree opens req) ↔
      ∀ dirs last e, tree.entryAt (place p.dev ++ dirs ++ [last]) = some e → (findArgs req).Wants last.val e →
        Reached opens p.dev dirs := by
  obtain ⟨hraw, w, hdev⟩ := fsFindPath_ok hp
  have hdev0 : 0 ∉ p.dev := no_nul_dev hdev h0
  have hreply : fsFind saveMounted tree opens req = findReply (findArgs req) (findRun tree opens req p.dev) := by
    rw [fsFind, hp]
    rfl
  rw [hreply] at hlimit hcap ⊢
  obtain ⟨hpaths, hcount, hflags⟩ := findReply_members (findArgs req) (findRun tree opens req p.dev)
  have hout : (findRun tree opens req p.dev).out =
      listing tree opens (findArgs req) (kMaxWalkDepth + 1) p.dev p.raw := by
    obtain ⟨new, hnew, -, hall⟩ :=
      (@walkFind_adds tree opens (findArgs req) (kMaxWalkDepth + 1) p.dev p.raw {}).new
    rw [findRun, ← hraw, hnew, hall ?_, List.nil_append]
    rw [hraw]
    exact hflags.1 ⟨hlimit, hcap⟩
  have hmem : ∀ path, path ∈ matchPaths (findReply (findArgs req) (findRun tree opens req p.dev)) ↔
      ∃ dirs last e, Reached opens p.dev dirs ∧ path = reported p.raw (dirs ++ [last]) ∧
        tree.entryAt (place p.dev ++ dirs ++ [last]) = some e ∧ (findArgs req).Wants last.val e := by
    intro path
    rw [hpaths, hout, List.mem_map]
    constructor
    · rintro ⟨m, hm, rfl⟩
      obtain ⟨dirs, last, hlen, hopen, e, he, hw, rfl⟩ := (mem_listing _ p.raw hdev0).1 hm
      exact ⟨dirs, last, e, ⟨Nat.le_of_lt_succ hlen, hopen⟩, rfl, he, hw⟩
    · rintro ⟨dirs, last, e, ⟨hlen, hopen⟩, rfl, he, hw⟩
      exact ⟨_, (mem_listing _ p.raw hdev0).2 ⟨dirs, last, Nat.lt_succ_of_le hlen, hopen, e, he, hw, rfl⟩, rfl⟩
  constructor
  · intro h dirs last e he hw
    obtain ⟨dirs', last', e', hr, hpath, -, -⟩ := (hmem _).1 ((h.2.2 _).2 ⟨dirs, last, e, rfl, he, hw⟩)
    rw [(List.append_inj' (reported_inj hpath) rfl).1]
    exact hr
  · intro h
    refine ⟨?_, by rw [hcount, hpaths, List.length_map], fun path => (hmem path).trans ?_⟩
    · rw [hpaths, hout]
      exact nodup_listing _ p.raw hdev0
    · constructor
      · rintro ⟨dirs, last, e, -, hrest⟩
        exact ⟨dirs, last, e, hrest⟩
      · rintro ⟨dirs, last, e, hpath, he, hw⟩
        exact ⟨dirs, last, e, h dirs last e he hw, hpath, he, hw⟩

/-! ## Small trees -/

theorem plainName_a : PlainName (str "a") := by decide

def nameA : Name := ⟨str "a", plainName_a⟩

/-- A file at the root. -/
def smallCard : FileTree := (writeFile .empty (str "sdmc:/a") []).getD .empty

/-- Everything below the root is asked for. -/
def findAll : Request := ⟨.object [], []⟩

theorem findAll_path : fsFindPath false findAll = .ok ⟨str "/", str "sdmc:/"⟩ := by
  have hr : resolveDevicePath false ((findAll.get "device").asString (str "sd")) ((findAll.get "path").asString (str "/")) =
      some (str "sdmc:/", true) := by decide
  rw [fsFindPath, readable, hr]
  rfl

theorem oneFile_eq {q : List Name} {e : Entry Bytes} (h : smallCard.entryAt q = some e) : q = [] ∨ q = [nameA] := by
  have hfree : (Volume.empty : FileTree).Free (place (str "sdmc:/a")) := by decide
  have hplace : place (str "sdmc:/a") = [nameA] := by decide
  rw [smallCard, writeFile, dif_pos hfree, Option.getD_some, Volume.entryAt_put, hplace] at h
  by_cases hq : q = [nameA]
  · exact Or.inr hq
  · rw [if_neg hq] at h
    by_cases hnil : q = []
    · exact Or.inl hnil
    · rw [Volume.entryAt_of_ne _ hnil] at h
      cases h

/-- The reply has it. -/
theorem find_complete_iff_one :
    Finds smallCard (findArgs findAll) ⟨str "/", str "sdmc:/"⟩ (fsFind false smallCard (fun _ => true) findAll) := by
  refine (find_complete_iff false smallCard (fun _ => true) findAll_path (by decide) (by decide +kernel)
    (by decide +kernel)).2 fun dirs last e he _ => ?_
  have hplace : place (str "sdmc:/") = [] := by decide +kernel
  rw [hplace, List.nil_append] at he
  rcases oneFile_eq he with h | h
  · simp at h
  · have hd : dirs = [] := (List.append_inj' (show dirs ++ [last] = [] ++ _ from h) rfl).1
    rw [hd]
    exact ⟨Nat.zero_le _, fun _ _ _ => rfl⟩

/-- Directories one below the other, and a file in the last. -/
def nested (n : Nat) : FileTree :=
  let dirs := (List.range n).foldl (fun v i => mkdir v (devOf (str "sdmc:") (List.replicate (i + 1) nameA))) Volume.empty
  (writeFile dirs (devOf (str "sdmc:") (List.replicate (n + 1) nameA)) []).getD dirs

/-- **A file below thirteen directories is left out, and no flag tells.** -/
theorem deep_file_left_out :
    (fsFind false (nested 13) (fun _ => true) findAll).json.has (str "truncated_by_limit") = false ∧
    (fsFind false (nested 13) (fun _ => true) findAll).json.has (str "truncated_by_scan_cap") = false ∧
    ¬Finds (nested 13) (findArgs findAll) ⟨str "/", str "sdmc:/"⟩ (fsFind false (nested 13) (fun _ => true) findAll) := by
  refine ⟨by decide +kernel, by decide +kernel, fun h => ?_⟩
  have hentry : (nested 13).entryAt (place (str "sdmc:/") ++ List.replicate 13 nameA ++ [nameA]) = some (.file []) := by
    decide +kernel
  have hlisted := (h.2.2 _).2 ⟨List.replicate 13 nameA, nameA, .file [], rfl, hentry, by decide⟩
  exact absurd hlisted (by decide +kernel)

/-! ## Where a path leads -/

theorem intercalate_snoc (sep : Bytes) (x : Bytes) : ∀ (s : Bytes) (l : List Bytes),
    sep.intercalate (s :: l ++ [x]) = sep.intercalate (s :: l) ++ (sep ++ x)
  | s, [] => by
    rw [List.cons_append, List.nil_append, List.intercalate_cons_cons, List.intercalate_singleton, List.intercalate_singleton,
      List.append_assoc]
  | s, t :: l => by
    rw [List.cons_append, List.cons_append, List.intercalate_cons_cons, ← List.cons_append, intercalate_snoc sep x t l,
      List.intercalate_cons_cons]
    simp

theorem childLog_pathOf {segs : List Bytes} (h : ∀ seg ∈ segs, seg ≠ []) (n : Name) :
    childLog (pathOf segs) n.val = pathOf (segs ++ [n.val]) := by
  unfold childLog
  cases segs with
  | nil =>
    rw [if_pos (show pathOf [] = str "/" from rfl), List.nil_append, pathOf, List.intercalate_singleton]
    rfl
  | cons s segs =>
    have hne : pathOf (s :: segs) ≠ str "/" := by
      intro he
      rw [pathOf, show str "/" = slash :: [] from rfl, List.cons.injEq] at he
      have hs := h s List.mem_cons_self
      cases segs with
      | nil =>
        rw [List.intercalate_singleton] at he
        exact hs he.2
      | cons t segs =>
        rw [List.intercalate_cons_cons] at he
        exact hs (List.append_eq_nil_iff.1 (List.append_eq_nil_iff.1 he.2).1).1
    rw [if_neg hne, pathOf, pathOf, intercalate_snoc]
    rfl

theorem reported_pathOf {segs : List Bytes} (h : ∀ seg ∈ segs, seg ≠ []) (r : List Name) :
    reported (pathOf segs) r = pathOf (segs ++ r.map Subtype.val) := by
  induction r generalizing segs with
  | nil => rw [List.map_nil, List.append_nil]; rfl
  | cons n r ih =>
    have hcons : reported (pathOf segs) (n :: r) = reported (childLog (pathOf segs) n.val) r := rfl
    have hall : ∀ seg ∈ segs ++ [n.val], seg ≠ [] := by
      intro seg hs
      rcases List.mem_append.1 hs with hs | hs
      · exact h seg hs
      · rw [List.mem_singleton.1 hs]
        exact n.2.1
    rw [hcons, childLog_pathOf h, ih hall, List.map_cons, List.append_assoc]
    rfl

theorem accepted_reported {l : Bytes} (h : l.head? = some slash ∧ str ".." ∉ l.splitOn slash) (r : List Name) :
    (reported l r).head? = some slash ∧ str ".." ∉ (reported l r).splitOn slash := by
  induction r generalizing l with
  | nil => exact h
  | cons n r ih =>
    refine ih (l := childLog l n.val) ?_
    unfold childLog
    split
    · exact ⟨rfl, dotdot_snoc (p := []) (by decide) n⟩
    · exact ⟨by rw [List.head?_append, h.1]; rfl, dotdot_snoc h.2 n⟩

theorem no_nul_reported {l : Bytes} (h : 0 ∉ l) (r : List Name) : 0 ∉ reported l r := by
  induction r generalizing l with
  | nil => exact h
  | cons n r ih =>
    refine ih (l := childLog l n.val) ?_
    unfold childLog
    split
    · exact (place_child (s := []) List.not_mem_nil n).1
    · exact (place_child h n).1

end Agent
end SwitchMcp

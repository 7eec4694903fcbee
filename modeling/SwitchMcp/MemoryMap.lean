import SwitchMcp.DebugSearch
import SwitchMcp.RegionWalk
/-!
# MemoryMap — the regions of a debugged process (agent/source/handlers/debug.cpp)

`DebugMemMap` walks the address space of the target and lists what is mapped; `DebugAttach` walks it for the first code region,
its main module.  Both are walks of RegionWalk, with 512 and with 64 turns.  `memmap_lists` says which addresses the list
covers, and how the base that attaching replies stands in it.
-/
namespace SwitchMcp
namespace Agent
namespace Debugger

open Json (Value)

/-! ## The kernel's regions -/

/-- What `svcQueryDebugProcessMemory` says of a region, but for where it is. -/
structure MemoryInfo where
  size : Nat
  size_pos : 0 < size
  type : UInt32
  perm : UInt32

/-- The regions of a process, which tile its addresses from 0 on. -/
structure MemorySpace where
  regions : List MemoryInfo
  fits : Regions.total MemoryInfo.size regions ≤ 2 ^ 64

def MemoryInfo.kind (mi : MemoryInfo) : UInt32 := mi.type &&& 0xFF

def memTypeUnmapped : UInt32 := 0
def memTypeCodeStatic : UInt32 := 3
def memTypeModuleCodeStatic : UInt32 := 8

def memTypeName (t : UInt32) : String :=
  let kind := t &&& 0xFF
  if kind = memTypeUnmapped then "unmapped"
  else if kind = 1 then "io"
  else if kind = 2 then "normal"
  else if kind = memTypeCodeStatic then "code"
  else if kind = 4 then "code_mutable"
  else if kind = 5 then "heap"
  else if kind = 6 then "shared"
  else if kind = memTypeModuleCodeStatic then "module_code"
  else if kind = 9 then "module_code_mutable"
  else "other"

def permString (p : UInt32) : Bytes :=
  [ch (if p &&& 1 ≠ 0 then 'r' else '-'), ch (if p &&& 2 ≠ 0 then 'w' else '-'), ch (if p &&& 4 ≠ 0 then 'x' else '-')]

def MemoryInfo.mapped (mi : MemoryInfo) : Bool := decide (mi.kind ≠ memTypeUnmapped)

def MemoryInfo.code (mi : MemoryInfo) : Bool :=
  decide (mi.kind = memTypeCodeStatic ∨ mi.kind = memTypeModuleCodeStatic)

/-! ## The two walks -/

/-- A region, as `DebugMemMap` lists it. -/
def regionEntry (p : Nat × MemoryInfo) : Value :=
  ((((Value.object []).set (str "addr") (addressText (UInt64.ofNat p.1))).set (str "size")
    (addressText (UInt64.ofNat p.2.size))).set (str "type") (.string (str (memTypeName p.2.type)))).set (str "perm")
    (.string (permString p.2.perm))

/-- The regions that `DebugMemMap` pushes. -/
def memMapRegions (space : MemorySpace) : List Value :=
  Regions.walk MemoryInfo.size (fun p regions => (if p.2.mapped then regions ++ [regionEntry p] else regions, false))
    space.regions 512 0 []

def debugMemMap (attached : Bool) (space : MemorySpace) : Reply :=
  if !attached then fail "not_attached" (str "no debug session; call debug.attach first")
  else ({} : Reply).set "regions" (.array (memMapRegions space))

/-- The base of the main module, as `DebugAttach` looks for it. -/
def mainBase (space : MemorySpace) : UInt64 :=
  Regions.walk MemoryInfo.size (fun p base => if p.2.code then (UInt64.ofNat p.1, true) else (base, false))
    space.regions 64 0 0

/-- What `DebugAttach` replies when it has attached. -/
def attachedReply (space : MemorySpace) (pid : UInt64) (pause : Bool) : Reply :=
  (((({} : Reply).set "ok" (.bool true)).set "pid" (.int pid.toInt64)).set "main_base" (addressText (mainBase space))).set
    "paused" (.bool pause) |>.set "note" (.string (str (if pause then "target paused; detach or debug.continue to resume"
      else "target running while attached")))

/-! ## What they find -/

/-- The regions of a process with where they start. -/
def MemorySpace.placed (space : MemorySpace) : List (Nat × MemoryInfo) := Regions.placed MemoryInfo.size 0 space.regions

/-- A mapped region of the process holds an address. -/
def MemorySpace.Mapped (space : MemorySpace) (addr : Nat) : Prop :=
  ∃ p ∈ space.placed, p.2.mapped = true ∧ Regions.Holds MemoryInfo.size p addr

/-- The mapped ones of the first 512 regions. -/
def MemorySpace.listed (space : MemorySpace) : List (Nat × MemoryInfo) :=
  (space.placed.take 512).filter fun p => p.2.mapped

theorem memMapRegions_eq (space : MemorySpace) : memMapRegions space = space.listed.map regionEntry := by
  unfold memMapRegions
  rw [Regions.walk_eq MemoryInfo.size MemoryInfo.size_pos _ _ space.fits,
    Regions.foldUntil_filter (fun p : Nat × MemoryInfo => p.2.mapped) regionEntry, List.nil_append]
  rfl

theorem mainBase_eq (space : MemorySpace) :
    mainBase space = (((space.placed.take 64).find? fun p => p.2.code).map fun p => UInt64.ofNat p.1).getD 0 := by
  unfold mainBase
  rw [Regions.walk_eq MemoryInfo.size MemoryInfo.size_pos _ _ space.fits,
    Regions.foldUntil_find (fun p : Nat × MemoryInfo => p.2.code) fun p => UInt64.ofNat p.1]
  rfl

theorem MemoryInfo.mapped_of_code {mi : MemoryInfo} (h : mi.code = true) : mi.mapped = true := by
  have hcode := of_decide_eq_true h
  apply decide_eq_true
  rintro hzero
  rw [hzero] at hcode
  exact absurd hcode (by decide)

theorem listed_sublist (space : MemorySpace) : space.listed.Sublist space.placed :=
  List.filter_sublist.trans (List.take_sublist _ _)

theorem find_filter {α : Type} {p q : α → Bool} (h : ∀ a, p a = true → q a = true) (l : List α) :
    (l.filter q).find? p = l.find? p := by
  rw [List.find?_filter]
  congr 1
  funext a
  cases hp : p a with
  | false => simp
  | true => simp [h a hp]

/-- **The first code region that is listed**, if there is one among the first 64 regions. -/
theorem mainBase_listed (space : MemorySpace) :
    (∃ p, space.listed.find? (fun p => p.2.code) = some p ∧ mainBase space = UInt64.ofNat p.1) ∨
      mainBase space = 0 ∧ ∀ p ∈ space.placed.take 64, p.2.code = false := by
  rw [mainBase_eq]
  cases hfind : (space.placed.take 64).find? fun p => p.2.code with
  | none =>
    refine Or.inr ⟨rfl, fun p hp => ?_⟩
    have hno := List.find?_eq_none.1 hfind p hp
    exact Bool.eq_false_iff.2 hno
  | some p =>
    refine Or.inl ⟨p, ?_, rfl⟩
    have hsplit : space.placed.take 512 = space.placed.take 64 ++ (space.placed.drop 64).take 448 := by
      rw [← List.take_add]
    rw [MemorySpace.listed, find_filter fun a ha => MemoryInfo.mapped_of_code ha, hsplit, List.find?_append, hfind]
    rfl

/-- A region beyond the 512th covers an address that no listed one does. -/
theorem not_listed {space : MemorySpace} {p : Nat × MemoryInfo} (hp : p ∈ space.placed.drop 512) :
    ¬∃ q ∈ space.listed, Regions.Holds MemoryInfo.size q p.1 := by
  rintro ⟨q, hq, -, hend⟩
  have hpair : (space.placed.take 512 ++ space.placed.drop 512).Pairwise fun p q => p.1 + p.2.size ≤ q.1 := by
    rw [List.take_append_drop]
    exact Regions.placed_pairwise MemoryInfo.size space.regions 0
  have hle := (List.pairwise_append.1 hpair).2.2 q (List.mem_of_mem_filter hq) p hp
  omega

/-- **The memory map.**  `debug.memmap` replies regions that lie one after the other, and every address in one of them is
mapped.  They cover all that is mapped exactly where nothing is mapped beyond the 512th region.  And the base that attaching
replies is where the first code region among them starts, or 0 where none of the first 64 regions is code. -/
theorem memmap_lists (space : MemorySpace) : ∃ l : List (Nat × MemoryInfo),
    (debugMemMap true space).json.get (str "regions") = .array (l.map regionEntry) ∧
    (l.Pairwise fun p q => p.1 + p.2.size ≤ q.1) ∧
    (∀ p ∈ l, ∀ addr, Regions.Holds MemoryInfo.size p addr → space.Mapped addr) ∧
    ((∀ addr, space.Mapped addr → ∃ p ∈ l, Regions.Holds MemoryInfo.size p addr) ↔
      ∀ r ∈ space.regions.drop 512, r.mapped = false) ∧
    ∃ base, (∀ pid pause, (attachedReply space pid pause).json.get (str "main_base") = addressText base) ∧
      ((∃ p, l.find? (fun p => p.2.code) = some p ∧ base = UInt64.ofNat p.1) ∨
        base = 0 ∧ ∀ r ∈ space.regions.take 64, r.code = false) := by
  refine ⟨space.listed, ?_, ?_, ?_, ?_, ?_⟩
  · rw [← memMapRegions_eq, debugMemMap, Bool.not_true, if_neg Bool.false_ne_true]
    simp [Reply.set]
  · exact (Regions.placed_pairwise MemoryInfo.size space.regions 0).sublist (listed_sublist space)
  · intro p hp addr hholds
    exact ⟨p, (listed_sublist space).subset hp, (List.mem_filter.1 hp).2, hholds⟩
  · have hregions : ∀ n, (space.placed.drop n).map Prod.snd = space.regions.drop n := fun n => by
      rw [List.map_drop, MemorySpace.placed, Regions.map_snd_placed]
    constructor
    · intro hall r hr
      rw [← hregions, List.mem_map] at hr
      obtain ⟨p, hp, rfl⟩ := hr
      by_contra hmapped
      rw [Bool.not_eq_false] at hmapped
      refine not_listed hp (hall p.1 ⟨p, List.mem_of_mem_drop hp, hmapped, le_rfl, ?_⟩)
      have := p.2.size_pos
      omega
    · rintro hnone addr ⟨p, hp, hmapped, hholds⟩
      refine ⟨p, ?_, hholds⟩
      rw [← List.take_append_drop 512 space.placed, List.mem_append] at hp
      rcases hp with hp | hp
      · exact List.mem_filter.2 ⟨hp, hmapped⟩
      · rw [hnone p.2 (by rw [← hregions]; exact List.mem_map_of_mem hp)] at hmapped
        cases hmapped
  · have hnote : str "note" ≠ str "main_base" := by decide
    have hpaused : str "paused" ≠ str "main_base" := by decide
    refine ⟨mainBase space, fun pid pause => by simp [attachedReply, Reply.set, hnote, hpaused], ?_⟩
    rcases mainBase_listed space with h | ⟨hzero, hno⟩
    · exact Or.inl h
    · refine Or.inr ⟨hzero, fun r hr => ?_⟩
      have htake : (space.placed.take 64).map Prod.snd = space.regions.take 64 := by
        rw [List.map_take, MemorySpace.placed, Regions.map_snd_placed]
      rw [← htake, List.mem_map] at hr
      obtain ⟨p, hp, rfl⟩ := hr
      exact hno p hp

end Debugger
end Agent
end SwitchMcp

import SwitchMcp.Debug
/-!
# HwBreakpoints — the debug registers of the core (agent/source/handlers/debug.cpp)

A control word and an address for each slot: 0 to 5 stop at an instruction, 16 to 19 at an access to data.  `Registers.stops`
reads the two words as the debug architecture does, `Trap` is what a slot is for.  `slots_armed` says that after any of the
typed commands each slot stops at what the last command it accepted asked for, byte for byte, and that no other slot is
touched.
-/
namespace SwitchMcp
namespace Agent
namespace Debugger

open Json (Value)

/-! ## What a slot stops at -/

inductive Access
  | fetch | load | store
deriving DecidableEq

/-- The control and the value register of a slot. -/
structure Registers where
  ctl : UInt64 := 0
  value : UInt64 := 0

def kWatchpointBase : UInt32 := 16

def doubleword (addr : UInt64) : UInt64 := addr &&& ~~~7

/-- Whether an access to a byte stops the core at the slot `which`: E enables it, LSC selects loads and stores, BAS the bytes
of the doubleword; an instruction is matched by its address with all of its four bytes selected. -/
def Registers.stops (which : UInt32) (r : Registers) : Access → UInt64 → Prop
  | .fetch, addr => which < kWatchpointBase ∧ r.ctl.toNat.testBit 0 = true ∧ (r.ctl >>> 5) &&& 0xF = 0xF ∧ addr = r.value
  | .load, addr => kWatchpointBase ≤ which ∧ r.ctl.toNat.testBit 0 = true ∧ r.ctl.toNat.testBit 3 = true ∧
      doubleword addr = r.value ∧ r.ctl.toNat.testBit (5 + addr.toNat % 8) = true
  | .store, addr => kWatchpointBase ≤ which ∧ r.ctl.toNat.testBit 0 = true ∧ r.ctl.toNat.testBit 4 = true ∧
      doubleword addr = r.value ∧ r.ctl.toNat.testBit (5 + addr.toNat % 8) = true

inductive Trap
  | off
  | watch (addr : UInt64) (size : Nat) (mode : Bytes)
  | execute (addr : UInt64)

/-- Whether an access to a byte is one that a trap is for. -/
def Trap.catches : Trap → Access → UInt64 → Prop
  | .off, _, _ => False
  | .execute at', acc, addr => acc = .fetch ∧ addr = at'
  | .watch start size mode, acc, addr =>
    (acc = .load ∧ mode ≠ str "write" ∨ acc = .store ∧ mode ≠ str "read") ∧
      start.toNat ≤ addr.toNat ∧ addr.toNat < start.toNat + size

/-! ## The commands -/

def kMaxBreakpointSlots : Int32 := 6
def kMaxWatchpointSlots : Int32 := 4

/-- DBGBCR: enabled, BAS 0b1111, a linked address match. -/
def kBreakpointCtl : UInt64 := 1 ||| (0xF : UInt64) <<< (5 : UInt64) ||| (1 : UInt64) <<< (20 : UInt64)

def watchpointCtl (lsc bas : UInt32) : UInt64 :=
  1 ||| (lsc &&& 3).toUInt64 <<< (3 : UInt64) ||| (bas &&& 0xFF).toUInt64 <<< (5 : UInt64)

def failResult (rc : UInt32) (what : String) (ctl value : UInt64) : Reply :=
  fail "hw_bp_failed" ((str "svcSetHardwareBreakPoint(" ++ str what ++ str ") failed: rc=0x" ++ fmt08X rc.toNat ++
    str " (module=" ++ fmtU (rc &&& 0x1FF).toNat ++ str " desc=" ++ fmtU ((rc >>> 9) &&& 0x1FFF).toNat ++ str ") ctl=0x" ++
    fmtX ctl.toNat ++ str " value=0x" ++ fmtX value.toNat).take 255)

/-- What `DebugSetWatchpoint` has read and checked before it calls the kernel. -/
structure Watchpoint where
  addr : UInt64
  size : Int32
  slot : Int32
  mode : Bytes
  offset : UInt32
  lsc : UInt32

def lscOf (mode : Bytes) : Option UInt32 :=
  if mode = str "read" then some 1
  else if mode = str "write" then some 2
  else if mode = str "rw" ∨ mode = str "both" then some 3
  else none

/-- The checks of `DebugSetWatchpoint`. -/
def watchpointOf (req : Request) : Except Reply Watchpoint :=
  let addr := asU64 (req.get "addr") 0
  let size := ((req.get "size").asInt 4).toInt32
  let slot := ((req.get "slot").asInt 0).toInt32
  let mode := (req.get "mode").asString (str "write")
  if addr = 0 then .error (fail "bad_arg" (str "missing addr"))
  else if size ≠ 1 ∧ size ≠ 2 ∧ size ≠ 4 ∧ size ≠ 8 then .error (fail "bad_arg" (str "size must be 1, 2, 4 or 8 bytes"))
  else if slot < 0 ∨ kMaxWatchpointSlots ≤ slot then
    .error (fail "bad_arg" (str "slot must be 0-3 (this SoC has 4 watchpoints)"))
  else
    let offset := (addr - doubleword addr).toUInt32
    if 8 < offset + size.toUInt32 then
      .error (fail "bad_arg" (str "range crosses an 8-byte boundary; align it or use two slots"))
    else
      match lscOf mode with
      | none => .error (fail "bad_arg" (str "mode must be read, write or rw"))
      | some lsc => .ok ⟨addr, size, slot, mode, offset, lsc⟩

/-- The bytes of the doubleword that are covered. -/
def Watchpoint.bas (w : Watchpoint) : UInt32 := ((1 <<< w.size.toUInt32) - 1) <<< w.offset

def Watchpoint.which (w : Watchpoint) : UInt32 := kWatchpointBase + w.slot.toUInt32

def watchpointNote : Bytes := str "armed, but DO NOT RELY ON HITS. On fw 22.1.0 no watchpoint has ever been observed to fire from this sysmodule. The syscall is permitted and the encoding is accepted; the exception is simply never delivered. Core affinity was tested and ruled out. Use cheat.read_mem polling or the narrowing search (search.begin/next) instead."

def breakpointNote : Bytes := str "armed, but DO NOT RELY ON HITS. No hardware breakpoint has been observed to fire on fw 22.1.0 from this sysmodule. Arming and clearing work; the exception is never delivered. Core affinity was tested and ruled out."

/-- The registers of all slots. -/
abbrev Bank : Type := UInt32 → Registers

/-- `svcSetHardwareBreakPoint`, which has an effect where it returns 0. -/
def setHardwareBreakPoint (rc : UInt32) (which : UInt32) (flags value : UInt64) (bank : Bank) : Bank :=
  if rc = 0 then Function.update bank which ⟨flags, value⟩ else bank

section
variable (attached : Bool) (rc : UInt32) (req : Request) (bank : Bank)

def detached : Reply := fail "not_attached" (str "no debug session; call debug.attach first")

def debugSetWatchpoint : (Bool × Reply) × Bank :=
  if !attached then ((false, detached), bank)
  else
    match watchpointOf req with
    | .error r => ((false, r), bank)
    | .ok w =>
      let base := doubleword w.addr
      let ctl := if req.msg.has (str "ctl") then asU64 (req.get "ctl") 0 else watchpointCtl w.lsc w.bas
      let bank := setHardwareBreakPoint rc w.which ctl base bank
      if rc ≠ 0 then ((false, failResult rc "watchpoint" ctl base), bank)
      else
        ((true, ((((({} : Reply).set "ok" (.bool true)).set "slot" (.int w.slot.toInt64)).set "mode" (.string w.mode)).set
          "watching" (.int w.addr.toInt64)).set "note" (.string watchpointNote)), bank)

/-- The checks of `DebugSetBreakpoint`: the address and the slot. -/
def breakpointOf : Except Reply (UInt64 × Int32) :=
  let addr := asU64 (req.get "addr") 0
  let slot := ((req.get "slot").asInt 0).toInt32
  if addr = 0 then .error (fail "bad_arg" (str "missing addr"))
  else if addr &&& 3 ≠ 0 then .error (fail "bad_arg" (str "address must be 4-byte aligned (A64 instruction)"))
  else if slot < 0 ∨ kMaxBreakpointSlots ≤ slot then
    .error (fail "bad_arg" (str "slot must be 0-5 (this SoC has 6 breakpoints)"))
  else .ok (addr, slot)

def debugSetBreakpoint : (Bool × Reply) × Bank :=
  if !attached then ((false, detached), bank)
  else
    match breakpointOf req with
    | .error r => ((false, r), bank)
    | .ok (addr, slot) =>
      let bank := setHardwareBreakPoint rc slot.toUInt32 kBreakpointCtl addr bank
      if rc ≠ 0 then ((false, failResult rc "breakpoint" kBreakpointCtl addr), bank)
      else
        ((true, (((({} : Reply).set "ok" (.bool true)).set "slot" (.int slot.toInt64)).set "breaking_at"
          (.int addr.toInt64)).set "note" (.string breakpointNote)), bank)

/-- The slot that `DebugClearBreakpoint` is asked to clear, with its number in the bank. -/
def clearedOf : Except Reply (Int32 × UInt32) :=
  let slot := ((req.get "slot").asInt 0).toInt32
  let isWatchpoint := (req.get "watchpoint").asBool false
  let limit := if isWatchpoint then kMaxWatchpointSlots else kMaxBreakpointSlots
  if slot < 0 ∨ limit ≤ slot then
    .error (fail "bad_arg" (str (if isWatchpoint then "watchpoint slot must be 0-3" else "breakpoint slot must be 0-5")))
  else .ok (slot, (if isWatchpoint then kWatchpointBase else 0) + slot.toUInt32)

def debugClearBreakpoint : (Bool × Reply) × Bank :=
  if !attached then ((false, detached), bank)
  else
    match clearedOf req with
    | .error r => ((false, r), bank)
    | .ok (slot, which) =>
      let bank := setHardwareBreakPoint rc which 0 0 bank
      if rc ≠ 0 then ((false, fail "hw_bp_failed" (str "could not clear the slot")), bank)
      else
        ((true, ((({} : Reply).set "ok" (.bool true)).set "cleared_slot" (.int slot.toInt64)).set "kind"
          (.string (str (if (req.get "watchpoint").asBool false then "watchpoint" else "breakpoint")))), bank)

def debugSetHwBpRaw : (Bool × Reply) × Bank :=
  if !attached then ((false, detached), bank)
  else
    let which := ((req.get "which").asInt 0).toUInt64.toUInt32
    let bank := setHardwareBreakPoint rc which (asU64 (req.get "flags") 0) (asU64 (req.get "value") 0) bank
    ((true, ((((({} : Reply).set "ok" (.bool (decide (rc = 0)))).set "rc" (.int rc.toUInt64.toInt64)).set "module"
      (.int (rc &&& 0x1FF).toUInt64.toInt64)).set "desc" (.int ((rc >>> 9) &&& 0x1FFF).toUInt64.toInt64)).set "which"
      (.int which.toUInt64.toInt64)), bank)

end

/-! ## A watchpoint's control word -/

theorem toNat_doubleword (addr : UInt64) : (doubleword addr).toNat = 8 * (addr.toNat / 8) := by
  have hmask : (~~~7 : UInt64).toNat = 8 * (2 ^ 61 - 1) := by decide
  have hlt := addr.toNat_lt
  rw [doubleword, UInt64.toNat_and, hmask]
  apply Nat.eq_of_testBit_eq
  intro i
  have h8 : ∀ n, (8 * n).testBit i = (decide (3 ≤ i) && n.testBit (i - 3)) := fun n => by
    rw [show 8 * n = n <<< 3 by rw [Nat.shiftLeft_eq]; omega, Nat.testBit_shiftLeft]
  rw [Nat.testBit_and, h8, h8, Nat.testBit_two_pow_sub_one, show addr.toNat / 8 = addr.toNat >>> 3 from
    (Nat.shiftRight_eq_div_pow addr.toNat 3).symm, Nat.testBit_shiftRight]
  by_cases h3 : 3 ≤ i
  · rw [show 3 + (i - 3) = i by omega, decide_eq_true h3, Bool.true_and, Bool.true_and]
    by_cases h64 : i - 3 < 61
    · rw [decide_eq_true h64, Bool.and_true]
    · rw [decide_eq_false h64, Bool.and_false, Nat.testBit_lt_two_pow]
      exact hlt.trans_le (Nat.pow_le_pow_right (by omega) (by omega))
  · rw [decide_eq_false h3, Bool.false_and, Bool.false_and, Bool.and_false]

theorem doubleword_eq_iff (a b : UInt64) : doubleword a = doubleword b ↔ a.toNat / 8 = b.toNat / 8 := by
  rw [← UInt64.toNat_inj, toNat_doubleword, toNat_doubleword]
  omega

theorem toNat_watchpointCtl (lsc bas : UInt32) : (watchpointCtl lsc bas).toNat =
    1 ||| (lsc.toNat % 4) <<< 3 ||| (bas.toNat % 256) <<< 5 := by
  have hl : (lsc &&& 3).toNat = lsc.toNat % 4 := by
    rw [UInt32.toNat_and]
    exact Nat.and_two_pow_sub_one_eq_mod _ 2
  have hb : (bas &&& 0xFF).toNat = bas.toNat % 256 := by
    rw [UInt32.toNat_and]
    exact Nat.and_two_pow_sub_one_eq_mod _ 8
  have hl4 := Nat.mod_lt lsc.toNat (show 0 < 4 by omega)
  have hb256 := Nat.mod_lt bas.toNat (show 0 < 256 by omega)
  simp only [watchpointCtl, UInt64.toNat_or, UInt64.toNat_shiftLeft, UInt32.toNat_toUInt64, hl, hb]
  rw [Nat.mod_eq_of_lt (a := (lsc.toNat % 4) <<< _), Nat.mod_eq_of_lt (a := (bas.toNat % 256) <<< _)]
  · rfl
  · rw [show UInt64.toNat 5 % 64 = 5 from rfl, Nat.shiftLeft_eq]
    omega
  · rw [show UInt64.toNat 3 % 64 = 3 from rfl, Nat.shiftLeft_eq]
    omega

/-- The enable bit, the two of LSC, and those of BAS. -/
theorem testBit_watchpointCtl (lsc bas : UInt32) :
    (watchpointCtl lsc bas).toNat.testBit 0 = true ∧
    (watchpointCtl lsc bas).toNat.testBit 3 = lsc.toNat.testBit 0 ∧
    (watchpointCtl lsc bas).toNat.testBit 4 = lsc.toNat.testBit 1 ∧
    ∀ k, k < 8 → (watchpointCtl lsc bas).toNat.testBit (5 + k) = bas.toNat.testBit k := by
  have hl : ∀ i, (lsc.toNat % 4).testBit i = (decide (i < 2) && lsc.toNat.testBit i) :=
    fun i => Nat.testBit_mod_two_pow lsc.toNat 2 i
  have hb : ∀ i, (bas.toNat % 256).testBit i = (decide (i < 8) && bas.toNat.testBit i) :=
    fun i => Nat.testBit_mod_two_pow bas.toNat 8 i
  have h1 : ∀ i, Nat.testBit 1 i = decide (i < 1) := fun i => Nat.testBit_two_pow_sub_one 1 i
  rw [toNat_watchpointCtl]
  refine ⟨?_, ?_, ?_, fun k hk => ?_⟩
  · simp
  · simp [Nat.testBit_or, Nat.testBit_shiftLeft, hl, h1]
  · simp [Nat.testBit_or, Nat.testBit_shiftLeft, hl, h1]
  · have hlsc : ¬5 + k - 3 < 2 := by omega
    simp [Nat.testBit_or, Nat.testBit_shiftLeft, hl, hb, h1, hk, hlsc]

/-- What the checks of `DebugSetWatchpoint` leave. -/
structure Watchpoint.Valid (w : Watchpoint) : Prop where
  size : w.size = 1 ∨ w.size = 2 ∨ w.size = 4 ∨ w.size = 8
  slot : w.slot.toUInt32.toNat < 4
  offset : w.offset.toNat = w.addr.toNat % 8
  fits : w.offset.toNat + w.size.toInt.toNat ≤ 8
  mode : w.mode = str "read" ∧ w.lsc = 1 ∨ w.mode = str "write" ∧ w.lsc = 2 ∨
    (w.mode = str "rw" ∨ w.mode = str "both") ∧ w.lsc = 3

theorem lscOf_some {mode : Bytes} {lsc : UInt32} (h : lscOf mode = some lsc) :
    mode = str "read" ∧ lsc = 1 ∨ mode = str "write" ∧ lsc = 2 ∨ (mode = str "rw" ∨ mode = str "both") ∧ lsc = 3 := by
  unfold lscOf at h
  split at h
  · cases h; exact Or.inl ⟨‹_›, rfl⟩
  · split at h
    · cases h; exact Or.inr (Or.inl ⟨‹_›, rfl⟩)
    · split at h
      · cases h; exact Or.inr (Or.inr ⟨‹_›, rfl⟩)
      · cases h

theorem slot_lt {slot limit : Int32} (h : ¬(slot < 0 ∨ limit ≤ slot)) : slot.toUInt32.toNat < limit.toInt.toNat := by
  rw [not_or, Int32.not_lt, Int32.not_le] at h
  have h0 := Int32.le_iff_toInt_le.1 h.1
  have hlimit := Int32.lt_iff_toInt_lt.1 h.2
  rw [show (0 : Int32).toInt = 0 from rfl] at h0
  rw [Int32.toNat_toUInt32_of_le h.1, Int32.toNatClampNeg]
  omega

theorem watchpointOf_valid {req : Request} {w : Watchpoint} (h : watchpointOf req = .ok w) : w.Valid := by
  unfold watchpointOf at h
  dsimp only at h
  split at h; · cases h
  split at h; · cases h
  rename_i hsize
  split at h; · cases h
  rename_i hslot
  split at h; · cases h
  rename_i hfits
  split at h; · cases h
  rename_i lsc hlsc
  cases h
  have hoffset : (asU64 (req.get "addr") 0 - doubleword (asU64 (req.get "addr") 0)).toUInt32.toNat =
      (asU64 (req.get "addr") 0).toNat % 8 := by
    have hle : doubleword (asU64 (req.get "addr") 0) ≤ asU64 (req.get "addr") 0 := by
      rw [UInt64.le_iff_toNat_le, toNat_doubleword]
      omega
    rw [UInt64.toNat_toUInt32, UInt64.toNat_sub_of_le _ _ hle, toNat_doubleword]
    omega
  have hsizes : ((req.get "size").asInt 4).toInt32 = 1 ∨ ((req.get "size").asInt 4).toInt32 = 2 ∨
      ((req.get "size").asInt 4).toInt32 = 4 ∨ ((req.get "size").asInt 4).toInt32 = 8 := by
    by_contra hno
    simp only [not_or] at hno
    exact hsize hno
  refine ⟨hsizes, slot_lt hslot, hoffset, ?_, lscOf_some hlsc⟩
  rw [UInt32.not_lt, UInt32.le_iff_toNat_le, UInt32.toNat_add, hoffset] at hfits
  dsimp only
  rw [hoffset]
  rcases hsizes with hs | hs | hs | hs <;> rw [hs] at hfits ⊢ <;> change _ % _ ≤ 8 at hfits
  · rw [show (1 : Int32).toUInt32.toNat = 1 from rfl] at hfits
    rw [show (1 : Int32).toInt.toNat = 1 from rfl]
    omega
  · rw [show (2 : Int32).toUInt32.toNat = 2 from rfl] at hfits
    rw [show (2 : Int32).toInt.toNat = 2 from rfl]
    omega
  · rw [show (4 : Int32).toUInt32.toNat = 4 from rfl] at hfits
    rw [show (4 : Int32).toInt.toNat = 4 from rfl]
    omega
  · rw [show (8 : Int32).toUInt32.toNat = 8 from rfl] at hfits
    rw [show (8 : Int32).toInt.toNat = 8 from rfl]
    omega

/-- **BAS selects the bytes of the range.** -/
theorem testBit_bas {w : Watchpoint} (h : w.Valid) {k : Nat} (hk : k < 8) :
    w.bas.toNat.testBit k = true ↔ w.offset.toNat ≤ k ∧ k < w.offset.toNat + w.size.toInt.toNat := by
  have ho : w.offset.toNat < 8 := by
    rw [h.offset]
    omega
  have hones : ∃ n, n = w.size.toInt.toNat ∧ n ≤ 8 ∧ ((1 <<< w.size.toUInt32) - 1 : UInt32).toNat = 2 ^ n - 1 := by
    rcases h.size with hs | hs | hs | hs <;> rw [hs]
    · exact ⟨1, rfl, by omega, rfl⟩
    · exact ⟨2, rfl, by omega, rfl⟩
    · exact ⟨4, rfl, by omega, rfl⟩
    · exact ⟨8, rfl, by omega, rfl⟩
  obtain ⟨n, hn, hn8, hones⟩ := hones
  rw [← hn, Watchpoint.bas, UInt32.toNat_shiftLeft, hones, Nat.mod_eq_of_lt (show w.offset.toNat < 32 by omega),
    Nat.testBit_mod_two_pow, Nat.testBit_shiftLeft, Nat.testBit_two_pow_sub_one]
  simp only [Bool.and_eq_true, decide_eq_true_eq]
  omega

/-- **An armed watchpoint stops at the range it was set on**, byte for byte, and at the accesses of its mode. -/
theorem watch_stops {w : Watchpoint} (h : w.Valid) (acc : Access) (addr : UInt64) :
    (⟨watchpointCtl w.lsc w.bas, doubleword w.addr⟩ : Registers).stops w.which acc addr ↔
      (Trap.watch w.addr w.size.toInt.toNat w.mode).catches acc addr := by
  obtain ⟨h0, h3, h4, hbas⟩ := testBit_watchpointCtl w.lsc w.bas
  have hbytes : (doubleword addr = doubleword w.addr ∧ (watchpointCtl w.lsc w.bas).toNat.testBit (5 + addr.toNat % 8) = true) ↔
      w.addr.toNat ≤ addr.toNat ∧ addr.toNat < w.addr.toNat + w.size.toInt.toNat := by
    have hk := Nat.mod_lt addr.toNat (show 0 < 8 by omega)
    have hfits := h.fits
    rw [doubleword_eq_iff, hbas _ hk, testBit_bas h hk]
    rw [h.offset] at hfits ⊢
    omega
  have hwhich : kWatchpointBase ≤ w.which ∧ ¬w.which < kWatchpointBase := by
    have hslot := h.slot
    rw [UInt32.not_lt, and_self, UInt32.le_iff_toNat_le, Watchpoint.which, UInt32.toNat_add,
      show kWatchpointBase.toNat = 16 from rfl]
    omega
  have hload : w.lsc.toNat.testBit 0 = true ↔ w.mode ≠ str "write" := by
    rcases h.mode with ⟨hm, hl⟩ | ⟨hm, hl⟩ | ⟨hm | hm, hl⟩ <;> rw [hm, hl] <;> decide
  have hstore : w.lsc.toNat.testBit 1 = true ↔ w.mode ≠ str "read" := by
    rcases h.mode with ⟨hm, hl⟩ | ⟨hm, hl⟩ | ⟨hm | hm, hl⟩ <;> rw [hm, hl] <;> decide
  cases acc with
  | fetch => simp [Registers.stops, Trap.catches, hwhich.2]
  | load =>
    simp only [Registers.stops, Trap.catches, h0, h3, hload, hbytes, hwhich.1, true_and, reduceCtorEq, false_and, or_false]
  | store =>
    simp only [Registers.stops, Trap.catches, h0, h4, hstore, hbytes, hwhich.1, true_and, reduceCtorEq, false_and, false_or]

/-! ## The slots over a run -/

inductive SlotCommand
  | setWatchpoint | setBreakpoint | clearBreakpoint | setHwBpRaw
deriving DecidableEq

/-- A command, whether a session is open, and what the kernel answers. -/
structure SlotCall where
  command : SlotCommand
  attached : Bool
  rc : UInt32
  req : Request

def SlotCall.run (call : SlotCall) (bank : Bank) : (Bool × Reply) × Bank :=
  match call.command with
  | .setWatchpoint => debugSetWatchpoint call.attached call.rc call.req bank
  | .setBreakpoint => debugSetBreakpoint call.attached call.rc call.req bank
  | .clearBreakpoint => debugClearBreakpoint call.attached call.rc call.req bank
  | .setHwBpRaw => debugSetHwBpRaw call.attached call.rc call.req bank

/-- Not one that writes a control word of its own. -/
def SlotCall.Typed (call : SlotCall) : Prop :=
  call.command ≠ .setHwBpRaw ∧ (call.command = .setWatchpoint → call.req.msg.has (str "ctl") = false)

/-- The slot that a typed command is about, and what for, where its arguments pass the checks. -/
def SlotCall.asks (call : SlotCall) : Option (UInt32 × Trap) :=
  match call.command with
  | .setWatchpoint =>
    match watchpointOf call.req with
    | .ok w => some (w.which, .watch w.addr w.size.toInt.toNat w.mode)
    | .error _ => none
  | .setBreakpoint =>
    match breakpointOf call.req with
    | .ok (addr, slot) => some (slot.toUInt32, .execute addr)
    | .error _ => none
  | .clearBreakpoint =>
    match clearedOf call.req with
    | .ok (_, which) => some (which, .off)
    | .error _ => none
  | .setHwBpRaw => none

/-- What the slots are for after a command: it changes its own where it succeeds. -/
def SlotCall.arm (call : SlotCall) (traps : UInt32 → Trap) : UInt32 → Trap :=
  match call.asks with
  | some (which, t) => if call.attached = true ∧ call.rc = 0 then Function.update traps which t else traps
  | none => traps

def bankAfter (calls : List SlotCall) : Bank := calls.foldl (fun bank call => (call.run bank).2) fun _ => {}

def trapsAfter (calls : List SlotCall) : UInt32 → Trap := calls.foldl (fun traps call => call.arm traps) fun _ => .off

/-- The number of a slot that the core has. -/
def IsSlot (which : UInt32) : Prop := which.toNat < 6 ∨ 16 ≤ which.toNat ∧ which.toNat < 20

/-- The registers of a slot do what it is for. -/
def Serves (which : UInt32) (r : Registers) (t : Trap) : Prop := ∀ acc addr, r.stops which acc addr ↔ t.catches acc addr

theorem cleared_serves (which : UInt32) : Serves which {} .off := by
  intro acc addr
  cases acc <;> simp [Registers.stops, Trap.catches]

theorem isSlot_watchpoint {slot : UInt32} (h : slot.toNat < 4) : IsSlot (kWatchpointBase + slot) := by
  right
  rw [UInt32.toNat_add, show kWatchpointBase.toNat = 16 from rfl]
  omega

theorem execute_serves {which : UInt32} (h : which.toNat < 6) (at' : UInt64) :
    Serves which ⟨kBreakpointCtl, at'⟩ (.execute at') := by
  have hlt : which < kWatchpointBase := by
    rw [UInt32.lt_iff_toNat_lt, show kWatchpointBase.toNat = 16 from rfl]
    omega
  have h0 : kBreakpointCtl.toNat.testBit 0 = true := by decide
  have hbas : (kBreakpointCtl >>> 5) &&& 0xF = 0xF := by decide
  intro acc addr
  cases acc <;> simp [Registers.stops, Trap.catches, hlt, h0, hbas]

theorem isSlot_cleared {req : Request} {slot : Int32} {which : UInt32} (h : clearedOf req = .ok (slot, which)) :
    IsSlot which := by
  unfold clearedOf at h
  dsimp only at h
  by_cases hw : (req.get "watchpoint").asBool false = true
  · rw [if_pos hw, if_pos hw] at h
    split at h
    · cases h
    · rename_i hs
      cases h
      exact isSlot_watchpoint (slot_lt hs)
  · rw [if_neg hw, if_neg hw] at h
    split at h
    · cases h
    · rename_i hs
      cases h
      rw [UInt32.zero_add]
      exact Or.inl (slot_lt hs)

/-- What a typed command writes to the slot that it is about. -/
theorem asks_serves {call : SlotCall} (ht : call.Typed) {which : UInt32} {t : Trap} (h : call.asks = some (which, t)) :
    IsSlot which ∧ ∃ r, Serves which r t ∧ ∀ bank,
      (call.run bank).2 = if call.attached = true ∧ call.rc = 0 then Function.update bank which r else bank := by
  have hset : ∀ (r : Registers) (bank : Bank), setHardwareBreakPoint call.rc which r.ctl r.value bank =
      if call.rc = 0 then Function.update bank which r else bank := fun r bank => rfl
  unfold SlotCall.asks at h
  unfold SlotCall.run
  cases hc : call.command with
  | setHwBpRaw => exact absurd hc ht.1
  | setWatchpoint =>
    rw [hc] at h
    dsimp only at h ⊢
    cases hw : watchpointOf call.req with
    | error e =>
      rw [hw] at h
      cases h
    | ok w =>
      rw [hw] at h
      cases h
      have hv := watchpointOf_valid hw
      refine ⟨isSlot_watchpoint hv.slot, ⟨watchpointCtl w.lsc w.bas, doubleword w.addr⟩, watch_stops hv, fun bank => ?_⟩
      unfold debugSetWatchpoint
      rw [hw, ht.2 hc]
      cases call.attached with
      | false => rfl
      | true => by_cases hrc : call.rc = 0 <;> simp [hrc, setHardwareBreakPoint]
  | setBreakpoint =>
    rw [hc] at h
    dsimp only at h ⊢
    cases hb : breakpointOf call.req with
    | error e =>
      rw [hb] at h
      cases h
    | ok p =>
      obtain ⟨addr, slot⟩ := p
      rw [hb] at h
      cases h
      have hslot : slot.toUInt32.toNat < 6 := by
        unfold breakpointOf at hb
        dsimp only at hb
        split at hb; · cases hb
        split at hb; · cases hb
        split at hb; · cases hb
        rename_i hs
        cases hb
        exact slot_lt hs
      refine ⟨Or.inl hslot, ⟨kBreakpointCtl, addr⟩, execute_serves hslot addr, fun bank => ?_⟩
      unfold debugSetBreakpoint
      rw [hb]
      cases call.attached with
      | false => rfl
      | true => by_cases hrc : call.rc = 0 <;> simp [hrc, setHardwareBreakPoint]
  | clearBreakpoint =>
    rw [hc] at h
    dsimp only at h ⊢
    cases hb : clearedOf call.req with
    | error e =>
      rw [hb] at h
      cases h
    | ok p =>
      obtain ⟨slot, which⟩ := p
      rw [hb] at h
      cases h
      refine ⟨isSlot_cleared hb, {}, cleared_serves which, fun bank => ?_⟩
      unfold debugClearBreakpoint
      rw [hb]
      cases call.attached with
      | false => rfl
      | true => by_cases hrc : call.rc = 0 <;> simp [hrc, setHardwareBreakPoint]

theorem run_of_asks_none {call : SlotCall} (ht : call.Typed) (h : call.asks = none) (bank : Bank) :
    (call.run bank).2 = bank := by
  unfold SlotCall.asks at h
  unfold SlotCall.run
  cases hc : call.command with
  | setHwBpRaw => exact absurd hc ht.1
  | setWatchpoint =>
    rw [hc] at h
    dsimp only at h ⊢
    unfold debugSetWatchpoint
    cases hw : watchpointOf call.req with
    | error e => cases call.attached <;> rfl
    | ok w =>
      rw [hw] at h
      cases h
  | setBreakpoint =>
    rw [hc] at h
    dsimp only at h ⊢
    unfold debugSetBreakpoint
    cases hb : breakpointOf call.req with
    | error e => cases call.attached <;> rfl
    | ok p =>
      rw [hb] at h
      cases h
  | clearBreakpoint =>
    rw [hc] at h
    dsimp only at h ⊢
    unfold debugClearBreakpoint
    cases hb : clearedOf call.req with
    | error e => cases call.attached <;> rfl
    | ok p =>
      rw [hb] at h
      cases h

theorem run_serves {call : SlotCall} (ht : call.Typed) {bank : Bank} {traps : UInt32 → Trap}
    (h : ∀ which, Serves which (bank which) (traps which) ∧ (¬IsSlot which → bank which = {})) (which : UInt32) :
    Serves which ((call.run bank).2 which) (call.arm traps which) ∧ (¬IsSlot which → (call.run bank).2 which = {}) := by
  unfold SlotCall.arm
  cases ha : call.asks with
  | none =>
    rw [run_of_asks_none ht ha]
    exact h which
  | some p =>
    obtain ⟨w, t⟩ := p
    obtain ⟨hslot, r, hserves, hrun⟩ := asks_serves ht ha
    rw [hrun]
    dsimp only
    by_cases hok : call.attached = true ∧ call.rc = 0
    · rw [if_pos hok, if_pos hok]
      by_cases hw : which = w
      · subst hw
        rw [Function.update_self, Function.update_self]
        exact ⟨hserves, fun hno => absurd hslot hno⟩
      · rw [Function.update_of_ne hw, Function.update_of_ne hw]
        exact h which
    · rw [if_neg hok, if_neg hok]
      exact h which

/-- **Each slot stops at what it was last asked for.**  After any typed commands, whatever their arguments are and the kernel
answers: an access to a byte stops the core at a slot exactly where the last command that set or cleared this slot with
success asked for it, so a watchpoint covers the bytes of its range and no others; and a register that is not one of the
six and four of the core is never written. -/
theorem slots_armed (calls : List SlotCall) (h : ∀ call ∈ calls, call.Typed) (which : UInt32) :
    (∀ acc addr, (bankAfter calls which).stops which acc addr ↔ (trapsAfter calls which).catches acc addr) ∧
      (¬IsSlot which → bankAfter calls which = {}) := by
  have hall : ∀ w, Serves w (bankAfter calls w) (trapsAfter calls w) ∧ (¬IsSlot w → bankAfter calls w = {}) := by
    induction calls using List.reverseRecOn with
    | nil => exact fun w => ⟨cleared_serves w, fun _ => rfl⟩
    | append_singleton calls call ih =>
      have hstep := run_serves (h call (by simp)) (ih fun c hc => h c (List.mem_append_left _ hc))
      intro w
      rw [bankAfter, trapsAfter, List.foldl_append, List.foldl_append]
      exact hstep w
  exact hall which

/-- Four bytes at 0x1004, when they are written. -/
def watchFour : SlotCall := ⟨.setWatchpoint, true, 0, ⟨.object [(str "addr", .int 0x1004)], []⟩⟩

theorem slots_armed_four :
    (bankAfter [watchFour] 16).stops 16 .store 0x1007 ∧ ¬(bankAfter [watchFour] 16).stops 16 .store 0x1008 := by
  have h := (slots_armed [watchFour] (fun call hc => by rw [List.mem_singleton.1 hc]; exact ⟨by decide, fun _ => rfl⟩) 16).1
  have htrap : trapsAfter [watchFour] 16 = .watch 0x1004 4 (str "write") := rfl
  rw [h, h, htrap]
  exact ⟨⟨Or.inr ⟨rfl, by decide⟩, by decide, by decide⟩, fun hno => absurd hno.2.2 (by decide)⟩

end Debugger
end Agent
end SwitchMcp

import SwitchMcp.Protocol
/-!
# Debug — writing the registers of a stopped thread (agent/source/handlers/debug.cpp)

`DebugWriteRegisters` reads the thread's context, patches the registers the request names and writes the context back.
The kernel is a parameter (`Svc`): what `svcGetThreadList`, `svcGetDebugThreadContext` and `svcSetDebugThreadContext`
answer.  The context that the handler hands to the kernel is the one it read, patched (`debugWriteRegisters_ctx`); a register
that the request does not name keeps its value (`patchAll_get`).
-/
namespace SwitchMcp
namespace Agent

open Json (Value)

/-- The registers a request can name. -/
inductive Reg
  | x (i : Fin 29) | fp | lr | sp | pc
deriving DecidableEq

/-- The member a register is named by: `snprintf(key, sizeof(key), "x%d", i)` or the literal. -/
def Reg.key : Reg → Bytes
  | .x i => ch 'x' :: (JsonText.decimal i.val).map JsonText.digitByte
  | .fp => str "fp"
  | .lr => str "lr"
  | .sp => str "sp"
  | .pc => str "pc"

/-- The part of `ThreadContext` the handler touches. -/
structure ThreadContext where
  gprs : Fin 29 → UInt64
  fp : UInt64
  lr : UInt64
  sp : UInt64
  pc : UInt64

def ThreadContext.get (ctx : ThreadContext) : Reg → UInt64
  | .x i => ctx.gprs i
  | .fp => ctx.fp
  | .lr => ctx.lr
  | .sp => ctx.sp
  | .pc => ctx.pc

def ThreadContext.set (ctx : ThreadContext) (r : Reg) (v : UInt64) : ThreadContext :=
  match r with
  | .x i => { ctx with gprs := Function.update ctx.gprs i v }
  | .fp => { ctx with fp := v }
  | .lr => { ctx with lr := v }
  | .sp => { ctx with sp := v }
  | .pc => { ctx with pc := v }

theorem ThreadContext.get_set (ctx : ThreadContext) (r r' : Reg) (v : UInt64) :
    (ctx.set r v).get r' = if r = r' then v else ctx.get r' := by
  cases r <;> cases r' <;> simp [ThreadContext.set, ThreadContext.get, Function.update_apply, eq_comm]

def kGroupCpuGprs : UInt32 := 1
def kGroupCpuSprs : UInt32 := 2

/-- The group a register is written with. -/
def Reg.group : Reg → UInt32
  | .x _ | .fp | .lr => kGroupCpuGprs
  | .sp | .pc => kGroupCpuSprs

structure Patch where
  ctx : ThreadContext
  groups : UInt32
  changed : Nat

/-- `if (regs.has(key)) { reg = (u64)regs[key].as_int(0); groups |= group; changed++; }`. -/
def patch (regs : Value) (p : Patch) (r : Reg) : Patch :=
  if regs.has r.key then ⟨p.ctx.set r (asU64 (regs.get r.key) 0), p.groups ||| r.group, p.changed + 1⟩ else p

/-- The order in which the handler looks for them. -/
def allRegs : List Reg := (List.finRange 29).map Reg.x ++ [.fp, .lr, .sp, .pc]

def patchAll (regs : Value) (ctx : ThreadContext) : Patch := allRegs.foldl (patch regs) ⟨ctx, 0, 0⟩

/-- The kernel's side: `none` where the call fails. -/
structure Svc where
  attached : Bool
  threadList : Option (List UInt64)
  getContext : UInt64 → Option ThreadContext
  setContext : UInt64 → ThreadContext → UInt32 → UInt32

/-- A call of `svcSetDebugThreadContext`. -/
structure SetContext where
  tid : UInt64
  ctx : ThreadContext
  groups : UInt32

/-- `%u` and `%llu`. -/
def fmtU (n : Nat) : Bytes := (JsonText.decimal n).map JsonText.digitByte

/-- `%x`. -/
def fmtX (n : Nat) : Bytes :=
  if n = 0 then [ch '0'] else (Nat.digits 16 n).reverse.map (fun d => (JsonText.lowHex d).byte)

/-- `%08x`. -/
def fmt08X (n : Nat) : Bytes := List.replicate (8 - (fmtX n).length) (ch '0') ++ fmtX n

/-- The message of a refused write, cut to the 223 characters of its buffer. -/
def ctxFailed (rc : UInt32) (tid : UInt64) (groups : UInt32) : Bytes :=
  (str "svcSetDebugThreadContext failed: rc=0x" ++ fmt08X rc.toNat ++ str " (module=" ++ fmtU (rc &&& 0x1FF).toNat ++
    str " desc=" ++ fmtU ((rc >>> 9) &&& 0x1FFF).toNat ++ str ") thread=" ++ fmtU tid.toNat ++ str " groups=0x" ++
    fmtX groups.toNat ++ str ". desc=125 is kernel InvalidState: Horizon only allows a thread's context to be written while that thread is stopped AT A DEBUG EVENT (an exception, breakpoint or fault reported through debug.poll_events) - a paused attach alone is not enough. Get the thread to trap first, then write.").take 223

/-- The thread a request means: 0 is the first one. -/
def threadOf (svc : Svc) (tid : UInt64) : Option UInt64 :=
  if tid = 0 then svc.threadList.bind List.head? else some tid

/-- The groups to write: those of the patched registers, unless the request says otherwise. -/
def groupsOf (req : Request) (groups : UInt32) : UInt32 :=
  if req.msg.has (str "groups") then ((req.get "groups").asInt groups.toUInt64.toInt64).toUInt64.toUInt32 else groups

/-- `DebugWriteRegisters`: its reply, and the context it wrote when it came so far. -/
def debugWriteRegisters (svc : Svc) (req : Request) : Reply × Option SetContext :=
  if !svc.attached then (fail "not_attached" (str "no debug session; call debug.attach first"), none)
  else
    match threadOf svc (asU64 (req.get "thread_id") 0) with
    | none => (fail "no_threads" (str "no threads to modify"), none)
    | some tid =>
      match svc.getContext tid with
      | none => (fail "ctx_failed" (str "svcGetDebugThreadContext failed"), none)
      | some ctx =>
        let regs := req.get "registers"
        if !regs.isObject then
          (fail "bad_arg" (str "expected a 'registers' object, e.g. \x7b\"pc\": 123\x7d"), none)
        else
          let p := patchAll regs ctx
          if p.changed = 0 then (fail "bad_arg" (str "no recognised register names in 'registers'"), none)
          else
            let groups := groupsOf req p.groups
            let rc := svc.setContext tid p.ctx groups
            if rc ≠ 0 then (fail "ctx_failed" (ctxFailed rc tid groups), some ⟨tid, p.ctx, groups⟩)
            else
              ((({} : Reply).set "groups" (.int groups.toUInt64.toInt64) |>.set "ok" (.bool true)
                |>.set "thread_id" (.int tid.toInt64) |>.set "registers_written" (.int (Int64.ofNat p.changed))),
                some ⟨tid, p.ctx, groups⟩)

/-! ## What is written -/

theorem patch_get (regs : Value) (p : Patch) (r r' : Reg) :
    (patch regs p r).ctx.get r' = if r = r' ∧ regs.has r.key = true then asU64 (regs.get r.key) 0 else p.ctx.get r' := by
  unfold patch
  by_cases h : regs.has r.key = true
  · rw [if_pos h, ThreadContext.get_set]; simp [h]
  · rw [if_neg h]; simp [h]

theorem foldl_patch_get (regs : Value) (r : Reg) : ∀ (l : List Reg) (p : Patch), l.Nodup →
    (l.foldl (patch regs) p).ctx.get r =
      if r ∈ l ∧ regs.has r.key = true then asU64 (regs.get r.key) 0 else p.ctx.get r
  | [], p, _ => by simp
  | r' :: l, p, h => by
    rw [List.nodup_cons] at h
    rw [List.foldl_cons, foldl_patch_get regs r l _ h.2, patch_get]
    by_cases e : r' = r
    · subst e; simp [h.1]
    · simp [e, Ne.symm e]

theorem nodup_allRegs : allRegs.Nodup := by decide

theorem mem_allRegs (r : Reg) : r ∈ allRegs := by
  cases r with
  | x i => exact List.mem_append_left _ (List.mem_map.2 ⟨i, List.mem_finRange i, rfl⟩)
  | _ => exact List.mem_append_right _ (by decide)

/-- **A named register gets the request's value, and every other one keeps its own.** -/
theorem patchAll_get (regs : Value) (ctx : ThreadContext) (r : Reg) :
    (patchAll regs ctx).ctx.get r = if regs.has r.key = true then asU64 (regs.get r.key) 0 else ctx.get r := by
  rw [patchAll, foldl_patch_get regs r allRegs _ nodup_allRegs]
  simp [mem_allRegs]

/-- **The context the handler writes is the one it read, patched.** -/
theorem debugWriteRegisters_ctx (svc : Svc) (req : Request) (c : SetContext)
    (h : (debugWriteRegisters svc req).2 = some c) :
    ∃ ctx, svc.getContext c.tid = some ctx ∧ c.ctx = (patchAll (req.get "registers") ctx).ctx := by
  unfold debugWriteRegisters at h
  split at h; · cases h
  split at h; · cases h
  rename_i tid _
  split at h; · cases h
  rename_i ctx hctx
  dsimp only at h
  split at h; · cases h
  split at h; · cases h
  split at h <;> (cases h; exact ⟨ctx, hctx, rfl⟩)

end Agent
end SwitchMcp

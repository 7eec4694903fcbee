import SwitchMcp.Debug
/-!
# ThreadRegisters — what the replies tell of a thread's registers (agent/source/handlers/debug.cpp)

`DebugRegisters` reads the registers that `DebugWriteRegisters` writes.  The kernel takes, of the context it is handed, the
groups it is told; a write can fail, or leave out the group of a register it names.  `registers_told` says that the replies
tell it all: what a register holds is what the last reply that claims it says, and that is what `debug.registers` shows.
-/
namespace SwitchMcp
namespace Agent
namespace Debugger

open Json (Value)

/-! ## The threads of a stopped process -/

/-- What `svcSetDebugThreadContext` takes of a context: the registers of the groups it is given. -/
def writeGroups (groups : UInt32) (new old : ThreadContext) : ThreadContext :=
  let general := if groups &&& kGroupCpuGprs ≠ 0 then { old with gprs := new.gprs, fp := new.fp, lr := new.lr } else old
  if groups &&& kGroupCpuSprs ≠ 0 then { general with sp := new.sp, pc := new.pc } else general

theorem get_writeGroups (groups : UInt32) (new old : ThreadContext) (r : Reg) :
    (writeGroups groups new old).get r = if groups &&& r.group ≠ 0 then new.get r else old.get r := by
  unfold writeGroups
  by_cases hg : groups &&& kGroupCpuGprs ≠ 0 <;> by_cases hs : groups &&& kGroupCpuSprs ≠ 0 <;> cases r <;>
    simp [Reg.group, ThreadContext.get, hg, hs]

/-- The contexts of the threads there are. -/
abbrev Threads : Type := UInt64 → Option ThreadContext

/-- What the kernel answers to a command. -/
structure KernelAnswers where
  attached : Bool
  threadList : Option (List UInt64)
  readable : UInt64 → Bool
  setContext : UInt64 → ThreadContext → UInt32 → UInt32

def KernelAnswers.svc (a : KernelAnswers) (threads : Threads) : Svc :=
  ⟨a.attached, a.threadList, fun tid => if a.readable tid then threads tid else none, a.setContext⟩

/-- `debug.write_registers`, and what it leaves the threads with. -/
def writeRegisters (a : KernelAnswers) (req : Request) (threads : Threads) : Reply × Threads :=
  let r := debugWriteRegisters (a.svc threads) req
  match r.2 with
  | none => (r.1, threads)
  | some c =>
    if a.setContext c.tid c.ctx c.groups = 0 then
      (r.1, Function.update threads c.tid ((threads c.tid).map (writeGroups c.groups c.ctx)))
    else (r.1, threads)

/-! ## Reading -/

/-- `0x%lx`. -/
def registerText (v : UInt64) : Bytes := str "0x" ++ fmtX v.toNat

def registersObject (ctx : ThreadContext) : Value :=
  allRegs.foldl (fun regs r => regs.set r.key (.string (registerText (ctx.get r)))) (.object [])

def debugRegisters (svc : Svc) (req : Request) : Bool × Reply :=
  if !svc.attached then (false, fail "not_attached" (str "no debug session; call debug.attach first"))
  else
    match threadOf svc (asU64 (req.get "thread_id") 0) with
    | none => (false, fail "no_threads" (str "no threads to inspect"))
    | some tid =>
      match svc.getContext tid with
      | none => (false, fail "ctx_failed" (str "svcGetDebugThreadContext failed"))
      | some ctx => (true, ({} : Reply).set "thread_id" (.int tid.toInt64) |>.set "registers" (registersObject ctx))

theorem key_injective : ∀ {r r' : Reg}, r.key = r'.key → r = r' := by
  intro r r' h
  have hall : ∀ r ∈ allRegs, ∀ r' ∈ allRegs, r.key = r'.key → r = r' := by decide
  exact hall r (mem_allRegs r) r' (mem_allRegs r') h

theorem foldl_registers_get (ctx : ThreadContext) (r : Reg) : ∀ (l : List Reg) (regs : Value),
    (l.foldl (fun regs r => regs.set r.key (.string (registerText (ctx.get r)))) regs).get r.key =
      if r ∈ l then .string (registerText (ctx.get r)) else regs.get r.key
  | [], regs => by simp
  | r' :: l, regs => by
    rw [List.foldl_cons, foldl_registers_get ctx r l, Json.Value.get_set]
    by_cases hr : r' = r
    · simp [hr]
    · have hkey : r'.key ≠ r.key := fun h => hr (key_injective h)
      simp [hkey, Ne.symm hr]

theorem registersObject_get (ctx : ThreadContext) (r : Reg) :
    (registersObject ctx).get r.key = .string (registerText (ctx.get r)) := by
  rw [registersObject, foldl_registers_get, if_pos (mem_allRegs r)]

/-- **What is shown of a thread.** -/
theorem debugRegisters_shows {svc : Svc} {req : Request} (h : (debugRegisters svc req).1 = true) :
    ∃ tid ctx, svc.getContext tid = some ctx ∧
      (debugRegisters svc req).2.json.get (str "thread_id") = .int tid.toInt64 ∧
      ∀ r, ((debugRegisters svc req).2.json.get (str "registers")).get r.key = .string (registerText (ctx.get r)) := by
  unfold debugRegisters at h ⊢
  by_cases hattached : svc.attached = true
  case neg => simp [hattached] at h
  cases htid : threadOf svc (asU64 (req.get "thread_id") 0) with
  | none => simp [hattached, htid] at h
  | some tid =>
    cases hctx : svc.getContext tid with
    | none => simp [hattached, htid, hctx] at h
    | some ctx =>
      have hne : str "registers" ≠ str "thread_id" := by decide
      refine ⟨tid, ctx, hctx, ?_, fun r => ?_⟩
      · simp [hattached, hctx, Reply.set, hne]
      · simp [hattached, hctx, Reply.set, registersObject_get]

/-! ## What the replies tell -/

/-- A `debug.write_registers` and its reply. -/
structure Exchange where
  req : Request
  reply : Reply

/-- The value that an exchange says a register of a thread has got: the reply is `ok` and says the thread and the groups, the
request names the register. -/
def Exchange.tells (e : Exchange) (tid : UInt64) (r : Reg) : Option UInt64 :=
  if (e.reply.json.get (str "ok")).asBool false = true ∧ (e.reply.json.get (str "thread_id")).asInt 0 = tid.toInt64 ∧
      ((e.reply.json.get (str "groups")).asInt 0).toUInt64.toUInt32 &&& r.group ≠ 0 ∧
      (e.req.get "registers").has r.key = true then
    some (asU64 ((e.req.get "registers").get r.key) 0)
  else none

/-- What a register holds after some exchanges, as they tell it. -/
def told (es : List Exchange) (tid : UInt64) (r : Reg) (before : UInt64) : UInt64 :=
  es.foldl (fun v e => (e.tells tid r).getD v) before

/-- The exchanges of a list of commands, and the threads after them. -/
def exchanges : List (KernelAnswers × Request) → Threads → List Exchange × Threads
  | [], threads => ([], threads)
  | (a, req) :: calls, threads =>
    let r := writeRegisters a req threads
    let rest := exchanges calls r.2
    (⟨req, r.1⟩ :: rest.1, rest.2)

/-! ## One command -/

theorem fail_not_ok (code : String) (message : Bytes) : ((fail code message).json.get (str "ok")).asBool false = false := by
  have hne : str "error" ≠ str "ok" := by decide
  simp only [fail, Value.get_set, if_neg hne]
  rfl

/-- **What a write does**: it is refused, and its reply is not `ok`; or it writes the patched context of a thread there is,
and its reply says the thread and the groups. -/
theorem debugWriteRegisters_cases (svc : Svc) (req : Request) :
    ((debugWriteRegisters svc req).1.json.get (str "ok")).asBool false = false ∧
      (∀ c, (debugWriteRegisters svc req).2 = some c → svc.setContext c.tid c.ctx c.groups ≠ 0) ∨
    ∃ tid ctx groups, svc.getContext tid = some ctx ∧
      (debugWriteRegisters svc req).2 = some ⟨tid, (patchAll (req.get "registers") ctx).ctx, groups⟩ ∧
      svc.setContext tid (patchAll (req.get "registers") ctx).ctx groups = 0 ∧
      ((debugWriteRegisters svc req).1.json.get (str "ok")).asBool false = true ∧
      (debugWriteRegisters svc req).1.json.get (str "thread_id") = .int tid.toInt64 ∧
      (debugWriteRegisters svc req).1.json.get (str "groups") = .int groups.toUInt64.toInt64 := by
  have keys : ∀ k ∈ ["groups", "ok", "thread_id", "registers_written"], ∀ k' ∈ ["groups", "ok", "thread_id"],
      str k = str k' ↔ k = k' := by decide
  unfold debugWriteRegisters
  by_cases hattached : svc.attached = true
  case neg => exact Or.inl (by simp [hattached, fail_not_ok])
  cases htid : threadOf svc (asU64 (req.get "thread_id") 0) with
  | none => exact Or.inl (by simp [hattached, fail_not_ok])
  | some tid =>
    cases hctx : svc.getContext tid with
    | none => exact Or.inl (by simp [hattached, hctx, fail_not_ok])
    | some ctx =>
      by_cases hobject : (req.get "registers").isObject = true
      case neg => exact Or.inl (by simp [hattached, hctx, hobject, fail_not_ok])
      by_cases hchanged : (patchAll (req.get "registers") ctx).changed = 0
      case pos => exact Or.inl (by simp [hattached, hctx, hobject, hchanged, fail_not_ok])
      by_cases hrc : svc.setContext tid (patchAll (req.get "registers") ctx).ctx
        (groupsOf req (patchAll (req.get "registers") ctx).groups) = 0
      case neg => exact Or.inl (by simp [hattached, hctx, hobject, hchanged, hrc, fail_not_ok])
      refine Or.inr ⟨tid, ctx, groupsOf req (patchAll (req.get "registers") ctx).groups, hctx, ?_⟩
      simp [hattached, hctx, hobject, hchanged, hrc, Reply.set, keys, Value.asBool]

theorem writeRegisters_refused {a : KernelAnswers} {req : Request} {threads : Threads}
    (h : ∀ c, (debugWriteRegisters (a.svc threads) req).2 = some c → a.setContext c.tid c.ctx c.groups ≠ 0) :
    writeRegisters a req threads = ((debugWriteRegisters (a.svc threads) req).1, threads) := by
  unfold writeRegisters
  dsimp only
  cases hc : (debugWriteRegisters (a.svc threads) req).2 with
  | none => rfl
  | some c => exact if_neg (h c hc)

/-- **A command leaves every register as its reply tells.** -/
theorem writeRegisters_tells (a : KernelAnswers) (req : Request) (threads : Threads) (tid : UInt64) (r : Reg) :
    ((writeRegisters a req threads).2 tid).map (·.get r) =
      (threads tid).map fun ctx =>
        ((⟨req, (writeRegisters a req threads).1⟩ : Exchange).tells tid r).getD (ctx.get r) := by
  rcases debugWriteRegisters_cases (a.svc threads) req with ⟨hno, hrefused⟩ | ⟨t, ctx, groups, hctx, hset, hrc, hok, htid, hgroups⟩
  · rw [writeRegisters_refused hrefused]
    simp [Exchange.tells, hno]
  · have hthread : threads t = some ctx := by
      rw [KernelAnswers.svc] at hctx
      dsimp only at hctx
      split at hctx
      · exact hctx
      · cases hctx
    have hwrite : writeRegisters a req threads = ((debugWriteRegisters (a.svc threads) req).1,
        Function.update threads t (some (writeGroups groups (patchAll (req.get "registers") ctx).ctx ctx))) := by
      unfold writeRegisters
      dsimp only
      rw [hset]
      dsimp only
      rw [if_pos (show a.setContext t (patchAll (req.get "registers") ctx).ctx groups = 0 from hrc), hthread,
        Option.map_some]
    have htells : (⟨req, (debugWriteRegisters (a.svc threads) req).1⟩ : Exchange).tells tid r =
        if t = tid ∧ groups &&& r.group ≠ 0 ∧ (req.get "registers").has r.key = true then
          some (asU64 ((req.get "registers").get r.key) 0)
        else none := by
      have hinj : t.toInt64 = tid.toInt64 ↔ t = tid := ⟨fun h => by simpa using congrArg Int64.toUInt64 h, fun h => by rw [h]⟩
      simp [Exchange.tells, hok, htid, hgroups, Value.asInt, hinj]
    rw [hwrite, htells]
    dsimp only
    by_cases ht : t = tid
    · subst ht
      rw [Function.update_self, hthread, Option.map_some, Option.map_some, get_writeGroups, patchAll_get]
      by_cases hg : groups &&& r.group ≠ 0 <;> by_cases hr : (req.get "registers").has r.key = true <;> simp [hg, hr]
    · rw [Function.update_of_ne (Ne.symm ht)]
      simp [ht]

/-! ## A run -/

theorem exchanges_tell : ∀ (calls : List (KernelAnswers × Request)) (threads : Threads) (tid : UInt64) (r : Reg),
    ((exchanges calls threads).2 tid).map (·.get r) =
      (threads tid).map fun ctx => told (exchanges calls threads).1 tid r (ctx.get r)
  | [], threads, tid, r => rfl
  | (a, req) :: calls, threads, tid, r => by
    have hstep := writeRegisters_tells a req threads tid r
    have ih := exchanges_tell calls (writeRegisters a req threads).2 tid r
    rw [exchanges]
    dsimp only
    rw [ih]
    cases hthread : threads tid with
    | none =>
      rw [hthread, Option.map_none, Option.map_eq_none_iff] at hstep
      rw [hstep]
      rfl
    | some ctx =>
      rw [hthread, Option.map_some] at hstep
      obtain ⟨ctx', hctx', hget⟩ := Option.map_eq_some_iff.1 hstep
      rw [hctx', Option.map_some, Option.map_some, hget]
      rfl

/-- **The replies tell every register.**  As long as the target is stopped and after any writes, whatever the kernel answers
them: a register of a thread holds the value of the last write whose reply is `ok`, names its thread and its group, and whose
request names it, and what it held before where there is none; and that is what `debug.registers` shows of it. -/
theorem registers_told (calls : List (KernelAnswers × Request)) (threads : Threads) :
    (∀ tid r, ((exchanges calls threads).2 tid).map (·.get r) =
      (threads tid).map fun ctx => told (exchanges calls threads).1 tid r (ctx.get r)) ∧
    ∀ (a : KernelAnswers) (req : Request), (debugRegisters (a.svc (exchanges calls threads).2) req).1 = true →
      ∃ tid ctx, threads tid = some ctx ∧
        (debugRegisters (a.svc (exchanges calls threads).2) req).2.json.get (str "thread_id") = .int tid.toInt64 ∧
        ∀ r, ((debugRegisters (a.svc (exchanges calls threads).2) req).2.json.get (str "registers")).get r.key =
          .string (registerText (told (exchanges calls threads).1 tid r (ctx.get r))) := by
  refine ⟨exchanges_tell calls threads, fun a req h => ?_⟩
  obtain ⟨tid, after, hafter, hreply⟩ := debugRegisters_shows h
  have htold := exchanges_tell calls threads tid
  have hthread : (exchanges calls threads).2 tid = some after := by
    rw [KernelAnswers.svc] at hafter
    dsimp only at hafter
    split at hafter
    · exact hafter
    · cases hafter
  rw [hthread] at htold
  cases hctx : threads tid with
  | none => exact absurd (htold .pc) (by simp [hctx])
  | some ctx =>
    refine ⟨tid, ctx, hctx, hreply.1, fun r => ?_⟩
    have hr := htold r
    rw [hctx, Option.map_some, Option.map_some, Option.some.injEq] at hr
    rw [hreply.2, hr]

end Debugger
end Agent
end SwitchMcp

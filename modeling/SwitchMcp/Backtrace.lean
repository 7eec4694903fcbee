import SwitchMcp.DebugSearch
/-!
# Backtrace — the frames of a stopped thread (agent/source/handlers/debug.cpp)

`DebugBacktrace` follows the frame pointers from x29 on: at a frame pointer the target's memory holds the caller's and the
address that the function returns to.  It stops at what cannot be a frame, or at its bound.  `backtrace_longest` says that it
reports the longest chain of frames there is, in whatever memory, one that runs in a circle included.
-/
namespace SwitchMcp
namespace Agent
namespace Debugger

open Json (Value)

/-- A return address, and the frame pointer that it was read at. -/
structure Frame where
  ret : UInt64
  fp : UInt64

/-- The two words at a frame pointer: the caller's frame pointer and the return address. -/
abbrev ReadPair : Type := UInt64 → Option (UInt64 × UInt64)

section
variable (read : ReadPair)

/-- The loop, so many turns of it. -/
def walkFrames : Nat → UInt64 → UInt64 → List Frame
  | 0, _, _ => []
  | n + 1, fp, prevFp =>
    if fp = 0 then []
    else if fp ≤ prevFp ∨ fp &&& 7 ≠ 0 then []
    else
      match read fp with
      | none => []
      | some (nextFp, ret) => if ret = 0 then [] else ⟨ret, fp⟩ :: walkFrames n nextFp fp

end

def maxFrames (req : Request) : Nat :=
  let n := ((req.get "max_frames").asInt 32).toInt32
  if n < 1 ∨ 64 < n then 32 else n.toInt.toNat

/-- The thread's own position, and then a frame for each call. -/
def frameEntries (ctx : ThreadContext) (frames : List Frame) : List Value :=
  ((Value.object []).set (str "pc") (addressText ctx.pc)).set (str "lr") (addressText ctx.lr) ::
    frames.map fun f => ((Value.object []).set (str "pc") (addressText f.ret)).set (str "fp") (addressText f.fp)

def debugBacktrace (svc : Svc) (read : ReadPair) (req : Request) : Bool × Reply :=
  if !svc.attached then (false, fail "not_attached" (str "no debug session; call debug.attach first"))
  else
    match threadOf svc (asU64 (req.get "thread_id") 0) with
    | none => (false, fail "no_threads" (str "no threads to walk"))
    | some tid =>
      match svc.getContext tid with
      | none => (false, fail "ctx_failed" (str "cannot read thread context"))
      | some ctx =>
        (true, ((({} : Reply).set "thread_id" (.int tid.toInt64)).set "frames"
          (.array (frameEntries ctx (walkFrames read (maxFrames req - 1) ctx.fp 0)))).set "note"
          (.string (str "addresses are absolute; subtract a module base from debug.modules to get an RVA for Ghidra/IDA")))

/-! ## Chains of frames -/

section
variable (read : ReadPair)

/-- Frames that are linked in memory, from a frame pointer on: each is aligned and above the one before, and returns
somewhere. -/
def Linked : UInt64 → UInt64 → List Frame → Prop
  | _, _, [] => True
  | fp, prevFp, f :: l => f.fp = fp ∧ prevFp < fp ∧ fp &&& 7 = 0 ∧ f.ret ≠ 0 ∧
      ∃ nextFp, read fp = some (nextFp, f.ret) ∧ Linked nextFp fp l

variable {read}

/-- **The walk is a chain**, within its bound. -/
theorem walkFrames_linked : ∀ (n : Nat) (fp prevFp : UInt64),
    Linked read fp prevFp (walkFrames read n fp prevFp) ∧ (walkFrames read n fp prevFp).length ≤ n
  | 0, _, _ => ⟨trivial, le_rfl⟩
  | n + 1, fp, prevFp => by
    rw [walkFrames]
    split
    · exact ⟨trivial, Nat.zero_le _⟩
    split
    · exact ⟨trivial, Nat.zero_le _⟩
    rename_i hbad
    rw [not_or, UInt64.not_le, not_not] at hbad
    cases hread : read fp with
    | none => exact ⟨trivial, Nat.zero_le _⟩
    | some p =>
      obtain ⟨nextFp, ret⟩ := p
      dsimp only
      split
      · exact ⟨trivial, Nat.zero_le _⟩
      · rename_i hret
        obtain ⟨hlinked, hlen⟩ := walkFrames_linked n nextFp fp
        exact ⟨⟨rfl, hbad.1, hbad.2, hret, nextFp, hread, hlinked⟩, Nat.succ_le_succ hlen⟩

/-- **Every chain within the bound is a beginning of it.** -/
theorem linked_beginning : ∀ (l : List Frame) (n : Nat) (fp prevFp : UInt64), Linked read fp prevFp l → l.length ≤ n →
    l <+: walkFrames read n fp prevFp
  | [], n, fp, prevFp, _, _ => List.nil_prefix
  | f :: l, 0, fp, prevFp, _, hn => absurd hn (by rw [List.length_cons]; omega)
  | ⟨ret, at'⟩ :: l, n + 1, fp, prevFp, h, hn => by
    obtain ⟨rfl, hclimb, haligned, hret, nextFp, hread, hrest⟩ := h
    have hpos : at' ≠ 0 := by
      rintro rfl
      exact absurd hclimb (UInt64.not_lt.2 UInt64.zero_le)
    have hgood : ¬(at' ≤ prevFp ∨ at' &&& 7 ≠ 0) := by
      rw [not_or, UInt64.not_le, not_not]
      exact ⟨hclimb, haligned⟩
    dsimp only at hread hret
    rw [walkFrames, if_neg hpos, if_neg hgood, hread]
    dsimp only
    rw [if_neg hret, List.cons_prefix_cons]
    exact ⟨rfl, linked_beginning l n nextFp at' hrest (Nat.le_of_succ_le_succ hn)⟩

theorem linked_climbs : ∀ (l : List Frame) (fp prevFp : UInt64), Linked read fp prevFp l →
    (∀ f ∈ l, prevFp < f.fp) ∧ l.Pairwise fun f g => f.fp < g.fp
  | [], _, _, _ => ⟨fun _ h => (nomatch h), List.Pairwise.nil⟩
  | f :: l, fp, prevFp, h => by
    obtain ⟨rfl, hclimb, -, -, nextFp, -, hrest⟩ := h
    obtain ⟨habove, hpair⟩ := linked_climbs l nextFp f.fp hrest
    refine ⟨fun g hg => ?_, List.pairwise_cons.2 ⟨habove, hpair⟩⟩
    rcases List.mem_cons.1 hg with rfl | hg
    · exact hclimb
    · exact UInt64.lt_trans hclimb (habove g hg)

end

theorem maxFrames_bounds (req : Request) : 1 ≤ maxFrames req ∧ maxFrames req ≤ 64 := by
  unfold maxFrames
  dsimp only
  split
  · exact ⟨by omega, by omega⟩
  · rename_i h
    rw [not_or, Int32.not_lt, Int32.not_lt, Int32.le_iff_toInt_le, Int32.le_iff_toInt_le] at h
    have h1 : (1 : Int32).toInt = 1 := rfl
    have h64 : (64 : Int32).toInt = 64 := rfl
    omega

/-- **The backtrace is the longest chain of frames.**  Whatever the target's memory holds: where `debug.backtrace` succeeds, it
replies the thread's position and a chain of frames that starts at its frame pointer and climbs, of fewer than 64; and every
chain of frames in memory from there that is not longer than the request allows is the beginning of it. -/
theorem backtrace_longest (svc : Svc) (read : ReadPair) (req : Request) (h : (debugBacktrace svc read req).1 = true) :
    ∃ (tid : UInt64) (ctx : ThreadContext) (l : List Frame),
      threadOf svc (asU64 (req.get "thread_id") 0) = some tid ∧ svc.getContext tid = some ctx ∧
      (debugBacktrace svc read req).2.json.get (str "frames") = .array (frameEntries ctx l) ∧
      Linked read ctx.fp 0 l ∧ (l.Pairwise fun f g => f.fp < g.fp) ∧ l.length < maxFrames req ∧ maxFrames req ≤ 64 ∧
      ∀ l', Linked read ctx.fp 0 l' → l'.length < maxFrames req → l' <+: l := by
  obtain ⟨hmin, hmax⟩ := maxFrames_bounds req
  unfold debugBacktrace at h ⊢
  split at h
  · cases h
  rename_i hattached
  rw [if_neg hattached]
  cases htid : threadOf svc (asU64 (req.get "thread_id") 0) with
  | none =>
    rw [htid] at h
    cases h
  | some tid =>
    rw [htid] at h
    dsimp only at h ⊢
    cases hctx : svc.getContext tid with
    | none =>
      rw [hctx] at h
      cases h
    | some ctx =>
      obtain ⟨hlinked, hlen⟩ := @walkFrames_linked read (maxFrames req - 1) ctx.fp 0
      refine ⟨tid, ctx, _, rfl, hctx, ?_, hlinked, (linked_climbs _ _ _ hlinked).2, by omega, hmax, ?_⟩
      · simp [Reply.set, show str "note" ≠ str "frames" by decide]
      · intro l' hl' hlen'
        exact linked_beginning l' _ _ _ hl' (by omega)

/-- A thread that is two calls deep. -/
def twoDeep : ReadPair := fun fp =>
  if fp = 0x1000 then some (0x1040, 0x8004) else if fp = 0x1040 then some (0, 0x8020) else none

def stoppedThread : Svc :=
  ⟨true, some [7], fun _ => some ⟨fun _ => 0, 0x1000, 0x8004, 0xFF0, 0x9000⟩, fun _ _ _ => 0⟩

theorem backtrace_longest_two :
    ∃ (l : List Frame), [⟨0x8004, 0x1000⟩, ⟨0x8020, 0x1040⟩] <+: l ∧ Linked twoDeep 0x1000 0 l := by
  obtain ⟨tid, ctx, l, -, hctx, -, hlinked, -, -, -, hall⟩ := backtrace_longest stoppedThread twoDeep ⟨.object [], []⟩ rfl
  cases hctx
  exact ⟨l, hall _ ⟨rfl, by decide, by decide, by decide, 0x1040, rfl, rfl, by decide, by decide, by decide, 0, rfl, trivial⟩
    (by decide), hlinked⟩

end Debugger
end Agent
end SwitchMcp

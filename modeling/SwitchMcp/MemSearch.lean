import SwitchMcp.Protocol
/-!
# MemSearch — what `search.begin` looks for (agent/source/handlers/memsearch.cpp)

`searchTarget` is the part of `SearchBegin` that reads the request; `scanChunk` is its loop over one chunk of memory.  A
candidate is an address at which the target's value was read (`scanChunk_mem`).
-/
namespace SwitchMcp
namespace Agent

open Json (Value)

def kMaxCandidates : Nat := 32768

structure Candidate where
  addr : UInt64
  value : UInt64
deriving DecidableEq

/-- `memcpy` of `width` bytes into a zeroed `u64`. -/
def loadValue (p : Bytes) (width : Nat) : UInt64 := UInt64.ofNat (leNat (p.take width))

/-- A width the search knows, and the value it compares with. -/
structure SearchTarget where
  width : Nat
  width_ok : width = 1 ∨ width = 2 ∨ width = 4 ∨ width = 8
  value : UInt64

/-- The arguments of `SearchBegin`, checked. -/
def searchTarget (req : Request) : Except Reply SearchTarget :=
  let width := ((req.get "width").asInt 4).toInt32
  if h : width.toInt.toNat = 1 ∨ width.toInt.toNat = 2 ∨ width.toInt.toNat = 4 ∨ width.toInt.toNat = 8 then
    .ok ⟨width.toInt.toNat, h, asU64 (req.get "value") 0⟩
  else .error (fail "bad_arg" (str "width must be 1, 2, 4 or 8"))

/-- The loop over a chunk: the candidates so far, and whether their number ran into the cap. -/
def scanLoop (t : SearchTarget) : Nat → UInt64 → Bytes → List Candidate → List Candidate × Bool
  | 0, _, _, found => (found, false)
  | n + 1, addr, buf, found =>
    if buf.length < t.width then (found, false)
    else if loadValue buf t.width = t.value then
      if kMaxCandidates ≤ found.length then (found, true)
      else scanLoop t n (addr + UInt64.ofNat t.width) (buf.drop t.width) (found ++ [⟨addr, t.value⟩])
    else scanLoop t n (addr + UInt64.ofNat t.width) (buf.drop t.width) found

def scanChunk (t : SearchTarget) (addr : UInt64) (buf : Bytes) (found : List Candidate) : List Candidate × Bool :=
  scanLoop t buf.length addr buf found

theorem scanLoop_mem (t : SearchTarget) : ∀ (n : Nat) (addr : UInt64) (buf : Bytes) (found : List Candidate),
    ∀ c ∈ (scanLoop t n addr buf found).1,
      c ∈ found ∨ c.value = t.value ∧ ∃ k, c.addr = addr + UInt64.ofNat (k * t.width) ∧
        loadValue (buf.drop (k * t.width)) t.width = t.value
  | 0, _, _, _, c, hc => Or.inl hc
  | n + 1, addr, buf, found, c, hc => by
    have later : ∀ found', c ∈ (scanLoop t n (addr + UInt64.ofNat t.width) (buf.drop t.width) found').1 →
        c ∈ found' ∨ c.value = t.value ∧ ∃ k, c.addr = addr + UInt64.ofNat (k * t.width) ∧
          loadValue (buf.drop (k * t.width)) t.width = t.value := by
      intro found' h
      rcases scanLoop_mem t n _ _ _ c h with h | ⟨hv, k, ha, hl⟩
      · exact Or.inl h
      · refine Or.inr ⟨hv, k + 1, ?_, ?_⟩
        · rw [ha, UInt64.add_assoc, ← UInt64.ofNat_add]
          congr 2; ring
        · rw [List.drop_drop] at hl
          rw [← hl]; congr 2; ring
    unfold scanLoop at hc
    split at hc
    · exact Or.inl hc
    split at hc
    · rename_i hv
      split at hc
      · exact Or.inl hc
      · rcases later _ hc with h | h
        · rcases List.mem_append.1 h with h | h
          · exact Or.inl h
          · rw [List.mem_singleton.1 h]
            exact Or.inr ⟨rfl, 0, by simp, by simpa using hv⟩
        · exact Or.inr h
    · exact later _ hc

/-- **A candidate is an address that held the target's value.** -/
theorem scanChunk_mem (t : SearchTarget) (addr : UInt64) (buf : Bytes) (found : List Candidate) (c : Candidate)
    (h : c ∈ (scanChunk t addr buf found).1) :
    c ∈ found ∨ c.value = t.value ∧ ∃ k, c.addr = addr + UInt64.ofNat (k * t.width) ∧
      loadValue (buf.drop (k * t.width)) t.width = t.value :=
  scanLoop_mem t buf.length addr buf found c h

/-- **The value looked for is the request's field.** -/
theorem searchTarget_value {req : Request} {t : SearchTarget} (h : searchTarget req = .ok t) :
    t.value = asU64 (req.get "value") 0 := by
  unfold searchTarget at h
  dsimp only at h
  split at h
  · cases h; rfl
  · cases h

end Agent
end SwitchMcp

import SwitchMcp.Debug
import SwitchMcp.MemSearch
import SwitchMcp.Unicode
/-!
# Search — the narrowing search over the memory of a running title (agent/source/handlers/memsearch.cpp)

`SearchBegin`, `SearchNext`, `SearchResults` and `SearchReset` over the statics they share.  What `dmnt:cht` and the
process manager answer is a parameter (`CheatService`): a read can fail or find anything, each time anew.  A request's
readings are kept beside its reply, so that a value in the table can be traced to the read it came from.
-/
namespace SwitchMcp
namespace Agent

open Json (Value)

def kScanChunk : UInt64 := 64 * 1024

structure MemoryRegionExtents where
  base : UInt64
  size : UInt64

/-- The part of the metadata the search reads. -/
structure CheatProcessMetadata where
  mainNso : MemoryRegionExtents
  heap : MemoryRegionExtents

/-- `mi.type & 0xFF`, by libnx's names. -/
inductive MemType
  | heap | normal | codeMutable | moduleCodeMutable | other
deriving DecidableEq

/-- A mapping: its extent, its type and the bits `Perm_R` and `Perm_W` of its permissions. -/
structure MemoryInfo where
  addr : UInt64
  size : UInt64
  type : MemType
  permR : Bool
  permW : Bool

/-- What the services answer during one request: `none` or `false` where a call fails. -/
structure CheatService where
  getService : Bool
  hasCheatProcess : Option Bool
  applicationPid : Option UInt64
  forceOpen : Bool
  metadata : Option CheatProcessMetadata
  mappingCount : Option UInt64
  mappings : Option (UInt64 × (Nat → MemoryInfo))
  /-- The request's `n`-th `ReadCheatProcessMemory`. -/
  read : Nat → UInt64 → (size : Nat) → Option {b : Bytes // b.length = size}

/-- A `ReadCheatProcessMemory` that was made. -/
structure Reading where
  addr : UInt64
  data : Option Bytes

/-- The statics of memsearch.cpp. -/
structure SearchState where
  serviceOpen : Bool := false
  candidates : List Candidate := []
  width : Nat := 4
  generation : Int32 := 0

/-! ## The attached process -/

/-- `g_open` after `Open`. -/
def openAfter (svc : CheatService) (isOpen : Bool) : Bool := isOpen || svc.getService

/-- `EnsureCheatProcess`, once `Open` has run. -/
def ensureCheatProcess (svc : CheatService) (isOpen : Bool) : Except Reply Unit :=
  if !isOpen then
    .error (fail "no_service" (utf8 (py "dmnt:cht unavailable. Atmosphère's cheat module must be enabled (dmnt_cheats_enabled_by_default, or a cheat process force-opened).")))
  else
    match svc.hasCheatProcess with
    | none => .error (fail "ipc_failed" (str "HasCheatProcess failed"))
    | some true => .ok ()
    | some false =>
      if svc.applicationPid.getD 0 = 0 then
        .error (fail "no_app" (str "no cheat process and no foreground application to open one on"))
      else if svc.forceOpen then .ok ()
      else .error (fail "open_failed" (str "ForceOpenCheatProcess failed for the foreground application"))

/-- `GetMappings`. -/
def getMappings (svc : CheatService) : Option (List MemoryInfo) := do
  let count ← svc.mappingCount
  if count = 0 ∨ 4096 < count then none
  else
    let (got, entry) ← svc.mappings
    return (List.range (if got < count then got else count).toNat).map entry

def scannableRegion (mi : MemoryInfo) : Bool :=
  if !mi.permR || !mi.permW then false
  else decide (mi.type = .heap ∨ mi.type = .normal ∨ mi.type = .codeMutable ∨ mi.type = .moduleCodeMutable)

/-! ## search.begin -/

/-- A base address and a size. -/
abbrev Region := UInt64 × UInt64

def MemoryRegionExtents.covers (e : MemoryRegionExtents) (addr : UInt64) : Bool :=
  decide (e.base ≤ addr) && decide (addr < e.base + e.size)

/-- The mappings a `region` argument selects. -/
def selects (m : CheatProcessMetadata) (want : Bytes) (mi : MemoryInfo) : Bool :=
  scannableRegion mi && !(decide (want = str "heap") && !m.heap.covers mi.addr) &&
    !(decide (want = str "main") && !m.mainNso.covers mi.addr)

/-- Explicit base and size win; otherwise the mappings are walked. -/
def searchRegions (svc : CheatService) (req : Request) (m : CheatProcessMetadata) : Except Reply (List Region) :=
  if req.msg.has (str "base") && req.msg.has (str "size") then
    .ok [(asU64 (req.get "base") 0, asU64 (req.get "size") 0)]
  else
    match getMappings svc with
    | none => .error (fail "ipc_failed" (str "GetCheatProcessMappings failed"))
    | some maps =>
      let regions := (maps.filter (selects m ((req.get "region").asString []))).map (fun mi => (mi.addr, mi.size))
      if regions = [] then
        .error (fail "no_regions" (str "no readable+writable mappings matched; try region=\"\" to scan everything writable"))
      else .ok regions

/-- What `SearchBegin` checks before it touches the table. -/
def searchPlan (svc : CheatService) (req : Request) (isOpen : Bool) : Except Reply (SearchTarget × List Region) := do
  ensureCheatProcess svc isOpen
  let t ← searchTarget req
  match svc.metadata with
  | none => .error (fail "ipc_failed" (str "GetCheatProcessMetadata failed"))
  | some m => return (t, ← searchRegions svc req m)

/-- The scan so far. -/
structure Scan where
  found : List Candidate := []
  scanned : UInt64 := 0
  truncated : Bool := false
  budgetHit : Bool := false
  readings : List Reading := []

/-- The values `off` takes over a region, for a size that is not within a chunk of 2^64. -/
def chunkOffsets (size : UInt64) : List UInt64 :=
  (List.range ((size.toNat + (kScanChunk.toNat - 1)) / kScanChunk.toNat)).map (fun i => UInt64.ofNat (i * kScanChunk.toNat))

def chunkSize (size off : UInt64) : UInt64 := if size - off < kScanChunk then size - off else kScanChunk

/-- The loop over a region's chunks. -/
def scanRegion (svc : CheatService) (t : SearchTarget) (budget : UInt64) (reg : Region) : List UInt64 → Scan → Scan
  | [], sc => sc
  | off :: offs, sc =>
    if budget ≤ sc.scanned then { sc with budgetHit := true }
    else
      let chunk := chunkSize reg.2 off
      let data := svc.read sc.readings.length (reg.1 + off) chunk.toNat
      let sc := { sc with readings := sc.readings ++ [⟨reg.1 + off, data.map Subtype.val⟩] }
      match data with
      | none => scanRegion svc t budget reg offs sc
      | some buf =>
        let r := scanChunk t (reg.1 + off) buf.val sc.found
        let sc := { sc with scanned := sc.scanned + chunk, found := r.1, truncated := r.2 }
        if sc.truncated then sc else scanRegion svc t budget reg offs sc

def scanRegions (svc : CheatService) (t : SearchTarget) (budget : UInt64) : List Region → Scan → Scan
  | [], sc => sc
  | reg :: regions, sc =>
    if sc.truncated || sc.budgetHit then sc
    else scanRegions svc t budget regions (scanRegion svc t budget reg (chunkOffsets reg.2) sc)

def Reply.setIf (r : Reply) (c : Bool) (k : String) (v : Value) : Reply := if c then r.set k v else r

def intOf (n : Nat) : Value := .int (Int64.ofNat n)

def beginReply (t : SearchTarget) (regions : List Region) (sc : Scan) : Reply :=
  ({} : Reply).set "regions_scanned" (intOf regions.length)
    |>.setIf sc.budgetHit "budget_exhausted" (.bool true)
    |>.setIf sc.budgetHit "budget_note" (.string (str "stopped at max_bytes; raise it or narrow with region= if the address you want was not reached"))
    |>.set "generation" (.int 1)
    |>.set "candidates" (intOf sc.found.length)
    |>.set "bytes_scanned" (.ofU64 sc.scanned)
    |>.set "width" (intOf t.width)
    |>.setIf sc.truncated "truncated" (.bool true)
    |>.setIf sc.truncated "note" (.string (utf8 (py "hit the candidate cap. Narrow with search.next, or pick a rarer starting value — a truncated set may not contain the address you want.")))

def searchBegin (svc : CheatService) (req : Request) (s : SearchState) : (Reply × List Reading) × SearchState :=
  let s := { s with serviceOpen := openAfter svc s.serviceOpen }
  match searchPlan svc req s.serviceOpen with
  | .error e => ((e, []), s)
  | .ok (t, regions) =>
    let sc := scanRegions svc t (asU64 (req.get "max_bytes") (512 * 1024 * 1024)) regions {}
    ((beginReply t regions sc, sc.readings), { s with candidates := sc.found, width := t.width, generation := 1 })

/-! ## search.next -/

/-- Whether a candidate stays, for an operator the search knows. -/
def keeps (op : Bytes) (now want was : UInt64) : Option Bool :=
  if op = str "eq" then some (decide (now = want))
  else if op = str "ne" then some (decide (now ≠ want))
  else if op = str "gt" then some (decide (want < now))
  else if op = str "lt" then some (decide (now < want))
  else if op = str "changed" then some (decide (now ≠ was))
  else if op = str "unchanged" then some (decide (now = was))
  else if op = str "increased" then some (decide (was < now))
  else if op = str "decreased" then some (decide (now < was))
  else none

def needsValue (op : Bytes) : Bool := decide (op = str "eq" ∨ op = str "ne" ∨ op = str "gt" ∨ op = str "lt")

/-- The loop over the candidates: those kept so far, and the readings made for it. -/
def filterLoop (svc : CheatService) (op : Bytes) (want : UInt64) (width : Nat) :
    List Candidate → List Candidate → List Reading → Except Reply (List Candidate) × List Reading
  | [], kept, readings => (.ok kept, readings)
  | c :: cs, kept, readings =>
    let data := svc.read readings.length c.addr width
    let readings := readings ++ [⟨c.addr, data.map Subtype.val⟩]
    match data with
    | none => filterLoop svc op want width cs kept readings
    | some raw =>
      let now := loadValue raw.val width
      match keeps op now want c.value with
      | none =>
        (.error (fail "bad_arg" (str "op must be eq, ne, gt, lt, changed, unchanged, increased or decreased")), readings)
      | some true => filterLoop svc op want width cs (kept ++ [⟨c.addr, now⟩]) readings
      | some false => filterLoop svc op want width cs kept readings

def nextReply (op : Bytes) (before : Nat) (s : SearchState) : Reply :=
  ({} : Reply).set "generation" (.int s.generation.toInt64)
    |>.set "op" (.string op)
    |>.set "before" (intOf before)
    |>.set "candidates" (intOf s.candidates.length)
    |>.setIf s.candidates.isEmpty "note" (.string (utf8 (py "every candidate was eliminated — the value probably is not this width, or the observation was wrong. Start over.")))

/-- What `SearchNext` checks before it reads any memory: the operator and the value it compares with. -/
def nextPlan (svc : CheatService) (req : Request) (s : SearchState) : Except Reply (Bytes × UInt64) := do
  ensureCheatProcess svc s.serviceOpen
  if s.candidates.isEmpty then
    .error (fail "no_search" (str "no active search; call search.begin first (or the previous scan eliminated every candidate)"))
  else
    let op := (req.get "op").asString (str "eq")
    if needsValue op && !req.msg.has (str "value") then .error (fail "bad_arg" (op ++ str " needs a 'value'"))
    else return (op, asU64 (req.get "value") 0)

def searchNext (svc : CheatService) (req : Request) (s : SearchState) : (Reply × List Reading) × SearchState :=
  let s := { s with serviceOpen := openAfter svc s.serviceOpen }
  match nextPlan svc req s with
  | .error e => ((e, []), s)
  | .ok (op, want) =>
    let (result, readings) := filterLoop svc op want s.width s.candidates [] []
    match result with
    | .error e => ((e, readings), s)
    | .ok kept =>
      let s' := { s with candidates := kept, generation := s.generation + 1 }
      ((nextReply op s.candidates.length s', readings), s')

/-! ## search.results and search.reset -/

def resultsLimit (req : Request) : Nat :=
  let limit := ((req.get "limit").asInt 50).toInt32.toInt
  if limit < 1 ∨ 1000 < limit then 50 else limit.toNat

/-- `snprintf(hx, sizeof(hx), "0x%lx", addr)` and the value as an `int64_t`. -/
def candidateEntry (c : Candidate) : Value :=
  ((Value.object []).set (str "addr") (.string (str "0x" ++ fmtX c.addr.toNat))).set (str "value") (.ofU64 c.value)

/-- `shown` is the loop's counter: when the limit ends the loop, it has counted one candidate more than it listed. -/
def searchResults (req : Request) (s : SearchState) : (Reply × List Reading) × SearchState :=
  let limit := resultsLimit req
  ((({} : Reply).set "generation" (.int s.generation.toInt64)
    |>.set "total" (intOf s.candidates.length)
    |>.set "width" (intOf s.width)
    |>.set "shown" (intOf (min s.candidates.length (limit + 1)))
    |>.set "results" (.array ((s.candidates.take limit).map candidateEntry)), []), s)

def searchReset (s : SearchState) : (Reply × List Reading) × SearchState :=
  ((({} : Reply).set "ok" (.bool true), []), { s with candidates := [], generation := 0 })

/-! ## Requests -/

inductive SearchCommand
  | begin | next | results | reset
deriving DecidableEq

/-- A request of the search, with what the services answer while it runs. -/
structure SearchOp where
  command : SearchCommand
  req : Request
  svc : CheatService

def SearchOp.handle (s : SearchState) (op : SearchOp) : (Reply × List Reading) × SearchState :=
  match op.command with
  | .begin => searchBegin op.svc op.req s
  | .next => searchNext op.svc op.req s
  | .results => searchResults op.req s
  | .reset => searchReset s

end Agent
end SwitchMcp

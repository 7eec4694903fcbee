import SwitchMcp.Search
import SwitchMcp.Trace
/-!
# SearchRuns — what the candidate table is after any sequence of searches

An address is looked at in the order of the scan (`scanOrder`); the first scan keeps a part of them, every later one a
part of those, and a value in the table was shown by a reading of the latest scan.  `table_tracked` says so of every
run of the four requests.
-/
namespace SwitchMcp
namespace Agent

open Json (Value)

/-! ## The addresses of a scan -/

/-- The places of a width in a stretch of memory. -/
def slots (width : Nat) (base : UInt64) (len : Nat) : List UInt64 :=
  (List.range (len / width)).map (fun i => base + UInt64.ofNat (i * width))

/-- The addresses the first scan looks at, in its order. -/
def scanOrder (width : Nat) (regions : List Region) : List UInt64 :=
  regions.flatMap (fun reg => slots width reg.1 reg.2.toNat)

/-- A reading that covers an address shows the value there. -/
def Reading.Shows (r : Reading) (addr : UInt64) (width : Nat) (v : UInt64) : Prop :=
  ∃ b k, r.data = some b ∧ addr = r.addr + UInt64.ofNat k ∧ k + width ≤ b.length ∧ loadValue (b.drop k) width = v

theorem width_pos (t : SearchTarget) : 0 < t.width := by
  rcases t.width_ok with h | h | h | h <;> omega

theorem slots_add {width : Nat} (hw : 0 < width) (base : UInt64) (a len : Nat) :
    slots width base (a * width + len) =
      slots width base (a * width) ++ slots width (base + UInt64.ofNat (a * width)) len := by
  unfold slots
  rw [Nat.add_comm, Nat.add_mul_div_right _ _ hw, Nat.mul_div_cancel _ hw, Nat.add_comm, List.range_add, List.map_append,
    List.map_map]
  congr 1
  refine List.map_congr_left fun i _ => ?_
  rw [Function.comp_apply, Nat.add_mul, UInt64.ofNat_add, UInt64.add_assoc]

theorem slots_cons {width len : Nat} (hw : 0 < width) (h : width ≤ len) (base : UInt64) :
    slots width base len = base :: slots width (base + UInt64.ofNat width) (len - width) := by
  have e : len = 1 * width + (len - width) := by omega
  have one : slots width base (1 * width) = [base] := by
    unfold slots
    rw [Nat.mul_div_cancel _ hw, List.range_one]
    simp
  rw [e, slots_add hw, one, one_mul, Nat.add_sub_cancel_left]
  rfl

/-! ## One chunk -/

theorem scanLoop_new (t : SearchTarget) : ∀ (n : Nat) (addr : UInt64) (buf : Bytes) (found : List Candidate),
    ∃ new, (scanLoop t n addr buf found).1 = found ++ new ∧
      (new.map Candidate.addr).Sublist (slots t.width addr buf.length) ∧
      ∀ c ∈ new, Reading.Shows ⟨addr, some buf⟩ c.addr t.width c.value
  | 0, _, _, _ => ⟨[], by simp [scanLoop], List.nil_sublist _, by simp⟩
  | n + 1, addr, buf, found => by
    unfold scanLoop
    by_cases hlen : buf.length < t.width
    · rw [if_pos hlen]
      exact ⟨[], by simp, List.nil_sublist _, by simp⟩
    have hslots := slots_cons (width_pos t) (Nat.not_lt.1 hlen) addr
    have later : ∀ c : Candidate, Reading.Shows ⟨addr + UInt64.ofNat t.width, some (buf.drop t.width)⟩ c.addr t.width c.value →
        Reading.Shows ⟨addr, some buf⟩ c.addr t.width c.value := by
      rintro c ⟨b, k, hb, ha, hk, hv⟩
      cases hb
      rw [List.length_drop] at hk
      refine ⟨buf, t.width + k, rfl, ?_, by omega, ?_⟩
      · rw [ha, UInt64.add_assoc, ← UInt64.ofNat_add]
      · rw [← hv, List.drop_drop]
    rw [if_neg hlen]
    by_cases hv : loadValue buf t.width = t.value
    · rw [if_pos hv]
      split
      · exact ⟨[], by simp, List.nil_sublist _, by simp⟩
      obtain ⟨new, hnew, hsub, hshow⟩ :=
        scanLoop_new t n (addr + UInt64.ofNat t.width) (buf.drop t.width) (found ++ [⟨addr, t.value⟩])
      refine ⟨⟨addr, t.value⟩ :: new, by rw [hnew, List.append_assoc]; rfl, ?_, ?_⟩
      · rw [hslots, List.map_cons]
        rw [List.length_drop] at hsub
        exact hsub.cons_cons addr
      · intro c hc
        rcases List.mem_cons.1 hc with rfl | hc
        · exact ⟨buf, 0, rfl, by simp, by simpa using Nat.not_lt.1 hlen, by simpa using hv⟩
        · exact later c (hshow c hc)
    · rw [if_neg hv]
      obtain ⟨new, hnew, hsub, hshow⟩ := scanLoop_new t n (addr + UInt64.ofNat t.width) (buf.drop t.width) found
      refine ⟨new, hnew, ?_, fun c hc => later c (hshow c hc)⟩
      rw [hslots]
      rw [List.length_drop] at hsub
      exact hsub.cons addr

theorem scanLoop_length (t : SearchTarget) : ∀ (n : Nat) (addr : UInt64) (buf : Bytes) (found : List Candidate),
    found.length ≤ kMaxCandidates → (scanLoop t n addr buf found).1.length ≤ kMaxCandidates
  | 0, _, _, _, h => h
  | n + 1, addr, buf, found, h => by
    unfold scanLoop
    split
    · exact h
    split
    · split
      · exact h
      · refine scanLoop_length t n _ _ _ ?_
        rw [List.length_append, List.length_singleton]
        omega
    · exact scanLoop_length t n _ _ _ h

/-! ## One region and all of them -/

theorem kScanChunk_toNat : kScanChunk.toNat = 65536 := rfl

theorem width_dvd (t : SearchTarget) : t.width ∣ 65536 := by
  rcases t.width_ok with h | h | h | h <;> rw [h] <;> decide

theorem chunkSize_toNat {size off : UInt64} (h : off.toNat ≤ size.toNat) :
    (chunkSize size off).toNat = min (size.toNat - off.toNat) 65536 := by
  have hle : off ≤ size := UInt64.le_iff_toNat_le.2 h
  have hsub : (size - off).toNat = size.toNat - off.toNat := UInt64.toNat_sub_of_le _ _ hle
  unfold chunkSize
  split <;> rename_i hlt <;> rw [UInt64.lt_iff_toNat_lt, hsub, kScanChunk_toNat] at hlt
  · rw [hsub]; omega
  · rw [kScanChunk_toNat]; omega

theorem toNat_chunk {i : Nat} (h : i * 65536 < 2 ^ 64) : (UInt64.ofNat (i * 65536)).toNat = i * 65536 := by
  rw [UInt64.toNat_ofNat', Nat.mod_eq_of_lt h]

/-- A chunk boundary is a slot boundary. -/
theorem slots_add_chunks {width : Nat} (hw : 0 < width) (hd : width ∣ 65536) (base : UInt64) (k len : Nat) :
    slots width base (k * 65536 + len) =
      slots width base (k * 65536) ++ slots width (base + UInt64.ofNat (k * 65536)) len := by
  obtain ⟨m, hm⟩ := hd
  have he : k * 65536 = k * m * width := by rw [hm]; ring
  rw [he]
  exact slots_add hw base (k * m) len

/-- The whole chunks of a region, put together. -/
theorem slots_chunks {width : Nat} (hw : 0 < width) (hd : width ∣ 65536) (base size : UInt64) (k : Nat)
    (h : k * 65536 ≤ size.toNat) :
    (List.range k).flatMap (fun i => slots width (base + UInt64.ofNat (i * 65536))
      (chunkSize size (UInt64.ofNat (i * 65536))).toNat) = slots width base (k * 65536) := by
  induction k with
  | zero => simp [slots]
  | succ k ih =>
    have hsize := size.toNat_lt
    rw [Nat.succ_mul] at h
    have hle : k * 65536 ≤ size.toNat := Nat.le_of_add_right_le h
    have hk : (UInt64.ofNat (k * 65536)).toNat = k * 65536 := toNat_chunk (hle.trans_lt hsize)
    have hchunk : (chunkSize size (UInt64.ofNat (k * 65536))).toNat = 65536 := by
      rw [chunkSize_toNat (hk.trans_le hle), hk]
      exact Nat.min_eq_right (Nat.le_sub_of_add_le' h)
    have hlast := slots_add_chunks hw hd base k 65536
    rw [← Nat.succ_mul] at hlast
    rw [hlast, List.range_succ, List.flatMap_append, List.flatMap_singleton, ih hle, hchunk]

/-- **The chunks of a region, one after the other, are the region.** -/
theorem slots_region {width : Nat} (hw : 0 < width) (hd : width ∣ 65536) (base size : UInt64) :
    (chunkOffsets size).flatMap (fun off => slots width (base + off) (chunkSize size off).toNat) =
      slots width base size.toNat := by
  have hs := size.toNat_lt
  have hchunks : (List.range (size.toNat / 65536)).flatMap (fun i => slots width (base + UInt64.ofNat (i * 65536))
      (chunkSize size (UInt64.ofNat (i * 65536))).toNat) = slots width base (size.toNat / 65536 * 65536) :=
    slots_chunks hw hd base size _ (Nat.div_mul_le_self _ _)
  unfold chunkOffsets
  rw [List.flatMap_map, kScanChunk_toNat]
  by_cases hr : size.toNat % 65536 = 0
  · rw [show (size.toNat + (65536 - 1)) / 65536 = size.toNat / 65536 by omega, hchunks]
    congr 1
    omega
  · have hk : (UInt64.ofNat (size.toNat / 65536 * 65536)).toNat = size.toNat / 65536 * 65536 := toNat_chunk (by omega)
    have hrest : (chunkSize size (UInt64.ofNat (size.toNat / 65536 * 65536))).toNat = size.toNat % 65536 := by
      rw [chunkSize_toNat (by omega), hk]; omega
    have hsum : size.toNat = size.toNat / 65536 * 65536 + size.toNat % 65536 := by omega
    rw [show (size.toNat + (65536 - 1)) / 65536 = size.toNat / 65536 + 1 by omega, List.range_succ, List.flatMap_append,
      List.flatMap_singleton, hchunks, hrest]
    conv_rhs => rw [hsum, slots_add_chunks hw hd]

/-- What a part of the scan adds to it. -/
structure Scanned (t : SearchTarget) (order : List UInt64) (sc sc' : Scan) : Prop where
  readings : ∀ r ∈ sc.readings, r ∈ sc'.readings
  found : ∃ new, sc'.found = sc.found ++ new ∧ (new.map Candidate.addr).Sublist order ∧
    ∀ c ∈ new, ∃ r ∈ sc'.readings, r.Shows c.addr t.width c.value
  size : sc.found.length ≤ kMaxCandidates → sc'.found.length ≤ kMaxCandidates

theorem Scanned.nothing (t : SearchTarget) (order : List UInt64) {sc sc' : Scan} (hr : ∀ r ∈ sc.readings, r ∈ sc'.readings)
    (hf : sc'.found = sc.found) : Scanned t order sc sc' where
  readings := hr
  found := ⟨[], by rw [hf, List.append_nil], List.nil_sublist _, by simp⟩
  size := by rw [hf]; exact id

theorem Scanned.trans {t : SearchTarget} {order order' : List UInt64} {sc sc' sc'' : Scan} (h : Scanned t order sc sc')
    (h' : Scanned t order' sc' sc'') : Scanned t (order ++ order') sc sc'' := by
  obtain ⟨new, hnew, hsub, hshow⟩ := h.found
  obtain ⟨new', hnew', hsub', hshow'⟩ := h'.found
  refine ⟨fun r hr => h'.readings r (h.readings r hr), ⟨new ++ new', ?_, ?_, ?_⟩, fun hs => h'.size (h.size hs)⟩
  · rw [hnew', hnew, List.append_assoc]
  · rw [List.map_append]
    exact hsub.append hsub'
  · intro c hc
    rcases List.mem_append.1 hc with hc | hc
    · obtain ⟨r, hr, hs⟩ := hshow c hc
      exact ⟨r, h'.readings r hr, hs⟩
    · exact hshow' c hc

theorem scanRegion_scanned (svc : CheatService) (t : SearchTarget) (budget : UInt64) (reg : Region) :
    ∀ (offs : List UInt64) (sc : Scan),
      Scanned t (offs.flatMap (fun off => slots t.width (reg.1 + off) (chunkSize reg.2 off).toNat)) sc
        (scanRegion svc t budget reg offs sc)
  | [], sc => .nothing t _ (fun _ hr => hr) rfl
  | off :: offs, sc => by
    unfold scanRegion
    by_cases hb : budget ≤ sc.scanned
    · rw [if_pos hb]
      exact .nothing t _ (fun _ hr => hr) rfl
    rw [if_neg hb, List.flatMap_cons]
    dsimp only
    cases hdata : svc.read sc.readings.length (reg.1 + off) (chunkSize reg.2 off).toNat with
    | none =>
      refine (Scanned.nothing t _ (fun r hr => ?_) ?_).trans (scanRegion_scanned svc t budget reg offs _)
      · exact List.mem_append_left _ hr
      · rfl
    | some buf =>
      obtain ⟨new, hnew, hsub, hshow⟩ := scanLoop_new t buf.val.length (reg.1 + off) buf.val sc.found
      rw [buf.property] at hsub
      have here : ∀ sc' : Scan, sc'.readings = sc.readings ++ [⟨reg.1 + off, some buf.val⟩] →
          sc'.found = (scanChunk t (reg.1 + off) buf.val sc.found).1 →
          Scanned t (slots t.width (reg.1 + off) (chunkSize reg.2 off).toNat) sc sc' := by
        intro sc' hr hf
        refine ⟨fun r h => ?_, ⟨new, by rw [hf]; exact hnew, hsub, fun c hc => ⟨_, ?_, hshow c hc⟩⟩, fun h => ?_⟩
        · rw [hr]; exact List.mem_append_left _ h
        · rw [hr]; simp
        · rw [hf]; exact scanLoop_length t _ _ _ _ h
      dsimp only
      split
      · refine (here _ ?_ ?_).trans (.nothing t _ (fun _ h => h) rfl) <;> rfl
      · refine (here _ ?_ ?_).trans (scanRegion_scanned svc t budget reg offs _) <;> rfl

theorem scanRegions_scanned (svc : CheatService) (t : SearchTarget) (budget : UInt64) :
    ∀ (regions : List Region) (sc : Scan), Scanned t (scanOrder t.width regions) sc (scanRegions svc t budget regions sc)
  | [], sc => .nothing t _ (fun _ hr => hr) rfl
  | reg :: regions, sc => by
    unfold scanRegions
    split
    · exact .nothing t _ (fun _ hr => hr) rfl
    · have here := scanRegion_scanned svc t budget reg (chunkOffsets reg.2) sc
      rw [slots_region (width_pos t) (width_dvd t) reg.1 reg.2] at here
      exact here.trans (scanRegions_scanned svc t budget regions _)

/-! ## Replies -/

/-- The reply reports an error. -/
def Reply.isError (r : Reply) : Bool := r.json.has (str "error")

theorem isError_fail (code : String) (message : Bytes) : (fail code message).isError = true := by
  simp [fail, Reply.isError]

theorem isError_set {r : Reply} {k : String} (v : Value) (hk : str k ≠ str "error") : (r.set k v).isError = r.isError := by
  simp [Reply.set, Reply.isError, hk]

theorem isError_setIf {r : Reply} {k : String} (c : Bool) (v : Value) (hk : str k ≠ str "error") :
    (r.setIf c k v).isError = r.isError := by
  unfold Reply.setIf
  split
  · exact isError_set v hk
  · rfl

theorem isError_beginReply (t : SearchTarget) (regions : List Region) (sc : Scan) :
    (beginReply t regions sc).isError = false := by
  unfold beginReply
  iterate 2 rw [isError_setIf _ _ (by decide)]
  iterate 4 rw [isError_set _ (by decide)]
  iterate 2 rw [isError_setIf _ _ (by decide)]
  rw [isError_set _ (by decide)]
  rfl

theorem isError_nextReply (op : Bytes) (before : Nat) (s : SearchState) : (nextReply op before s).isError = false := by
  unfold nextReply
  rw [isError_setIf _ _ (by decide)]
  iterate 4 rw [isError_set _ (by decide)]
  rfl

theorem ensureCheatProcess_error {svc : CheatService} {isOpen : Bool} {e : Reply}
    (h : ensureCheatProcess svc isOpen = .error e) : e.isError = true := by
  unfold ensureCheatProcess at h
  split at h
  · cases h; exact isError_fail _ _
  split at h
  · cases h; exact isError_fail _ _
  · cases h
  split at h
  · cases h; exact isError_fail _ _
  split at h
  · cases h
  · cases h; exact isError_fail _ _

theorem searchTarget_error {req : Request} {e : Reply} (h : searchTarget req = .error e) : e.isError = true := by
  unfold searchTarget at h
  dsimp only at h
  split at h
  · cases h
  · cases h; exact isError_fail _ _

theorem searchRegions_error {svc : CheatService} {req : Request} {m : CheatProcessMetadata} {e : Reply}
    (h : searchRegions svc req m = .error e) : e.isError = true := by
  unfold searchRegions at h
  split at h
  · cases h
  split at h
  · cases h; exact isError_fail _ _
  dsimp only at h
  split at h
  · cases h; exact isError_fail _ _
  · cases h

/-- **A plan refuses with an error, or its regions come from the request and the services.** -/
theorem searchPlan_cases (svc : CheatService) (req : Request) (isOpen : Bool) :
    (∃ e, searchPlan svc req isOpen = .error e ∧ e.isError = true) ∨
      ∃ t m regions, searchTarget req = .ok t ∧ svc.metadata = some m ∧ searchRegions svc req m = .ok regions ∧
        searchPlan svc req isOpen = .ok (t, regions) := by
  unfold searchPlan
  cases he : ensureCheatProcess svc isOpen with
  | error e => exact .inl ⟨e, rfl, ensureCheatProcess_error he⟩
  | ok u =>
  cases ht : searchTarget req with
  | error e => exact .inl ⟨e, rfl, searchTarget_error ht⟩
  | ok t =>
  cases hm : svc.metadata with
  | none => exact .inl ⟨_, rfl, isError_fail _ _⟩
  | some m =>
  cases hr : searchRegions svc req m with
  | error e => exact .inl ⟨e, by simp [hr]; rfl, searchRegions_error hr⟩
  | ok regions => exact .inr ⟨t, m, regions, rfl, rfl, hr, by simp [hr]; rfl⟩

theorem nextPlan_error {svc : CheatService} {req : Request} {s : SearchState} {e : Reply}
    (h : nextPlan svc req s = .error e) : e.isError = true := by
  unfold nextPlan at h
  cases he : ensureCheatProcess svc s.serviceOpen with
  | error e' => rw [he] at h; cases h; exact ensureCheatProcess_error he
  | ok u =>
    rw [he] at h
    dsimp only [bind, Except.bind] at h
    split at h
    · cases h; exact isError_fail _ _
    split at h
    · cases h; exact isError_fail _ _
    · cases h

/-! ## What a request does -/

theorem filterLoop_cases (svc : CheatService) (op : Bytes) (want : UInt64) (width : Nat) :
    ∀ (cs kept : List Candidate) (readings : List Reading),
      (∃ e rs, filterLoop svc op want width cs kept readings = (.error e, rs) ∧ e.isError = true) ∨
        ∃ new rs, filterLoop svc op want width cs kept readings = (.ok (kept ++ new), rs) ∧
          (∀ r ∈ readings, r ∈ rs) ∧ (new.map Candidate.addr).Sublist (cs.map Candidate.addr) ∧
          ∀ c ∈ new, ∃ r ∈ rs, r.Shows c.addr width c.value
  | [], kept, readings => .inr ⟨[], readings, by rw [filterLoop, List.append_nil], fun _ h => h, List.nil_sublist _, by simp⟩
  | c :: cs, kept, readings => by
    unfold filterLoop
    dsimp only
    cases hdata : svc.read readings.length c.addr width with
    | none =>
      rcases filterLoop_cases svc op want width cs kept (readings ++ [⟨c.addr, none⟩]) with h | ⟨new, rs, h, hr, hs, hn⟩
      · exact .inl h
      · exact .inr ⟨new, rs, h, fun r hr' => hr r (List.mem_append_left _ hr'), hs.cons _, hn⟩
    | some raw =>
      have shown : Reading.Shows ⟨c.addr, some raw.val⟩ c.addr width (loadValue raw.val width) :=
        ⟨raw.val, 0, rfl, by simp, by rw [Nat.zero_add]; exact raw.property.ge, by rw [List.drop_zero]⟩
      dsimp only [Option.map_some]
      cases hk : keeps op (loadValue raw.val width) want c.value with
      | none => exact .inl ⟨_, _, rfl, isError_fail _ _⟩
      | some b =>
      cases b with
      | true =>
        rcases filterLoop_cases svc op want width cs (kept ++ [⟨c.addr, loadValue raw.val width⟩])
          (readings ++ [⟨c.addr, some raw.val⟩]) with h | ⟨new, rs, h, hr, hs, hn⟩
        · exact .inl h
        · refine .inr ⟨⟨c.addr, loadValue raw.val width⟩ :: new, rs, ?_, fun r hr' => hr r (List.mem_append_left _ hr'),
            hs.cons_cons _, ?_⟩
          · dsimp only
            rw [h, List.append_assoc]
            rfl
          · intro c' hc'
            rcases List.mem_cons.1 hc' with rfl | hc'
            · exact ⟨_, hr _ (by simp), shown⟩
            · exact hn c' hc'
      | false =>
        rcases filterLoop_cases svc op want width cs kept (readings ++ [⟨c.addr, some raw.val⟩]) with h | ⟨new, rs, h, hr, hs, hn⟩
        · exact .inl h
        · exact .inr ⟨new, rs, h, fun r hr' => hr r (List.mem_append_left _ hr'), hs.cons _, hn⟩

def SearchState.addrs (s : SearchState) : List UInt64 := s.candidates.map Candidate.addr

/-- Table, width and generation are as they were. -/
def Untouched (s s' : SearchState) : Prop :=
  s'.candidates = s.candidates ∧ s'.width = s.width ∧ s'.generation = s.generation

/-- A value in the table was shown by one of the readings. -/
def ShownBy (readings : List Reading) (s : SearchState) : Prop :=
  ∀ c ∈ s.candidates, ∃ r ∈ readings, r.Shows c.addr s.width c.value

/-- Bytes of a region. -/
def Covers (reg : Region) (x : Nat) : Prop := reg.1.toNat ≤ x ∧ x < reg.1.toNat + reg.2.toNat

/-- The regions share no byte and end at or below 2^63. -/
structure RegionsApart (regions : List Region) : Prop where
  below : ∀ reg ∈ regions, reg.1.toNat + reg.2.toNat ≤ 2 ^ 63
  disjoint : regions.Pairwise (fun a b => ∀ x, Covers a x → ¬Covers b x)

/-- The regions the request scans, if it comes to a scan, are apart. -/
def SearchOp.Apart (op : SearchOp) : Prop :=
  op.command = .begin → ∀ isOpen t regions, searchPlan op.svc op.req isOpen = .ok (t, regions) → RegionsApart regions

/-- What a request can do to the table. -/
inductive Effect (s : SearchState) (op : SearchOp) (reply : Reply) (readings : List Reading) (s' : SearchState) : Prop
  | kept (h : reply.isError = true ∨ op.command = .results) (same : Untouched s s')
  | begun (t : SearchTarget) (m : CheatProcessMetadata) (regions : List Region) (command : op.command = .begin)
      (ok : reply.isError = false) (target : searchTarget op.req = .ok t) (metadata : op.svc.metadata = some m)
      (from_request : searchRegions op.svc op.req m = .ok regions) (apart : RegionsApart regions)
      (order : s'.addrs.Sublist (scanOrder t.width regions)) (size : s'.candidates.length ≤ kMaxCandidates)
      (width : s'.width = t.width) (shown : ShownBy readings s')
  | narrowed (command : op.command = .next) (ok : reply.isError = false) (order : s'.addrs.Sublist s.addrs)
      (width : s'.width = s.width) (shown : ShownBy readings s')
  | cleared (command : op.command = .reset) (ok : reply.isError = false) (none_left : s'.candidates = [])
      (width : s'.width = s.width)

theorem handle_effect (s : SearchState) (op : SearchOp) (h : op.Apart) :
    Effect s op (op.handle s).1.1 (op.handle s).1.2 (op.handle s).2 := by
  unfold SearchOp.handle
  cases hc : op.command with
  | begin =>
    dsimp only [searchBegin]
    rcases searchPlan_cases op.svc op.req (openAfter op.svc s.serviceOpen) with ⟨e, hp, he⟩ | ⟨t, m, regions, ht, hm, hr, hp⟩
    · rw [hp]
      exact .kept (.inl he) ⟨rfl, rfl, rfl⟩
    · have apart := h hc _ t regions hp
      have hs := scanRegions_scanned op.svc t (asU64 (op.req.get "max_bytes") (512 * 1024 * 1024)) regions {}
      obtain ⟨new, hnew, hsub, hshow⟩ := hs.found
      rw [List.nil_append] at hnew
      rw [hp]
      refine .begun t m regions hc (isError_beginReply t regions _) ht hm hr apart ?_ (hs.size (Nat.zero_le _)) rfl ?_
      · rw [← hnew] at hsub
        exact hsub
      · rw [← hnew] at hshow
        exact hshow
  | next =>
    dsimp only [searchNext]
    cases hp : nextPlan op.svc op.req { s with serviceOpen := openAfter op.svc s.serviceOpen } with
    | error e => exact .kept (.inl (nextPlan_error hp)) ⟨rfl, rfl, rfl⟩
    | ok p =>
      dsimp only
      rcases filterLoop_cases op.svc p.1 p.2 s.width s.candidates [] [] with ⟨e, rs, hf, he⟩ | ⟨new, rs, hf, -, hsub, hshow⟩
      · rw [hf]
        exact .kept (.inl he) ⟨rfl, rfl, rfl⟩
      · rw [hf]
        exact .narrowed hc (isError_nextReply _ _ _) hsub rfl hshow
  | results => exact .kept (.inr hc) ⟨rfl, rfl, rfl⟩
  | reset => exact .cleared hc (isError_set _ (by decide)) rfl rfl

theorem mem_slots {width len : Nat} {base x : UInt64} (h : x ∈ slots width base len) (hb : base.toNat + len ≤ 2 ^ 63) :
    ∃ i < len / width, x.toNat = base.toNat + i * width := by
  obtain ⟨i, hi, rfl⟩ := List.mem_map.1 h
  have hlt := List.mem_range.1 hi
  have hle : (i + 1) * width ≤ len := (Nat.mul_le_mul_right _ hlt).trans (Nat.div_mul_le_self _ _)
  rw [Nat.add_mul, one_mul] at hle
  refine ⟨i, hlt, ?_⟩
  rw [UInt64.toNat_add, UInt64.toNat_ofNat', Nat.mod_eq_of_lt (a := i * width) (by omega), Nat.mod_eq_of_lt (by omega)]

theorem nodup_slots {width len : Nat} {base : UInt64} (hw : 0 < width) (hl : len < 2 ^ 64) :
    (slots width base len).Nodup := by
  refine List.Nodup.map_on (fun i hi j hj h => ?_) List.nodup_range
  have hlt : ∀ k ∈ List.range (len / width), k * width < 2 ^ 64 := by
    intro k hk
    have := Nat.mul_le_mul_right width (List.mem_range.1 hk)
    have := Nat.div_mul_le_self len width
    rw [Nat.succ_mul] at *
    omega
  have hi' := hlt i hi
  have hj' := hlt j hj
  have e := congrArg UInt64.toNat (add_left_cancel h)
  rw [UInt64.toNat_ofNat', UInt64.toNat_ofNat', Nat.mod_eq_of_lt (by omega), Nat.mod_eq_of_lt (by omega)] at e
  exact Nat.eq_of_mul_eq_mul_right hw e

/-- A slot's first byte lies in its region. -/
theorem covers_of_mem {width : Nat} (hw : 0 < width) {reg : Region} {x : UInt64} (h : x ∈ slots width reg.1 reg.2.toNat)
    (hb : reg.1.toNat + reg.2.toNat ≤ 2 ^ 63) : Covers reg x.toNat := by
  obtain ⟨i, hi, hx⟩ := mem_slots h hb
  have hle := (Nat.mul_le_mul_right width (Nat.succ_le_of_lt hi)).trans (Nat.div_mul_le_self _ _)
  rw [Nat.succ_mul] at hle
  rw [Covers, hx]
  omega

/-- **No address is looked at twice.** -/
theorem nodup_scanOrder {width : Nat} (hw : 0 < width) {regions : List Region} (h : RegionsApart regions) :
    (scanOrder width regions).Nodup := by
  refine List.nodup_flatMap.2 ⟨fun reg hreg => nodup_slots hw reg.2.toNat_lt, ?_⟩
  refine h.disjoint.imp_of_mem fun {a b} ha hb hab x hxa hxb => ?_
  exact hab x.toNat (covers_of_mem hw hxa (h.below a ha)) (covers_of_mem hw hxb (h.below b hb))

/-! ## Runs -/

abbrev SearchEvent := Trace.Event SearchState SearchOp (Reply × List Reading)

/-- A `search.begin` that went through. -/
def begins (e : SearchEvent) : Bool := decide (e.input.command = .begin) && !e.output.1.isError

/-- A `search.begin` or `search.next` that went through. -/
def scans (e : SearchEvent) : Bool :=
  decide (e.input.command = .begin ∨ e.input.command = .next) && !e.output.1.isError

/-- What the table is, given what happened so far. -/
structure Tracked (log : List SearchEvent) (s : SearchState) : Prop where
  size : s.candidates.length ≤ kMaxCandidates
  distinct : s.addrs.Nodup
  unbegun : Trace.latest begins log = none → s.candidates = []
  begun : ∀ e, Trace.latest begins log = some e →
    ∃ t m regions, searchTarget e.input.req = .ok t ∧ e.input.svc.metadata = some m ∧
      searchRegions e.input.svc e.input.req m = .ok regions ∧ s.width = t.width ∧
      s.addrs.Sublist e.after.addrs ∧ e.after.addrs.Sublist (scanOrder t.width regions)
  shown : ∀ e, Trace.latest scans log = some e → ShownBy e.output.2 s
  next_adds_none : ∀ e ∈ log, e.input.command = .next → e.after.addrs.Sublist e.before.addrs
  errors_touch_none : ∀ e ∈ log, e.output.1.isError = true → Untouched e.before e.after

theorem tracked_start : Tracked [] {} where
  size := Nat.zero_le _
  distinct := List.nodup_nil
  unbegun _ := rfl
  begun _ h := by cases h
  shown _ h := by cases h
  next_adds_none _ h := by cases h
  errors_touch_none _ h := by cases h

/-- What one event says about itself. -/
theorem event_facts {s s' : SearchState} {op : SearchOp} {reply : Reply} {readings : List Reading}
    (h : Effect s op reply readings s') :
    (op.command = .next → s'.addrs.Sublist s.addrs) ∧ (reply.isError = true → Untouched s s') := by
  cases h with
  | kept h same =>
    refine ⟨fun _ => ?_, fun _ => same⟩
    rw [SearchState.addrs, same.1]
    exact List.Sublist.refl _
  | begun t m regions command ok =>
    refine ⟨fun hn => ?_, fun he => ?_⟩
    · rw [command] at hn; cases hn
    · rw [ok] at he; cases he
  | narrowed command ok order => exact ⟨fun _ => order, fun he => by rw [ok] at he; cases he⟩
  | cleared command ok =>
    refine ⟨fun hn => ?_, fun he => ?_⟩
    · rw [command] at hn; cases hn
    · rw [ok] at he; cases he

/-- **One request keeps the table tracked.** -/
theorem tracked_snoc {log : List SearchEvent} {s : SearchState} (op : SearchOp) (h : Tracked log s) (ha : op.Apart) :
    Tracked (log ++ [Trace.event SearchOp.handle s op]) (op.handle s).2 := by
  have effect := handle_effect s op ha
  have facts := event_facts effect
  have next_adds_none : ∀ e ∈ log ++ [Trace.event SearchOp.handle s op], e.input.command = .next →
      e.after.addrs.Sublist e.before.addrs := by
    intro e he
    rcases List.mem_append.1 he with he | he
    · exact h.next_adds_none e he
    · rw [List.mem_singleton.1 he]; exact facts.1
  have errors_touch_none : ∀ e ∈ log ++ [Trace.event SearchOp.handle s op], e.output.1.isError = true →
      Untouched e.before e.after := by
    intro e he
    rcases List.mem_append.1 he with he | he
    · exact h.errors_touch_none e he
    · rw [List.mem_singleton.1 he]; exact facts.2
  cases effect with
  | kept hk same =>
    obtain ⟨hc, hw, -⟩ := same
    have hb : begins (Trace.event SearchOp.handle s op) = false := by
      rcases hk with hk | hk <;> simp [begins, Trace.event, hk]
    have hs : scans (Trace.event SearchOp.handle s op) = false := by
      rcases hk with hk | hk <;> simp [scans, Trace.event, hk]
    refine ⟨by rw [hc]; exact h.size, by rw [SearchState.addrs, hc]; exact h.distinct, ?_, ?_, ?_, next_adds_none,
      errors_touch_none⟩
    · rw [Trace.latest_snoc, hb, hc]; exact h.unbegun
    · rw [Trace.latest_snoc, hb, SearchState.addrs, hc, hw]; exact h.begun
    · rw [Trace.latest_snoc, hs]
      intro e he
      unfold ShownBy
      rw [hc, hw]
      exact h.shown e he
  | begun t m regions command ok target metadata from_request apart order size width shown =>
    have hb : begins (Trace.event SearchOp.handle s op) = true := by simp [begins, Trace.event, command, ok]
    have hs : scans (Trace.event SearchOp.handle s op) = true := by simp [scans, Trace.event, command, ok]
    refine ⟨size, order.nodup (nodup_scanOrder (width_pos t) apart), ?_, ?_, ?_, next_adds_none, errors_touch_none⟩
    · rw [Trace.latest_snoc, hb]; intro hn; cases hn
    · rw [Trace.latest_snoc, hb]
      intro e he
      cases he
      exact ⟨t, m, regions, target, metadata, from_request, width, List.Sublist.refl _, order⟩
    · rw [Trace.latest_snoc, hs]
      intro e he
      cases he
      exact shown
  | narrowed command ok order width shown =>
    have hb : begins (Trace.event SearchOp.handle s op) = false := by simp [begins, Trace.event, command]
    have hs : scans (Trace.event SearchOp.handle s op) = true := by simp [scans, Trace.event, command, ok]
    have hlen : (op.handle s).2.candidates.length ≤ s.candidates.length := by
      simpa [SearchState.addrs] using order.length_le
    refine ⟨hlen.trans h.size, order.nodup h.distinct, ?_, ?_, ?_, next_adds_none, errors_touch_none⟩
    · rw [Trace.latest_snoc, hb]
      intro hn
      have := h.unbegun hn
      rw [SearchState.addrs, SearchState.addrs, this, List.map_nil, List.sublist_nil, List.map_eq_nil_iff] at order
      exact order
    · rw [Trace.latest_snoc, hb]
      intro e he
      obtain ⟨t, m, regions, ht, hm, hr, hw, hsub, hsc⟩ := h.begun e he
      exact ⟨t, m, regions, ht, hm, hr, width.trans hw, order.trans hsub, hsc⟩
    · rw [Trace.latest_snoc, hs]
      intro e he
      cases he
      exact shown
  | cleared command ok none_left width =>
    have hb : begins (Trace.event SearchOp.handle s op) = false := by simp [begins, Trace.event, command]
    have hs : scans (Trace.event SearchOp.handle s op) = false := by simp [scans, Trace.event, command]
    refine ⟨by rw [none_left]; exact Nat.zero_le _, by rw [SearchState.addrs, none_left]; exact List.nodup_nil,
      fun _ => none_left, ?_, ?_, next_adds_none, errors_touch_none⟩
    · rw [Trace.latest_snoc, hb]
      intro e he
      obtain ⟨t, m, regions, ht, hm, hr, hw, -, hsc⟩ := h.begun e he
      refine ⟨t, m, regions, ht, hm, hr, width.trans hw, ?_, hsc⟩
      rw [SearchState.addrs, none_left]
      exact List.nil_sublist _
    · intro e _ c hc
      rw [none_left] at hc
      cases hc

/-- **After any requests the table is a part of what the latest `search.begin` found**: within the cap, no address twice,
in the order of that scan and at its width, each value shown by a reading of the latest scan; no `search.next` adds an
address, and no request that reports an error touches it. -/
theorem table_tracked (ops : List SearchOp) (h : ∀ op ∈ ops, op.Apart) :
    Tracked (Trace.log SearchOp.handle {} ops) (Trace.run SearchOp.handle {} ops) :=
  Trace.log_induction SearchOp.handle tracked_start (fun _ _ op ht ha => tracked_snoc op ht ha) ops h

/-- One explicit region is apart from nothing else. -/
theorem SearchOp.apart_explicit {op : SearchOp} (hb : op.req.msg.has (str "base") = true)
    (hs : op.req.msg.has (str "size") = true)
    (h : (asU64 (op.req.get "base") 0).toNat + (asU64 (op.req.get "size") 0).toNat ≤ 2 ^ 63) : op.Apart := by
  intro _ isOpen t regions hp
  rcases searchPlan_cases op.svc op.req isOpen with ⟨e, he, -⟩ | ⟨t', m, regions', -, -, hr, hp'⟩
  · rw [he] at hp; cases hp
  · rw [hp'] at hp
    cases hp
    rw [searchRegions, hb, hs, Bool.and_self, if_pos rfl] at hr
    cases hr
    exact ⟨fun reg hreg => by rw [List.mem_singleton.1 hreg]; exact h, List.pairwise_singleton _ _⟩

/-- A service that finds one byte everywhere. -/
def filledWith (b : UInt8) : CheatService where
  getService := true
  hasCheatProcess := some true
  applicationPid := none
  forceOpen := false
  metadata := some ⟨⟨0, 0⟩, ⟨0, 0⟩⟩
  mappingCount := none
  mappings := none
  read _ _ size := some ⟨List.replicate size b, List.length_replicate⟩

/-- `search.begin` for 0x07070707 over the eight bytes at 0x1000, then `search.next` for what increased. -/
def narrowing : List SearchOp :=
  [⟨.begin, ⟨(((Value.object []).set (str "base") (.int 4096)).set (str "size") (.int 8)).set (str "value") (.int 117901063),
      []⟩, filledWith 7⟩,
    ⟨.next, ⟨(Value.object []).set (str "op") (.string (str "increased")), []⟩, filledWith 9⟩]

theorem table_tracked_narrowing :
    Tracked (Trace.log SearchOp.handle {} narrowing) (Trace.run SearchOp.handle {} narrowing) ∧
      (Trace.run SearchOp.handle {} narrowing).candidates = [⟨4096, 0x09090909⟩, ⟨4100, 0x09090909⟩] := by
  refine ⟨table_tracked narrowing fun op hop => ?_, by decide +kernel⟩
  rcases List.mem_cons.1 hop with rfl | hop
  · exact SearchOp.apart_explicit rfl rfl (by decide +kernel)
  · rw [List.mem_singleton.1 hop]
    intro hc
    cases hc

end Agent
end SwitchMcp

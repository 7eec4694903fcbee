import SwitchMcp.SearchRuns
/-!
# SearchReplies — what a reply of the search says about the table (agent/source/handlers/memsearch.cpp)

`SearchNext` looks at the operator only when it has read a candidate: `next_refuses_iff` says when one that it does not know
is refused.  `SearchBegin` compares what it loads with all 64 bits of the request's value: `begin_complete_iff` says when a
scan that tells of no cut has every address that holds the value's low bytes.
-/
namespace SwitchMcp
namespace Agent

open Json (Value)

/-! ## Operators -/

/-- The operators that `SearchNext` knows. -/
def searchOps : List Bytes :=
  [str "eq", str "ne", str "gt", str "lt", str "changed", str "unchanged", str "increased", str "decreased"]

theorem keeps_unknown {op : Bytes} (h : op ∉ searchOps) (now want was : UInt64) : keeps op now want was = none := by
  simp only [searchOps, List.mem_cons, List.not_mem_nil, or_false, not_or] at h
  obtain ⟨h1, h2, h3, h4, h5, h6, h7, h8⟩ := h
  unfold keeps
  rw [if_neg h1, if_neg h2, if_neg h3, if_neg h4, if_neg h5, if_neg h6, if_neg h7, if_neg h8]

theorem needsValue_unknown {op : Bytes} (h : op ∉ searchOps) : needsValue op = false := by
  refine decide_eq_false fun hop => h ?_
  rcases hop with rfl | rfl | rfl | rfl <;> simp [searchOps]

/-- One of the candidates is read; `n` readings were made before. -/
def SomeRead (svc : CheatService) (width n : Nat) (cs : List Candidate) : Prop :=
  ∃ i c, cs[i]? = some c ∧ (svc.read (n + i) c.addr width).isSome = true

theorem someRead_cons {svc : CheatService} {width n : Nat} {c : Candidate} {cs : List Candidate} :
    SomeRead svc width n (c :: cs) ↔ (svc.read n c.addr width).isSome = true ∨ SomeRead svc width (n + 1) cs := by
  constructor
  · rintro ⟨i, c', hi, hr⟩
    cases i with
    | zero =>
      rw [List.getElem?_cons_zero, Option.some.injEq] at hi
      subst hi
      exact Or.inl hr
    | succ i =>
      rw [List.getElem?_cons_succ] at hi
      rw [Nat.add_comm i 1, ← Nat.add_assoc] at hr
      exact Or.inr ⟨i, c', hi, hr⟩
  · rintro (hr | ⟨i, c', hi, hr⟩)
    · exact ⟨0, c, rfl, hr⟩
    · refine ⟨i + 1, c', by rw [List.getElem?_cons_succ, hi], ?_⟩
      rwa [Nat.add_comm i 1, ← Nat.add_assoc]

/-- **An operator that is not known ends the loop at the first candidate that is read**; without one, all are dropped. -/
theorem filterLoop_unknown (svc : CheatService) {op : Bytes} (h : op ∉ searchOps) (want : UInt64) (width : Nat) :
    ∀ (cs kept : List Candidate) (readings : List Reading),
      (SomeRead svc width readings.length cs ∧ ∃ e, (filterLoop svc op want width cs kept readings).1 = .error e ∧
          e.errorCode = .string (str "bad_arg")) ∨
        (¬SomeRead svc width readings.length cs ∧ (filterLoop svc op want width cs kept readings).1 = .ok kept)
  | [], kept, readings => Or.inr ⟨fun ⟨_, _, hi, _⟩ => (nomatch hi), rfl⟩
  | c :: cs, kept, readings => by
    unfold filterLoop
    dsimp only
    rw [someRead_cons]
    cases hdata : svc.read readings.length c.addr width with
    | none =>
      have hlen : readings.length + 1 = (readings ++ [(⟨c.addr, none⟩ : Reading)]).length := by simp
      rw [hlen]
      rcases filterLoop_unknown svc h want width cs kept (readings ++ [⟨c.addr, none⟩]) with ⟨hr, he⟩ | ⟨hr, he⟩
      · exact Or.inl ⟨Or.inr hr, he⟩
      · exact Or.inr ⟨not_or.2 ⟨Bool.false_ne_true, hr⟩, he⟩
    | some raw =>
      dsimp only [Option.map_some]
      rw [keeps_unknown h]
      exact Or.inl ⟨Or.inl rfl, _, rfl, errorCode_fail _ _⟩

theorem errorCode_nextReply (op : Bytes) (before : Nat) (s : SearchState) : (nextReply op before s).errorCode = .null := by
  have h1 : str "generation" ≠ str "error" := by decide
  have h2 : str "op" ≠ str "error" := by decide
  have h3 : str "before" ≠ str "error" := by decide
  have h4 : str "candidates" ≠ str "error" := by decide
  have h5 : str "note" ≠ str "error" := by decide
  unfold nextReply Reply.setIf Reply.errorCode Reply.set
  split <;> simp [h1, h2, h3, h4, h5] <;> rfl

theorem ensureCheatProcess_code {svc : CheatService} {isOpen : Bool} {e : Reply}
    (h : ensureCheatProcess svc isOpen = .error e) : e.errorCode ≠ .string (str "bad_arg") := by
  have hcode : ∀ code message, str code ≠ str "bad_arg" → (fail code message).errorCode ≠ .string (str "bad_arg") := by
    intro code message hc he
    rw [errorCode_fail, Value.string.injEq] at he
    exact hc he
  unfold ensureCheatProcess at h
  repeat' split at h
  all_goals cases h
  all_goals exact hcode _ _ (by decide)

/-- The operator of a request. -/
def nextOp (req : Request) : Bytes := (req.get "op").asString (str "eq")

/-- **`search.next` refuses an operator that it does not know, and leaves the table as it is, exactly when a process is
attached and some candidate is read**. -/
theorem next_refuses_iff (svc : CheatService) (req : Request) (s : SearchState) (hs : s.candidates ≠ [])
    (hop : nextOp req ∉ searchOps) :
    ((searchNext svc req s).1.1.errorCode = .string (str "bad_arg") ∧ Untouched s (searchNext svc req s).2) ↔
      ensureCheatProcess svc (openAfter svc s.serviceOpen) = .ok () ∧ SomeRead svc s.width 0 s.candidates := by
  unfold searchNext
  dsimp only
  cases he : ensureCheatProcess svc (openAfter svc s.serviceOpen) with
  | error e =>
    have hplan : nextPlan svc req { s with serviceOpen := openAfter svc s.serviceOpen } = .error e := by
      unfold nextPlan
      dsimp only
      rw [he]
      rfl
    rw [hplan]
    exact ⟨fun h => absurd h.1 (ensureCheatProcess_code he), fun h => by cases h.1⟩
  | ok u =>
    have hempty : s.candidates.isEmpty = false := List.isEmpty_eq_false_iff.2 hs
    have hplan : nextPlan svc req { s with serviceOpen := openAfter svc s.serviceOpen } =
        .ok (nextOp req, asU64 (req.get "value") 0) := by
      unfold nextPlan
      dsimp only
      rw [he]
      dsimp only [bind, Except.bind]
      rw [hempty, if_neg Bool.false_ne_true]
      rw [show (req.get "op").asString (str "eq") = nextOp req from rfl, needsValue_unknown hop]
      rfl
    rw [hplan]
    dsimp only
    rcases filterLoop_unknown svc hop (asU64 (req.get "value") 0) s.width s.candidates [] [] with ⟨hr, e, hf, hcode⟩ | ⟨hr, hf⟩
    · rw [hf]
      exact ⟨fun _ => ⟨rfl, hr⟩, fun _ => ⟨hcode, rfl, rfl, rfl⟩⟩
    · rw [hf]
      refine ⟨fun h => ?_, fun h => absurd h.2 hr⟩
      rw [errorCode_nextReply] at h
      cases h.1

/-- A request with an operator that is not known. -/
def unknownOp : Request := ⟨(Value.object []).set (str "op") (.string (str "between")), []⟩

def oneCandidate : SearchState := { candidates := [⟨4096, 7⟩] }

theorem next_refuses_iff_read : (searchNext (filledWith 7) unknownOp oneCandidate).1.1.errorCode = .string (str "bad_arg") ∧
    Untouched oneCandidate (searchNext (filledWith 7) unknownOp oneCandidate).2 :=
  (next_refuses_iff (filledWith 7) unknownOp oneCandidate (List.cons_ne_nil _ _) (by decide)).2
    ⟨rfl, 0, ⟨4096, 7⟩, rfl, rfl⟩

/-- A service whose reads all fail. -/
def unreadable : CheatService := { filledWith 0 with read := fun _ _ _ => none }

/-- **Where no candidate is read, an operator that is not known empties the table**, without an error. -/
theorem unknown_op_empties : (searchNext unreadable unknownOp oneCandidate).1.1.isError = false ∧
    (searchNext unreadable unknownOp oneCandidate).2.candidates = [] ∧
    (searchNext unreadable unknownOp oneCandidate).2.generation = 1 := by
  refine ⟨by decide +kernel, by decide +kernel, by decide +kernel⟩

/-! ## The first scan -/

/-- The addresses of a chunk at which a value was read. -/
def chunkMatches (width : Nat) (v : UInt64) (addr : UInt64) (buf : Bytes) : List UInt64 :=
  ((List.range (buf.length / width)).filter fun k => decide (loadValue (buf.drop (k * width)) width = v)).map
    fun k => addr + UInt64.ofNat (k * width)

/-- The chunks of regions, in the order of the scan: their addresses and sizes. -/
def chunksOf (regions : List Region) : List (UInt64 × Nat) :=
  regions.flatMap fun reg => (chunkOffsets reg.2).map fun off => (reg.1 + off, (chunkSize reg.2 off).toNat)

/-- The addresses at which a value is found, when chunk after chunk is read from the `n`-th reading on. -/
def matchesIn (svc : CheatService) (width : Nat) (v : UInt64) : Nat → List (UInt64 × Nat) → List UInt64
  | _, [] => []
  | n, c :: cs =>
    (match svc.read n c.1 c.2 with
      | none => []
      | some buf => chunkMatches width v c.1 buf.val) ++ matchesIn svc width v (n + 1) cs

theorem matchesIn_append (svc : CheatService) (width : Nat) (v : UInt64) : ∀ (cs cs' : List (UInt64 × Nat)) (n : Nat),
    matchesIn svc width v n (cs ++ cs') = matchesIn svc width v n cs ++ matchesIn svc width v (n + cs.length) cs'
  | [], _, _ => rfl
  | c :: cs, cs', n => by
    rw [List.cons_append, matchesIn, matchesIn_append svc width v cs cs' (n + 1), matchesIn, List.append_assoc,
      List.length_cons, Nat.add_right_comm, Nat.add_assoc]

theorem chunkMatches_cons {width : Nat} (hw : 0 < width) (v addr : UInt64) {buf : Bytes} (h : width ≤ buf.length) :
    chunkMatches width v addr buf = (if loadValue buf width = v then [addr] else []) ++
      chunkMatches width v (addr + UInt64.ofNat width) (buf.drop width) := by
  have hdiv : buf.length / width = (buf.drop width).length / width + 1 := by
    rw [List.length_drop, ← Nat.add_div_right _ hw, Nat.sub_add_cancel h]
  have hstep : ∀ k, (k + 1) * width = width + k * width := fun k => by rw [Nat.succ_mul, Nat.add_comm]
  unfold chunkMatches
  rw [hdiv, List.range_succ_eq_map, List.filter_cons, List.filter_map, Nat.zero_mul, List.drop_zero]
  have htail : (List.map Nat.succ (List.filter ((fun k => decide (loadValue (buf.drop (k * width)) width = v)) ∘ Nat.succ)
      (List.range ((buf.drop width).length / width)))).map (fun k => addr + UInt64.ofNat (k * width)) =
      ((List.range ((buf.drop width).length / width)).filter fun k =>
        decide (loadValue ((buf.drop width).drop (k * width)) width = v)).map
          fun k => addr + UInt64.ofNat width + UInt64.ofNat (k * width) := by
    rw [List.map_map]
    congr 1
    · funext k
      rw [Function.comp_apply, Nat.succ_eq_add_one, hstep, UInt64.ofNat_add, UInt64.add_assoc]
    · refine List.filter_congr fun k _ => ?_
      rw [Function.comp_apply, Nat.succ_eq_add_one, hstep, List.drop_drop]
  by_cases hv : loadValue buf width = v
  · rw [if_pos hv, if_pos (decide_eq_true hv), List.map_cons, htail, Nat.zero_mul]
    rw [show UInt64.ofNat 0 = 0 from rfl, UInt64.add_zero]
    rfl
  · rw [if_neg hv, if_neg (by rw [decide_eq_false hv]; exact Bool.false_ne_true), htail]
    rfl

/-- **A chunk that is not cut adds all its matches.** -/
theorem scanLoop_exact (t : SearchTarget) : ∀ (n : Nat) (addr : UInt64) (buf : Bytes) (found : List Candidate),
    buf.length ≤ n → (scanLoop t n addr buf found).2 = false →
    (scanLoop t n addr buf found).1.map Candidate.addr = found.map Candidate.addr ++ chunkMatches t.width t.value addr buf
  | 0, addr, buf, found, hn, _ => by
    have hb : buf = [] := List.length_eq_zero_iff.1 (Nat.le_zero.1 hn)
    subst hb
    simp [scanLoop, chunkMatches]
  | n + 1, addr, buf, found, hn, hcut => by
    have hw := width_pos t
    unfold scanLoop at hcut ⊢
    by_cases hlen : buf.length < t.width
    · rw [if_pos hlen]
      simp [chunkMatches, Nat.div_eq_of_lt hlen]
    rw [if_neg hlen] at hcut ⊢
    have hdrop : (buf.drop t.width).length ≤ n := by
      rw [List.length_drop]
      omega
    rw [chunkMatches_cons hw t.value addr (Nat.not_lt.1 hlen)]
    by_cases hv : loadValue buf t.width = t.value
    · rw [if_pos hv] at hcut ⊢
      rw [if_pos hv]
      by_cases hcap : kMaxCandidates ≤ found.length
      · rw [if_pos hcap] at hcut
        cases hcut
      · rw [if_neg hcap] at hcut ⊢
        rw [scanLoop_exact t n _ _ _ hdrop hcut, List.map_append, List.append_assoc]
        rfl
    · rw [if_neg hv] at hcut ⊢
      rw [if_neg hv, scanLoop_exact t n _ _ _ hdrop hcut, List.nil_append]

/-- What a part of the scan has done when it tells of no cut: every chunk was read for, and its matches are in the table. -/
def Covered (svc : CheatService) (t : SearchTarget) (cs : List (UInt64 × Nat)) (sc sc' : Scan) : Prop :=
  sc'.truncated = false → sc'.budgetHit = false →
    sc'.readings.length = sc.readings.length + cs.length ∧
      sc'.found.map Candidate.addr = sc.found.map Candidate.addr ++ matchesIn svc t.width t.value sc.readings.length cs

theorem Covered.trans {svc : CheatService} {t : SearchTarget} {cs cs' : List (UInt64 × Nat)} {sc sc1 sc2 : Scan}
    (h : Covered svc t cs sc sc1) (h' : Covered svc t cs' sc1 sc2)
    (hback : sc2.truncated = false → sc2.budgetHit = false → sc1.truncated = false ∧ sc1.budgetHit = false) :
    Covered svc t (cs ++ cs') sc sc2 := by
  intro ht hb
  obtain ⟨ht1, hb1⟩ := hback ht hb
  obtain ⟨hlen, hfound⟩ := h ht1 hb1
  obtain ⟨hlen', hfound'⟩ := h' ht hb
  refine ⟨by rw [hlen', hlen, List.length_append, Nat.add_assoc], ?_⟩
  rw [hfound', hfound, hlen, matchesIn_append, List.append_assoc]

theorem scanRegion_covered (svc : CheatService) (t : SearchTarget) (budget : UInt64) (reg : Region) :
    ∀ (offs : List UInt64) (sc : Scan), sc.truncated = false → sc.budgetHit = false →
      Covered svc t (offs.map fun off => (reg.1 + off, (chunkSize reg.2 off).toNat)) sc (scanRegion svc t budget reg offs sc)
  | [], sc, _, _ => fun _ _ => ⟨rfl, (List.append_nil _).symm⟩
  | off :: offs, sc, hsct, hscb => by
    unfold scanRegion
    by_cases hb : budget ≤ sc.scanned
    · rw [if_pos hb]
      exact fun _ h => by cases h
    rw [if_neg hb, List.map_cons, ← List.singleton_append]
    dsimp only
    cases hdata : svc.read sc.readings.length (reg.1 + off) (chunkSize reg.2 off).toNat with
    | none =>
      have here : Covered svc t [(reg.1 + off, (chunkSize reg.2 off).toNat)] sc
          { sc with readings := sc.readings ++ [⟨reg.1 + off, none⟩] } := by
        intro _ _
        refine ⟨by simp, ?_⟩
        rw [matchesIn, hdata, matchesIn]
        simp
      exact here.trans (scanRegion_covered svc t budget reg offs _ hsct hscb) fun _ _ => ⟨hsct, hscb⟩
    | some buf =>
      dsimp only [Option.map_some]
      have here : ∀ sc' : Scan, sc'.readings = sc.readings ++ [⟨reg.1 + off, some buf.val⟩] →
          sc'.found = (scanChunk t (reg.1 + off) buf.val sc.found).1 →
          sc'.truncated = (scanChunk t (reg.1 + off) buf.val sc.found).2 →
          Covered svc t [(reg.1 + off, (chunkSize reg.2 off).toNat)] sc sc' := by
        intro sc' hr hf htr ht _
        rw [htr] at ht
        refine ⟨by rw [hr]; simp, ?_⟩
        rw [hf, matchesIn, hdata, matchesIn, List.append_nil]
        exact scanLoop_exact t _ _ _ _ le_rfl ht
      by_cases hcut : (scanChunk t (reg.1 + off) buf.val sc.found).2 = true
      · rw [if_pos hcut]
        intro ht _
        rw [hcut] at ht
        cases ht
      · rw [if_neg hcut]
        rw [Bool.not_eq_true] at hcut
        exact (here _ rfl rfl rfl).trans (scanRegion_covered svc t budget reg offs _ hcut hscb) fun _ _ => ⟨hcut, hscb⟩

theorem scanRegions_covered (svc : CheatService) (t : SearchTarget) (budget : UInt64) :
    ∀ (regions : List Region) (sc : Scan), sc.truncated = false → sc.budgetHit = false →
      Covered svc t (chunksOf regions) sc (scanRegions svc t budget regions sc)
  | [], sc, _, _ => fun _ _ => ⟨rfl, (List.append_nil _).symm⟩
  | reg :: regions, sc, hsct, hscb => by
    unfold scanRegions
    rw [hsct, hscb, Bool.or_self, if_neg Bool.false_ne_true]
    have here := scanRegion_covered svc t budget reg (chunkOffsets reg.2) sc hsct hscb
    generalize scanRegion svc t budget reg (chunkOffsets reg.2) sc = sc1 at here ⊢
    rw [chunksOf, List.flatMap_cons]
    by_cases hcut : sc1.truncated = true ∨ sc1.budgetHit = true
    · -- A scan that was cut stays cut.
      have hstop : scanRegions svc t budget regions sc1 = sc1 := by
        cases regions with
        | nil => rfl
        | cons reg' regions => rw [scanRegions, if_pos (Bool.or_eq_true _ _ ▸ hcut)]
      rw [hstop]
      intro ht hb
      rw [ht, hb] at hcut
      rcases hcut with h | h <;> cases h
    · rw [not_or, Bool.not_eq_true, Bool.not_eq_true] at hcut
      exact here.trans (scanRegions_covered svc t budget regions sc1 hcut.1 hcut.2) fun _ _ => hcut

/-! ## The value that is looked for -/

/-- The low `width` bytes of the request's value. -/
def SearchTarget.low (t : SearchTarget) : UInt64 := UInt64.ofNat (t.value.toNat % 256 ^ t.width)

theorem leNat_lt (b : Bytes) : leNat b < 256 ^ b.length := by
  induction b with
  | nil => exact Nat.one_pos
  | cons x b ih =>
    have hx := x.toNat_lt
    rw [leNat, List.length_cons, pow_succ]
    omega

theorem loadValue_lt (t : SearchTarget) (p : Bytes) : (loadValue p t.width).toNat < 256 ^ t.width := by
  have hlt := leNat_lt (p.take t.width)
  have hle : 256 ^ (p.take t.width).length ≤ 256 ^ t.width := Nat.pow_le_pow_right (by omega) (List.length_take_le _ _)
  unfold loadValue
  rw [UInt64.toNat_ofNat']
  exact (Nat.mod_le _ _).trans_lt (hlt.trans_le hle)

theorem low_eq {t : SearchTarget} (h : t.value.toNat < 256 ^ t.width) : t.low = t.value := by
  rw [SearchTarget.low, Nat.mod_eq_of_lt h, UInt64.ofNat_toNat]

/-- A value that does not fit its width is found nowhere. -/
theorem matchesIn_unfit {t : SearchTarget} (svc : CheatService) (h : ¬t.value.toNat < 256 ^ t.width) :
    ∀ (cs : List (UInt64 × Nat)) (n : Nat), matchesIn svc t.width t.value n cs = []
  | [], _ => rfl
  | c :: cs, n => by
    rw [matchesIn, matchesIn_unfit svc h cs, List.append_nil]
    cases svc.read n c.1 c.2 with
    | none => rfl
    | some buf =>
      dsimp only
      rw [chunkMatches, List.filter_eq_nil_iff.2, List.map_nil]
      intro k _ hk
      exact h (of_decide_eq_true hk ▸ loadValue_lt t _)

/-! ## Each address once -/

/-- The regions have no address in common, and the chunk counter passes the end of each. -/
structure Separate (regions : List Region) : Prop where
  ends : ∀ reg ∈ regions, reg.2.toNat + 65536 ≤ 2 ^ 64
  apart : regions.Pairwise fun a b => ∀ i < a.2.toNat, ∀ j < b.2.toNat, a.1 + UInt64.ofNat i ≠ b.1 + UInt64.ofNat j

theorem mem_slots_offset {width len : Nat} {base x : UInt64} (hw : 0 < width) (h : x ∈ slots width base len) :
    ∃ i < len, x = base + UInt64.ofNat i := by
  obtain ⟨k, hk, rfl⟩ := List.mem_map.1 h
  have hlt := Nat.mul_le_mul_right width (List.mem_range.1 hk)
  have hle := Nat.div_mul_le_self len width
  rw [Nat.succ_mul] at hlt
  exact ⟨k * width, by omega, rfl⟩

theorem nodup_scanOrder_separate {width : Nat} (hw : 0 < width) {regions : List Region} (h : Separate regions) :
    (scanOrder width regions).Nodup := by
  refine List.nodup_flatMap.2 ⟨fun reg _ => nodup_slots hw reg.2.toNat_lt, h.apart.imp fun {a b} hab x hxa hxb => ?_⟩
  obtain ⟨i, hi, ha⟩ := mem_slots_offset hw hxa
  obtain ⟨j, hj, hb⟩ := mem_slots_offset hw hxb
  exact hab i hi j hj (ha.symm.trans hb)

theorem matchesIn_sublist (svc : CheatService) (width : Nat) (v : UInt64) : ∀ (cs : List (UInt64 × Nat)) (n : Nat),
    (matchesIn svc width v n cs).Sublist (cs.flatMap fun c => slots width c.1 c.2)
  | [], _ => List.nil_sublist _
  | c :: cs, n => by
    rw [matchesIn, List.flatMap_cons]
    refine List.Sublist.append ?_ (matchesIn_sublist svc width v cs (n + 1))
    cases svc.read n c.1 c.2 with
    | none => exact List.nil_sublist _
    | some buf =>
      dsimp only
      rw [chunkMatches, buf.property]
      exact List.filter_sublist.map _

/-- **The matches of the chunks are slots of the regions, in their order.** -/
theorem matchesIn_scanOrder (svc : CheatService) (t : SearchTarget) (v : UInt64) (regions : List Region) :
    (matchesIn svc t.width v 0 (chunksOf regions)).Sublist (scanOrder t.width regions) := by
  have hchunks : (chunksOf regions).flatMap (fun c => slots t.width c.1 c.2) = scanOrder t.width regions := by
    rw [chunksOf, List.flatMap_assoc, scanOrder]
    congr 1
    funext reg
    rw [List.flatMap_map, slots_region (width_pos t) (width_dvd t)]
  rw [← hchunks]
  exact matchesIn_sublist svc t.width v (chunksOf regions) 0

theorem flags_beginReply (t : SearchTarget) (regions : List Region) (sc : Scan) :
    (beginReply t regions sc).json.has (str "truncated") = sc.truncated ∧
      (beginReply t regions sc).json.has (str "budget_exhausted") = sc.budgetHit := by
  have hempty : ∀ k, (Value.object []).has k = false := fun _ => rfl
  have hkeys : ∀ k ∈ ["regions_scanned", "budget_note", "generation", "candidates", "bytes_scanned", "width", "note"],
      str k ≠ str "truncated" ∧ str k ≠ str "budget_exhausted" := by decide
  have hone : str "truncated" ≠ str "budget_exhausted" := by decide
  simp only [List.mem_cons, List.not_mem_nil, or_false, forall_eq_or_imp, forall_eq] at hkeys
  obtain ⟨⟨h1, h1'⟩, ⟨h2, h2'⟩, ⟨h3, h3'⟩, ⟨h4, h4'⟩, ⟨h5, h5'⟩, ⟨h6, h6'⟩, h7, h7'⟩ := hkeys
  unfold beginReply Reply.setIf Reply.set
  constructor
  · cases sc.truncated <;> cases sc.budgetHit <;> simp [h1, h2, h3, h4, h5, h6, h7, hone.symm, hempty]
  · cases sc.truncated <;> cases sc.budgetHit <;> simp [h1', h2', h3', h4', h5', h6', h7', hone, hempty]

/-- **A `search.begin` that tells of no cut leaves exactly the addresses whose bytes are the low bytes of the value**, each
once and in the order of the scan, exactly when the value fits its width, or there are no such addresses. -/
theorem begin_complete_iff (svc : CheatService) (req : Request) (s : SearchState) {t : SearchTarget} {regions : List Region}
    (hplan : searchPlan svc req (openAfter svc s.serviceOpen) = .ok (t, regions)) (hr : Separate regions)
    (htrunc : (searchBegin svc req s).1.1.json.has (str "truncated") = false)
    (hbudget : (searchBegin svc req s).1.1.json.has (str "budget_exhausted") = false) :
    ((searchBegin svc req s).2.addrs = matchesIn svc t.width t.low 0 (chunksOf regions) ∧
        (searchBegin svc req s).2.addrs.Nodup) ↔
      t.value.toNat < 256 ^ t.width ∨ matchesIn svc t.width t.low 0 (chunksOf regions) = [] := by
  have hx : searchBegin svc req s =
      let sc := scanRegions svc t (asU64 (req.get "max_bytes") (512 * 1024 * 1024)) regions {}
      ((beginReply t regions sc, sc.readings),
        { serviceOpen := openAfter svc s.serviceOpen, candidates := sc.found, width := t.width, generation := 1 }) := by
    unfold searchBegin
    dsimp only
    rw [hplan]
  rw [hx] at htrunc hbudget ⊢
  dsimp only at htrunc hbudget ⊢
  have hcov := scanRegions_covered svc t (asU64 (req.get "max_bytes") (512 * 1024 * 1024)) regions {} rfl rfl
  generalize scanRegions svc t (asU64 (req.get "max_bytes") (512 * 1024 * 1024)) regions {} = sc at htrunc hbudget hcov ⊢
  rw [(flags_beginReply t regions sc).1] at htrunc
  rw [(flags_beginReply t regions sc).2] at hbudget
  have haddrs : sc.found.map Candidate.addr = matchesIn svc t.width t.value 0 (chunksOf regions) :=
    (hcov htrunc hbudget).2
  have hnodup : (sc.found.map Candidate.addr).Nodup := by
    rw [haddrs]
    exact (matchesIn_scanOrder svc t t.value regions).nodup (nodup_scanOrder_separate (width_pos t) hr)
  rw [SearchState.addrs, and_iff_left hnodup, haddrs]
  by_cases hfit : t.value.toNat < 256 ^ t.width
  · rw [low_eq hfit]
    exact iff_of_true rfl (Or.inl hfit)
  · rw [matchesIn_unfit svc hfit]
    exact ⟨fun h => Or.inr h.symm, fun h => (h.resolve_left hfit).symm⟩

/-- `search.begin` for a value in the eight bytes at 0x1000. -/
def beginFor (v : Int64) : Request :=
  ⟨(((Value.object []).set (str "base") (.int 4096)).set (str "size") (.int 8)).set (str "value") (.int v), []⟩

theorem width_four : (4 : Nat) = 1 ∨ (4 : Nat) = 2 ∨ (4 : Nat) = 4 ∨ (4 : Nat) = 8 := by decide

theorem beginFor_plan (b : UInt8) (v : Int64) :
    searchPlan (filledWith b) (beginFor v) true = .ok (⟨4, width_four, v.toUInt64⟩, [(4096, 8)]) := by
  have hv : (beginFor v).get "value" = .int v := by
    unfold beginFor Request.get
    rw [Value.get_set, if_pos rfl]
  have ht : searchTarget (beginFor v) = .ok ⟨4, width_four, v.toUInt64⟩ := by
    have hw : (((beginFor v).get "width").asInt 4).toInt32.toInt.toNat = 4 := rfl
    unfold searchTarget
    simp only [hw, hv]
    rfl
  have hregions : searchRegions (filledWith b) (beginFor v) ⟨⟨0, 0⟩, ⟨0, 0⟩⟩ = .ok [(4096, 8)] := rfl
  unfold searchPlan
  rw [show ensureCheatProcess (filledWith b) true = .ok () from rfl, ht]
  rfl

theorem separate_one : Separate [(4096, 8)] where
  ends := by
    intro reg hreg
    rw [List.mem_singleton.1 hreg]
    decide
  apart := List.pairwise_singleton _ _

/-- A value that fits is found at both places. -/
theorem begin_complete_iff_fits : (searchBegin (filledWith 7) (beginFor 0x07070707) {}).2.addrs = [4096, 4100] ∧
    (searchBegin (filledWith 7) (beginFor 0x07070707) {}).2.addrs.Nodup := by
  have h := (begin_complete_iff (filledWith 7) (beginFor 0x07070707) {} (beginFor_plan 7 0x07070707) separate_one
    (by decide +kernel) (by decide +kernel)).2 (Or.inl (by decide))
  refine ⟨h.1.trans ?_, h.2⟩
  decide +kernel

/-- **-1 is not found in four bytes that are all ones**, and no flag tells. -/
theorem negative_not_found :
    (searchBegin (filledWith 255) (beginFor (-1)) {}).1.1.json.has (str "truncated") = false ∧
    (searchBegin (filledWith 255) (beginFor (-1)) {}).1.1.json.has (str "budget_exhausted") = false ∧
    searchPlan (filledWith 255) (beginFor (-1)) true = .ok (⟨4, width_four, (-1 : Int64).toUInt64⟩, [(4096, 8)]) ∧
    matchesIn (filledWith 255) 4 (SearchTarget.low ⟨4, width_four, (-1 : Int64).toUInt64⟩) 0 (chunksOf [(4096, 8)]) =
      [4096, 4100] ∧
    (searchBegin (filledWith 255) (beginFor (-1)) {}).2.addrs = [] := by
  refine ⟨by decide +kernel, by decide +kernel, beginFor_plan 255 (-1), by decide +kernel, by decide +kernel⟩

end Agent
end SwitchMcp

import SwitchMcp.Fs
import SwitchMcp.Pieces
/-!
# FsWrites — what one `fs.write` does to a file (agent/source/handlers/fs.cpp)

`Patched` says what a write at an offset should leave of a file, byte by byte.  `write_patches_iff` says for which outcomes of
the two `fopen`s `FsWrite` leaves that.
-/
namespace SwitchMcp
namespace Agent

open Json (Value)

theorem overwrite_eq (content : Bytes) (pos : Nat) (data : Bytes) :
    overwrite content pos data = Pieces.overlay 0 content pos data := by
  cases data <;> rfl

/-- `file` is `old` with `data` at `pos`: filled up with zeros where `old` ends before, and `old` everywhere else. -/
structure Patched (old : Bytes) (pos : Nat) (data file : Bytes) : Prop where
  length : file.length = if data = [] then old.length else max old.length (pos + data.length)
  inside : ∀ i < data.length, file[pos + i]? = data[i]?
  outside : ∀ i < old.length, i < pos ∨ pos + data.length ≤ i → file[i]? = old[i]?
  gap : data ≠ [] → ∀ i, old.length ≤ i → i < pos → file[i]? = some 0

theorem patched_overwrite (old : Bytes) (pos : Nat) (data : Bytes) : Patched old pos data (overwrite old pos data) := by
  rw [overwrite_eq]
  by_cases hd : data = []
  · rw [hd, Pieces.overlay_nil]
    exact ⟨(if_pos rfl).symm, fun i hi => absurd hi (Nat.not_lt_zero i), fun _ _ _ => rfl, fun h => absurd rfl h⟩
  refine ⟨?_, fun i hi => ?_, fun i hi hout => ?_, fun _ i hi hpos => ?_⟩
  · rw [if_neg hd, Pieces.length_overlay old pos hd]
  · rw [Pieces.getElem?_overlay old pos hd, if_neg (by omega), if_pos (by omega), Nat.add_sub_cancel_left]
  · rw [Pieces.getElem?_overlay old pos hd]
    rcases hout with h | h
    · rw [if_pos h, if_pos hi]
    · rw [if_neg (by omega), if_neg (by omega)]
  · rw [Pieces.getElem?_overlay old pos hd, if_pos hpos, if_neg (by omega)]

/-- What the file emptied and written at `pos` has in common with the file written at `pos`. -/
theorem patched_emptied_iff {old : Bytes} {pos : Nat} {data : Bytes} : Patched old pos data (overwrite [] pos data) ↔
    (∀ b ∈ old.take pos, b = 0) ∧ old.length ≤ pos + data.length ∧ (data = [] → old = []) := by
  by_cases hd : data = []
  · rw [hd, overwrite_eq, Pieces.overlay_nil]
    constructor
    · intro h
      have hnil : old = [] := by
        have hlen := h.length
        rw [if_pos rfl, List.length_nil] at hlen
        exact List.length_eq_zero_iff.1 hlen.symm
      rw [hnil, List.take_nil]
      exact ⟨fun b hb => absurd hb List.not_mem_nil, Nat.zero_le _, fun _ => rfl⟩
    · rintro ⟨-, -, h⟩
      rw [h rfl]
      exact patched_overwrite [] pos []
  have hget : ∀ i, (Pieces.overlay (0 : UInt8) [] pos data)[i]? = _ := Pieces.getElem?_overlay [] pos hd
  have hlen : (Pieces.overlay (0 : UInt8) [] pos data).length = _ := Pieces.length_overlay [] pos hd
  have hzeros : ∀ i < pos, (Pieces.overlay (0 : UInt8) [] pos data)[i]? = some 0 := by
    intro i hi
    rw [hget, if_pos hi]
    rfl
  rw [overwrite_eq]
  constructor
  · intro h
    refine ⟨fun b hb => ?_, ?_, fun h => absurd h hd⟩
    · obtain ⟨i, hi, rfl⟩ := List.mem_iff_getElem.1 hb
      rw [List.length_take] at hi
      have hout := h.outside i (by omega) (Or.inl (by omega))
      rw [hzeros i (by omega), List.getElem?_eq_getElem (by omega)] at hout
      rw [List.getElem_take]
      exact (Option.some.inj hout).symm
    · have := h.length
      rw [hlen, if_neg hd, List.length_nil] at this
      omega
  · rintro ⟨hzero, hle, -⟩
    refine ⟨?_, fun i hi => ?_, fun i hi hout => ?_, fun _ i hi hpos => ?_⟩
    · rw [hlen, if_neg hd, List.length_nil]
      omega
    · rw [hget, if_neg (by omega), if_pos (by omega), Nat.add_sub_cancel_left]
    · have hpos : i < pos := by omega
      have hmem : old[i] ∈ old.take pos := List.mem_take_iff_getElem.2 ⟨i, by omega, rfl⟩
      rw [hzeros i hpos, List.getElem?_eq_getElem hi, hzero _ hmem]
    · exact hzeros i hpos

/-! ## The handler -/

/-- What `fs.write` should do to a file: where it replies that it wrote `n` bytes, the file is the first `n` bytes of the
payload for offset 0 and patched with them for an offset beyond; at a negative offset it does nothing, and says so. -/
structure WritesAsAsked (path old payload : Bytes) (offset : Int64) (fs : Files) (result : (Bool × Reply) × Files) : Prop where
  start : offset = 0 → ∀ n ≤ payload.length, result.1.2.json.get (str "written") = .int (Int64.ofNat n) →
    result.2 path = some (payload.take n)
  later : 0 < offset.toInt → ∀ n ≤ payload.length, result.1.2.json.get (str "written") = .int (Int64.ofNat n) →
    ∃ file, result.2 path = some file ∧ Patched old offset.toInt.toNat (payload.take n) file
  negative : offset.toInt < 0 → result.1.1 = false ∧ result.2 = fs

/-- How the two `fopen`s must go, the bytes that `fwrite` takes being `n`. -/
def OpensSafely (old : Bytes) (offset : Int64) (n : Nat) (openRw openWb : Bool) : Prop :=
  (offset.toInt < 0 → openRw = false ∧ openWb = false) ∧
    (0 < offset.toInt → openRw = true ∨ openWb = false ∨
      (∀ b ∈ old.take offset.toInt.toNat, b = 0) ∧ old.length ≤ offset.toInt.toNat + n ∧ (n = 0 → old = []))

theorem get_written (n : Nat) : (({} : Reply).set "written" (.int (Int64.ofNat n))).json.get (str "written") =
    .int (Int64.ofNat n) := by rw [Reply.set, Value.get_set, if_pos rfl]

theorem get_written_fail (code : String) (message : Bytes) : (fail code message).json.get (str "written") = .null := by
  have h : str "error" ≠ str "written" := by decide
  rw [fail, Value.get_set, if_neg h]
  rfl

theorem ofNat_injective {m n : Nat} (hm : m < 2 ^ 63) (hn : n < 2 ^ 63) (h : Int64.ofNat m = Int64.ofNat n) : m = n := by
  have hint := congrArg Int64.toInt h
  rw [Int64.toInt_ofNat_of_lt hm, Int64.toInt_ofNat_of_lt hn] at hint
  exact Int.ofNat_inj.1 hint

section
variable {fs : Files} {req : Request} {p : Resolved} {old : Bytes}

/-- The reply for a file that opens. -/
theorem fsWrite_opened {fault : WriteFault} (hp : fsWritePath req = .ok p) {content : Bytes}
    (ho : openForWrite fault ((req.get "offset").asInt 0) (fs (cStr p.dev)) = some content) :
    fsWrite fault fs req =
      ((true, ({} : Reply).set "written" (.int (Int64.ofNat (min fault.written req.payload.length)))),
        fs.put (cStr p.dev) (overwrite content (seekPos ((req.get "offset").asInt 0))
          (req.payload.take (min fault.stored (min fault.written req.payload.length))))) := by
  unfold fsWrite
  rw [hp]
  dsimp only
  rw [ho]

theorem fsWrite_unopened {fault : WriteFault} (hp : fsWritePath req = .ok p)
    (ho : openForWrite fault ((req.get "offset").asInt 0) (fs (cStr p.dev)) = none) :
    fsWrite fault fs req = ((false, fail "io_error" (str "cannot open file for writing")), fs) := by
  unfold fsWrite
  rw [hp]
  dsimp only
  rw [ho]

/-- A reply that refuses is what was asked, whatever the offset. -/
theorem asked_refused (path payload : Bytes) (offset : Int64) (code : String) (message : Bytes) :
    WritesAsAsked path old payload offset fs ((false, fail code message), fs) where
  start _ n _ h := by
    rw [get_written_fail] at h
    cases h
  later _ n _ h := by
    rw [get_written_fail] at h
    cases h
  negative _ := ⟨rfl, rfl⟩

/-- What a write to `content`, as it was opened, must be. -/
theorem asked_opened_iff {path payload content : Bytes} {offset : Int64} {n : Nat} (hn : n ≤ payload.length)
    (hlen : payload.length ≤ 2 ^ 20) :
    WritesAsAsked path old payload offset fs ((true, ({} : Reply).set "written" (.int (Int64.ofNat n))),
        fs.put path (overwrite content (seekPos offset) (payload.take n))) ↔
      (offset = 0 → overwrite content 0 (payload.take n) = payload.take n) ∧
      (0 < offset.toInt → Patched old offset.toInt.toNat (payload.take n)
        (overwrite content offset.toInt.toNat (payload.take n))) ∧ 0 ≤ offset.toInt := by
  have hwritten : ∀ m ≤ payload.length, (({} : Reply).set "written" (.int (Int64.ofNat n))).json.get (str "written") =
      .int (Int64.ofNat m) → m = n := by
    intro m hm h
    rw [get_written, Value.int.injEq] at h
    exact (ofNat_injective (by omega) (by omega) h).symm
  constructor
  · intro h
    refine ⟨fun h0 => ?_, fun hpos => ?_, ?_⟩
    · have hfile := h.start h0 n hn (get_written n)
      dsimp only at hfile
      rw [Files.put_self, Option.some.injEq, h0] at hfile
      exact hfile
    · obtain ⟨file, hfile, hpatched⟩ := h.later hpos n hn (get_written n)
      dsimp only at hfile
      rw [Files.put_self, Option.some.injEq] at hfile
      rw [← hfile] at hpatched
      exact hpatched
    · by_contra hneg
      have := (h.negative (not_le.1 hneg)).1
      cases this
  · rintro ⟨h0, hpos, hnonneg⟩
    refine ⟨fun hz m hm hr => ?_, fun hl m hm hr => ?_, fun hneg => absurd hneg (not_lt.2 hnonneg)⟩
    · dsimp only
      rw [hwritten m hm hr, Files.put_self, hz]
      exact congrArg some (h0 hz)
    · rw [hwritten m hm hr]
      exact ⟨_, Files.put_self _ _ _, hpos hl⟩

theorem overwrite_empty (data : Bytes) : overwrite [] 0 data = data := by
  rw [overwrite_eq]
  cases data with
  | nil => rfl
  | cons a data => exact List.append_nil _

/-- The file opens as it is, emptied, or not at all. -/
theorem openForWrite_cases (openRw openWb : Bool) (n m : Nat) {offset : Int64} (h : offset ≠ 0) (old : Bytes) :
    openForWrite ⟨openRw, openWb, n, m⟩ offset (some old) =
      if openRw then some old else if openWb then some [] else none := by
  rw [openForWrite, if_neg h]
  cases openRw <;> rfl

/-- **`fs.write` does to an existing file what it was asked, exactly where the file opens safely**: for the outcomes of the two
`fopen`s and every number of bytes that `fwrite` takes. -/
theorem write_patches_iff (openRw openWb : Bool) (n : Nat) (hp : fsWritePath req = .ok p) (hold : fs (cStr p.dev) = some old)
    (hlen : req.payload.length ≤ 2 ^ 20) :
    WritesAsAsked (cStr p.dev) old req.payload ((req.get "offset").asInt 0) fs (fsWrite ⟨openRw, openWb, n, n⟩ fs req) ↔
      OpensSafely old ((req.get "offset").asInt 0) (min n req.payload.length) openRw openWb := by
  generalize hoff : (req.get "offset").asInt 0 = offset
  have hmin : min n req.payload.length ≤ req.payload.length := Nat.min_le_right _ _
  have hstored : min n (min n req.payload.length) = min n req.payload.length := by omega
  have htaken : (req.payload.take (min n req.payload.length)).length = min n req.payload.length := by
    rw [List.length_take]
    omega
  have hopened : ∀ {content : Bytes}, openForWrite ⟨openRw, openWb, n, n⟩ offset (some old) = some content →
      fsWrite ⟨openRw, openWb, n, n⟩ fs req =
        ((true, ({} : Reply).set "written" (.int (Int64.ofNat (min n req.payload.length)))),
          fs.put (cStr p.dev) (overwrite content (seekPos offset) (req.payload.take (min n req.payload.length)))) := by
    intro content ho
    rw [← hoff, ← hold] at ho
    rw [fsWrite_opened hp ho, hoff]
    dsimp only
    rw [hstored]
  have hunopened : openForWrite ⟨openRw, openWb, n, n⟩ offset (some old) = none →
      WritesAsAsked (cStr p.dev) old req.payload offset fs (fsWrite ⟨openRw, openWb, n, n⟩ fs req) := by
    intro ho
    rw [← hoff, ← hold] at ho
    rw [fsWrite_unopened hp ho]
    exact asked_refused _ _ _ _ _
  by_cases hz : offset = 0
  · have hsafe : OpensSafely old offset (min n req.payload.length) openRw openWb := by
      rw [hz]
      exact ⟨fun h => absurd h (lt_irrefl _), fun h => absurd h (lt_irrefl _)⟩
    refine iff_of_true ?_ hsafe
    cases openWb with
    | false =>
      refine hunopened ?_
      rw [openForWrite, if_pos hz]
      rfl
    | true =>
      have ho : openForWrite ⟨openRw, true, n, n⟩ offset (some old) = some [] := by
        rw [openForWrite, if_pos hz]
        rfl
      rw [hopened ho, asked_opened_iff hmin hlen]
      refine ⟨fun _ => overwrite_empty _, fun h => ?_, ?_⟩
      · rw [hz] at h
        exact absurd h (lt_irrefl _)
      · rw [hz]
        exact le_rfl
  have hcases := openForWrite_cases openRw openWb n n hz old
  have hint : offset.toInt ≠ 0 := fun h => hz (Int64.toInt_inj.1 h)
  cases openRw with
  | true =>
    rw [hopened hcases, asked_opened_iff hmin hlen]
    constructor
    · rintro ⟨-, -, hnonneg⟩
      exact ⟨fun h => by omega, fun _ => Or.inl rfl⟩
    · rintro ⟨hneg, -⟩
      refine ⟨fun h => absurd h hz, fun _ => patched_overwrite _ _ _, ?_⟩
      by_contra h
      cases (hneg (not_le.1 h)).1
  | false =>
    cases openWb with
    | false => exact iff_of_true (hunopened hcases) ⟨fun _ => ⟨rfl, rfl⟩, fun _ => Or.inr (Or.inl rfl)⟩
    | true =>
      rw [hopened hcases, asked_opened_iff hmin hlen]
      constructor
      · rintro ⟨-, hpos, hnonneg⟩
        refine ⟨fun h => by omega, fun h => Or.inr (Or.inr ?_)⟩
        obtain ⟨hzero, hle, hnil⟩ := patched_emptied_iff.1 (hpos h)
        rw [htaken] at hle
        exact ⟨hzero, hle, fun hn => hnil (List.length_eq_zero_iff.1 (htaken.trans hn))⟩
      · rintro ⟨hneg, hpos⟩
        refine ⟨fun h => absurd h hz, fun h => patched_emptied_iff.2 ?_, ?_⟩
        · obtain ⟨hzero, hle, hnil⟩ := ((hpos h).resolve_left Bool.false_ne_true).resolve_left (by decide)
          rw [htaken]
          exact ⟨hzero, hle, fun hn => hnil (by rw [← htaken, hn]; rfl)⟩
        · by_contra h
          cases (hneg (not_le.1 h)).2

end

/-- `fs.write` of one byte `c` to /f. -/
def writeAt (offset : Int64) : Request :=
  ⟨((Value.object []).set (str "path") (.string (str "/f"))).set (str "offset") (.int offset), str "c"⟩

/-- A card with the one file /f, of two bytes. -/
def shortFile : Files := fun q => if q = str "sdmc:/f" then some (str "ab") else none

theorem write_patches_iff_opened :
    WritesAsAsked (str "sdmc:/f") (str "ab") (str "c") 1 shortFile (fsWrite ⟨true, true, 1, 1⟩ shortFile (writeAt 1)) :=
  (write_patches_iff true true 1 (show fsWritePath (writeAt 1) = .ok ⟨str "/f", str "sdmc:/f"⟩ from rfl)
    (show shortFile (cStr (str "sdmc:/f")) = some (str "ab") from rfl) (by decide)).2
    ⟨fun h => absurd h (by decide), fun _ => Or.inl rfl⟩

/-- **A chunk that cannot reopen the file empties it, and a negative offset is written at 0**; both replies are ok. -/
theorem chunk_empties_file :
    (fsWrite ⟨false, true, 1, 1⟩ shortFile (writeAt 1)).1.1 = true ∧
    (fsWrite ⟨false, true, 1, 1⟩ shortFile (writeAt 1)).2 (str "sdmc:/f") = some (0 :: str "c") ∧
    (fsWrite ⟨true, true, 1, 1⟩ shortFile (writeAt (-1))).1.1 = true ∧
    (fsWrite ⟨true, true, 1, 1⟩ shortFile (writeAt (-1))).2 (str "sdmc:/f") = some (str "cb") := by
  refine ⟨rfl, rfl, rfl, rfl⟩

end Agent
end SwitchMcp

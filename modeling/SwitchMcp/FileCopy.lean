import SwitchMcp.Fs
/-!
# FileCopy — one file copied to another (agent/source/handlers/system.cpp)

`FsCopy` opens the source, empties the destination, and moves chunks of 64 KiB until a read gives nothing.  A read may be
short, and so may a write; neither is looked at.  `copy_complete_iff` says when the destination is the source as it was.
-/
namespace SwitchMcp
namespace Agent

open Json (Value)

/-- What goes wrong in one `FsCopy`: a file does not open, the `i`-th `fread` or `fwrite` moves no more bytes than this. -/
structure CopyFault where
  openRb : Bool
  openWb : Bool
  reads : Nat → Nat
  writes : Nat → Nat

def kCopyBuf : Nat := 64 * 1024

section
variable (f : CopyFault)

/-- What the `i`-th `fread` gives, with so many bytes left of the file. -/
def CopyFault.readLen (i left : Nat) : Nat := min (f.reads i) (min kCopyBuf left)

/-- The loop of `FsCopy` before its `i`-th read: what is left of the source, what is in the destination, and the count.  A
read that gives something shortens what is left, so its length is fuel enough. -/
def fsCopyLoop : Nat → Nat → Bytes → Bytes → Nat → Bytes × Nat
  | 0, _, _, out, total => (out, total)
  | fuel + 1, i, left, out, total =>
    let n := f.readLen i left.length
    if n = 0 then (out, total)
    else
      let w := min (f.writes i) n
      fsCopyLoop fuel (i + 1) (left.drop n) (out ++ left.take w) (total + w)

end

def fsCopy (f : CopyFault) (fs : Files) (req : Request) : (Bool × Reply) × Files :=
  match fsCopyPaths req with
  | .error r => ((false, r), fs)
  | .ok (src, dst) =>
    match (if f.openRb then fs (cStr src.dev) else none) with
    | none => ((false, fail "not_found" (str "source not found")), fs)
    | some _ =>
      if f.openWb then
        -- Opened for writing, the destination is empty: so is the source, where both are one file.
        let fs := fs.put (cStr dst.dev) []
        let left := (fs (cStr src.dev)).getD []
        let r := fsCopyLoop f left.length 0 left [] 0
        ((true, (({} : Reply).set "ok" (.bool true)).set "bytes" (.int (Int64.ofNat r.2))), fs.put (cStr dst.dev) r.1)
      else ((false, fail "io_error" (str "cannot open destination")), fs)

/-! ## The loop -/

section
variable (f : CopyFault)

/-- What is left after `k` reads, from the `i`-th on. -/
def leftAfter : Nat → Nat → Nat → Nat
  | 0, _, len => len
  | k + 1, i, len => leftAfter k (i + 1) (len - f.readLen i len)

/-- While something is left, a read gives something, and all that it gives is written. -/
def MovesAll (i len : Nat) : Prop :=
  ∀ k, 0 < leftAfter f k i len → 0 < f.reads (i + k) ∧ f.readLen (i + k) (leftAfter f k i len) ≤ f.writes (i + k)

variable {f}

theorem leftAfter_zero : ∀ k i, leftAfter f k i 0 = 0
  | 0, _ => rfl
  | k + 1, i => by rw [leftAfter, Nat.zero_sub, leftAfter_zero k]

/-- The next read, and those after it. -/
theorem movesAll_iff {i len : Nat} (h : 0 < len) :
    MovesAll f i len ↔ 0 < f.reads i ∧ f.readLen i len ≤ f.writes i ∧ MovesAll f (i + 1) (len - f.readLen i len) := by
  constructor
  · intro hm
    obtain ⟨hr, hw⟩ := hm 0 h
    refine ⟨hr, hw, fun k hk => ?_⟩
    have hnext := hm (k + 1) hk
    rwa [show i + (k + 1) = i + 1 + k by omega] at hnext
  · rintro ⟨hr, hw, hm⟩ k hk
    cases k with
    | zero => exact ⟨hr, hw⟩
    | succ k =>
      rw [show i + (k + 1) = i + 1 + k by omega]
      exact hm k hk

theorem readLen_le (i left : Nat) : f.readLen i left ≤ left := (Nat.min_le_right _ _).trans (Nat.min_le_right _ _)

theorem readLen_eq_zero {i left : Nat} (h : 0 < left) : f.readLen i left = 0 ↔ f.reads i = 0 := by
  unfold CopyFault.readLen kCopyBuf
  omega

/-- No more comes out than is left. -/
theorem length_fsCopyLoop : ∀ (fuel i : Nat) (left out : Bytes) (total : Nat),
    (fsCopyLoop f fuel i left out total).1.length ≤ out.length + left.length ∧
      (fsCopyLoop f fuel i left out total).2 + out.length = total + (fsCopyLoop f fuel i left out total).1.length
  | 0, _, _, _, _ => ⟨Nat.le_add_right _ _, rfl⟩
  | fuel + 1, i, left, out, total => by
    rw [fsCopyLoop]
    split
    · exact ⟨Nat.le_add_right _ _, rfl⟩
    · have hn := readLen_le (f := f) i left.length
      obtain ⟨h1, h2⟩ := length_fsCopyLoop fuel (i + 1) (left.drop (f.readLen i left.length))
        (out ++ left.take (min (f.writes i) (f.readLen i left.length))) (total + min (f.writes i) (f.readLen i left.length))
      have hw : min (f.writes i) (f.readLen i left.length) ≤ f.readLen i left.length := Nat.min_le_right _ _
      rw [List.length_append, List.length_take_of_le (hw.trans hn)] at h1 h2
      rw [List.length_drop] at h1
      dsimp only
      omega

/-- **What comes out is all that was left, exactly where every read and every write moves all that it can.** -/
theorem fsCopyLoop_all_iff : ∀ (fuel i : Nat) (left out : Bytes) (total : Nat), left.length ≤ fuel →
    ((fsCopyLoop f fuel i left out total).1 = out ++ left ↔ MovesAll f i left.length)
  | 0, i, left, out, total, h => by
    have hnil : left = [] := List.length_eq_zero_iff.1 (Nat.le_zero.1 h)
    rw [hnil, List.append_nil]
    refine iff_of_true rfl fun k hk => ?_
    rw [List.length_nil, leftAfter_zero] at hk
    exact absurd hk (lt_irrefl _)
  | fuel + 1, i, left, out, total, h => by
    have hn := readLen_le (f := f) i left.length
    by_cases hnil : left = []
    · have hzero : f.readLen i left.length = 0 := by
        rw [hnil] at hn ⊢
        exact Nat.le_zero.1 hn
      rw [fsCopyLoop, if_pos hzero, hnil, List.append_nil]
      refine iff_of_true rfl fun k hk => ?_
      rw [List.length_nil, leftAfter_zero] at hk
      exact absurd hk (lt_irrefl _)
    have hpos : 0 < left.length := List.length_pos_of_ne_nil hnil
    rw [movesAll_iff hpos, fsCopyLoop]
    by_cases hread : f.readLen i left.length = 0
    · rw [if_pos hread]
      refine iff_of_false (fun heq => hnil ?_) (fun hm => ?_)
      · exact List.append_right_eq_self.1 (show out ++ left = out from heq.symm)
      · rw [readLen_eq_zero hpos] at hread
        omega
    rw [if_neg hread]
    dsimp only
    have hreads : 0 < f.reads i := Nat.pos_of_ne_zero (fun h0 => hread ((readLen_eq_zero hpos).2 h0))
    by_cases hw : f.readLen i left.length ≤ f.writes i
    · rw [Nat.min_eq_right hw]
      have ih := fsCopyLoop_all_iff fuel (i + 1) (left.drop (f.readLen i left.length))
        (out ++ left.take (f.readLen i left.length)) (total + f.readLen i left.length)
        (by rw [List.length_drop]; omega)
      rw [List.append_assoc, List.take_append_drop, List.length_drop] at ih
      rw [ih]
      exact ⟨fun hm => ⟨hreads, hw, hm⟩, fun hm => hm.2.2⟩
    · -- A short write is never made up for.
      refine iff_of_false (fun heq => ?_) (fun hm => hw hm.2.1)
      have hlen := (length_fsCopyLoop (f := f) fuel (i + 1) (left.drop (f.readLen i left.length))
        (out ++ left.take (min (f.writes i) (f.readLen i left.length)))
        (total + min (f.writes i) (f.readLen i left.length))).1
      rw [heq, List.length_append, List.length_append, List.length_take, List.length_drop] at hlen
      omega

end

/-! ## The handler -/

/-- An ok from `fs.copy` means that the destination holds what the source did, that its length is what is told, and that a
source other than it is as before. -/
structure CopiedWhole (src dst content : Bytes) (result : (Bool × Reply) × Files) : Prop where
  file : result.1.1 = true → result.2 dst = some content
  bytes : result.1.1 = true → result.1.2.json.get (str "bytes") = .int (Int64.ofNat content.length)
  source : result.1.1 = true → src ≠ dst → result.2 src = some content

/-- **`fs.copy` keeps its word exactly where** a file does not open, or the source is empty, or it is another file than the
destination and every read and every write moves all that it can. -/
theorem copy_complete_iff (f : CopyFault) (fs : Files) {req : Request} {src dst : Resolved} {content : Bytes}
    (hp : fsCopyPaths req = .ok (src, dst)) (hsrc : fs (cStr src.dev) = some content) :
    CopiedWhole (cStr src.dev) (cStr dst.dev) content (fsCopy f fs req) ↔
      f.openRb = false ∨ f.openWb = false ∨ content = [] ∨
        (cStr src.dev ≠ cStr dst.dev ∧ MovesAll f 0 content.length) := by
  have hrun : fsCopy f fs req =
      match (if f.openRb then fs (cStr src.dev) else none) with
      | none => ((false, fail "not_found" (str "source not found")), fs)
      | some _ => if f.openWb then
          let r := fsCopyLoop f (((fs.put (cStr dst.dev) []) (cStr src.dev)).getD []).length 0
            (((fs.put (cStr dst.dev) []) (cStr src.dev)).getD []) [] 0
          ((true, (({} : Reply).set "ok" (.bool true)).set "bytes" (.int (Int64.ofNat r.2))),
            (fs.put (cStr dst.dev) []).put (cStr dst.dev) r.1)
        else ((false, fail "io_error" (str "cannot open destination")), fs) := by
    unfold fsCopy
    rw [hp]
  have hrefused : ∀ {r : Reply} {fs' : Files}, CopiedWhole (cStr src.dev) (cStr dst.dev) content ((false, r), fs') := by
    intro r fs'
    exact ⟨fun h => (by cases h), fun h => (by cases h), fun h => (by cases h)⟩
  have hbytes : ∀ n : Nat, ((({} : Reply).set "ok" (.bool true)).set "bytes" (.int (Int64.ofNat n))).json.get (str "bytes") =
      .int (Int64.ofNat n) := by
    intro n
    rw [Reply.set, Value.get_set, if_pos rfl]
  rw [hrun, hsrc]
  cases hrb : f.openRb with
  | false =>
    rw [if_neg Bool.false_ne_true]
    exact iff_of_true hrefused (Or.inl rfl)
  | true =>
    rw [if_pos rfl]
    dsimp only
    cases hwb : f.openWb with
    | false =>
      rw [if_neg Bool.false_ne_true]
      exact iff_of_true hrefused (Or.inr (Or.inl rfl))
    | true =>
      rw [if_pos rfl]
      by_cases hsame : cStr src.dev = cStr dst.dev
      · -- The destination was the source: nothing is left to copy.
        rw [hsame, Files.put_self, Option.getD_some]
        constructor
        · intro h
          have hfile := h.file rfl
          dsimp only [fsCopyLoop, List.length_nil] at hfile
          rw [Files.put_self, Option.some.injEq] at hfile
          exact Or.inr (Or.inr (Or.inl hfile.symm))
        · rintro (h | h | rfl | ⟨h, -⟩)
          · cases h
          · cases h
          · exact ⟨fun _ => Files.put_self _ _ _, fun _ => hbytes 0, fun _ hne => absurd rfl hne⟩
          · exact absurd rfl h
      · rw [Files.put_of_ne fs [] hsame, hsrc, Option.getD_some]
        have hiff := fsCopyLoop_all_iff (f := f) content.length 0 content [] 0 le_rfl
        rw [List.nil_append] at hiff
        have hcount := (length_fsCopyLoop (f := f) content.length 0 content [] 0).2
        rw [List.length_nil, Nat.add_zero, Nat.zero_add] at hcount
        constructor
        · intro h
          have hfile := h.file rfl
          dsimp only at hfile
          rw [Files.put_self, Option.some.injEq, hiff] at hfile
          exact Or.inr (Or.inr (Or.inr ⟨hsame, hfile⟩))
        · intro h
          have hall : (fsCopyLoop f content.length 0 content [] 0).1 = content := by
            rcases h with h | h | rfl | ⟨-, h⟩
            · cases h
            · cases h
            · rfl
            · exact hiff.2 h
          refine ⟨fun _ => ?_, fun _ => ?_, fun _ _ => ?_⟩
          · dsimp only
            rw [Files.put_self, hall]
          · dsimp only
            rw [hcount, hall]
            exact hbytes _
          · dsimp only
            rw [Files.put_of_ne _ _ hsame, Files.put_of_ne _ _ hsame, hsrc]

/-- `fs.copy` of /a. -/
def copyTo (dst : String) : Request :=
  ⟨((Value.object []).set (str "from") (.string (str "/a"))).set (str "to") (.string (str dst)), []⟩

/-- A card with the one file /a, of two bytes. -/
def xyFile : Files := fun q => if q = str "sdmc:/a" then some (str "xy") else none

def CopyFault.none : CopyFault := ⟨true, true, fun _ => kCopyBuf, fun _ => kCopyBuf⟩

theorem copy_complete_iff_other : CopiedWhole (str "sdmc:/a") (str "sdmc:/b") (str "xy") (fsCopy .none xyFile (copyTo "/b")) := by
  refine (copy_complete_iff .none xyFile
    (show fsCopyPaths (copyTo "/b") = .ok (⟨str "/a", str "sdmc:/a"⟩, ⟨str "/b", str "sdmc:/b"⟩) from rfl)
    (show xyFile (cStr (str "sdmc:/a")) = some (str "xy") from rfl)).2 (Or.inr (Or.inr (Or.inr ⟨by decide, fun k hk => ?_⟩)))
  exact ⟨show 0 < kCopyBuf by decide, Nat.min_le_left _ _⟩

/-- **Copied to itself a file is emptied, and a write that moves nothing is not told**; both replies are ok. -/
theorem copy_to_itself_empties :
    (fsCopy .none xyFile (copyTo "//a")).1.1 = true ∧ (fsCopy .none xyFile (copyTo "//a")).2 (str "sdmc:/a") = some [] ∧
    (fsCopy { CopyFault.none with writes := fun _ => 0 } xyFile (copyTo "/b")).1.1 = true ∧
    (fsCopy { CopyFault.none with writes := fun _ => 0 } xyFile (copyTo "/b")).2 (str "sdmc:/b") = some [] := by
  refine ⟨rfl, rfl, rfl, rfl⟩

end Agent
end SwitchMcp

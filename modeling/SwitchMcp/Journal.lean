import SwitchMcp.Debug
/-!
# Journal — the audit trail on the card (agent/source/handlers/guards.cpp)

`JournalAppend` writes an entry at the end of `journal.log`, then renames a log of more than 512 KiB to `journal.log.1`.  A
rename onto a file that is there replaces it or fails, as the filesystem has it.  `journal_bounded_iff` says for which calls
the log stays within its bound; the two files hold the latest entries in order in any case.  A call whose `fopen` fails
leaves no entry.
-/
namespace SwitchMcp
namespace Agent

def kJournalMaxBytes : Nat := 512 * 1024

/-- A call of `JournalAppend`, the seconds of uptime at which it is made, and whether its `fopen` opens the log. -/
structure JournalCall where
  secs : UInt64
  op : Bytes
  detail : Bytes
  opens : Bool

/-- `"[%6llu] %-20s %s\n"`. -/
def journalEntry (c : JournalCall) : Bytes :=
  let secs := fmtU c.secs.toNat
  let op := cStr c.op
  str "[" ++ List.replicate (6 - secs.length) (ch ' ') ++ secs ++ str "] " ++ op ++ List.replicate (20 - op.length) (ch ' ') ++
    str " " ++ cStr c.detail ++ [10]

/-- `journal.log` and `journal.log.1`. -/
structure Journal where
  log : Option Bytes := none
  old : Option Bytes := none

/-- `rename(journal.log, journal.log.1)`; its result is not looked at. -/
def Journal.rotate (replaces : Bool) (j : Journal) : Journal :=
  if j.old.isSome && !replaces then j else ⟨none, j.log⟩

/-- What `JournalAppend` does with the log it has opened. -/
def journalWrite (replaces : Bool) (j : Journal) (c : JournalCall) : Journal :=
  let content := j.log.getD [] ++ journalEntry c
  if kJournalMaxBytes < content.length then Journal.rotate replaces { j with log := some content }
  else { j with log := some content }

def journalAppend (replaces : Bool) (j : Journal) (c : JournalCall) : Journal :=
  if c.opens then journalWrite replaces j c else j

/-- The journal after some calls, from a card without one. -/
def journalRun (replaces : Bool) (calls : List JournalCall) : Journal := calls.foldl (journalAppend replaces) {}

/-- The calls that leave an entry. -/
def written (calls : List JournalCall) : List JournalCall := calls.filter JournalCall.opens

def texts (calls : List JournalCall) : Bytes := calls.flatMap journalEntry

def Journal.Within (j : Journal) : Prop := (j.log.getD []).length ≤ kJournalMaxBytes

/-- The entries of `journal.log.1` and then those of `journal.log` are the latest ones, in order: all of them, or more than
512 KiB behind what is gone. -/
def Journal.Latest (j : Journal) (calls : List JournalCall) : Prop :=
  ∃ dropped older newer, written calls = dropped ++ (older ++ newer) ∧ j.old.getD [] = texts older ∧
    j.log.getD [] = texts newer ∧ (dropped = [] ∨ kJournalMaxBytes < (texts older).length)

/-- The bytes of the entries after the one that first takes a log of `size` bytes beyond the bound. -/
def sinceFull : Nat → List JournalCall → Nat
  | _, [] => 0
  | size, c :: calls =>
    if kJournalMaxBytes < size + (journalEntry c).length then (texts calls).length
    else sinceFull (size + (journalEntry c).length) calls

/-! ## The order of the entries -/

theorem texts_append (l l' : List JournalCall) : texts (l ++ l') = texts l ++ texts l' := List.flatMap_append

theorem texts_snoc (l : List JournalCall) (c : JournalCall) : texts (l ++ [c]) = texts l ++ journalEntry c := by
  rw [texts_append, texts, texts, List.flatMap_singleton]

/-- The files depend on the calls that leave an entry alone. -/
theorem journalRun_written (replaces : Bool) (calls : List JournalCall) :
    journalRun replaces calls = (written calls).foldl (journalWrite replaces) {} := by
  rw [written, List.foldl_filter]
  rfl

theorem journalRun_snoc (replaces : Bool) (calls : List JournalCall) (c : JournalCall) :
    journalRun replaces (calls ++ [c]) = journalAppend replaces (journalRun replaces calls) c := by
  rw [journalRun, List.foldl_append]
  rfl

theorem written_snoc (calls : List JournalCall) (c : JournalCall) :
    written (calls ++ [c]) = if c.opens then written calls ++ [c] else written calls := by
  rw [written, List.filter_append, List.filter_singleton]
  cases c.opens with
  | true => rfl
  | false => exact List.append_nil _

/-- One more call. -/
theorem Journal.Latest.append {j : Journal} {calls : List JournalCall} (h : j.Latest calls) (replaces : Bool) (c : JournalCall) :
    (journalAppend replaces j c).Latest (calls ++ [c]) := by
  obtain ⟨dropped, older, newer, hcalls, hold, hlog, hbound⟩ := h
  by_cases ho : c.opens = true
  · have hcontent : j.log.getD [] ++ journalEntry c = texts (newer ++ [c]) := by rw [texts_snoc, hlog]
    have hsnoc : written (calls ++ [c]) = dropped ++ (older ++ (newer ++ [c])) := by
      rw [written_snoc, if_pos ho, hcalls]
      simp only [List.append_assoc]
    have hkept : Journal.Latest { j with log := some (j.log.getD [] ++ journalEntry c) } (calls ++ [c]) :=
      ⟨dropped, older, newer ++ [c], hsnoc, hold, hcontent, hbound⟩
    rw [journalAppend, if_pos ho, journalWrite]
    split
    · rename_i hfull
      unfold Journal.rotate
      split
      · exact hkept
      · -- The log becomes the older file, and what that held is gone.
        refine ⟨dropped ++ older, newer ++ [c], [], ?_, hcontent, rfl, Or.inr ?_⟩
        · rw [hsnoc, List.append_nil, List.append_assoc]
        · rwa [← hcontent]
    · exact hkept
  · refine ⟨dropped, older, newer, ?_, ?_⟩
    · rw [written_snoc, if_neg ho, hcalls]
    · rw [journalAppend, if_neg ho]
      exact ⟨hold, hlog, hbound⟩

/-- **The two files hold the latest entries in order**, whatever rename does. -/
theorem journalRun_latest (replaces : Bool) (calls : List JournalCall) : (journalRun replaces calls).Latest calls := by
  induction calls using List.reverseRecOn with
  | nil => exact ⟨[], [], [], rfl, rfl, rfl, Or.inl rfl⟩
  | append_singleton calls c ih =>
    rw [journalRun_snoc]
    exact ih.append replaces c

/-! ## The bound -/

/-- A rename that replaces leaves no log beyond the bound. -/
theorem within_replacing (j : Journal) (c : JournalCall) : (journalWrite true j c).Within := by
  unfold journalWrite
  dsimp only
  split
  · rw [Journal.rotate, Bool.not_true, Bool.and_false, if_neg Bool.false_ne_true]
    exact Nat.zero_le _
  · rename_i h
    exact Nat.not_lt.1 h

/-- Where a rename fails, the log only grows. -/
theorem foldl_refused : ∀ (calls : List JournalCall) {j : Journal}, j.old.isSome = true →
    ((calls.foldl (journalWrite false) j).log.getD []) = j.log.getD [] ++ texts calls
  | [], j, _ => (List.append_nil _).symm
  | c :: calls, j, h => by
    have hstep : journalWrite false j c = { j with log := some (j.log.getD [] ++ journalEntry c) } := by
      have hcond : (j.old.isSome && !false) = true := by rw [h]; rfl
      unfold journalWrite
      dsimp only
      split
      · rw [Journal.rotate, if_pos hcond]
      · rfl
    have hold : ({ j with log := some (j.log.getD [] ++ journalEntry c) } : Journal).old.isSome = true := h
    rw [List.foldl_cons, hstep, foldl_refused calls hold, texts, texts, List.flatMap_cons, ← List.append_assoc]
    rfl

theorem length_texts_le {pre calls : List JournalCall} (h : pre <+: calls) :
    (texts pre).length ≤ (texts calls).length := by
  obtain ⟨post, rfl⟩ := h
  rw [texts_append, List.length_append]
  exact Nat.le_add_right _ _

/-- After the rotation, with a rename that fails. -/
theorem within_refused_iff (calls : List JournalCall) {content : Bytes} :
    (∀ pre, pre <+: calls → (pre.foldl (journalWrite false) ⟨none, some content⟩).Within) ↔
      (texts calls).length ≤ kJournalMaxBytes := by
  have hlog : ∀ pre : List JournalCall, (pre.foldl (journalWrite false) ⟨none, some content⟩).log.getD [] = texts pre :=
    fun pre => (foldl_refused pre rfl).trans (List.nil_append _)
  constructor
  · intro h
    have hall := h calls (List.prefix_refl calls)
    rwa [Journal.Within, hlog] at hall
  · intro h pre hpre
    rw [Journal.Within, hlog]
    exact (length_texts_le hpre).trans h

/-- Before the rotation, with a rename that fails where there is a file. -/
theorem within_refusing_iff : ∀ (calls : List JournalCall) {j : Journal}, j.old = none → j.Within →
    ((∀ pre, pre <+: calls → (pre.foldl (journalWrite false) j).Within) ↔
      sinceFull (j.log.getD []).length calls ≤ kJournalMaxBytes)
  | [], j, _, hw => by
    refine iff_of_true (fun pre hpre => ?_) (Nat.zero_le _)
    rw [List.prefix_nil.1 hpre]
    exact hw
  | c :: calls, j, ho, hw => by
    have hcons : (∀ pre, pre <+: c :: calls → (pre.foldl (journalWrite false) j).Within) ↔
        ∀ pre, pre <+: calls → (pre.foldl (journalWrite false) (journalWrite false j c)).Within := by
      constructor
      · intro h pre hpre
        exact h (c :: pre) (List.cons_prefix_cons.2 ⟨rfl, hpre⟩)
      · intro h pre hpre
        rcases List.prefix_cons_iff.1 hpre with rfl | ⟨rest, rfl, hrest⟩
        · exact hw
        · exact h rest hrest
    rw [hcons, sinceFull]
    by_cases hfull : kJournalMaxBytes < (j.log.getD []).length + (journalEntry c).length
    · have hstep : journalWrite false j c = ⟨none, some (j.log.getD [] ++ journalEntry c)⟩ := by
        unfold journalWrite
        dsimp only
        rw [List.length_append, if_pos hfull, Journal.rotate, ho]
        rfl
      rw [hstep, if_pos hfull]
      exact within_refused_iff calls
    · have hstep : journalWrite false j c = { j with log := some (j.log.getD [] ++ journalEntry c) } := by
        unfold journalWrite
        dsimp only
        rw [List.length_append, if_neg hfull]
      rw [hstep, if_neg hfull]
      have ih := within_refusing_iff calls (j := { j with log := some (j.log.getD [] ++ journalEntry c) }) ho (by
        show (j.log.getD [] ++ journalEntry c).length ≤ kJournalMaxBytes
        rw [List.length_append]
        exact Nat.not_lt.1 hfull)
      rw [ih]
      show sinceFull (j.log.getD [] ++ journalEntry c).length calls ≤ _ ↔ _
      rw [List.length_append]

/-- **After each call the log is within its bound and the files hold the latest entries, exactly where** a rename replaces, or
what is appended after the log first was full fits the bound. -/
theorem journal_bounded_iff (replaces : Bool) (calls : List JournalCall) :
    (∀ pre, pre <+: calls → (journalRun replaces pre).Within ∧ (journalRun replaces pre).Latest pre) ↔
      replaces = true ∨ sinceFull 0 (written calls) ≤ kJournalMaxBytes := by
  have hsplit : (∀ pre, pre <+: calls → (journalRun replaces pre).Within ∧ (journalRun replaces pre).Latest pre) ↔
      ∀ pre, pre <+: written calls → (pre.foldl (journalWrite replaces) {}).Within := by
    constructor
    · intro h pre hpre
      obtain ⟨l, hl, rfl⟩ := List.prefix_filter_iff.1 hpre
      have hw := (h l hl).1
      rwa [journalRun_written] at hw
    · intro h pre hpre
      refine ⟨?_, journalRun_latest replaces pre⟩
      rw [journalRun_written]
      exact h _ (List.IsPrefix.filter _ hpre)
  rw [hsplit]
  cases replaces with
  | true =>
    refine iff_of_true (fun pre _ => ?_) (Or.inl rfl)
    cases pre using List.reverseRecOn with
    | nil => exact Nat.zero_le _
    | append_singleton pre c =>
      rw [List.foldl_append]
      exact within_replacing _ c
  | false =>
    have h := within_refusing_iff (written calls) (j := {}) rfl (Nat.zero_le _)
    rw [show (({} : Journal).log.getD []).length = 0 from rfl] at h
    constructor
    · intro hall
      exact Or.inr (h.1 hall)
    · intro hfits
      exact h.2 (hfits.resolve_left Bool.false_ne_true)

/-- A call whose detail alone is as long as the bound. -/
def longCall : JournalCall := ⟨0, str "fs.write", List.replicate kJournalMaxBytes (ch 'x'), true⟩

theorem longCall_full : kJournalMaxBytes < (journalEntry longCall).length := by
  have hx : cStr (List.replicate kJournalMaxBytes (ch 'x')) = List.replicate kJournalMaxBytes (ch 'x') := by
    rw [cStr, List.takeWhile_eq_self_iff]
    intro b hb
    rw [List.eq_of_mem_replicate hb]
    decide
  unfold journalEntry
  dsimp only
  rw [List.length_append, List.length_singleton, show longCall.detail = List.replicate kJournalMaxBytes (ch 'x') from rfl, hx,
    List.length_append, List.length_replicate]
  omega

/-- **Where rename refuses to replace, the second time the log is full it stays.** -/
theorem second_rotation_refused : ¬(journalRun false [longCall, longCall]).Within := by
  have hfirst : journalWrite false {} longCall = ⟨none, some (journalEntry longCall)⟩ := by
    unfold journalWrite
    dsimp only
    rw [Option.getD_none, List.nil_append, if_pos longCall_full]
    rfl
  have hsecond := foldl_refused [longCall] (j := ⟨none, some (journalEntry longCall)⟩) rfl
  rw [journalRun_written]
  change ¬(List.foldl (journalWrite false) {} [longCall, longCall]).Within
  rw [Journal.Within, List.foldl_cons, hfirst, hsecond, texts, List.flatMap_singleton, Option.getD_none,
    List.nil_append]
  exact Nat.not_le.2 longCall_full

end Agent
end SwitchMcp

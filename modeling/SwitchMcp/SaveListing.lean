import SwitchMcp.SaveMounts
/-!
# SaveListing — which saves `save.list` lists, and whether it says that there are more (agent/source/handlers/savedata.cpp)

`listBatches` is the loop of `SaveList` over what the reader gives, with its two counters and the array it fills; its reply is
that of `saveList` (`saveList_listing`).  `listing_told_iff` says when the reply tells that the limit cut it short.
-/
namespace SwitchMcp
namespace Agent

open Json (Value)

/-- The counters of `SaveList`, and its array. -/
structure Listing where
  total : Nat := 0
  listed : Nat := 0
  arr : List Value := []

section
variable (wantType : Bytes) (limit : Nat)

def wanted (s : SaveInfo) : Bool := decide (wantType = [] ∨ wantType = saveTypeName s.type)

def listSave (l : Listing) (s : SaveInfo) : Listing :=
  let l := { l with total := l.total + 1 }
  if wantType ≠ [] ∧ wantType ≠ saveTypeName s.type then l
  else if limit ≤ l.listed then l
  else { l with listed := l.listed + 1, arr := l.arr ++ [saveEntry s] }

/-- The loop over the batches: it ends where a read fails or gives nothing. -/
def listBatches : List (Option (List SaveInfo)) → Listing → Listing
  | some (s :: batch) :: batches, l => listBatches batches ((s :: batch).foldl (listSave wantType limit) l)
  | _, l => l

def listingReply (l : Listing) : Reply :=
  let r := (({} : Reply).set "total" (.int (Int64.ofNat l.total))).set "listed" (.int (Int64.ofNat l.listed))
  let r := if l.listed < l.total ∧ wantType = [] then r.set "truncated" (.bool true) else r
  r.set "saves" (.array l.arr)

/-! ## The loop and its counters -/

theorem listBatches_eq : ∀ (batches : List (Option (List SaveInfo))) (l : Listing),
    listBatches wantType limit batches l = (readSaves batches).foldl (listSave wantType limit) l
  | [], _ => rfl
  | none :: _, _ => rfl
  | some [] :: _, _ => rfl
  | some (s :: batch) :: batches, l => by
    rw [listBatches, listBatches_eq batches, readSaves, List.foldl_append]

theorem listSave_wanted {s : SaveInfo} (h : wanted wantType s = true) (l : Listing) : listSave wantType limit l s =
    if limit ≤ l.listed then { l with total := l.total + 1 }
    else ⟨l.total + 1, l.listed + 1, l.arr ++ [saveEntry s]⟩ := by
  have hw : ¬(wantType ≠ [] ∧ wantType ≠ saveTypeName s.type) := by
    rintro ⟨h1, h2⟩
    rcases of_decide_eq_true h with h | h
    · exact h1 h
    · exact h2 h
  rw [listSave, if_neg hw]

theorem listSave_other {s : SaveInfo} (h : wanted wantType s = false) (l : Listing) :
    listSave wantType limit l s = { l with total := l.total + 1 } := by
  have hw : wantType ≠ [] ∧ wantType ≠ saveTypeName s.type := not_or.1 (of_decide_eq_false h)
  rw [listSave, if_pos hw]

/-- What the loop has done after some saves: all of them are counted, those that are wanted listed up to the limit. -/
theorem foldl_listSave : ∀ (infos : List SaveInfo) (l : Listing),
    infos.foldl (listSave wantType limit) l =
      ⟨l.total + infos.length, l.listed + ((infos.filter (wanted wantType)).take (limit - l.listed)).length,
        l.arr ++ ((infos.filter (wanted wantType)).take (limit - l.listed)).map saveEntry⟩
  | [], l => by
    rw [List.foldl_nil, List.filter_nil, List.take_nil, List.map_nil, List.append_nil]
    rfl
  | s :: infos, l => by
    have htotal : l.total + 1 + infos.length = l.total + (s :: infos).length := by
      rw [List.length_cons]
      omega
    rw [List.foldl_cons]
    cases hw : wanted wantType s with
    | false =>
      rw [listSave_other wantType limit hw, foldl_listSave infos, List.filter_cons_of_neg (Bool.not_eq_true _ ▸ hw)]
      dsimp only
      rw [htotal]
    | true =>
      rw [listSave_wanted wantType limit hw, List.filter_cons_of_pos hw]
      split
      · rename_i hfull
        have hzero : limit - l.listed = 0 := Nat.sub_eq_zero_of_le hfull
        rw [foldl_listSave infos]
        dsimp only
        rw [hzero, List.take_zero, List.take_zero, htotal]
      · rename_i hroom
        have hnext : limit - l.listed = limit - (l.listed + 1) + 1 := by omega
        rw [foldl_listSave infos]
        dsimp only
        rw [hnext, List.take_succ_cons, List.map_cons, htotal, List.append_assoc, List.singleton_append, Nat.add_assoc,
          Nat.add_comm 1, ← List.length_cons]

end

/-- The type that a request asks for. -/
def saveType (req : Request) : Bytes := (req.get "type").asString []

/-- **The reply of `saveList` is that of the loop over the batches.** -/
theorem saveList_listing (batches : List (Option (List SaveInfo))) (req : Request) :
    saveList true batches req =
      (true, listingReply (saveType req) (listBatches (saveType req) (saveLimit req) batches {})) := by
  rw [listBatches_eq, foldl_listSave, listingReply]
  dsimp only
  rw [Nat.zero_add, Nat.zero_add, Nat.sub_zero, List.nil_append]
  rfl

/-! ## When the reply tells that it was cut short -/

/-- The saves that a request asks for, of all that the reader gives. -/
def matching (batches : List (Option (List SaveInfo))) (req : Request) : List SaveInfo :=
  (readSaves batches).filter (wanted (saveType req))

theorem matching_all {batches : List (Option (List SaveInfo))} {req : Request} (h : saveType req = []) :
    matching batches req = readSaves batches := by
  refine List.filter_eq_self.2 fun s _ => ?_
  rw [wanted, h, decide_eq_true_iff]
  exact Or.inl rfl

theorem has_truncated (batches : List (Option (List SaveInfo))) (req : Request) :
    (saveList true batches req).2.json.has (str "truncated") = true ↔
      ((matching batches req).take (saveLimit req)).length < (readSaves batches).length ∧ saveType req = [] := by
  have hne : str "saves" ≠ str "truncated" := by decide
  have hne' : str "listed" ≠ str "truncated" := by decide
  have hne'' : str "total" ≠ str "truncated" := by decide
  rw [saveList_listing, listBatches_eq, foldl_listSave, listingReply]
  dsimp only
  rw [Nat.zero_add, Nat.zero_add, Nat.sub_zero]
  change _ ↔ ((List.filter (wanted (saveType req)) (readSaves batches)).take (saveLimit req)).length < _ ∧ _
  split <;> rename_i h
  · refine iff_of_true ?_ h
    simp [Reply.set]
  · refine iff_of_false ?_ h
    have hempty : ({} : Reply).json.has (str "truncated") = false := rfl
    simp [Reply.set, hne, hne', hne'', hempty]

/-- **`save.list` lists the first of the wanted saves, and tells that there are more than the limit, exactly where no type is
asked for or there are no more.** -/
theorem listing_told_iff (batches : List (Option (List SaveInfo))) (req : Request) :
    ((saveList true batches req).2.json.get (str "saves") =
        .array (((matching batches req).take (saveLimit req)).map saveEntry) ∧
      ((saveList true batches req).2.json.has (str "truncated") = true ↔ saveLimit req < (matching batches req).length)) ↔
      saveType req = [] ∨ (matching batches req).length ≤ saveLimit req := by
  have hsaves : (saveList true batches req).2.json.get (str "saves") =
      .array (((matching batches req).take (saveLimit req)).map saveEntry) := by
    rw [saveList_listing, listBatches_eq, foldl_listSave, listingReply, Reply.set, Value.get_set, if_pos rfl]
    rfl
  rw [and_iff_right hsaves, has_truncated, List.length_take]
  by_cases ht : saveType req = []
  · rw [matching_all ht]
    refine iff_of_true ⟨fun h => ?_, fun h => ⟨?_, ht⟩⟩ (Or.inl ht)
    · have := h.1
      omega
    · omega
  · constructor
    · intro h
      right
      by_contra hlt
      exact ht (h.2 (Nat.not_le.1 hlt)).2
    · intro h
      have hle := h.resolve_left ht
      exact ⟨fun h => absurd h.2 ht, fun h => by omega⟩

/-- Two account saves, of which one is asked for. -/
def oneAccountSave : Request :=
  ⟨((Value.object []).set (str "type") (.string (str "account"))).set (str "limit") (.int 1), []⟩

/-- **A filtered list is cut short without a word.** -/
theorem filtered_cut_untold :
    (matching [some [userSave, userSave]] oneAccountSave).length = 2 ∧ saveLimit oneAccountSave = 1 ∧
    (saveList true [some [userSave, userSave]] oneAccountSave).2.json.has (str "truncated") = false := by
  refine ⟨by decide +kernel, by decide +kernel, by decide +kernel⟩

end Agent
end SwitchMcp

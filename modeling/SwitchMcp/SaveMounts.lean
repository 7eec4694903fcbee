import SwitchMcp.HexIds
/-!
# SaveMounts — listing saves and mounting one of them (agent/source/handlers/savedata.cpp, server.cpp)

`SaveMount` drops the mount there is and tries the calls that fit the request; `g_save_mounted` is set where one of them
succeeds and cleared by `SaveUnmount`.  `flag_agrees_iff` says in which runs of the two the flag tells whether a save is
mounted.  `uid_returns_iff` is about the user id of an entry of `SaveList`, passed back to the handlers that take one.
-/
namespace SwitchMcp
namespace Agent

open Json (Value ofPy toPy)

/-! ## `SaveList` -/

abbrev AccountUid := UInt64 × UInt64

/-- `FsSaveDataInfo`. -/
structure SaveInfo where
  saveDataId : UInt64
  spaceId : UInt8
  type : UInt8
  uid : AccountUid
  systemSaveDataId : UInt64
  applicationId : UInt64
  size : UInt64
  index : UInt16

def saveTypeName (t : UInt8) : Bytes :=
  if t = 0 then str "system" else if t = 1 then str "account" else if t = 2 then str "bcat" else if t = 3 then str "device"
  else if t = 4 then str "temporary" else if t = 5 then str "cache" else if t = 6 then str "system_bcat" else str "unknown"

def spaceName (s : UInt8) : Bytes :=
  if s = 0 then str "system" else if s = 1 then str "user" else if s = 2 then str "sd_system"
  else if s = 3 then str "temporary" else if s = 4 then str "sd_user" else if s = 100 then str "proper_system"
  else if s = 101 then str "safe_mode" else str "unknown"

/-- The entry of a save; a zero id is left out. -/
def saveEntry (s : SaveInfo) : Value :=
  let e := ((setHex64 (.object []) "save_data_id" s.saveDataId).set (str "type") (.string (saveTypeName s.type))).set
    (str "space") (.string (spaceName s.spaceId))
  let e := if s.applicationId ≠ 0 then setHex64 e "application_id" s.applicationId else e
  let e := if s.systemSaveDataId ≠ 0 then setHex64 e "system_save_data_id" s.systemSaveDataId else e
  let e := (e.set (str "size") (.int s.size.toInt64)).set (str "index") (.int (Int64.ofNat s.index.toNat))
  if s.uid.1 ≠ 0 ∨ s.uid.2 ≠ 0 then setHex64 (setHex64 e "uid_hi" s.uid.1) "uid_lo" s.uid.2 else e

/-- What the reader gives until a read fails or gives nothing. -/
def readSaves : List (Option (List SaveInfo)) → List SaveInfo
  | some (s :: l) :: batches => s :: l ++ readSaves batches
  | _ => []

def saveLimit (req : Request) : Nat :=
  let limit := ((req.get "limit").asInt 400).toInt32
  (if limit < 1 ∨ 2000 < limit then 400 else limit).toInt.toNat

def saveList (opens : Bool) (batches : List (Option (List SaveInfo))) (req : Request) : Bool × Reply :=
  if !opens then (false, fail "fs_failed" (str "cannot open the save-data info reader"))
  else
    let wantType := (req.get "type").asString []
    let infos := readSaves batches
    let listed := (infos.filter (fun s => decide (wantType = [] ∨ wantType = saveTypeName s.type))).take (saveLimit req)
    let r := (({} : Reply).set "total" (.int (Int64.ofNat infos.length))).set "listed" (.int (Int64.ofNat listed.length))
    let r := if listed.length < infos.length ∧ wantType = [] then r.set "truncated" (.bool true) else r
    (true, r.set "saves" (.array (listed.map saveEntry)))

/-! ## `SaveMount` and `SaveUnmount` -/

inductive SaveSpace
  | system | sdSystem | properSystem
deriving DecidableEq

/-- A save that a mount call names. -/
inductive SaveRef
  | application (tid : UInt64) (uid : AccountUid)
  | system (space : SaveSpace) (id : UInt64) (uid : AccountUid)
deriving DecidableEq

/-- `g_save_mounted`, and what the device table holds under `save_ro`. -/
structure SaveMounts where
  flag : Bool
  mounted : Option SaveRef
deriving DecidableEq

def SaveMounts.none : SaveMounts := ⟨false, .none⟩

/-- `MAKERESULT(Module_Libnx, LibnxError_NotFound)`. -/
def kNotFound : UInt32 := 345 + 9 * 512

def mountUid (req : Request) : AccountUid :=
  (strtoull16 ((req.get "uid_hi").asString (str "0")), strtoull16 ((req.get "uid_lo").asString (str "0")))

def mountSpaces (req : Request) : List SaveSpace :=
  let space := (req.get "space").asString []
  if space = str "system" then [.system]
  else if space = str "sd_system" then [.sdSystem]
  else if space = str "proper_system" then [.properSystem]
  else [.system, .sdSystem, .properSystem]

/-- The mount calls that a request leads to, in order, until one succeeds. -/
def mountCalls (req : Request) : List SaveRef :=
  let tid := strtoull16 ((req.get "tid").asString (str "0"))
  let sysId := strtoull16 ((req.get "system_save_data_id").asString (str "0"))
  if sysId ≠ 0 then (mountSpaces req).map (fun space => .system space sysId (mountUid req))
  else if tid = 0 then []
  else [.application tid (mountUid req)]

/-- The calls in order; `rc n` is the result of the `n`-th. -/
def mountLoop (rc : Nat → UInt32) : Nat → UInt32 → List SaveRef → Except UInt32 SaveRef
  | _, last, [] => .error last
  | n, _, c :: calls => if rc n = 0 then .ok c else mountLoop rc (n + 1) (rc n) calls

/-- The message, in a buffer of 256 bytes. -/
def mountFailed (rc : UInt32) : Bytes :=
  (str "cannot mount that save (rc=0x" ++ fmtHex 8 rc.toNat ++ str "). Common causes: the system already holds it open " ++
    utf8 [cp 0x2014] ++ str (" settings, account and similar system saves are mounted by their owning service and cannot " ++
    "be opened twice; a wrong uid for an account save (take it from save.list); or the title simply has no save data.")).take 255

def saveMount (rc : Nat → UInt32) (req : Request) (st : SaveMounts) : (Bool × Reply) × SaveMounts :=
  let st := { st with mounted := .none }
  match mountCalls req with
  | [] => ((false, fail "bad_arg" (str "need tid or system_save_data_id")), st)
  | c :: calls =>
    match mountLoop rc 0 kNotFound (c :: calls) with
    | .error last => ((false, fail "mount_failed" (mountFailed last)), st)
    | .ok ref =>
      ((true, (((({} : Reply).set "ok" (.bool true)).set "device" (.string (str "save"))).set "mode"
        (.string (str "read-only"))).set "note" (.string (str "browse with fs.list / fs.read using device=\"save\""))),
        ⟨true, some ref⟩)

def saveUnmount (_ : SaveMounts) : (Bool × Reply) × SaveMounts :=
  ((true, ({} : Reply).set "ok" (.bool true)), SaveMounts.none)

/-! ## Runs -/

/-- A request for either of the two, with the results of its mount calls. -/
inductive SaveStep
  | mount (rc : Nat → UInt32) (req : Request)
  | unmount

def SaveStep.run (st : SaveMounts) : SaveStep → SaveMounts
  | .mount rc req => (saveMount rc req st).2
  | .unmount => (saveUnmount st).2

/-- The state after a run of requests, from one with nothing mounted. -/
def afterSaves (steps : List SaveStep) : SaveMounts := steps.foldl SaveStep.run .none

/-- The flag is set exactly when a save is mounted; and when none is, `ResolveDevicePath` rejects the device. -/
def FlagAgrees (st : SaveMounts) : Prop :=
  (st.flag = true ↔ st.mounted.isSome = true) ∧
    (st.mounted = none → ∀ p, resolveDevicePath st.flag (str "save") p = none)

/-- A mount request that names no save, or every one of whose calls fails. -/
def SaveStep.Fails : SaveStep → Prop
  | .mount rc req => ∀ n < (mountCalls req).length, rc n ≠ 0
  | .unmount => False

theorem resolve_unmounted (p : Bytes) : resolveDevicePath false (str "save") p = none := by
  unfold resolveDevicePath
  cases normalizePath p with
  | none => rfl
  | some norm =>
    dsimp only
    rw [if_neg (by decide), if_pos rfl, if_neg Bool.false_ne_true]

theorem flagAgrees_iff (st : SaveMounts) : FlagAgrees st ↔ (st.flag = true ↔ st.mounted.isSome = true) := by
  refine ⟨And.left, fun h => ⟨h, fun hn p => ?_⟩⟩
  have hflag : st.flag = false := by
    cases hf : st.flag with
    | false => rfl
    | true =>
      have := h.1 hf
      rw [hn] at this
      cases this
  rw [hflag]
  exact resolve_unmounted p

/-- **The loop takes the first call that succeeds.** -/
theorem mountLoop_cases (rc : Nat → UInt32) : ∀ (calls : List SaveRef) (n : Nat) (last : UInt32),
    (∃ ref, mountLoop rc n last calls = .ok ref ∧ ¬∀ k < calls.length, rc (n + k) ≠ 0) ∨
      (∃ e, mountLoop rc n last calls = .error e ∧ ∀ k < calls.length, rc (n + k) ≠ 0)
  | [], n, last => Or.inr ⟨last, rfl, fun _ h => absurd h (Nat.not_lt_zero _)⟩
  | c :: calls, n, last => by
    rw [mountLoop]
    by_cases h0 : rc n = 0
    · rw [if_pos h0]
      exact Or.inl ⟨c, rfl, fun h => h 0 (Nat.succ_pos _) h0⟩
    · have hshift : (∀ k < (c :: calls).length, rc (n + k) ≠ 0) ↔ ∀ k < calls.length, rc (n + 1 + k) ≠ 0 := by
        rw [List.length_cons, Nat.forall_lt_succ_left, Nat.add_zero]
        simp only [h0, ne_eq, not_false_eq_true, true_and, Nat.add_assoc, Nat.add_comm 1]
      rw [if_neg h0, hshift]
      exact mountLoop_cases rc calls (n + 1) (rc n)

/-- **What a mount request does**: the save is mounted and the flag set, or it fails, nothing is mounted, and the flag is as
it was. -/
theorem saveMount_cases (rc : Nat → UInt32) (req : Request) (st : SaveMounts) :
    ((∃ ref, (saveMount rc req st).2 = ⟨true, some ref⟩) ∧ ¬(SaveStep.mount rc req).Fails) ∨
      ((saveMount rc req st).2 = ⟨st.flag, none⟩ ∧ (SaveStep.mount rc req).Fails) := by
  unfold saveMount SaveStep.Fails
  dsimp only
  cases hc : mountCalls req with
  | nil => exact Or.inr ⟨rfl, fun _ h => absurd h (Nat.not_lt_zero _)⟩
  | cons c calls =>
    have h := mountLoop_cases rc (c :: calls) 0 kNotFound
    simp only [Nat.zero_add] at h
    rcases h with ⟨ref, hl, hf⟩ | ⟨e, hl, hf⟩
    · exact Or.inl ⟨⟨ref, by dsimp only; rw [hl]⟩, hf⟩
    · exact Or.inr ⟨by dsimp only; rw [hl], hf⟩

/-- **One request**: where the flag agreed, it agrees afterwards exactly when no save was mounted or the request does not
fail. -/
theorem run_agrees_iff {st : SaveMounts} (h : FlagAgrees st) (r : SaveStep) :
    FlagAgrees (r.run st) ↔ ¬(st.mounted.isSome = true ∧ r.Fails) := by
  rw [flagAgrees_iff] at h ⊢
  cases r with
  | unmount =>
    have hnone : SaveStep.unmount.run st = SaveMounts.none := rfl
    rw [hnone]
    exact iff_of_true (by decide) And.right
  | mount rc req =>
    rw [SaveStep.run]
    rcases saveMount_cases rc req st with ⟨⟨ref, hr⟩, hf⟩ | ⟨hr, hf⟩
    · rw [hr]
      exact iff_of_true (by simp) fun hm => hf hm.2
    · rw [hr, ← h]
      simp [hf]

theorem afterSaves_append (l : List SaveStep) (r : SaveStep) : afterSaves (l ++ [r]) = r.run (afterSaves l) := by
  rw [afterSaves, List.foldl_append]
  rfl

/-- **In a run of mounts and unmounts the flag agrees after every request exactly when no mount fails while a save is
mounted**: such a request has dropped the save by the time it fails, and leaves the flag set. -/
theorem flag_agrees_iff (steps : List SaveStep) :
    (∀ l, l <+: steps → FlagAgrees (afterSaves l)) ↔
      ∀ l r, l ++ [r] <+: steps → ¬((afterSaves l).mounted.isSome = true ∧ r.Fails) := by
  constructor
  · intro h l r hl
    have h1 := h l ((List.prefix_append l [r]).trans hl)
    have h2 := h (l ++ [r]) hl
    rw [afterSaves_append] at h2
    exact (run_agrees_iff h1 r).1 h2
  · intro h l
    induction l using List.reverseRecOn with
    | nil => exact fun _ => (flagAgrees_iff _).2 (by decide)
    | append_singleton l r ih =>
      intro hl
      rw [afterSaves_append]
      exact (run_agrees_iff (ih ((List.prefix_append l [r]).trans hl)) r).2 (h l r hl)

def mountRequest (tid : String) : Request := ⟨.object [(str "tid", .string (str tid))], []⟩

/-- **A mount that fails after one that succeeded leaves the flag set with nothing mounted**, and the device resolves. -/
theorem flag_left_set :
    afterSaves [.mount (fun _ => 0) (mountRequest "1"), .mount (fun _ => 0) (mountRequest "0")] = ⟨true, none⟩ ∧
    ¬FlagAgrees (afterSaves [.mount (fun _ => 0) (mountRequest "1"), .mount (fun _ => 0) (mountRequest "0")]) := by
  have h : afterSaves [.mount (fun _ => 0) (mountRequest "1"), .mount (fun _ => 0) (mountRequest "0")] = ⟨true, none⟩ := by
    decide +kernel
  refine ⟨h, ?_⟩
  rw [h, flagAgrees_iff]
  decide

/-! ## User ids -/

/-- A request has the two fields of a user id as the client got them from the save's entry. -/
structure CarriesUid (req : Request) (s : SaveInfo) : Prop where
  hi : req.get "uid_hi" = ofPy (toPy ((saveEntry s).get (str "uid_hi")))
  lo : req.get "uid_lo" = ofPy (toPy ((saveEntry s).get (str "uid_lo")))

theorem get_setHex64_of_ne {e : Value} {k : String} {k' : Bytes} (v : UInt64) (h : str k ≠ k') :
    (setHex64 e k v).get k' = e.get k' := by rw [setHex64, Json.Value.get_set, if_neg h]

theorem get_hexIf_of_ne {e : Value} {k : String} {k' : Bytes} (v : UInt64) {c : Prop} [Decidable c] (h : str k ≠ k') :
    (if c then setHex64 e k v else e).get k' = e.get k' := by
  split
  · exact get_setHex64_of_ne v h
  · rfl

/-- The entry has the two fields, as text, exactly when the id is not zero. -/
theorem get_uid (s : SaveInfo) :
    (s.uid ≠ (0, 0) ∧ (saveEntry s).get (str "uid_hi") = .string (fmtHex 16 s.uid.1.toNat) ∧
      (saveEntry s).get (str "uid_lo") = .string (fmtHex 16 s.uid.2.toNat)) ∨
    (s.uid = (0, 0) ∧ (saveEntry s).get (str "uid_hi") = .null ∧ (saveEntry s).get (str "uid_lo") = .null) := by
  have keys : ∀ k ∈ ["index", "size", "system_save_data_id", "application_id", "space", "type", "save_data_id"],
      str k ≠ str "uid_hi" ∧ str k ≠ str "uid_lo" := by decide
  simp only [List.forall_mem_cons] at keys
  obtain ⟨⟨h1, l1⟩, ⟨h2, l2⟩, ⟨h3, l3⟩, ⟨h4, l4⟩, ⟨h5, l5⟩, ⟨h6, l6⟩, ⟨h7, l7⟩, -⟩ := keys
  cases hu : s.uid with
  | mk hi lo =>
    unfold saveEntry
    rw [hu]
    dsimp only
    by_cases h0 : hi ≠ 0 ∨ lo ≠ 0
    · rw [if_pos h0]
      refine Or.inl ⟨fun h => ?_, ?_, ?_⟩
      · rw [Prod.mk.injEq] at h
        exact h0.elim (fun h' => h' h.1) (fun h' => h' h.2)
      · rw [get_setHex64_of_ne _ (by decide), setHex64, Json.Value.get_set, if_pos rfl]
      · rw [setHex64, Json.Value.get_set, if_pos rfl]
    · rw [if_neg h0]
      rw [not_or, not_not, not_not] at h0
      refine Or.inr ⟨by rw [h0.1, h0.2], ?_, ?_⟩
      · rw [Json.Value.get_set, if_neg h1, Json.Value.get_set, if_neg h2, get_hexIf_of_ne _ h3, get_hexIf_of_ne _ h4,
          Json.Value.get_set, if_neg h5, Json.Value.get_set, if_neg h6, get_setHex64_of_ne _ h7]
        rfl
      · rw [Json.Value.get_set, if_neg l1, Json.Value.get_set, if_neg l2, get_hexIf_of_ne _ l3, get_hexIf_of_ne _ l4,
          Json.Value.get_set, if_neg l5, Json.Value.get_set, if_neg l6, get_setHex64_of_ne _ l7]
        rfl

/-- **`save.mount` reads the user id of the entry**, for every id. -/
theorem mountUid_eq {req : Request} {s : SaveInfo} (h : CarriesUid req s) : mountUid req = s.uid := by
  unfold mountUid
  rw [h.hi, h.lo]
  rcases get_uid s with ⟨-, hhi, hlo⟩ | ⟨hu, hhi, hlo⟩
  · rw [hhi, hlo, ofPy_toPy_fmtHex, ofPy_toPy_fmtHex, Value.asString, Value.asString, strtoull16_fmtHex, strtoull16_fmtHex]
  · rw [hhi, hlo, hu]
    decide

/-- **`save.backup` and `save.restore` read the zero id**, whatever the entry's is: they ask for numbers. -/
theorem reqUid_eq {req : Request} {s : SaveInfo} (h : CarriesUid req s) : reqUid req = (0, 0) := by
  unfold reqUid
  rw [h.hi, h.lo]
  rcases get_uid s with ⟨-, hhi, hlo⟩ | ⟨-, hhi, hlo⟩
  · rw [hhi, hlo, ofPy_toPy_fmtHex, ofPy_toPy_fmtHex]
    rfl
  · rw [hhi, hlo]
    rfl

/-- **The user id of an entry, passed back to the three handlers, is the entry's in all of them exactly when it is zero.** -/
theorem uid_returns_iff (s : SaveInfo) (mount backup restore : Request) (hm : CarriesUid mount s) (hb : CarriesUid backup s)
    (hr : CarriesUid restore s) :
    (mountUid mount = s.uid ∧ reqUid backup = s.uid ∧ reqUid restore = s.uid) ↔ s.uid = (0, 0) := by
  rw [mountUid_eq hm, reqUid_eq hb, reqUid_eq hr]
  exact ⟨fun h => h.2.1.symm, fun h => ⟨rfl, h.symm, h.symm⟩⟩

/-- A save of the console itself, and one of a user. -/
def systemSave : SaveInfo := ⟨1, 0, 0, (0, 0), 1, 0, 0, 0⟩

def userSave : SaveInfo := ⟨2, 1, 1, (1, 0), 0, 1, 0, 0⟩

/-- A request with the user id of a save's entry. -/
def uidRequest (s : SaveInfo) : Request :=
  ⟨.object [(str "uid_hi", ofPy (toPy ((saveEntry s).get (str "uid_hi")))),
    (str "uid_lo", ofPy (toPy ((saveEntry s).get (str "uid_lo"))))], []⟩

theorem uid_returns_system :
    mountUid (uidRequest systemSave) = (0, 0) ∧ reqUid (uidRequest systemSave) = (0, 0) ∧
      reqUid (uidRequest systemSave) = (0, 0) :=
  (uid_returns_iff systemSave _ _ _ ⟨rfl, rfl⟩ ⟨rfl, rfl⟩ ⟨rfl, rfl⟩).2 rfl

/-- **A user's save is backed up as nobody's.** -/
theorem uid_lost : CarriesUid (uidRequest userSave) userSave ∧ mountUid (uidRequest userSave) = userSave.uid ∧
    reqUid (uidRequest userSave) ≠ userSave.uid :=
  ⟨⟨rfl, rfl⟩, by decide +kernel⟩

end Agent
end SwitchMcp

import SwitchMcp.Recording
/-!
# WaitEvent — waiting for an application or a button (agent/source/handlers/events.cpp)

`WaitEvent` polls every 200 ms and compares each poll with what it read at the start.  For a button its reply is the one at
the first poll that differs from the start and holds something (`waitEvent_button`); `button_fires_iff` says for which samples
that is the first press, a press being a button that the sample before did not hold.
-/
namespace SwitchMcp
namespace Agent

open Json (Value)

/-- `kPollNs`, in milliseconds. -/
def pollMs : Nat := 200

def waitMs (req : Request) : Nat :=
  let ms := ((req.get "timeout_ms").asInt 10000).toInt32
  (if ms < 100 then 100 else if kMaxWaitMs < ms then kMaxWaitMs else ms).toInt.toNat

/-- `fired`, `event` and `waited_ms`. -/
def eventReply (fired : Bool) (what : Bytes) (waited : Nat) : Reply :=
  ((({} : Reply).set "fired" (.bool fired)).set "event" (.string what)).set "waited_ms" (.int (Int64.ofNat waited))

def appReply (what : Bytes) (waited : Nat) (pid : UInt64) : Reply :=
  let r := (eventReply true what waited).set "running" (.bool (decide (pid ≠ 0)))
  if pid ≠ 0 then r.set "pid" (.ofU64 pid) else r

def buttonReply (what : Bytes) (waited : Nat) (buttons : UInt64) : Reply :=
  (eventReply true what waited).set "buttons" (buttonsToArray buttons)

def timedOut (what : Bytes) (waited : Nat) : Reply :=
  (eventReply false what waited).set "note" (.string (str "timed out; nothing happened within the window"))

def heldReply (r : Reply) : Reply := r.set "note" (.string (str "condition already held; returned immediately"))

/-- Whether a poll of the application fires; no application has the process id 0. -/
def appFires (what : Bytes) (startPid pid : UInt64) : Bool :=
  if what = str "app_start" then decide (pid ≠ 0)
  else if what = str "app_exit" then decide (pid = 0)
  else decide ((pid ≠ 0) ≠ (startPid ≠ 0)) || (decide (pid ≠ 0) && decide (pid ≠ startPid))

section
variable (app : Nat → UInt64) (pad : Nat → Option UInt64) (what : Bytes) (startPid startButtons : UInt64) (timeoutMs : Nat)

/-- The loop of `WaitEvent` after `i` polls; `app` and `pad` are what `AppRunning` and `ReadPad` give for each, the reads at
the start being the first.  A round takes 200 ms, so the timeout in milliseconds is fuel enough. -/
def waitLoop : Nat → Nat → Bool × Reply
  | 0, i => (true, timedOut what (pollMs * i))
  | fuel + 1, i =>
    if pollMs * i < timeoutMs then
      if what = str "app_start" ∨ what = str "app_exit" ∨ what = str "app_change" then
        if appFires what startPid (app (i + 1)) then (true, appReply what (pollMs * (i + 1)) (app (i + 1)))
        else waitLoop fuel (i + 1)
      else if what = str "button" then
        match pad (i + 1) with
        | none => waitLoop fuel (i + 1)
        | some b =>
          if b ≠ 0 ∧ b ≠ startButtons then (true, buttonReply what (pollMs * (i + 1)) b) else waitLoop fuel (i + 1)
      else (false, fail "bad_arg" (str "event must be app_start, app_exit, app_change or button"))
    else (true, timedOut what (pollMs * i))

end

def eventName (req : Request) : Bytes := (req.get "event").asString (str "app_change")

/-- The buttons at the start: none where the read fails. -/
def startButtons (pad : Nat → Option UInt64) : UInt64 := (pad 0).getD 0

def waitEvent (app : Nat → UInt64) (pad : Nat → Option UInt64) (req : Request) : Bool × Reply :=
  let what := eventName req
  if what = str "app_start" ∧ app 0 ≠ 0 then (true, heldReply (appReply what 0 (app 0)))
  else if what = str "app_exit" ∧ app 0 = 0 then (true, heldReply (appReply what 0 (app 0)))
  else waitLoop app pad what (app 0) (startButtons pad) (waitMs req) (waitMs req) 0

/-! ## The polls of the pad -/

/-- How many polls fit the timeout. -/
def pollCount (timeoutMs : Nat) : Nat := (timeoutMs + (pollMs - 1)) / pollMs

/-- What the polls of the pad give. -/
def padPolls (pad : Nat → Option UInt64) (timeoutMs : Nat) : List (Option UInt64) :=
  (List.range' 1 (pollCount timeoutMs)).map pad

/-- The first poll that holds something other than the start did, and what it holds. -/
def firstOther (start : UInt64) : List (Option UInt64) → Nat → Option (Nat × UInt64)
  | [], _ => none
  | none :: l, i => firstOther start l (i + 1)
  | some b :: l, i => if b ≠ 0 ∧ b ≠ start then some (i, b) else firstOther start l (i + 1)

/-- The first poll at which a button is pressed that was not held at the poll before. -/
def firstPress (held : UInt64) : List (Option UInt64) → Nat → Option (Nat × UInt64)
  | [], _ => none
  | none :: l, i => firstPress held l (i + 1)
  | some b :: l, i => if b &&& ~~~held ≠ 0 then some (i, b) else firstPress b l (i + 1)

/-- The reply for the poll at which a call fires, if it does. -/
def buttonAnswer (what : Bytes) (timeoutMs : Nat) : Option (Nat × UInt64) → Bool × Reply
  | some (i, b) => (true, buttonReply what (pollMs * i) b)
  | none => (true, timedOut what (pollMs * pollCount timeoutMs))

theorem lt_pollCount {timeoutMs i : Nat} : pollMs * i < timeoutMs ↔ i < pollCount timeoutMs := by
  rw [pollCount, pollMs]
  omega

theorem waitLoop_button (app : Nat → UInt64) (pad : Nat → Option UInt64) {what : Bytes} (hw : what = str "button")
    (startPid start : UInt64) (timeoutMs : Nat) : ∀ (n i fuel : Nat), n + i = pollCount timeoutMs → n ≤ fuel →
      waitLoop app pad what startPid start timeoutMs fuel i =
        buttonAnswer what timeoutMs (firstOther start ((List.range' (i + 1) n).map pad) (i + 1))
  | 0, i, fuel, hi, _ => by
    rw [Nat.zero_add] at hi
    have hend : ¬pollMs * i < timeoutMs := by
      rw [lt_pollCount, hi]
      exact lt_irrefl _
    have hanswer : buttonAnswer what timeoutMs (firstOther start ((List.range' (i + 1) 0).map pad) (i + 1)) =
        (true, timedOut what (pollMs * i)) := by rw [hi]; rfl
    rw [hanswer]
    cases fuel with
    | zero => rfl
    | succ fuel => rw [waitLoop, if_neg hend]
  | n + 1, i, fuel, hi, hf => by
    obtain ⟨fuel, rfl⟩ := Nat.exists_eq_add_of_le' (Nat.le_trans (Nat.le_add_left 1 n) hf)
    have hgo : pollMs * i < timeoutMs := by
      rw [lt_pollCount]
      omega
    have happ : ¬(what = str "app_start" ∨ what = str "app_exit" ∨ what = str "app_change") := by
      rw [hw]
      decide
    have ih := waitLoop_button app pad hw startPid start timeoutMs n (i + 1) fuel (by omega) (by omega)
    rw [waitLoop, if_pos hgo, if_neg happ, if_pos hw, List.range'_succ, List.map_cons]
    cases pad (i + 1) with
    | none => exact ih
    | some b =>
      dsimp only
      rw [firstOther]
      split
      · rfl
      · exact ih

/-- **For a button the reply is the one at the first poll that holds something other than the start did.** -/
theorem waitEvent_button (app : Nat → UInt64) (pad : Nat → Option UInt64) {req : Request} (h : eventName req = str "button") :
    waitEvent app pad req =
      buttonAnswer (str "button") (waitMs req) (firstOther (startButtons pad) (padPolls pad (waitMs req)) 1) := by
  have hstart : ¬(str "button" = str "app_start" ∧ app 0 ≠ 0) := fun hc => absurd hc.1 (by decide)
  have hexit : ¬(str "button" = str "app_exit" ∧ app 0 = 0) := fun hc => absurd hc.1 (by decide)
  unfold waitEvent
  dsimp only
  rw [h, if_neg hstart, if_neg hexit]
  refine waitLoop_button app pad rfl (app 0) (startButtons pad) (waitMs req) (pollCount (waitMs req)) 0 (waitMs req) rfl ?_
  rw [pollCount, pollMs]
  omega

/-! ## When the first poll that differs is the first press -/

/-- The samples from the first one on that is not what the start held. -/
def afterStart (start : UInt64) (l : List UInt64) : List UInt64 := l.dropWhile (fun b => decide (b = start))

/-- The first sample that differs from the start is empty or holds a button that the start did not; and the first that is
not empty from there on is not the start again. -/
structure Telling (start : UInt64) (l : List UInt64) : Prop where
  first : ∀ b ∈ (afterStart start l).head?, b = 0 ∨ b &&& ~~~start ≠ 0
  again : ∀ b ∈ (afterStart start l).find? (fun b => decide (b ≠ 0)), b ≠ start

/-- The poll that is found is one of the polls. -/
theorem firstOther_at {start : UInt64} : ∀ {l : List (Option UInt64)} {i j : Nat} {b : UInt64},
    firstOther start l i = some (j, b) → ∃ k, j = i + k ∧ l[k]? = some (some b)
  | [], _, _, _, h => by cases h
  | none :: l, i, j, b, h => by
    obtain ⟨k, rfl, hk⟩ := firstOther_at (l := l) h
    exact ⟨k + 1, by omega, hk⟩
  | some c :: l, i, j, b, h => by
    rw [firstOther] at h
    split at h
    · cases h
      exact ⟨0, rfl, rfl⟩
    · obtain ⟨k, rfl, hk⟩ := firstOther_at h
      exact ⟨k + 1, by omega, hk⟩

theorem firstPress_at : ∀ {l : List (Option UInt64)} {held : UInt64} {i j : Nat} {b : UInt64},
    firstPress held l i = some (j, b) → ∃ k, j = i + k ∧ l[k]? = some (some b)
  | [], _, _, _, _, h => by cases h
  | none :: l, held, i, j, b, h => by
    obtain ⟨k, rfl, hk⟩ := firstPress_at (l := l) h
    exact ⟨k + 1, by omega, hk⟩
  | some c :: l, held, i, j, b, h => by
    rw [firstPress] at h
    split at h
    · cases h
      exact ⟨0, rfl, rfl⟩
    · obtain ⟨k, rfl, hk⟩ := firstPress_at h
      exact ⟨k + 1, by omega, hk⟩

/-- Once everything was released. -/
theorem released_press_iff {start : UInt64} (hs : start ≠ 0) : ∀ (l : List (Option UInt64)) (i : Nat),
    firstOther start l i = firstPress 0 l i ↔ ∀ b ∈ (l.filterMap id).find? (fun b => decide (b ≠ 0)), b ≠ start
  | [], _ => iff_of_true rfl (fun b hb => by cases hb)
  | none :: l, i => released_press_iff hs l (i + 1)
  | some b :: l, i => by
    have hcons : (some b :: l).filterMap id = b :: l.filterMap id := rfl
    rw [firstOther, firstPress, UInt64.not_zero, UInt64.and_neg_one, hcons, List.find?_cons]
    by_cases hb : b = 0
    · rw [hb, if_neg (fun h => h.1 rfl), if_neg (fun h => h rfl), decide_eq_false (fun h => h rfl)]
      exact released_press_iff hs l (i + 1)
    rw [if_pos hb, decide_eq_true hb]
    by_cases hstart : b = start
    · rw [if_neg (fun h => h.2 hstart)]
      refine iff_of_false (fun h => ?_) (fun h => h b rfl hstart)
      obtain ⟨k, hk, -⟩ := firstOther_at h
      omega
    · rw [if_pos ⟨hb, hstart⟩]
      refine iff_of_true rfl (fun c hc => ?_)
      cases hc
      exact hstart

theorem telling_same {start : UInt64} (l : List UInt64) : Telling start (start :: l) ↔ Telling start l := by
  have h : afterStart start (start :: l) = afterStart start l := by
    unfold afterStart
    exact List.dropWhile_cons_of_pos (decide_eq_true rfl)
  constructor
  · intro ht
    exact ⟨h ▸ ht.first, h ▸ ht.again⟩
  · intro ht
    exact ⟨h.symm ▸ ht.first, h.symm ▸ ht.again⟩

theorem afterStart_other {start b : UInt64} (h : b ≠ start) (l : List UInt64) : afterStart start (b :: l) = b :: l := by
  rw [afterStart, List.dropWhile_cons_of_neg]
  exact fun hc => h (of_decide_eq_true hc)

/-- **The first poll that differs from the start is the first press, for the samples that tell.** -/
theorem firstOther_eq_iff (start : UInt64) : ∀ (l : List (Option UInt64)) (i : Nat),
    firstOther start l i = firstPress start l i ↔ Telling start (l.filterMap id)
  | [], _ => iff_of_true rfl ⟨fun b hb => (by cases hb), fun b hb => (by cases hb)⟩
  | none :: l, i => firstOther_eq_iff start l (i + 1)
  | some b :: l, i => by
    have hcons : (some b :: l).filterMap id = b :: l.filterMap id := rfl
    rw [firstOther, firstPress, hcons]
    by_cases hstart : b = start
    · have hnone : ¬start &&& ~~~start ≠ 0 := fun h => h (UInt64.and_not_self)
      rw [hstart, if_neg (fun h => h.2 rfl), if_neg hnone, telling_same]
      exact firstOther_eq_iff start l (i + 1)
    by_cases hb : b = 0
    · -- Everything was released.
      have hs : start ≠ 0 := fun h => hstart (hb.trans h.symm)
      have hzero : ¬(0 : UInt64) &&& ~~~start ≠ 0 := fun h => h UInt64.zero_and
      rw [hb, if_neg (fun h => h.1 rfl), if_neg hzero, released_press_iff hs l (i + 1)]
      have hrest := afterStart_other (hb ▸ hstart) (l.filterMap id)
      constructor
      · intro h
        refine ⟨fun c hc => ?_, fun c hc => ?_⟩
        · rw [hrest] at hc
          cases hc
          exact Or.inl rfl
        · rw [hrest, List.find?_cons_of_neg (by decide)] at hc
          exact h c hc
      · intro h c hc
        refine h.again c ?_
        rw [hrest, List.find?_cons_of_neg (by decide)]
        exact hc
    have hrest := afterStart_other hstart (l.filterMap id)
    rw [if_pos ⟨hb, hstart⟩]
    by_cases hnew : b &&& ~~~start ≠ 0
    · rw [if_pos hnew]
      refine iff_of_true rfl ⟨fun c hc => ?_, fun c hc => ?_⟩
      · rw [hrest] at hc
        cases hc
        exact Or.inr hnew
      · rw [hrest, List.find?_cons, decide_eq_true hb] at hc
        cases hc
        exact hstart
    · -- Some of the buttons of the start were released.
      rw [if_neg hnew]
      refine iff_of_false (fun h => ?_) (fun h => ?_)
      · obtain ⟨k, hk, -⟩ := firstPress_at h.symm
        omega
      · rcases h.first b (by rw [hrest]; rfl) with h | h
        · exact hb h
        · exact hnew h

/-! ## The reply for a button -/

theorem waitMs_le (req : Request) : waitMs req ≤ 20000 := by
  have hlt : ∀ a b : Int32, a < b ↔ a.toInt < b.toInt := fun a b => Int32.lt_iff_toInt_lt
  unfold waitMs kMaxWaitMs
  dsimp only
  split
  · decide
  · split
    · decide
    · rename_i h
      rw [hlt, show (20000 : Int32).toInt = 20000 from rfl] at h
      omega

theorem get_fired (fired : Bool) (what : Bytes) (waited : Nat) :
    (eventReply fired what waited).json.get (str "fired") = .bool fired ∧
      (eventReply fired what waited).json.get (str "waited_ms") = .int (Int64.ofNat waited) := by
  have h1 : str "waited_ms" ≠ str "fired" := by decide
  have h2 : str "event" ≠ str "fired" := by decide
  unfold eventReply Reply.set
  rw [Value.get_set, if_neg h1, Value.get_set, if_neg h2, Value.get_set, if_pos rfl, Value.get_set, if_pos rfl]
  exact ⟨rfl, rfl⟩

theorem get_buttonReply (what : Bytes) (waited : Nat) (b : UInt64) :
    (buttonReply what waited b).json.get (str "fired") = .bool true ∧
      (buttonReply what waited b).json.get (str "waited_ms") = .int (Int64.ofNat waited) := by
  have h1 : str "buttons" ≠ str "fired" := by decide
  have h2 : str "buttons" ≠ str "waited_ms" := by decide
  unfold buttonReply Reply.set
  rw [Value.get_set, if_neg h1, Value.get_set, if_neg h2]
  exact get_fired true what waited

theorem get_timedOut (what : Bytes) (waited : Nat) : (timedOut what waited).json.get (str "fired") = .bool false := by
  have h1 : str "note" ≠ str "fired" := by decide
  unfold timedOut Reply.set
  rw [Value.get_set, if_neg h1]
  exact (get_fired false what waited).1

/-- The time a reply gives tells the poll. -/
theorem buttonReply_poll {what : Bytes} {i j : Nat} {b c : UInt64} (hi : i ≤ 100) (hj : j ≤ 100)
    (h : buttonReply what (pollMs * i) b = buttonReply what (pollMs * j) c) : i = j := by
  have hget := (get_buttonReply what (pollMs * i) b).2
  rw [h, (get_buttonReply what (pollMs * j) c).2, Value.int.injEq] at hget
  have hint := congrArg Int64.toInt hget
  unfold pollMs at hint
  rw [Int64.toInt_ofNat_of_lt (by omega), Int64.toInt_ofNat_of_lt (by omega)] at hint
  omega

theorem padPolls_length (pad : Nat → Option UInt64) (req : Request) : (padPolls pad (waitMs req)).length ≤ 100 := by
  have := waitMs_le req
  rw [padPolls, List.length_map, List.length_range', pollCount, pollMs]
  omega

theorem buttonAnswer_injective {pad : Nat → Option UInt64} {req : Request} {held start : UInt64}
    (h : buttonAnswer (str "button") (waitMs req) (firstOther start (padPolls pad (waitMs req)) 1) =
      buttonAnswer (str "button") (waitMs req) (firstPress held (padPolls pad (waitMs req)) 1)) :
    firstOther start (padPolls pad (waitMs req)) 1 = firstPress held (padPolls pad (waitMs req)) 1 := by
  have hlen := padPolls_length pad req
  have hfired : ∀ i b, (true, buttonReply (str "button") (pollMs * i) b) ≠
      (true, timedOut (str "button") (pollMs * pollCount (waitMs req))) := by
    intro i b heq
    have hget := (get_buttonReply (str "button") (pollMs * i) b).1
    rw [(Prod.mk.inj heq).2, get_timedOut] at hget
    cases hget
  have hbound : ∀ {k : Nat} {b : UInt64}, (padPolls pad (waitMs req))[k]? = some (some b) → 1 + k ≤ 100 := by
    intro k b hk
    obtain ⟨hlt, -⟩ := List.getElem?_eq_some_iff.1 hk
    omega
  cases ho : firstOther start (padPolls pad (waitMs req)) 1 with
  | none =>
    cases hp : firstPress held (padPolls pad (waitMs req)) 1 with
    | none => rfl
    | some q =>
      rw [ho, hp] at h
      exact absurd h.symm (hfired q.1 q.2)
  | some p =>
    cases hp : firstPress held (padPolls pad (waitMs req)) 1 with
    | none =>
      rw [ho, hp] at h
      exact absurd h (hfired p.1 p.2)
    | some q =>
      obtain ⟨k, hk, hkb⟩ := firstOther_at ho
      obtain ⟨m, hm, hmb⟩ := firstPress_at hp
      rw [ho, hp] at h
      have heq : p.1 = q.1 := buttonReply_poll (by rw [hk]; exact hbound hkb) (by rw [hm]; exact hbound hmb) (Prod.mk.inj h).2
      have hkm : k = m := by omega
      rw [hkm, hmb, Option.some.injEq, Option.some.injEq] at hkb
      rw [Prod.ext heq hkb.symm]

/-- **`wait_event` for a button fires at the first press, and only there, exactly for the samples that tell.** -/
theorem button_fires_iff (app : Nat → UInt64) (pad : Nat → Option UInt64) {req : Request} (h : eventName req = str "button") :
    waitEvent app pad req =
        buttonAnswer (str "button") (waitMs req) (firstPress (startButtons pad) (padPolls pad (waitMs req)) 1) ↔
      Telling (startButtons pad) ((padPolls pad (waitMs req)).filterMap id) := by
  rw [waitEvent_button app pad h, ← firstOther_eq_iff (startButtons pad) (padPolls pad (waitMs req)) 1]
  exact ⟨buttonAnswer_injective, fun heq => by rw [heq]⟩

/-- A wait of two polls for a button. -/
def buttonWait : Request :=
  ⟨((Value.object []).set (str "event") (.string (str "button"))).set (str "timeout_ms") (.int 400), []⟩

def samples (l : List UInt64) (i : Nat) : Option UInt64 := l[i]?

theorem button_fires_iff_pressed : waitEvent (fun _ => 0) (samples [0, 0, 1]) buttonWait =
    (true, buttonReply (str "button") 400 1) := by
  have h := (button_fires_iff (fun _ => 0) (samples [0, 0, 1])
    (show eventName buttonWait = str "button" from rfl)).2
    ⟨fun b hb => by
      cases hb
      exact Or.inr (by decide), fun b hb => by
      cases hb
      decide⟩
  exact h

/-- **Letting one of two buttons go fires, and pressing a button again that was held at the start does not.** -/
theorem release_fires :
    waitEvent (fun _ => 0) (samples [3, 1, 1]) buttonWait = (true, buttonReply (str "button") 200 1) ∧
    firstPress 3 [some 1, some 1] 1 = none ∧
    waitEvent (fun _ => 0) (samples [1, 0, 1]) buttonWait = (true, timedOut (str "button") 400) ∧
    firstPress 1 [some 0, some 1] 1 = some (2, 1) := by
  refine ⟨rfl, by decide, rfl, by decide⟩

end Agent
end SwitchMcp

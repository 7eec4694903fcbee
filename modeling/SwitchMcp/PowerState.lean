import SwitchMcp.Between
/-!
# PowerState — sleep, wake and the listener (agent/source/power_state.cpp, server.cpp)

`AckThread` answers the system's requests and keeps `g_asleep` and `g_woke`; the accept loop of `Server::Run` reads them when
`accept` fails.  A step of either thread makes one call or reads or writes one flag, the system makes a request whenever it
likes, and the three take their steps in any order.  `run_kept` says of every event of the accept loop which one it had to be,
by what the loop did last and by what the psc thread wrote before.  `wake_closes_listener` and `wedged_streak` are read off it;
`requests_answered` says that every request is answered, in order and whatever the accept loop does.
-/
namespace SwitchMcp
namespace PowerState

open Between (Waiting Each)

/-! ## The threads -/

inductive PscState
  | awake | readyAwaken | readySleep | readySleepCritical | readyAwakenCritical | readyShutdown
deriving DecidableEq

/-- What the switch sets `g_asleep` to. -/
def PscState.asleep : PscState → Option Bool
  | .readySleep | .readySleepCritical => some true
  | .awake | .readyAwaken | .readyAwakenCritical => some false
  | .readyShutdown => none

/-- The acknowledgement thread before its next call or write. -/
inductive AckAt
  | waiting
  | asking
  | got (r : PscState)
  | awoken (r : PscState)
  | answering (r : PscState)
deriving DecidableEq

/-- The request that is fetched and not answered yet. -/
def AckAt.held : AckAt → List PscState
  | .waiting | .asking => []
  | .got r | .awoken r | .answering r => [r]

/-- The accept loop before its next call, read or write; `n` is `consecutive_errors`. -/
inductive AcceptAt
  | opening
  | accepting (n : Nat)
  | failed (n : Nat)
  | clearing
  | unwoken (n : Nat)
  | closing
  | serving
deriving DecidableEq

inductive Event
  | answered (r : PscState)
  /-- `g_asleep` is set. -/
  | slept (b : Bool)
  /-- `g_woke` is set. -/
  | woke
  | opened
  | connected
  | failed
  /-- `TakeWokeFlag` clears `g_woke`, to return true. -/
  | took
  /-- `TakeWokeFlag` returns false. -/
  | passed
  /-- A failure is not counted, because the console sleeps. -/
  | spared
  | counted
  /-- The count reaches its bound. -/
  | wedged
  | closed
deriving DecidableEq

/-- The events of the accept loop. -/
def Event.ofLoop : Event → Bool
  | .answered _ | .slept _ | .woke => false
  | _ => true

/-- `signalled` is the psc event, and `queue` the requests that the system has made and nobody has fetched. -/
structure Threads where
  asleep : Bool
  woke : Bool
  signalled : Bool
  queue : List PscState
  ack : AckAt
  accept : AcceptAt
  log : List Event

/-- The system makes a request, or a thread takes its next step; `ok` says whether `OpenListener` or `accept` succeeds. -/
inductive Act
  | system (r : PscState)
  | ack
  | accept (ok : Bool)

def Act.isAck : Act → Bool
  | .ack => true
  | _ => false

def Act.isAccept : Act → Bool
  | .accept _ => true
  | _ => false

def kMaxErrors : Nat := 20

/-- The event clears itself when a wait for it returns (`autoclear`); a wait without it times out. -/
def stepAck (s : Threads) : Threads :=
  match s.ack with
  | .waiting => { s with signalled := false, ack := if s.signalled then .asking else .waiting }
  | .asking =>
    match s.queue with
    | r :: queue => { s with queue := queue, ack := .got r }
    | [] => { s with ack := .waiting }
  | .got r =>
    match r.asleep with
    | some true => { s with asleep := true, ack := .answering r, log := s.log ++ [.slept true] }
    | some false => { s with asleep := false, ack := .awoken r, log := s.log ++ [.slept false] }
    | none => { s with ack := .answering r }
  | .awoken r => { s with woke := true, ack := .answering r, log := s.log ++ [.woke] }
  | .answering r => { s with ack := .asking, log := s.log ++ [.answered r] }

def stepAccept (s : Threads) (ok : Bool) : Threads :=
  match s.accept with
  | .opening => if ok then { s with accept := .accepting 0, log := s.log ++ [.opened] } else s
  | .accepting n =>
    if ok then { s with accept := .serving, log := s.log ++ [.connected] }
    else { s with accept := .failed n, log := s.log ++ [.failed] }
  | .failed n =>
    if s.woke then { s with accept := .clearing } else { s with accept := .unwoken n, log := s.log ++ [.passed] }
  | .clearing => { s with woke := false, accept := .closing, log := s.log ++ [.took] }
  | .unwoken n =>
    if s.asleep then { s with accept := .accepting n, log := s.log ++ [.spared] }
    else if kMaxErrors ≤ n + 1 then { s with accept := .closing, log := s.log ++ [.wedged] }
    else { s with accept := .accepting (n + 1), log := s.log ++ [.counted] }
  | .closing => { s with accept := .opening, log := s.log ++ [.closed] }
  | .serving => { s with accept := .accepting 0 }

def step (s : Threads) : Act → Threads
  | .system r => { s with signalled := true, queue := s.queue ++ [r] }
  | .ack => stepAck s
  | .accept ok => stepAccept s ok

def started : Threads := ⟨false, false, false, [], .waiting, .opening, []⟩

def run (s : Threads) (acts : List Act) : Threads := acts.foldl step s

theorem run_snoc (s : Threads) (acts : List Act) (a : Act) : run s (acts ++ [a]) = step (run s acts) a := by
  rw [run, List.foldl_append]
  rfl

theorem run_append (s : Threads) (acts more : List Act) : run s (acts ++ more) = run (run s acts) more :=
  List.foldl_append

/-! ## What a log says -/

def IsWoke (e : Event) : Prop := e = .woke

def IsTook (e : Event) : Prop := e = .took

/-- A wake came that the accept loop has not taken. -/
def Flag (l : List Event) : Prop := Waiting IsWoke IsTook l

/-- What `g_asleep` was last set to. -/
def asleepAfter (l : List Event) : Bool := l.foldl (fun b e => match e with | .slept b' => b' | _ => b) false

/-- The failures counted since the listener was opened or a client came. -/
def streak (l : List Event) : Nat :=
  l.foldl (fun n e => match e with | .opened | .connected => 0 | .counted | .wedged => n + 1 | _ => n) 0

/-- What the accept loop did last. -/
def lastOfLoop (l : List Event) : Option Event := (l.filter Event.ofLoop).getLast?

theorem flag_snoc {l : List Event} {e : Event} : Flag (l ++ [e]) ↔ e = .woke ∨ (Flag l ∧ e ≠ .took) :=
  Between.waiting_snoc

theorem asleepAfter_slept (l : List Event) (b : Bool) : asleepAfter (l ++ [.slept b]) = b := by
  rw [asleepAfter, List.foldl_append]
  rfl

theorem asleepAfter_other (l : List Event) {e : Event} (h : ∀ b, e ≠ .slept b) : asleepAfter (l ++ [e]) = asleepAfter l := by
  rw [asleepAfter, List.foldl_append, ← asleepAfter]
  cases e <;> first | rfl | exact absurd rfl (h _)

theorem streak_snoc (l : List Event) (e : Event) : streak (l ++ [e]) =
    match e with | .opened | .connected => 0 | .counted | .wedged => streak l + 1 | _ => streak l := by
  rw [streak, List.foldl_append]
  rfl

theorem lastOfLoop_snoc (l : List Event) (e : Event) :
    lastOfLoop (l ++ [e]) = if e.ofLoop then some e else lastOfLoop l := by
  rw [lastOfLoop, List.filter_append, List.filter_cons]
  split
  · rw [List.filter_nil, List.getLast?_concat]
  · rw [List.filter_nil, List.append_nil, lastOfLoop]

/-- Events that are not the loop's leave what it did last. -/
theorem lastOfLoop_append {l mid : List Event} (h : ∀ e ∈ mid, ¬e.ofLoop = true) : lastOfLoop (l ++ mid) = lastOfLoop l := by
  rw [lastOfLoop, List.filter_append, List.filter_eq_nil_iff.2 h, List.append_nil, lastOfLoop]

/-- What the loop takes is taken by the loop. -/
theorem flag_append {l mid : List Event} (h : ∀ e ∈ mid, ¬e.ofLoop = true) (hf : Flag l) : Flag (l ++ mid) := by
  induction mid using List.reverseRecOn with
  | nil => rwa [List.append_nil]
  | append_singleton mid e ih =>
    rw [← List.append_assoc, flag_snoc]
    refine Or.inr ⟨ih fun x hx => h x (List.mem_append_left _ hx), ?_⟩
    rintro rfl
    exact h .took (by simp) rfl

/-- Which event an event of the accept loop has to be, by what the loop did last and what the flags were set to. -/
def MayFollow (pre : List Event) (e : Event) : Prop :=
  e.ofLoop = true → match lastOfLoop pre with
    | none | some .closed => e = .opened
    | some .failed => (e = .took ∧ Flag pre) ∨ (e = .passed ∧ ¬Flag pre)
    | some .passed => streak pre < kMaxErrors ∧
      e = if asleepAfter pre then .spared else if streak pre + 1 < kMaxErrors then .counted else .wedged
    | some .took | some .wedged => e = .closed
    | _ => e = .connected ∨ e = .failed

/-! ## The accept loop -/

/-- Where the accept loop stands, by its log. -/
def Stands (l : List Event) : AcceptAt → Prop
  | .opening => lastOfLoop l = none ∨ lastOfLoop l = some .closed
  | .accepting n => (lastOfLoop l = some .opened ∨ lastOfLoop l = some .connected ∨ lastOfLoop l = some .spared ∨
      lastOfLoop l = some .counted) ∧ streak l = n ∧ n < kMaxErrors
  | .failed n => lastOfLoop l = some .failed ∧ streak l = n ∧ n < kMaxErrors
  | .clearing => lastOfLoop l = some .failed
  | .unwoken n => lastOfLoop l = some .passed ∧ streak l = n ∧ n < kMaxErrors
  | .closing => lastOfLoop l = some .took ∨ lastOfLoop l = some .wedged
  | .serving => lastOfLoop l = some .connected ∧ streak l = 0

/-- What every run keeps: the flags are what the log says, and every event of the accept loop was the one it had to be. -/
structure Kept (s : Threads) : Prop where
  flag : s.woke = true ↔ Flag s.log
  clearing : s.accept = .clearing → s.woke = true
  asleep : s.asleep = asleepAfter s.log
  stands : Stands s.log s.accept
  past : Each MayFollow s.log

theorem Stands.other {l : List Event} {a : AcceptAt} (h : Stands l a) {e : Event} (he : e.ofLoop = false) :
    Stands (l ++ [e]) a := by
  have hlast : lastOfLoop (l ++ [e]) = lastOfLoop l := by rw [lastOfLoop_snoc, if_neg (by rw [he]; exact Bool.false_ne_true)]
  have hstreak : streak (l ++ [e]) = streak l := by
    rw [streak_snoc]
    cases e <;> first | rfl | cases he
  cases a <;> simp only [Stands, hlast, hstreak] at h ⊢ <;> exact h

theorem Kept.asleep_other {s : Threads} (h : Kept s) {e : Event} (he : ∀ b, e ≠ .slept b) :
    s.asleep = asleepAfter (s.log ++ [e]) := h.asleep.trans (asleepAfter_other _ he).symm

theorem Kept.past_other {s : Threads} (h : Kept s) {e : Event} (he : e.ofLoop = false) : Each MayFollow (s.log ++ [e]) :=
  Between.each_snoc.2 ⟨h.past, fun hl => absurd (he.symm.trans hl) Bool.false_ne_true⟩

theorem stepAck_kept {s : Threads} (h : Kept s) : Kept (stepAck s) := by
  unfold stepAck
  cases s.ack with
  | waiting => exact ⟨h.flag, h.clearing, h.asleep, h.stands, h.past⟩
  | asking =>
    dsimp only
    split <;> exact ⟨h.flag, h.clearing, h.asleep, h.stands, h.past⟩
  | got r =>
    have hslept : ∀ b, (s.woke = true ↔ Flag (s.log ++ [.slept b])) := fun b => by rw [flag_snoc, h.flag]; simp
    dsimp only
    split
    · exact ⟨hslept true, h.clearing, (asleepAfter_slept _ _).symm, h.stands.other rfl, h.past_other rfl⟩
    · exact ⟨hslept false, h.clearing, (asleepAfter_slept _ _).symm, h.stands.other rfl, h.past_other rfl⟩
    · exact ⟨h.flag, h.clearing, h.asleep, h.stands, h.past⟩
  | awoken r =>
    refine ⟨iff_of_true rfl (flag_snoc.2 (Or.inl rfl)), fun _ => rfl, ?_, h.stands.other rfl, h.past_other rfl⟩
    exact h.asleep_other (e := .woke) nofun
  | answering r =>
    refine ⟨?_, h.clearing, h.asleep_other (e := .answered r) nofun, h.stands.other rfl, h.past_other rfl⟩
    rw [h.flag, flag_snoc]
    simp

/-- One more event of the accept loop, that is none of the flags'. -/
theorem Kept.next {s s' : Threads} (h : Kept s) {e : Event} (hl : s'.log = s.log ++ [e]) (hw : s'.woke = s.woke)
    (ha : s'.asleep = s.asleep) (he : e.ofLoop = true) (htook : e ≠ .took) (hc : s'.accept ≠ .clearing)
    (hstands : Stands (s.log ++ [e]) s'.accept) (hmay : MayFollow s.log e) : Kept s' := by
  have hwoke : e ≠ .woke := by rintro rfl; cases he
  refine ⟨?_, fun h => absurd h hc, ?_, ?_, ?_⟩
  · rw [hw, h.flag, hl, flag_snoc]
    simp [hwoke, htook]
  · rw [ha, hl]
    refine h.asleep_other ?_
    rintro b rfl
    cases he
  · rw [hl]
    exact hstands
  · rw [hl]
    exact Between.each_snoc.2 ⟨h.past, hmay⟩

theorem stepAccept_kept {s : Threads} (h : Kept s) (ok : Bool) : Kept (stepAccept s ok) := by
  have hstands := h.stands
  have hpos : 0 < kMaxErrors := by decide
  unfold stepAccept
  cases hs : s.accept with
  | opening =>
    rw [hs] at hstands
    cases ok with
    | true =>
      refine h.next rfl rfl rfl rfl nofun nofun ⟨Or.inl (lastOfLoop_snoc _ _), streak_snoc _ _, hpos⟩ fun _ => ?_
      rcases hstands with hl | hl <;> rw [hl]
    | false => exact h
  | accepting n =>
    rw [hs] at hstands
    obtain ⟨hl, hn, hlt⟩ := hstands
    have hmay : ∀ e, (e = .connected ∨ e = .failed) → MayFollow s.log e := by
      intro e he _
      rcases hl with hl | hl | hl | hl <;> rw [hl] <;> exact he
    cases ok with
    | true => exact h.next rfl rfl rfl rfl nofun nofun ⟨lastOfLoop_snoc _ _, streak_snoc _ _⟩ (hmay _ (Or.inl rfl))
    | false =>
      exact h.next rfl rfl rfl rfl nofun nofun ⟨lastOfLoop_snoc _ _, (streak_snoc _ _).trans hn, hlt⟩ (hmay _ (Or.inr rfl))
  | failed n =>
    rw [hs] at hstands
    obtain ⟨hl, hn, hlt⟩ := hstands
    dsimp only
    split
    · rename_i hwoke
      exact ⟨h.flag, fun _ => hwoke, h.asleep, hl, h.past⟩
    · rename_i hwoke
      refine h.next rfl rfl rfl rfl nofun nofun ⟨lastOfLoop_snoc _ _, (streak_snoc _ _).trans hn, hlt⟩ fun _ => ?_
      rw [hl]
      exact Or.inr ⟨rfl, fun hf => hwoke (h.flag.2 hf)⟩
  | clearing =>
    rw [hs] at hstands
    have hflag : Flag s.log := h.flag.1 (h.clearing hs)
    refine ⟨?_, nofun, h.asleep_other (e := .took) nofun, Or.inl (lastOfLoop_snoc _ _), ?_⟩
    · rw [flag_snoc]
      simp
    · refine Between.each_snoc.2 ⟨h.past, fun _ => ?_⟩
      rw [show lastOfLoop s.log = some .failed from hstands]
      exact Or.inl ⟨rfl, hflag⟩
  | unwoken n =>
    rw [hs] at hstands
    obtain ⟨hl, hn, hlt⟩ := hstands
    have hmay : ∀ e, (e = if asleepAfter s.log then .spared else if streak s.log + 1 < kMaxErrors then .counted else .wedged) →
        MayFollow s.log e := by
      intro e he _
      rw [hl]
      exact ⟨hn.trans_lt hlt, he⟩
    dsimp only
    split
    · rename_i hasleep
      refine h.next rfl rfl rfl rfl nofun nofun ⟨?_, (streak_snoc _ _).trans hn, hlt⟩ (hmay _ ?_)
      · exact Or.inr (Or.inr (Or.inl (lastOfLoop_snoc _ _)))
      · rw [← h.asleep, if_pos hasleep]
    · rename_i hawake
      rw [h.asleep] at hawake
      split
      · rename_i hmax
        refine h.next rfl rfl rfl rfl nofun nofun (Or.inr (lastOfLoop_snoc _ _)) (hmay _ ?_)
        rw [if_neg hawake, if_neg (by omega)]
      · rename_i hmax
        refine h.next rfl rfl rfl rfl nofun nofun ⟨?_, ?_, by omega⟩ (hmay _ ?_)
        · exact Or.inr (Or.inr (Or.inr (lastOfLoop_snoc _ _)))
        · exact (streak_snoc _ _).trans (by rw [hn])
        · rw [if_neg hawake, if_pos (by omega)]
  | closing =>
    rw [hs] at hstands
    refine h.next rfl rfl rfl rfl nofun nofun (Or.inr (lastOfLoop_snoc _ _)) fun _ => ?_
    rcases hstands with hl | hl <;> rw [hl]
  | serving =>
    rw [hs] at hstands
    exact ⟨h.flag, nofun, h.asleep, ⟨Or.inr (Or.inl hstands.1), hstands.2, hpos⟩, h.past⟩

/-- **Every event of the accept loop is the one it had to be**, in every run. -/
theorem run_kept (acts : List Act) : Kept (run started acts) := by
  induction acts using List.reverseRecOn with
  | nil =>
    refine ⟨iff_of_false Bool.false_ne_true Between.not_waiting_nil, nofun, rfl, Or.inl rfl, Between.each_nil⟩
  | append_singleton acts a ih =>
    rw [run_snoc]
    cases a with
    | system r => exact ⟨ih.flag, ih.clearing, ih.asleep, ih.stands, ih.past⟩
    | ack => exact stepAck_kept ih
    | accept ok => exact stepAccept_kept ih ok

/-! ## Wakes -/

/-- The next event of the loop after `x`. -/
theorem next_of_loop {l pre post es : List Event} {x e : Event} (h : Each MayFollow l) (hl : l = pre ++ x :: post)
    (hx : x.ofLoop = true) (hpost : post.filter Event.ofLoop = e :: es) :
    ∃ mid rest, post = mid ++ e :: rest ∧ (∀ y ∈ mid, ¬y.ofLoop = true) ∧ rest.filter Event.ofLoop = es ∧
      lastOfLoop (pre ++ x :: mid) = some x ∧ e.ofLoop = true ∧ MayFollow (pre ++ x :: mid) e := by
  obtain ⟨mid, rest, rfl, hmid, he, hes⟩ := List.filter_eq_cons_iff.1 hpost
  have hlast : lastOfLoop (pre ++ x :: mid) = some x := by
    rw [show pre ++ x :: mid = (pre ++ [x]) ++ mid by simp, lastOfLoop_append hmid, lastOfLoop_snoc, if_pos hx]
  exact ⟨mid, rest, rfl, hmid, hes, hlast, he, h (pre ++ x :: mid) e rest (by rw [hl]; simp)⟩

/-- After a failure that finds the flag up, the loop takes it and closes. -/
theorem took_closed {l pre post : List Event} (h : Each MayFollow l) (hl : l = pre ++ .failed :: post) (hf : Flag pre) :
    (post.filter Event.ofLoop).take 2 <+: [.took, .closed] := by
  rcases hpost : post.filter Event.ofLoop with _ | ⟨e, es⟩
  · exact List.nil_prefix
  obtain ⟨mid, rest, rfl, hmid, hes, hlast, he, hmay⟩ := next_of_loop h hl rfl hpost
  have hflag : Flag (pre ++ .failed :: mid) := by
    rw [show pre ++ Event.failed :: mid = (pre ++ [.failed]) ++ mid by simp]
    exact flag_append hmid (flag_snoc.2 (Or.inr ⟨hf, nofun⟩))
  have hm := hmay he
  rw [hlast] at hm
  obtain rfl : e = .took := (hm.resolve_right fun hm => hm.2 hflag).1
  rcases es with _ | ⟨e2, es⟩
  · exact ⟨[.closed], rfl⟩
  have hl2 : l = (pre ++ .failed :: mid) ++ .took :: rest := by rw [hl]; simp
  obtain ⟨mid2, rest2, -, -, -, hlast2, he2, hmay2⟩ := next_of_loop h hl2 rfl hes
  have hm2 := hmay2 he2
  rw [hlast2] at hm2
  rw [show e2 = .closed from hm2]
  exact ⟨[], rfl⟩

theorem ack_quiet (s : Threads) : (stepAck s).accept = s.accept ∧ (s.woke = true → (stepAck s).woke = true) ∧
    ∃ new, (stepAck s).log = s.log ++ new ∧ ∀ e ∈ new, ¬e.ofLoop = true := by
  have hnil : ∃ new, s.log = s.log ++ new ∧ ∀ e ∈ new, ¬e.ofLoop = true := ⟨[], (List.append_nil _).symm, nofun⟩
  unfold stepAck
  cases s.ack with
  | waiting => exact ⟨rfl, id, hnil⟩
  | asking =>
    dsimp only
    split <;> exact ⟨rfl, id, hnil⟩
  | got r =>
    dsimp only
    split
    · exact ⟨rfl, id, _, rfl, by simp [Event.ofLoop]⟩
    · exact ⟨rfl, id, _, rfl, by simp [Event.ofLoop]⟩
    · exact ⟨rfl, id, hnil⟩
  | awoken r => exact ⟨rfl, fun _ => rfl, _, rfl, by simp [Event.ofLoop]⟩
  | answering r => exact ⟨rfl, id, _, rfl, by simp [Event.ofLoop]⟩

/-- How far the loop is from having taken the flag and closed, `k` of its events after a failure. -/
def Nearing (s : Threads) (k steps : Nat) : Prop :=
  2 ≤ k ∨ (k = 1 ∧ s.accept = .closing ∧ 1 ≤ steps) ∨ (k = 0 ∧ s.accept = .clearing ∧ 2 ≤ steps) ∨
    (k = 0 ∧ (∃ n, s.accept = .failed n) ∧ s.woke = true ∧ 3 ≤ steps)

/-- The next step of the loop brings it nearer, and writes at most one event. -/
theorem stepAccept_nearing {s : Threads} {k steps : Nat} (h : Nearing s k (steps + 1)) (ok : Bool) :
    ∃ new, (stepAccept s ok).log = s.log ++ new ∧ Nearing (stepAccept s ok) (k + (new.filter Event.ofLoop).length) steps := by
  rcases h with h | ⟨rfl, ha, -⟩ | ⟨rfl, ha, h⟩ | ⟨rfl, ⟨n, ha⟩, hw, h⟩
  · have hlog : ∃ new, (stepAccept s ok).log = s.log ++ new := by
      unfold stepAccept
      cases s.accept <;> cases ok <;> dsimp only <;> (try split) <;> (try split) <;>
        first | exact ⟨_, rfl⟩ | exact ⟨[], (List.append_nil _).symm⟩
    obtain ⟨new, hlog⟩ := hlog
    exact ⟨new, hlog, Or.inl (by omega)⟩
  · rw [stepAccept, ha]
    exact ⟨[.closed], rfl, Or.inl (Nat.le_refl 2)⟩
  · rw [stepAccept, ha]
    exact ⟨[.took], rfl, Or.inr (Or.inl ⟨rfl, rfl, by omega⟩)⟩
  · rw [stepAccept, ha]
    dsimp only
    rw [if_pos hw]
    exact ⟨[], (List.append_nil _).symm, Or.inr (Or.inr (Or.inl ⟨rfl, rfl, by omega⟩))⟩

theorem closes_within : ∀ (more : List Act) (s : Threads) (pre post : List Event), s.log = pre ++ .failed :: post →
    Nearing s (post.filter Event.ofLoop).length (more.countP Act.isAccept) →
    ∃ rest, (run s more).log = pre ++ .failed :: rest ∧ 2 ≤ (rest.filter Event.ofLoop).length
  | [], s, pre, post, hl, h => by
    refine ⟨post, hl, ?_⟩
    rcases h with h | ⟨-, -, h⟩ | ⟨-, -, h⟩ | ⟨-, -, -, h⟩
    · exact h
    · exact absurd h (by simp)
    · exact absurd h (by simp)
    · exact absurd h (by simp)
  | a :: more, s, pre, post, hl, h => by
    show ∃ rest, (run (step s a) more).log = _ ∧ _
    have hcons : ∀ new, s.log ++ new = pre ++ .failed :: (post ++ new) := fun new => by rw [hl]; simp
    cases a with
    | system r =>
      refine closes_within more _ pre post hl ?_
      rwa [List.countP_cons_of_neg (by simp [Act.isAccept])] at h
    | ack =>
      obtain ⟨ha, hw, new, hnew, hquiet⟩ := ack_quiet s
      refine closes_within more _ pre (post ++ new) (hnew.trans (hcons new)) ?_
      rw [List.countP_cons_of_neg (by simp [Act.isAccept])] at h
      rw [List.filter_append, List.filter_eq_nil_iff.2 hquiet, List.append_nil]
      unfold Nearing at h ⊢
      show _ ∨ (_ ∧ (stepAck s).accept = _ ∧ _) ∨ (_ ∧ (stepAck s).accept = _ ∧ _) ∨
        (_ ∧ (∃ n, (stepAck s).accept = _) ∧ (stepAck s).woke = true ∧ _)
      rw [ha]
      exact h.imp_right (Or.imp_right (Or.imp_right fun h => ⟨h.1, h.2.1, hw h.2.2.1, h.2.2.2⟩))
    | accept ok =>
      rw [List.countP_cons_of_pos rfl] at h
      obtain ⟨new, hnew, hnear⟩ := stepAccept_nearing h ok
      refine closes_within more _ pre (post ++ new) (hnew.trans (hcons new)) ?_
      rwa [List.filter_append, List.length_append]

/-- Where the loop is when a failure is the last thing it did. -/
theorem nearing_of_failed {s : Threads} (h : Kept s) {pre post : List Event} (hl : s.log = pre ++ .failed :: post)
    (hf : Flag pre) : Nearing s (post.filter Event.ofLoop).length 3 := by
  have htake := took_closed h.past hl hf
  have hstands := h.stands
  have hlast : ∀ mid, (∀ e ∈ mid, ¬e.ofLoop = true) → ∀ x, x.ofLoop = true → ∀ l, lastOfLoop (l ++ x :: mid) = some x := by
    intro mid hmid x hx l
    rw [show l ++ x :: mid = (l ++ [x]) ++ mid by simp, lastOfLoop_append hmid, lastOfLoop_snoc, if_pos hx]
  rcases hpost : post.filter Event.ofLoop with _ | ⟨e, _ | ⟨e2, es⟩⟩
  · have hquiet := List.filter_eq_nil_iff.1 hpost
    have hfailed : lastOfLoop s.log = some .failed := by rw [hl, hlast post hquiet _ rfl]
    have hflag : s.woke = true := by
      rw [h.flag, hl, show pre ++ Event.failed :: post = (pre ++ [.failed]) ++ post by simp]
      exact flag_append hquiet (flag_snoc.2 (Or.inr ⟨hf, nofun⟩))
    cases ha : s.accept <;> rw [ha] at hstands <;> simp only [Stands, hfailed] at hstands
    case failed n => exact Or.inr (Or.inr (Or.inr ⟨rfl, ⟨n, ha⟩, hflag, le_refl 3⟩))
    case clearing => exact Or.inr (Or.inr (Or.inl ⟨rfl, ha, by omega⟩))
    all_goals simp at hstands
  · rw [hpost] at htake
    obtain rfl : e = .took := by
      obtain ⟨t, ht⟩ := htake
      exact (List.cons.inj ht).1
    obtain ⟨mid, rest, rfl, -, -, hrest⟩ := List.filter_eq_cons_iff.1 hpost
    have htook : lastOfLoop s.log = some .took := by
      rw [hl, show pre ++ Event.failed :: (mid ++ Event.took :: rest) = (pre ++ .failed :: mid) ++ .took :: rest by simp,
        hlast rest (List.filter_eq_nil_iff.1 hrest) _ rfl]
    cases ha : s.accept <;> rw [ha] at hstands <;> simp only [Stands, htook] at hstands
    case closing => exact Or.inr (Or.inl ⟨rfl, ha, by omega⟩)
    all_goals simp at hstands
  · exact Or.inl (by simp)

theorem failed_of_took {pre : List Event} (h : MayFollow pre .took) : lastOfLoop pre = some .failed ∧ Flag pre := by
  have hmay := h rfl
  split at hmay
  case h_3 hl => exact ⟨hl, (hmay.resolve_right nofun).2⟩
  case h_4 =>
    replace hmay := hmay.2
    split at hmay
    · cases hmay
    · split at hmay <;> cases hmay
  all_goals simp at hmay

/-- The requests that the system makes. -/
def asked (acts : List Act) : List PscState := acts.filterMap fun | .system r => some r | _ => none

def answers (l : List Event) : List PscState := l.filterMap fun | .answered r => some r | _ => none

/-- What is fetched and not answered, and what waits to be fetched. -/
def Threads.pending (s : Threads) : List PscState := s.ack.held ++ s.queue

/-- Nothing waits for a thread that is not told of it. -/
def Told (s : Threads) : Prop := s.ack = .waiting → s.queue ≠ [] → s.signalled = true

/-- The accept loop neither fetches nor answers. -/
theorem stepAccept_keeps (s : Threads) (ok : Bool) : (stepAccept s ok).ack = s.ack ∧ (stepAccept s ok).queue = s.queue ∧
    (stepAccept s ok).signalled = s.signalled ∧ answers (stepAccept s ok).log = answers s.log := by
  unfold stepAccept answers
  cases s.accept with
  | opening => cases ok <;> simp
  | accepting n => cases ok <;> simp
  | failed n => dsimp only; split <;> simp
  | clearing => simp
  | unwoken n =>
    dsimp only
    split
    · simp
    · split <;> simp
  | closing => simp
  | serving => simp

/-- **A step of the acknowledgement thread** answers the request in hand, or leaves all that is pending. -/
theorem stepAck_pending (s : Threads) :
    answers (stepAck s).log ++ (stepAck s).pending = answers s.log ++ s.pending := by
  unfold stepAck answers Threads.pending
  cases hs : s.ack with
  | waiting =>
    dsimp only
    split <;> simp [AckAt.held]
  | asking =>
    dsimp only
    split
    · rename_i hq
      simp [AckAt.held, hq]
    · rename_i hq
      simp [AckAt.held, hq]
  | got r =>
    dsimp only
    split <;> simp [AckAt.held]
  | awoken r => simp [AckAt.held]
  | answering r => simp [AckAt.held]

theorem stepAck_told {s : Threads} (h : Told s) : Told (stepAck s) := by
  unfold stepAck
  cases hs : s.ack with
  | waiting =>
    intro hw hq
    dsimp only at hw hq
    split at hw
    · cases hw
    · rename_i hsig
      exact absurd (h hs hq) hsig
  | asking =>
    dsimp only
    split
    · nofun
    · rename_i hq
      exact fun _ hne => absurd hq hne
  | got r =>
    dsimp only
    split <;> nofun
  | awoken r => nofun
  | answering r => nofun

/-- What the system asked is answered or pending, in order, and nothing waits untold. -/
theorem asked_eq (acts : List Act) : Told (run started acts) ∧
    asked acts = answers (run started acts).log ++ (run started acts).pending := by
  induction acts using List.reverseRecOn with
  | nil => exact ⟨fun _ hq => absurd rfl hq, rfl⟩
  | append_singleton acts a ih =>
    obtain ⟨htold, hasked⟩ := ih
    rw [run_snoc, asked, List.filterMap_append, ← asked, hasked]
    cases a with
    | system r =>
      refine ⟨fun _ _ => rfl, ?_⟩
      simp [step, Threads.pending]
    | ack =>
      refine ⟨stepAck_told htold, ?_⟩
      rw [step, stepAck_pending]
      simp
    | accept ok =>
      obtain ⟨h1, h2, h3, h4⟩ := stepAccept_keeps (run started acts) ok
      unfold Told Threads.pending
      rw [step, h1, h2, h3, h4]
      exact ⟨htold, by simp⟩

theorem answers_step (s : Threads) (a : Act) : answers s.log <+: answers (step s a).log := by
  cases a with
  | system r => exact List.prefix_refl _
  | ack =>
    show answers s.log <+: answers (stepAck s).log
    unfold stepAck answers
    cases s.ack with
    | waiting => exact List.prefix_refl _
    | asking => dsimp only; split <;> exact List.prefix_refl _
    | got r => dsimp only; split <;> simp
    | awoken r => simp
    | answering r => simp
  | accept ok => rw [step, (stepAccept_keeps s ok).2.2.2]

theorem answers_run : ∀ (more : List Act) (s : Threads), answers s.log <+: answers (run s more).log
  | [], _ => List.prefix_refl _
  | a :: more, s => (answers_step s a).trans (answers_run more (step s a))

/-- How many steps of its thread the answer to the last of the requests `q` is away, when they are the next to be fetched. -/
def AckAt.due (q : List PscState) : AckAt → Nat
  | .waiting => if q = [] then 0 else 4 * q.length + 1
  | .asking => 4 * q.length
  | .answering _ => 4 * q.length + 1
  | .awoken _ => 4 * q.length + 2
  | .got _ => 4 * q.length + 3

/-- What is in hand and the first of what waits are answered within the steps that they are away. -/
theorem answers_within : ∀ (more : List Act) (s : Threads) (q rest : List PscState), Told s → s.queue = q ++ rest →
    s.ack.due q ≤ more.countP Act.isAck → answers s.log ++ (s.ack.held ++ q) <+: answers (run s more).log
  | [], s, q, rest, _, _, h => by
    have hnil : s.ack.held ++ q = [] := by
      have h0 : s.ack.due q = 0 := Nat.le_zero.1 h
      cases hs : s.ack <;> rw [hs] at h0 <;> simp [AckAt.due, AckAt.held] at h0 ⊢ <;> exact h0
    rw [hnil, List.append_nil]
    exact List.prefix_refl _
  | a :: more, s, q, rest, ht, hq, h => by
    show _ <+: answers (run (step s a) more).log
    cases a with
    | system r =>
      rw [List.countP_cons_of_neg (by simp [Act.isAck])] at h
      exact answers_within more (step s (.system r)) q (rest ++ [r]) (fun _ _ => rfl) (by simp [step, hq]) h
    | accept ok =>
      obtain ⟨h1, h2, h3, h4⟩ := stepAccept_keeps s ok
      rw [List.countP_cons_of_neg (by simp [Act.isAck])] at h
      rw [step, ← h1, ← h4]
      refine answers_within more _ q rest ?_ (h2.trans hq) (by rw [h1]; exact h)
      unfold Told
      rw [h1, h2, h3]
      exact ht
    | ack =>
      rw [List.countP_cons_of_pos rfl] at h
      have htold := stepAck_told ht
      have hgrows := answers_run more (stepAck s)
      rw [step]
      unfold stepAck at htold hgrows ⊢
      cases hs : s.ack with
      | waiting =>
        rw [hs] at h
        simp only [hs] at htold hgrows ⊢
        by_cases hnil : q = []
        · subst hnil
          simpa [AckAt.held] using hgrows
        · have hsig : s.signalled = true := ht hs (by rw [hq]; exact fun h => hnil (List.append_eq_nil_iff.1 h).1)
          simp only [AckAt.due, hnil, if_false] at h
          simp only [hsig, if_true] at htold hgrows ⊢
          exact answers_within more _ q rest htold hq (by simp only [AckAt.due]; omega)
      | asking =>
        rw [hs] at h
        simp only [hs] at htold hgrows ⊢
        cases q with
        | nil =>
          rw [AckAt.held, List.append_nil, List.append_nil]
          split at hgrows <;> exact hgrows
        | cons r q =>
          rw [List.cons_append] at hq
          simp only [hq] at htold ⊢
          exact answers_within more _ q rest htold rfl (by simp only [AckAt.due, List.length_cons] at h ⊢; omega)
      | got r =>
        rw [hs] at h
        simp only [hs] at htold ⊢
        simp only [AckAt.due] at h
        cases hr : r.asleep with
        | none =>
          simp only [hr] at htold ⊢
          exact answers_within more _ q rest htold hq (by simp only [AckAt.due]; omega)
        | some b =>
          cases b <;> simp only [hr] at htold ⊢
          · have hans : answers (s.log ++ [.slept false]) = answers s.log := by simp [answers]
            rw [← hans]
            exact answers_within more _ q rest htold hq (by simp only [AckAt.due]; omega)
          · have hans : answers (s.log ++ [.slept true]) = answers s.log := by simp [answers]
            rw [← hans]
            exact answers_within more _ q rest htold hq (by simp only [AckAt.due]; omega)
      | awoken r =>
        rw [hs] at h
        simp only [hs] at htold ⊢
        have hans : answers (s.log ++ [.woke]) = answers s.log := by simp [answers]
        rw [← hans]
        exact answers_within more _ q rest htold hq (by simp only [AckAt.due] at h ⊢; omega)
      | answering r =>
        rw [hs] at h
        simp only [hs] at htold ⊢
        have hans : answers s.log ++ (AckAt.held (.answering r) ++ q) =
            answers (s.log ++ [.answered r]) ++ (AckAt.held .asking ++ q) := by simp [answers, AckAt.held]
        rw [hans]
        exact answers_within more _ q rest htold hq (by simp only [AckAt.due] at h ⊢; omega)

/-- **Every request is answered**: what the psc thread answers are the system's requests in their order, none left out, whatever
the accept loop does meanwhile; and when `k` of them are open, `4 * k + 1` steps of the psc thread answer them all. -/
theorem requests_answered (acts : List Act) :
    answers (run started acts).log <+: asked acts ∧
    ∀ more : List Act, 4 * ((asked acts).length - (answers (run started acts).log).length) + 1 ≤ more.countP Act.isAck →
      asked acts <+: answers (run started (acts ++ more)).log := by
  obtain ⟨htold, hasked⟩ := asked_eq acts
  refine ⟨⟨_, hasked.symm⟩, fun more hmore => ?_⟩
  rw [hasked, List.length_append, Threads.pending, List.length_append] at hmore
  rw [hasked, run_append]
  refine answers_within more _ _ [] htold (List.append_nil _).symm (le_trans ?_ hmore)
  cases (run started acts).ack with
  | waiting => simp only [AckAt.due, AckAt.held]; split <;> simp
  | asking => simp only [AckAt.due, AckAt.held, List.length_nil]; omega
  | _ => simp only [AckAt.due, AckAt.held, List.length_singleton]; omega

/-- The system goes to sleep and wakes; the accept loop opens its listener meanwhile. -/
theorem requests_answered_sleep :
    [.readySleep, .awake] <+: answers (run started ([.system .readySleep, .system .awake] ++
      [.ack, .ack, .ack, .accept true, .ack, .ack, .ack, .ack, .ack, .ack])).log :=
  (requests_answered [.system .readySleep, .system .awake]).2 _ (by decide)

/-! ## Failures of `accept` -/

/-- A failure that finds no wake is spared exactly when the console sleeps; of the others the twentieth in a row gives the
listener up, and those before are counted. -/
structure CountsRight (pre : List Event) (e : Event) : Prop where
  woken : lastOfLoop pre = some .failed → e.ofLoop = true → (e = .took ↔ Flag pre) ∧ (e = .passed ↔ ¬Flag pre)
  only : e = .spared ∨ e = .counted ∨ e = .wedged → lastOfLoop pre = some .passed
  exact : lastOfLoop pre = some .passed → e.ofLoop = true →
    (e = .spared ↔ asleepAfter pre = true) ∧ (e = .counted ↔ asleepAfter pre = false ∧ streak pre + 1 < kMaxErrors) ∧
    (e = .wedged ↔ asleepAfter pre = false ∧ kMaxErrors ≤ streak pre + 1)
  bound : e = .wedged → streak pre + 1 = kMaxErrors
  closes : lastOfLoop pre = some .wedged → e.ofLoop = true → e = .closed

/-- After what the loop counts, spares or gives up it stood at a failure that found no wake. -/
theorem lastOfLoop_of_counts {pre : List Event} {e : Event} (h : MayFollow pre e)
    (he : e = .spared ∨ e = .counted ∨ e = .wedged) : lastOfLoop pre = some .passed := by
  have hmay := h (by rcases he with rfl | rfl | rfl <;> rfl)
  split at hmay
  case h_4 hl => exact hl
  all_goals rcases he with rfl | rfl | rfl <;> simp at hmay

theorem countsRight {pre : List Event} {e : Event} (h : MayFollow pre e) : CountsRight pre e := by
  have hpassed : lastOfLoop pre = some .passed → e.ofLoop = true → streak pre < kMaxErrors ∧
      e = if asleepAfter pre then .spared else if streak pre + 1 < kMaxErrors then .counted else .wedged := by
    intro hl he
    have hmay := h he
    rwa [hl] at hmay
  refine ⟨fun hl he => ?_, lastOfLoop_of_counts h, fun hl he => ?_, ?_, fun hl he => ?_⟩
  · have hmay := h he
    rw [hl] at hmay
    rcases hmay with ⟨rfl, hf⟩ | ⟨rfl, hf⟩ <;> simp [hf]
  · obtain ⟨-, rfl⟩ := hpassed hl he
    cases asleepAfter pre with
    | true => simp
    | false =>
      by_cases hlt : streak pre + 1 < kMaxErrors
      · simp [hlt]
      · simp [hlt, Nat.le_of_not_lt hlt]
  · rintro rfl
    obtain ⟨hlt, heq⟩ := hpassed (lastOfLoop_of_counts h (Or.inr (Or.inr rfl))) rfl
    have hmax : ¬streak pre + 1 < kMaxErrors := by
      intro hc
      rw [if_pos hc] at heq
      split at heq <;> cases heq
    omega
  · have hmay := h he
    rwa [hl] at hmay

/-- **A listener that fails is given up at the twentieth failure in a row**, and not before: a failure that finds a wake or the
console asleep does not count, every other one does, and a new listener and a client start the count again. -/
theorem wedged_streak (acts : List Act) : Each CountsRight (run started acts).log :=
  fun pre e post hl => countsRight ((run_kept acts).past pre e post hl)

end PowerState
end SwitchMcp

import SwitchMcp.Server
import SwitchMcp.Config
import SwitchMcp.JsonDump
import SwitchMcp.Fs
/-!
# Watchdog — the boots that no client connected in (agent/source/handlers/guards.cpp, main.cpp)

The count lives in `g_boot_count` and in a file: `WatchdogOnBoot` reads the file, adds one and writes it back,
`WatchdogOnConnect` sets both to zero as a client authenticates.  `bootCount_eq` says that the count is right after any
history of boots and connections; `watchdog_reports_iff` is about the command that reads it, which only a client that has
just authenticated can send.
-/
namespace SwitchMcp
namespace Agent

open Json (Value)
open JsonText (Number decimal digitByte)

/-! ## The count -/

def kBootCountPath : Bytes := str "sdmc:/switch-agentd/bootcount"

/-- `std::atoi`. -/
def atoi (s : Bytes) : Int32 := (strtol10 s).toInt32

/-- `%d`. -/
def fmtD (n : Int32) : Bytes := (Number.ofInt n.toInt).text

/-- `g_boot_count`, the files of the card, what the watchdog journaled, and the rest of the console. -/
structure Watched (ω : Type) where
  bootCount : Int32
  files : Files
  journal : List Bytes
  rest : ω

variable {ω : Type}

/-- `WatchdogOnBoot` of a process that has just started; the buffer takes fifteen bytes of the file. -/
def watchdogOnBoot (con : Watched ω) : Watched ω :=
  let count := (match con.files kBootCountPath with
    | some content => atoi (content.take 15)
    | none => 0) + 1
  { con with
    bootCount := count
    files := con.files.put kBootCountPath (fmtD count)
    journal := if 3 ≤ count then
        con.journal ++ [str "boot #" ++ fmtD count ++ str " with no prior successful connection"]
      else con.journal }

def watchdogOnConnect (con : Watched ω) : Watched ω :=
  if con.bootCount = 0 then con
  else { con with bootCount := 0, files := con.files.put kBootCountPath (str "0") }

def watchdogStatus (count : Int32) : Bool × Reply :=
  (true, (({} : Reply).set "boots_without_connection" (.int count.toInt64)).set "healthy" (.bool (decide (count = 0))))

/-! ## Histories -/

section
variable (cfg : AgentConfig) (others : Handler → Request → Files × ω → (Bool × Reply) × (Files × ω))

/-- The handlers: `g_boot_count` is private to the watchdog, the card's files are not. -/
def watchedExec (h : Handler) (req : Request) (con : Watched ω) : (Bool × Reply) × Watched ω :=
  if h = .watchdogStatus then (watchdogStatus con.bootCount, con)
  else
    let r := others h req (con.files, con.rest)
    (r.1, { con with files := r.2.1, rest := r.2.2 })

/-- What happens to an agent: it boots, or a peer connects. -/
inductive Occasion
  | boot
  | connection (env : AuthEnv) (turns : List Turn)

/-- A connection: `WatchdogOnConnect` runs where the handshake succeeds. -/
def connection (env : AuthEnv) (turns : List Turn) (con : Watched ω) : List Event × Watched ω :=
  serveConnection cfg (watchedExec others) env turns (if (authenticate cfg env turns).1 then watchdogOnConnect con else con)

def occasion (con : Watched ω) : Occasion → Watched ω
  | .boot => watchdogOnBoot con
  | .connection env turns => (connection cfg others env turns con).2

/-- The console after a history. -/
def after (history : List Occasion) (con : Watched ω) : Watched ω := history.foldl (occasion cfg others) con

def Occasion.count (n : Nat) : Occasion → Nat
  | .boot => n + 1
  | .connection env turns => if (authenticate cfg env turns).1 then 0 else n

/-- The boots since the last connection that authenticated. -/
def unreachedBoots (history : List Occasion) : Nat := history.foldl (Occasion.count cfg) 0

end

/-- The counts that the `watchdog` command answers with, one for each time it is entered. -/
def watchdogCounts : List Event → List Int
  | .entered _ .watchdogStatus _ :: .sent reply _ :: l =>
    ((reply.get (str "boots_without_connection")).asInt (-1)).toInt :: watchdogCounts l
  | _ :: l => watchdogCounts l
  | [] => []

theorem watchdogCounts_cons {e : Event} (l : List Event) (h : ∀ cmd req, e ≠ .entered cmd .watchdogStatus req) :
    watchdogCounts (e :: l) = watchdogCounts l := by
  rw [watchdogCounts]
  intro cmd req reply out l' he
  exact absurd he (h cmd req)

theorem watchdogCounts_of_quiet : ∀ (pre l : List Event), (∀ e ∈ pre, ∀ cmd req, e ≠ .entered cmd .watchdogStatus req) →
    watchdogCounts (pre ++ l) = watchdogCounts l
  | [], _, _ => rfl
  | e :: pre, l, h => by
    rw [List.cons_append, watchdogCounts_cons _ (h e List.mem_cons_self),
      watchdogCounts_of_quiet pre l fun e he => h e (List.mem_cons_of_mem _ he)]

theorem watchdogCounts_released (l : List Event) : watchdogCounts (l ++ [.released]) = watchdogCounts l := by
  induction l using watchdogCounts.induct with
  | case1 cmd req reply out l ih => rw [List.cons_append, List.cons_append, watchdogCounts, watchdogCounts, ih]
  | case2 e l hne ih =>
    rw [List.cons_append, watchdogCounts, watchdogCounts, ih]
    · exact hne
    · intro cmd req reply out l' he hl
      cases l with
      | nil => cases hl
      | cons x l => exact hne cmd req reply out l he (by rw [(List.cons.inj hl).1])
  | case3 => rfl

/-! ## On a connection -/

section
variable (cfg : AgentConfig) (others : Handler → Request → Files × ω → (Bool × Reply) × (Files × ω))

theorem watchedExec_bootCount (h : Handler) (req : Request) (con : Watched ω) :
    (watchedExec others h req con).2.bootCount = con.bootCount := by
  unfold watchedExec
  split <;> rfl

theorem status_not_mutating : ∀ c ∈ dispatch, c.fn = .watchdogStatus → c.mutating = false := by decide

theorem get_watchdogStatus (count : Int32) (id : Int64) :
    (finishReply id (watchdogStatus count).2).get (str "boots_without_connection") = .int count.toInt64 := by
  simp [finishReply, watchdogStatus, Reply.set, show str "healthy" ≠ str "boots_without_connection" by decide,
    show str "id" ≠ str "boots_without_connection" by decide]

/-- What the events of one frame add to the counts. -/
theorem watchdogCounts_frame (msg : Value) (payload : Bytes) (id : Int64) (con : Watched ω) (l : List Event) :
    ∃ new, watchdogCounts ((answer cfg (watchedExec others) msg payload con).2.1 ++
        .sent (finishReply id (answer cfg (watchedExec others) msg payload con).1)
          (answer cfg (watchedExec others) msg payload con).1.out :: l) = new ++ watchdogCounts l ∧
      (∀ n ∈ new, n = con.bootCount.toInt) ∧
      (answer cfg (watchedExec others) msg payload con).2.2.bootCount = con.bootCount := by
  unfold answer
  dsimp only
  split
  · exact ⟨[], rfl, by simp, rfl⟩
  · rename_i c hc
    split
    · exact ⟨[], rfl, by simp, rfl⟩
    · split
      · exact ⟨[], rfl, by simp, rfl⟩
      · by_cases hs : c.fn = .watchdogStatus
        · rw [status_not_mutating c (lookup_some hc).1 hs, hs]
          refine ⟨[con.bootCount.toInt], ?_, by simp, rfl⟩
          rw [if_neg Bool.false_ne_true, List.singleton_append, watchdogCounts, watchedExec, if_pos rfl,
            get_watchdogStatus, Value.asInt, Int32.toInt_toInt64]
          rfl
        · refine ⟨[], ?_, by simp, watchedExec_bootCount others _ _ _⟩
          rw [List.cons_append, watchdogCounts_cons _ (fun _ _ he => hs (Event.entered.inj he).2.1), List.nil_append]
          split <;> simp [watchdogCounts_cons]

/-- **On a connection the command answers with the count the connection began with**, which stays as it is. -/
theorem watchdogCounts_serveLoop : ∀ (ts : List Turn) (idle : Nat) (con : Watched ω),
    (∀ n ∈ watchdogCounts (serveLoop cfg (watchedExec others) idle ts con).1, n = con.bootCount.toInt) ∧
      (serveLoop cfg (watchedExec others) idle ts con).2.bootCount = con.bootCount
  | [], idle, con => by
    rw [serveLoop]
    exact ⟨by simp [watchdogCounts], rfl⟩
  | ⟨.timeout, w⟩ :: ts, idle, con => by
    rw [serveLoop_timeout]
    split
    · exact ⟨by simp [watchdogCounts], rfl⟩
    · exact watchdogCounts_serveLoop ts _ con
  | ⟨.closed, w⟩ :: ts, idle, con => by
    rw [serveLoop_closed]
    exact ⟨by simp [watchdogCounts], rfl⟩
  | ⟨.ok (msg, payload), w⟩ :: ts, idle, con => by
    obtain ⟨new, hnew, hn, hcount⟩ := watchdogCounts_frame cfg others msg payload ((msg.get (str "id")).asInt 0) con
      (if w then serveLoop cfg (watchedExec others) 0 ts (answer cfg (watchedExec others) msg payload con).2.2
        else ([], (answer cfg (watchedExec others) msg payload con).2.2)).1
    have ih := watchdogCounts_serveLoop ts 0 (answer cfg (watchedExec others) msg payload con).2.2
    rw [hcount] at ih
    constructor
    · intro n hmem
      rw [serveLoop_frame, watchdogCounts_cons _ (by rintro _ _ ⟨⟩), hnew] at hmem
      rcases List.mem_append.1 hmem with h | h
      · exact hn n h
      · split at h
        · exact ih.1 n h
        · cases h
    · rw [serveLoop]
      dsimp only
      split
      · exact ih.2
      · exact hcount

/-- What a handshake that succeeds writes is no answer of the command. -/
theorem watchdogCounts_authenticate (env : AuthEnv) (turns : List Turn) (l : List Event) :
    watchdogCounts ((authenticate cfg env turns).2.1 ++ l) = watchdogCounts l := by
  obtain ⟨pre, hpre, hsent⟩ := authenticate_events cfg env turns
  refine watchdogCounts_of_quiet _ _ ?_
  rintro e he cmd req rfl
  rw [hpre] at he
  rcases List.mem_append.1 he with h | h
  · obtain ⟨r, hr⟩ := hsent _ h
    cases hr
  · split at h
    · cases List.mem_singleton.1 h
    · cases h

theorem watchdogOnConnect_bootCount (con : Watched ω) : (watchdogOnConnect con).bootCount = 0 := by
  unfold watchdogOnConnect
  split
  · assumption
  · rfl

/-- **Whatever happened before, the command answers zero.** -/
theorem watchdogCounts_connection (env : AuthEnv) (turns : List Turn) (con : Watched ω) :
    ∀ n ∈ watchdogCounts (connection cfg others env turns con).1, n = 0 := by
  unfold connection serveConnection
  dsimp only
  by_cases ha : (authenticate cfg env turns).1 = true
  · rw [if_pos ha, if_pos ha, List.append_assoc, watchdogCounts_authenticate]
    have h := (watchdogCounts_serveLoop cfg others (authenticate cfg env turns).2.2 0 (watchdogOnConnect con)).1
    rw [watchdogOnConnect_bootCount] at h
    rw [watchdogCounts_released]
    exact h
  · rw [if_neg ha, ← List.append_nil (authenticate cfg env turns).2.1, watchdogCounts_authenticate]
    simp [watchdogCounts]

end

/-! ## The count is right -/

theorem plain_ofInt {i : Int} {b : UInt8} (hb : b ∈ (Number.ofInt i).text) : b ≠ 0 ∧ isSpace b = false := by
  have digit : ∀ d, digitByte d ≠ 0 ∧ isSpace (digitByte d) = false := by decide
  rw [Number.text_ofInt] at hb
  rcases List.mem_append.1 hb with h | h
  · split at h
    · rw [List.mem_singleton.1 h]
      decide
    · cases h
  · obtain ⟨d, -, rfl⟩ := List.mem_map.1 h
    exact digit d

/-- **A printed count is read back.** -/
theorem atoi_fmtD (n : Int32) : atoi ((fmtD n).take 15) = n := by
  have h1 := n.toInt_lt
  have h2 := n.le_toInt
  have hlen : (fmtD n).length ≤ 10 + 1 := Number.length_text_ofInt (by decide) (by omega)
  have hnul : cStr (fmtD n) = fmtD n := cStr_of_no_nul _ fun h => (plain_ofInt h).1 rfl
  have hspace : (fmtD n).dropWhile isSpace = fmtD n :=
    List.dropWhile_eq_self_iff.2 fun h => by
      have := (plain_ofInt (i := n.toInt) (List.getElem_mem h)).2
      exact ne_true_of_eq_false this
  rw [List.take_of_length_le (by omega), atoi, strtol10, hnul, hspace, fmtD, Json.strtoll_ofInt, ← Int32.toInt_toInt64,
    Json.saturate_toInt, Int32.toInt32_toInt64]

section
variable (cfg : AgentConfig) (others : Handler → Request → Files × ω → (Bool × Reply) × (Files × ω))

/-- The file and the process agree on the count. -/
def Counted (n : Nat) (con : Watched ω) : Prop :=
  con.bootCount = Int32.ofNat n ∧ (con.files kBootCountPath = some (fmtD con.bootCount) ∨
    (con.files kBootCountPath = none ∧ con.bootCount = 0))

theorem counted_boot {n : Nat} {con : Watched ω} (h : Counted n con) : Counted (n + 1) (watchdogOnBoot con) := by
  have hread : (watchdogOnBoot con).bootCount = con.bootCount + 1 := by
    unfold watchdogOnBoot
    dsimp only
    rcases h.2 with hf | ⟨hf, h0⟩
    · rw [hf]
      dsimp only
      rw [atoi_fmtD]
    · rw [hf, h0]
  refine ⟨?_, Or.inl ?_⟩
  · rw [hread, h.1, Int32.ofNat_add]
    rfl
  · simp only [watchdogOnBoot, Files.put, Function.update_self]

theorem counted_connect {n : Nat} {con : Watched ω} (h : Counted n con) : Counted 0 (watchdogOnConnect con) := by
  unfold watchdogOnConnect
  split
  · rename_i h0
    exact ⟨h0, h.2⟩
  · refine ⟨rfl, Or.inl ?_⟩
    simp only [Files.put, Function.update_self]
    decide

/-- The other commands leave the file alone. -/
def KeepCount : Prop := ∀ h req st, (others h req st).2.1 kBootCountPath = st.1 kBootCountPath

theorem watchedExec_files (hkeep : KeepCount others) (h : Handler) (req : Request) (con : Watched ω) :
    (watchedExec others h req con).2.files kBootCountPath = con.files kBootCountPath := by
  unfold watchedExec
  split
  · rfl
  · exact hkeep _ _ _

theorem answer_keeps (hkeep : KeepCount others) (msg : Value) (payload : Bytes) (con : Watched ω) :
    (answer cfg (watchedExec others) msg payload con).2.2.bootCount = con.bootCount ∧
      (answer cfg (watchedExec others) msg payload con).2.2.files kBootCountPath = con.files kBootCountPath := by
  unfold answer
  dsimp only
  split
  · exact ⟨rfl, rfl⟩
  · split
    · exact ⟨rfl, rfl⟩
    · split
      · exact ⟨rfl, rfl⟩
      · exact ⟨watchedExec_bootCount others _ _ _, watchedExec_files others hkeep _ _ _⟩

theorem serveLoop_keeps (hkeep : KeepCount others) : ∀ (ts : List Turn) (idle : Nat) (con : Watched ω),
    (serveLoop cfg (watchedExec others) idle ts con).2.bootCount = con.bootCount ∧
      (serveLoop cfg (watchedExec others) idle ts con).2.files kBootCountPath = con.files kBootCountPath
  | [], idle, con => ⟨rfl, rfl⟩
  | ⟨.timeout, w⟩ :: ts, idle, con => by
    rw [serveLoop_timeout]
    split
    · exact ⟨rfl, rfl⟩
    · exact serveLoop_keeps hkeep ts _ con
  | ⟨.closed, w⟩ :: ts, idle, con => ⟨rfl, rfl⟩
  | ⟨.ok (msg, payload), w⟩ :: ts, idle, con => by
    have hans := answer_keeps cfg others hkeep msg payload con
    have ih := serveLoop_keeps hkeep ts 0 (answer cfg (watchedExec others) msg payload con).2.2
    rw [serveLoop]
    dsimp only
    split
    · exact ⟨ih.1.trans hans.1, ih.2.trans hans.2⟩
    · exact hans

theorem counted_occasion (hkeep : KeepCount others) {n : Nat} {con : Watched ω} (h : Counted n con) (o : Occasion) :
    Counted (o.count cfg n) (occasion cfg others con o) := by
  cases o with
  | boot => exact counted_boot h
  | connection env turns =>
    unfold Occasion.count occasion connection serveConnection
    dsimp only
    by_cases ha : (authenticate cfg env turns).1 = true
    · rw [if_pos ha, if_pos ha, if_pos ha]
      obtain ⟨h1, h2⟩ := counted_connect h
      obtain ⟨k1, k2⟩ := serveLoop_keeps cfg others hkeep (authenticate cfg env turns).2.2 0 (watchdogOnConnect con)
      refine ⟨k1.trans h1, ?_⟩
      rw [k1, k2]
      exact h2
    · rw [if_neg ha, if_neg ha, if_neg ha]
      exact h

/-- **After any history the count is the boots since the last connection that authenticated**, on a card that had no count
and as long as nothing else writes the file. -/
theorem bootCount_eq (hkeep : KeepCount others) (con : Watched ω) (hfile : con.files kBootCountPath = none)
    (hcount : con.bootCount = 0) (history : List Occasion) :
    (after cfg others history con).bootCount = Int32.ofNat (unreachedBoots cfg history) := by
  have run : ∀ (l : List Occasion) (n : Nat) (con : Watched ω), Counted n con →
      Counted (l.foldl (Occasion.count cfg) n) (after cfg others l con) := by
    intro l
    induction l with
    | nil => exact fun _ _ h => h
    | cons o l ih => exact fun n con h => ih _ _ (counted_occasion cfg others hkeep h o)
  exact (run history 0 con ⟨hcount, Or.inr ⟨hfile, hcount⟩⟩).1

/-! ## What the command reports -/

/-- **The `watchdog` command reports the boots since the last connection before its own exactly when there are none**,
whatever the history: it answers zero on every connection. -/
theorem watchdog_reports_iff (con : Watched ω) (history : List Occasion) (env : AuthEnv) (turns : List Turn) (n : Int)
    (hn : n ∈ watchdogCounts (connection cfg others env turns (after cfg others history con)).1) :
    n = unreachedBoots cfg history ↔ unreachedBoots cfg history = 0 := by
  have h0 := watchdogCounts_connection cfg others env turns _ n hn
  rw [h0]
  omega

end

def watchdogRequest : Value := .object [(str "cmd", .string (str "watchdog"))]

def checkUp : List Turn := [⟨.ok (hello, []), true⟩, ⟨.ok (watchdogRequest, []), true⟩]

def quiet (_ : Handler) (_ : Request) (st : Files × Unit) : (Bool × Reply) × (Files × Unit) := ((true, {}), st)

def emptyCard : Watched Unit := ⟨0, fun _ => none, [], ()⟩

theorem watchdog_reports_second : (0 : Int) = unreachedBoots plainConfig [.boot, .connection plainEnv checkUp] :=
  (watchdog_reports_iff plainConfig quiet emptyCard [.boot, .connection plainEnv checkUp] plainEnv checkUp 0
    (by decide +kernel)).2 (by decide +kernel)

/-- **Three boots that nobody could reach are reported as none.** -/
theorem watchdog_hides_boots :
    watchdogCounts (connection plainConfig quiet plainEnv checkUp
      (after plainConfig quiet [.boot, .boot, .boot] emptyCard)).1 = [0] ∧
    unreachedBoots plainConfig [.boot, .boot, .boot] = 3 := by
  refine ⟨by decide +kernel, by decide⟩

end Agent
end SwitchMcp

import SwitchMcp.Sync
/-!
# Retry — how often a call's frame reaches the agent (clients/agentd.py)

`call` sends a command again when the first turn's `sent` flag is still down, and the flag goes up when `drain()` returns,
not when the bytes are written.  `call_log` says which frames the two turns leave in the log; `delivered_once_iff` says
on which schedules a command that must not be repeated reaches the agent at most once.
-/
namespace SwitchMcp
namespace Agent

open Prog (Ends)

/-- The frames of commands that reached the agent. -/
def deliveries {φ : Type} (l : List (Sent φ)) : Nat :=
  (l.filter (fun e => decide (e.kind = .command) && e.delivered)).length

theorem deliveries_append {φ : Type} (l l' : List (Sent φ)) : deliveries (l ++ l') = deliveries l + deliveries l' := by
  simp [deliveries]

/-- `drain()` gives up with a connection error or at the deadline. -/
def Await.Drops (a : Await) : Prop := a.exc.transient = true ∧ a ≠ .done

section
variable {σ φ : Type} (cfg : ClientConfig) (hmacHex : Bytes → Bytes → PyStr)
  (serve : φ → Bytes → Bytes → σ → ReplyFrame × σ) (cmd : PyStr) (payload : Bytes) (params : PyDict)

theorem deliveries_extends {w w' : World σ φ} (h : Extends serve (IsHandshake cfg.token) w w') :
    deliveries w'.log = deliveries w.log := by
  obtain ⟨new, hl, -, hnew⟩ := h
  have h0 : deliveries new = 0 := by
    rw [deliveries, List.length_eq_zero_iff, List.filter_eq_nil_iff]
    intro e he
    simp [(hnew e he).kind_ne]
  rw [hl, deliveries_append, h0, Nat.add_zero]

/-- From `w`, a turn has or gets a connection, its frame is not too long, and the frame reaches the agent. -/
def Reaches (a : AttemptScript φ) (w : World σ φ) : Prop :=
  ∃ w1 c, (ready cfg hmacHex serve a).exec { w with sent := false } = (.ok (), w1) ∧ w1.conn = some c ∧
    (requestText (w1.id + 1) (callMsg cmd params) payload).length ≤ maxJson ∧ a.exchange.delivered = true

theorem exec_attempt (a : AttemptScript φ) (w : World σ φ) :
    (attempt cfg hmacHex serve cmd payload params a).exec w =
      match (ready cfg hmacHex serve a).exec { w with sent := false } with
      | (.ok (), w1) => (roundtrip serve .command true (callMsg cmd params) payload a.exchange).exec w1
      | (.error e, w1) => (.error e, w1) := by
  rw [attempt, Prog.exec_bind, Prog.exec_modify]
  dsimp only
  rw [Prog.exec_bind]
  rcases (ready cfg hmacHex serve a).exec { w with sent := false } with ⟨e | ⟨⟩, w1⟩ <;> rfl

/-- **A turn whose frame reaches the agent counts one, and its flag is up exactly when `drain()` returned**; when
`drain()` raised, so did the turn. -/
theorem attempt_reaches {a : AttemptScript φ} {w : World σ φ} (h : Reaches cfg hmacHex serve cmd payload params a w) :
    ∃ r w', (attempt cfg hmacHex serve cmd payload params a).exec w = (r, w') ∧
      deliveries w'.log = deliveries w.log + 1 ∧ w'.conn.isSome = true ∧
      (a.exchange.drain = .done → w'.sent = true) ∧
      (a.exchange.drain ≠ .done → w'.sent = false ∧ r = .error ⟨a.exchange.drain.exc, .command⟩) := by
  obtain ⟨w1, c, hr, hc, hlen, hd⟩ := h
  have hx := exec_attempt cfg hmacHex serve cmd payload params a w
  rw [hr] at hx
  dsimp only at hx
  rw [exec_roundtrip serve hc, if_neg (by omega)] at hx
  have hsent : w1.sent = false := ((handshaking_sent cfg serve).ready_moves hmacHex a _).ok hr
  have hdel := deliveries_extends cfg serve (((handshaking_extends cfg serve).ready_moves hmacHex a _).ok hr)
  refine ⟨_, _, hx, ?_, rfl, fun hdone => ?_, fun hdone => ?_⟩
  · rw [afterExchange, deliveries_append, hdel]
    simp [deliveries, hd]
  · simp [afterExchange, exchange, hdone]
  · cases hdr : a.exchange.drain with
    | done => exact absurd hdr hdone
    | _ => simp [afterExchange, exchange, hdr, hsent, roundtripResult, Kind.stage]

/-- **A turn whose frame does not reach the agent counts none.** -/
theorem attempt_misses {a : AttemptScript φ} {w : World σ φ} (h : ¬Reaches cfg hmacHex serve cmd payload params a w) :
    deliveries ((attempt cfg hmacHex serve cmd payload params a).exec w).2.log = deliveries w.log := by
  rw [exec_attempt]
  rcases hr : (ready cfg hmacHex serve a).exec { w with sent := false } with ⟨e | ⟨⟩, w1⟩
  · have hext := ((handshaking_extends cfg serve).ready_moves hmacHex a { w with sent := false }).error hr
    exact deliveries_extends cfg serve hext
  · have hdel := deliveries_extends cfg serve (((handshaking_extends cfg serve).ready_moves hmacHex a _).ok hr)
    dsimp only
    cases hc : w1.conn with
    | none =>
      rw [roundtrip, Prog.exec_of, hc]
      exact hdel
    | some c =>
      rw [exec_roundtrip serve hc]
      split
      · exact hdel
      · rename_i hlen
        have hd : a.exchange.delivered = false := by
          rw [← Bool.not_eq_true]
          exact fun hd => h ⟨w1, c, hr, hc, by omega, hd⟩
        rw [afterExchange, deliveries_append, hdel]
        simp [deliveries, hd]

theorem recover_keeps (turn : Nat) (a : AttemptScript φ) (e : Raised) (w : World σ φ) :
    ((recover cfg turn cmd a e).exec w).2.log = w.log ∧ ((recover cfg turn cmd a e).exec w).2.agent = w.agent := by
  have h : Ends (recover cfg turn cmd a e) w (fun _ w' => w'.log = w.log ∧ w'.agent = w.agent)
      (fun _ w' => w'.log = w.log ∧ w'.agent = w.agent) := by
    unfold recover
    split
    · simp only [Prog.ends_bind, Prog.ends_get]
      refine (discardConnection_ends a.drop w).mono (fun _ w1 h1 => ?_) (fun e w1 h1 => by rw [h1.2]; exact ⟨rfl, rfl⟩)
      have hl : w1.log = w.log ∧ w1.agent = w.agent := by rw [h1]; exact ⟨rfl, rfl⟩
      repeat' split
      all_goals first | exact (Prog.ends_throw _).2 hl | exact (Prog.ends_pure _).2 hl
    · exact (Prog.ends_throw _).2 ⟨rfl, rfl⟩
  rcases hx : (recover cfg turn cmd a e).exec w with ⟨e | r, w'⟩
  · exact h.error hx
  · exact h.ok hx

theorem exec_tryOnce (turn : Nat) (a : AttemptScript φ) (w : World σ φ) :
    (tryOnce cfg hmacHex serve turn cmd payload params a).exec w =
      match (attempt cfg hmacHex serve cmd payload params a).exec w with
      | (.ok r, w') => (.ok (some r), w')
      | (.error e, w') => (recover cfg turn cmd a e).exec w' := by
  rw [tryOnce, Prog.exec_tryCatch, map_eq_pure_bind, Prog.exec_bind]
  rcases (attempt cfg hmacHex serve cmd payload params a).exec w with ⟨e | r, w'⟩ <;> rfl

theorem tryOnce_log (turn : Nat) (a : AttemptScript φ) (w : World σ φ) :
    ((tryOnce cfg hmacHex serve turn cmd payload params a).exec w).2.log =
      ((attempt cfg hmacHex serve cmd payload params a).exec w).2.log := by
  rw [exec_tryOnce]
  rcases (attempt cfg hmacHex serve cmd payload params a).exec w with ⟨e | r, w'⟩
  · exact (recover_keeps cfg cmd turn a e w').1
  · rfl

theorem exec_discard {w : World σ φ} {c : Conn} (hc : w.conn = some c) (d : DropScript) :
    ((discardConnection d).exec w = (.error ⟨.cancelled, .dropping⟩, { w with conn := none }) ∧
      ¬(d.closing = true ∨ d.wait ≠ .cancelled)) ∨
    ((discardConnection d).exec w = (.ok (), { w with conn := none }) ∧ (d.closing = true ∨ d.wait ≠ .cancelled)) := by
  rw [discardConnection, Prog.exec_of, hc]
  obtain ⟨closing, wait⟩ := d
  cases closing <;> cases wait <;> simp

/-- **When the first turn hands over to the second.** -/
theorem recover_none_iff (hcmd : cmd ∉ idempotentCommands) (a : AttemptScript φ) (e : Raised) {w : World σ φ}
    (hconn : w.conn.isSome = true) :
    ((recover cfg 0 cmd a e).exec w).1 = .ok none ↔
      e.exc.transient = true ∧ (a.drop.closing = true ∨ a.drop.wait ≠ .cancelled) ∧ w.sent = false := by
  obtain ⟨c, hc⟩ := Option.isSome_iff_exists.1 hconn
  unfold recover
  cases ht : e.exc.transient with
  | false => simp
  | true =>
    rw [if_pos rfl, Prog.exec_bind]
    rcases exec_discard hc a.drop with ⟨hx, hd⟩ | ⟨hx, hd⟩ <;> rw [hx]
    · simp [hd]
    · dsimp only
      rw [Prog.exec_bind, Prog.exec_get]
      cases hs : w.sent with
      | false => simp [hd]
      | true => by_cases hff : cmd ∈ fireAndForget <;> simp [hff, hcmd]

/-- **The first turn hands over**, for a command that must not be repeated and whose frame reached the agent, exactly when
`drain()` gave up on it. -/
theorem tryOnce_none_iff (hcmd : cmd ∉ idempotentCommands) {a : AttemptScript φ} {w : World σ φ}
    (h : Reaches cfg hmacHex serve cmd payload params a w) :
    ((tryOnce cfg hmacHex serve 0 cmd payload params a).exec w).1 = .ok none ↔
      a.exchange.drain.Drops ∧ (a.drop.closing = true ∨ a.drop.wait ≠ .cancelled) := by
  obtain ⟨r, w', hx, -, hsome, hdone, hraise⟩ := attempt_reaches cfg hmacHex serve cmd payload params h
  rw [exec_tryOnce, hx]
  by_cases hd : a.exchange.drain = .done
  · have hs := hdone hd
    refine iff_of_false (fun hn => ?_) fun h => h.1.2 hd
    rcases r with e | r
    · have := ((recover_none_iff cfg cmd hcmd a e hsome).1 hn).2.2
      rw [hs] at this
      cases this
    · cases hn
  · obtain ⟨hs, rfl⟩ := hraise hd
    dsimp only
    rw [recover_none_iff cfg cmd hcmd a _ hsome]
    exact ⟨fun h => ⟨⟨h.1, hd⟩, h.2.1⟩, fun h => ⟨h.1.1, h.2, hs⟩⟩

/-- The state the second turn starts in. -/
def afterFirst (a : AttemptScript φ) (w : World σ φ) : World σ φ :=
  ((tryOnce cfg hmacHex serve 0 cmd payload params a).exec w).2

/-- The schedule repeats a command: its frame reaches the agent while `drain()` gives up on it, the connection is dropped
without the call being cancelled there, and the frame of the second turn reaches the agent too. -/
structure Repeats (s : CallScript φ) (w : World σ φ) : Prop where
  first : Reaches cfg hmacHex serve cmd payload params s.first w
  drops : s.first.exchange.drain.Drops
  dropped : s.first.drop.closing = true ∨ s.first.drop.wait ≠ .cancelled
  second : Reaches cfg hmacHex serve cmd payload params s.second
    (afterFirst cfg hmacHex serve cmd payload params s.first w)

theorem call_log (s : CallScript φ) (w : World σ φ) :
    ((call cfg hmacHex serve cmd payload params s).exec w).2.log =
      if ((tryOnce cfg hmacHex serve 0 cmd payload params s.first).exec w).1 = .ok none then
        ((attempt cfg hmacHex serve cmd payload params s.second).exec
          (afterFirst cfg hmacHex serve cmd payload params s.first w)).2.log
      else ((attempt cfg hmacHex serve cmd payload params s.first).exec w).2.log := by
  rw [← tryOnce_log cfg hmacHex serve cmd payload params 0 s.first, ← tryOnce_log cfg hmacHex serve cmd payload params 1 s.second,
    afterFirst, call, Prog.exec_bind]
  rcases (tryOnce cfg hmacHex serve 0 cmd payload params s.first).exec w with ⟨e | o, w1⟩
  · simp
  · cases o with
    | some r => simp
    | none =>
      simp only [if_true, Prog.exec_bind]
      rcases (tryOnce cfg hmacHex serve 1 cmd payload params s.second).exec w1 with ⟨e | o, w2⟩
      · rfl
      · cases o <;> rfl

/-- **One call delivers a command that must not be repeated at most once, unless the schedule repeats it.**  For every
state of the client and every schedule. -/
theorem delivered_once_iff (hcmd : cmd ∉ idempotentCommands) (s : CallScript φ) (w : World σ φ) :
    deliveries ((call cfg hmacHex serve cmd payload params s).exec w).2.log ≤ deliveries w.log + 1 ↔
      ¬Repeats cfg hmacHex serve cmd payload params s w := by
  have hfirst : deliveries (afterFirst cfg hmacHex serve cmd payload params s.first w).log =
      deliveries ((attempt cfg hmacHex serve cmd payload params s.first).exec w).2.log := by
    rw [afterFirst, tryOnce_log]
  rw [call_log]
  by_cases h1 : Reaches cfg hmacHex serve cmd payload params s.first w
  · obtain ⟨r, w', hx, hdel, -⟩ := attempt_reaches cfg hmacHex serve cmd payload params h1
    rw [hx] at hfirst
    rw [hx]
    dsimp only at hfirst ⊢
    have hnone := tryOnce_none_iff cfg hmacHex serve cmd payload params hcmd h1
    split
    · rename_i hn
      obtain ⟨hd, hdr⟩ := hnone.1 hn
      by_cases h2 : Reaches cfg hmacHex serve cmd payload params s.second
        (afterFirst cfg hmacHex serve cmd payload params s.first w)
      · obtain ⟨r2, w2, hx2, hdel2, -⟩ := attempt_reaches cfg hmacHex serve cmd payload params h2
        rw [hx2]
        exact iff_of_false (by dsimp only; omega) fun hr => hr ⟨h1, hd, hdr, h2⟩
      · rw [attempt_misses cfg hmacHex serve cmd payload params h2]
        exact iff_of_true (by omega) fun hr => h2 hr.second
    · rename_i hn
      exact iff_of_true (by omega) fun hr => hn (hnone.2 ⟨hr.drops, hr.dropped⟩)
  · have hmiss := attempt_misses cfg hmacHex serve cmd payload params h1
    refine iff_of_true ?_ fun hr => h1 hr.first
    split
    · by_cases h2 : Reaches cfg hmacHex serve cmd payload params s.second
        (afterFirst cfg hmacHex serve cmd payload params s.first w)
      · obtain ⟨r2, w2, hx2, hdel2, -⟩ := attempt_reaches cfg hmacHex serve cmd payload params h2
        rw [hx2]
        dsimp only
        omega
      · rw [attempt_misses cfg hmacHex serve cmd payload params h2]
        omega
    · omega

end

theorem delivered_once_iff_launch :
    deliveries ((call sampleConfig noHash scripted (py "launch") [] [] (cleanCall "launch" (clean answerFrame)).script).exec
      (World.fresh ())).2.log ≤ deliveries (World.fresh () : World Unit ReplyFrame).log + 1 :=
  (delivered_once_iff sampleConfig noHash scripted (py "launch") [] [] (by decide +kernel)
    (cleanCall "launch" (clean answerFrame)).script (World.fresh ())).2 fun h => h.drops.2 rfl

/-- A call whose first frame reaches the agent although `drain()` runs into the deadline. -/
def slowDrain (cmd : String) : CallInput ReplyFrame :=
  ⟨py cmd, [], [], cleanAttempt { clean answerFrame with drain := .timeout }, cleanAttempt (clean laterFrame)⟩

/-- **A launch is delivered twice by one call that returns as if nothing had happened.** -/
theorem launch_delivered_twice :
    (sampleRun [slowDrain "launch"]).1 = [.ok ([(py "n", .int 2)], [])] ∧
    deliveries (sampleRun [slowDrain "launch"]).2.log = 2 ∧ py "launch" ∉ idempotentCommands := by
  refine ⟨by decide +kernel, by decide +kernel, by decide +kernel⟩

end Agent
end SwitchMcp

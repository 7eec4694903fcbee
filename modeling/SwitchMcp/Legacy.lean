import SwitchMcp.Downgrade
/-!
# Legacy — reconnecting to an agent before 0.2.0 (clients/agentd.py)

Such an agent answers a hello without the token with an error and takes one with it.  The client's first `_connect` falls
back to the token; its `except` lets no later one do so, because `auth_method` says by then that the client has
authenticated.  `legacy_iff` is the run theorem: which runs of calls stay authenticated against an agent that can be reached.
-/
namespace SwitchMcp
namespace Agent

open PyJson (dictGet dictSet)
open Prog (Ends Moves)

/-- An exchange that nothing disturbs. -/
structure Undropped {φ : Type} (x : ExchangeScript φ) : Prop where
  delivered : x.delivered = true
  drain : x.drain = .done
  head : x.head = .done
  body : x.body = .done
  binHead : x.binHead = .done
  binBody : x.binBody = .done

/-- The agent can be reached for a `_connect`: its connections open, and nothing disturbs the two hellos. -/
structure Reachable {φ : Type} (s : ConnectScript φ) : Prop where
  opened : s.opened = .done
  probe : Undropped s.probe
  drop : s.again.drop.wait = .done
  reopened : s.again.opened = .done
  hello : Undropped s.again.hello

section
variable {σ φ : Type} (cfg : ClientConfig) (hmacHex : Bytes → Bytes → PyStr)
  (serve : φ → Bytes → Bytes → σ → ReplyFrame × σ)

/-- An agent before 0.2.0: it rejects a hello without the token and takes one with it. -/
structure PreTokenAgent : Prop where
  rejects : ∀ (fault : φ) (id : Nat) (st : σ), ∃ d e message,
    PyJson.loads (serve fault (requestText id helloMsg []) [] st).1.text = some (.dict d) ∧
    dictGet d (py "error") = some (.dict e) ∧ dictGet e (py "code") = some (.str (py "auth")) ∧
    dictGet e (py "message") = some message
  accepts : ∀ (fault : φ) (id : Nat) (st : σ), ∃ d,
    PyJson.loads (serve fault (requestText id (legacyMsg cfg.token) []) [] st).1.text = some (.dict d) ∧
    dictGet d (py "error") = none ∧ getTruthy d "ok" = true

/-- A `_connect` ends authenticated, through the legacy handshake. -/
def EndsLegacy (s : ConnectScript φ) (w : World σ φ) : Prop :=
  ∃ w', (connect cfg hmacHex serve s).exec w = (.ok (), w') ∧ w'.authMethod = some .legacy ∧ w'.conn = some ⟨[], true⟩

/-- The `_connect` is the first that gets through, and the hello with the token is no longer than a request may be. -/
def StartsFresh (w : World σ φ) : Prop :=
  w.authMethod = none ∧ (requestText (w.id + 2) (legacyMsg cfg.token) []).length ≤ maxJson

/-- A call fails because the agent does not let the client in. -/
def AuthFails (r : Except Raised (PyDict × Bytes)) : Prop :=
  ∃ message, r = .error ⟨.clientError (.str (py "auth")) message, .handshake⟩

def Connects (a : AttemptScript φ) (w : World σ φ) : Prop := (w.conn.isNone || a.lost) = true

/-- What `P` says holds of every `_connect` of a call, in the state it starts from. -/
structure CallConnects (P : ConnectScript φ → World σ φ → Prop) (c : CallInput φ) (w : World σ φ) : Prop where
  first : Connects c.script.first w → P c.script.first.connect { w with sent := false }
  second : ((tryOnce cfg hmacHex serve 0 c.cmd c.payload c.params c.script.first).exec w).1 = .ok none →
    Connects c.script.second (afterFirst cfg hmacHex serve c.cmd c.payload c.params c.script.first w) →
    P c.script.second.connect
      { afterFirst cfg hmacHex serve c.cmd c.payload c.params c.script.first w with sent := false }

def RunConnects (P : ConnectScript φ → World σ φ → Prop) : List (CallInput φ) → World σ φ → Prop
  | [], _ => True
  | c :: l, w => CallConnects cfg hmacHex serve P c w ∧ RunConnects P l ((callOf serve cfg hmacHex c).exec w).2

/-! ## A `_connect` -/

/-- **An exchange that nothing disturbs reads the agent's answer.** -/
theorem exchange_undropped {x : ExchangeScript φ} (hx : Undropped x) (kind : Kind) (text payload : Bytes) {c : Conn}
    (hrx : c.rx = []) (st : σ) {d : PyDict} (hd : PyJson.loads (serve x.fault text payload st).1.text = some (.dict d)) :
    (exchange serve x kind text payload c st).result = .ok (d, (serve x.fault text payload st).1.blob) := by
  obtain ⟨hdel, hdrain, hhead, hbody, hbh, hbb⟩ := hx
  unfold exchange
  rw [if_pos hdel, hdrain]
  dsimp only [deliver]
  rw [hrx, List.nil_append]
  generalize hf : (serve x.fault text payload st).1 = f at hd
  have h4 : leNat (leBytes 4 f.text.length) = f.text.length := leNat_leBytes 4 _ (by have := f.text_lt; omega)
  have h8 : leNat (leBytes 8 f.blob.length) = f.blob.length := leNat_leBytes 8 _ (by have := f.blob_lt; omega)
  obtain ⟨d', hd', hb⟩ := f.object _ hd
  cases hd'
  unfold readAnswer readexactly ReplyFrame.bytes frameBytes
  rw [hhead, hbody, hbh, hbb]
  simp only [takeExact_append_of_length _ _ (length_leBytes 4 _), h4, takeExact_append, hd, hb]
  by_cases hbl : f.blob = []
  · simp [hbl]
  · have ht := takeExact_append f.blob []
    rw [List.append_nil] at ht
    simp [hbl, takeExact_append_of_length _ _ (length_leBytes 8 _), h8, ht]

variable {cfg serve}

/-- The first hello is rejected, or is too long for a frame; either is what an old agent is taken for. -/
theorem probe_rejected (ha : PreTokenAgent cfg serve) {x : ExchangeScript φ} (hx : Undropped x) {w : World σ φ}
    (hc : w.conn = some ⟨[], false⟩) :
    ∃ e w1, (roundtrip serve .hello false helloMsg [] x).exec w = (.error e, w1) ∧ e.exc.oldAgent = true ∧
      w1.authMethod = w.authMethod ∧ w1.id = w.id + 1 := by
  have hexec := @exec_roundtrip _ _ serve w .hello false helloMsg [] x _ hc
  by_cases hlen : maxJson < (requestText (w.id + 1) helloMsg []).length
  · rw [if_pos hlen] at hexec
    exact ⟨_, _, hexec, rfl, rfl, rfl⟩
  · rw [if_neg hlen] at hexec
    obtain ⟨d, e, message, hd, herr, hcode, hmsg⟩ := ha.rejects x.fault (w.id + 1) w.agent
    rw [exchange_undropped serve hx .hello _ _ rfl w.agent hd] at hexec
    simp only [roundtripResult, checkError, herr, hcode, hmsg] at hexec
    exact ⟨_, _, hexec, rfl, rfl, rfl⟩

theorem authenticateLegacy_exec (ha : PreTokenAgent cfg serve) {s : LegacyScript φ} (hdrop : s.drop.wait = .done)
    (hopened : s.opened = .done) (hhello : Undropped s.hello) (w : World σ φ) :
    ((requestText (w.id + 1) (legacyMsg cfg.token) []).length ≤ maxJson → ∃ d w', getTruthy d "ok" = true ∧
      (authenticateLegacy cfg serve s).exec w = (.ok d, w') ∧ w'.authMethod = some .legacy) ∧
    (¬(requestText (w.id + 1) (legacyMsg cfg.token) []).length ≤ maxJson → ∃ e w',
      (authenticateLegacy cfg serve s).exec w = (.error e, w')) := by
  have hdiscard : (discardConnection s.drop : Prog (World σ φ) Raised Unit).exec w = (.ok (), { w with conn := none }) := by
    rw [discardConnection, Prog.exec_of, hdrop]
    cases w.conn <;> cases s.drop.closing <;> rfl
  have hopen : (openConnection s.opened : Prog (World σ φ) Raised Unit).exec { w with conn := none } =
      (.ok (), { w with conn := some ⟨[], false⟩ }) := by
    rw [hopened]
    rfl
  have hok : ∀ r w', (roundtrip serve .legacy false (legacyMsg cfg.token) [] s.hello).exec
      { w with conn := some ⟨[], false⟩ } = (.ok r, w') → (authenticateLegacy cfg serve s).exec w =
        (.ok r.1, { w' with authMethod := some .legacy, capabilities := capabilitiesOf r.1 }) := by
    intro r w' h
    rw [authenticateLegacy, Prog.exec_bind, hdiscard]
    dsimp only
    rw [Prog.exec_bind, hopen]
    dsimp only
    rw [Prog.exec_bind, h]
    rfl
  have herror : ∀ e w', (roundtrip serve .legacy false (legacyMsg cfg.token) [] s.hello).exec
      { w with conn := some ⟨[], false⟩ } = (.error e, w') → (authenticateLegacy cfg serve s).exec w = (.error e, w') := by
    intro e w' h
    rw [authenticateLegacy, Prog.exec_bind, hdiscard]
    dsimp only
    rw [Prog.exec_bind, hopen]
    dsimp only
    rw [Prog.exec_bind, h]
  have hround := @exec_roundtrip _ _ serve { w with conn := some ⟨[], false⟩ } .legacy false (legacyMsg cfg.token) []
    s.hello _ rfl
  constructor
  · intro hlen
    obtain ⟨d, hd, hno, htruthy⟩ := ha.accepts s.hello.fault (w.id + 1) w.agent
    rw [if_neg (by dsimp only; omega)] at hround
    dsimp only at hround
    rw [exchange_undropped serve hhello .legacy _ _ rfl w.agent hd] at hround
    simp only [roundtripResult, checkError, hno] at hround
    exact ⟨d, _, htruthy, hok _ _ hround, rfl⟩
  · intro hlen
    rw [if_pos (by dsimp only; omega)] at hround
    exact ⟨_, _, herror _ _ hround⟩

/-- **A `_connect` to an agent before 0.2.0 ends authenticated exactly when it is the first that does**, and the hello with
the token is not too long. -/
theorem endsLegacy_iff (ha : PreTokenAgent cfg serve) {s : ConnectScript φ} (hs : Reachable s) (w : World σ φ) :
    EndsLegacy cfg hmacHex serve s w ↔ StartsFresh cfg w := by
  have hopen : (openConnection s.opened : Prog (World σ φ) Raised Unit).exec w =
      (.ok (), { w with conn := some ⟨[], false⟩ }) := by
    rw [hs.opened]
    rfl
  obtain ⟨e, w1, hprobe, hold, hauth, hid⟩ := probe_rejected ha hs.probe (w := { w with conn := some ⟨[], false⟩ }) rfl
  have hclient : (clientAuthenticate cfg hmacHex serve s).exec { w with conn := some ⟨[], false⟩ } = (.error e, w1) := by
    rw [clientAuthenticate, Prog.exec_bind, hprobe]
  have hexec : (connect cfg hmacHex serve s).exec w = (fallBack cfg serve s e >>= checkOk).exec w1 := by
    rw [connect, Prog.exec_bind, hopen]
    dsimp only
    rw [Prog.exec_bind, Prog.exec_tryCatch, hclient]
    dsimp only
    rw [Prog.exec_bind]
  have hback : (fallBack cfg serve s e).exec w1 =
      if w.authMethod.isNone then (authenticateLegacy cfg serve s.again).exec w1 else (.error e, w1) := by
    rw [fallBack, Prog.exec_bind, Prog.exec_get]
    dsimp only
    rw [hold, Bool.true_and, hauth]
    split <;> rfl
  obtain ⟨hfits, hlong⟩ := authenticateLegacy_exec ha hs.drop hs.reopened hs.hello w1
  rw [hid] at hfits hlong
  constructor
  · rintro ⟨w', hw', -, -⟩
    rw [hexec, Prog.exec_bind, hback] at hw'
    by_cases hnone : w.authMethod.isNone = true
    · refine ⟨Option.isNone_iff_eq_none.1 hnone, ?_⟩
      by_contra hlen
      obtain ⟨e', w'', herr⟩ := hlong hlen
      rw [if_pos hnone, herr] at hw'
      cases hw'
    · rw [if_neg hnone] at hw'
      cases hw'
  · rintro ⟨hnone, hlen⟩
    obtain ⟨d, w', hok, hlegacy, hmethod⟩ := hfits hlen
    rw [Prog.exec_bind, hback, if_pos (by rw [hnone]; rfl), hlegacy] at hexec
    dsimp only at hexec
    rw [checkOk, if_pos hok] at hexec
    exact ⟨w', hexec, hmethod, (connect_ends serve cfg hmacHex s w).ok hexec⟩

/-! ## Calls and runs -/

theorem runConnects_congr {P Q : ConnectScript φ → World σ φ → Prop} : ∀ (l : List (CallInput φ)) (w : World σ φ),
    (∀ c ∈ l, ∀ w, (P c.script.first.connect w ↔ Q c.script.first.connect w) ∧
      (P c.script.second.connect w ↔ Q c.script.second.connect w)) →
    (RunConnects cfg hmacHex serve P l w ↔ RunConnects cfg hmacHex serve Q l w)
  | [], _, _ => Iff.rfl
  | c :: l, w, h => by
    have hc := h c List.mem_cons_self
    have ih := runConnects_congr l ((callOf serve cfg hmacHex c).exec w).2 fun d hd => h d (List.mem_cons_of_mem _ hd)
    unfold RunConnects
    rw [ih]
    refine and_congr_left fun _ => ⟨fun hp => ⟨?_, ?_⟩, fun hq => ⟨?_, ?_⟩⟩
    · exact fun hcon => (hc _).1.1 (hp.first hcon)
    · exact fun hn hcon => (hc _).2.1 (hp.second hn hcon)
    · exact fun hcon => (hc _).1.2 (hq.first hcon)
    · exact fun hn hcon => (hc _).2.2 (hq.second hn hcon)

/-- A turn whose `_connect` ends authenticated raises nothing of a handshake. -/
theorem attempt_stage (cmd : PyStr) (payload : Bytes) (params : PyDict) {a : AttemptScript φ} {w : World σ φ}
    (h : Connects a w → EndsLegacy cfg hmacHex serve a.connect { w with sent := false }) :
    Ends (attempt cfg hmacHex serve cmd payload params a) w (fun _ _ => True) (fun e _ => e.stage ≠ .handshake) := by
  have hready : ∃ w1, (ready cfg hmacHex serve a).exec { w with sent := false } = (.ok (), w1) := by
    rw [ready, Prog.exec_bind, Prog.exec_get]
    dsimp only
    split
    · rename_i hc
      obtain ⟨w1, hw1, -⟩ := h hc
      exact ⟨w1, hw1⟩
    · exact ⟨_, rfl⟩
  obtain ⟨w1, hw1⟩ := hready
  have hround : Ends (roundtrip serve .command true (callMsg cmd params) payload a.exchange) w1 (fun _ _ => True)
      (fun e _ => e.stage ≠ .handshake) := by
    cases hc : w1.conn with
    | none =>
      have hx : (roundtrip serve .command true (callMsg cmd params) payload a.exchange).exec w1 =
          (.error ⟨.assertion, .command⟩, w1) := by
        rw [roundtrip, Prog.exec_of, hc]
        rfl
      exact (Prog.ends_iff_error hx).2 (by simp)
    | some c =>
      have hx := @exec_roundtrip _ _ serve w1 .command true (callMsg cmd params) payload a.exchange _ hc
      split at hx
      · exact (Prog.ends_iff_error hx).2 (by simp [Kind.stage])
      · refine ⟨fun _ => trivial, fun he => ?_⟩
        rw [hx, Prod.mk.injEq] at he
        have hr := he.1
        unfold roundtripResult at hr
        split at hr
        · cases hr
          simp [Kind.stage]
        · split at hr
          · cases hr
            simp [Kind.stage]
          · cases hr
  have hexec := exec_attempt cfg hmacHex serve cmd payload params a w
  rw [hw1] at hexec
  dsimp only at hexec
  rcases hx : (roundtrip serve .command true (callMsg cmd params) payload a.exchange).exec w1 with ⟨e | r, w2⟩
  · rw [hx] at hexec
    exact (Prog.ends_iff_error hexec).2 (hround.error hx)
  · rw [hx] at hexec
    exact (Prog.ends_iff_ok hexec).2 trivial

theorem recover_stage (turn : Nat) (cmd : PyStr) (a : AttemptScript φ) {e : Raised} (he : e.stage ≠ .handshake)
    (w : World σ φ) : Ends (recover cfg turn cmd a e) w (fun _ _ => True) (fun e _ => e.stage ≠ .handshake) := by
  unfold recover
  split
  · simp only [Prog.ends_bind, Prog.ends_get]
    refine (discardConnection_ends a.drop w).mono (fun _ w1 _ => ?_) (fun e' w1 h => by rw [h.1]; simp)
    split
    · exact (Prog.ends_throw _).2 (by simp)
    · split
      · exact (Prog.ends_pure _).2 trivial
      · split
        · exact (Prog.ends_throw _).2 he
        · split
          · exact (Prog.ends_throw _).2 (by simp)
          · exact (Prog.ends_pure _).2 trivial
  · exact (Prog.ends_throw _).2 he

theorem tryOnce_stage (turn : Nat) (cmd : PyStr) (payload : Bytes) (params : PyDict) {a : AttemptScript φ} {w : World σ φ}
    (h : Connects a w → EndsLegacy cfg hmacHex serve a.connect { w with sent := false }) :
    Ends (tryOnce cfg hmacHex serve turn cmd payload params a) w (fun _ _ => True) (fun e _ => e.stage ≠ .handshake) := by
  have hattempt := attempt_stage hmacHex cmd payload params h
  have hexec := exec_tryOnce cfg hmacHex serve cmd payload params turn a w
  rcases hx : (attempt cfg hmacHex serve cmd payload params a).exec w with ⟨e | r, w1⟩
  · rw [hx] at hexec
    dsimp only at hexec
    have hrec : Ends (recover cfg turn cmd a e) w1 _ _ := recover_stage turn cmd a (hattempt.error hx) w1
    rcases hy : (recover cfg turn cmd a e).exec w1 with ⟨e' | o, w2⟩
    · rw [hy] at hexec
      exact (Prog.ends_iff_error hexec).2 (hrec.error hy)
    · rw [hy] at hexec
      exact (Prog.ends_iff_ok hexec).2 trivial
  · rw [hx] at hexec
    exact (Prog.ends_iff_ok hexec).2 trivial

/-- **A call whose `_connect`s end authenticated does not fail to authenticate.** -/
theorem call_not_authFails (c : CallInput φ) (w : World σ φ)
    (h : CallConnects cfg hmacHex serve (EndsLegacy cfg hmacHex serve) c w) :
    ¬AuthFails ((callOf serve cfg hmacHex c).exec w).1 := by
  have h1 := tryOnce_stage hmacHex 0 c.cmd c.payload c.params h.first
  have h2 := fun hn => tryOnce_stage hmacHex 1 c.cmd c.payload c.params (h.second hn)
  rw [afterFirst] at h2
  rintro ⟨message, hfail⟩
  rw [callOf, call, Prog.exec_bind] at hfail
  rcases hx1 : (tryOnce cfg hmacHex serve 0 c.cmd c.payload c.params c.script.first).exec w with ⟨e | o, w1⟩ <;>
    rw [hx1] at h2 hfail
  · cases hfail
    exact h1.error hx1 rfl
  · cases o with
    | some r => cases hfail
    | none =>
      dsimp only at h2 hfail
      rw [Prog.exec_bind] at hfail
      rcases hx2 : (tryOnce cfg hmacHex serve 1 c.cmd c.payload c.params c.script.second).exec w1 with ⟨e | o, w2⟩ <;>
        rw [hx2] at hfail
      · cases hfail
        exact (h2 rfl).error hx2 rfl
      · cases o <;> cases hfail

theorem runCalls_not_authFails : ∀ (l : List (CallInput φ)) (w : World σ φ),
    RunConnects cfg hmacHex serve (EndsLegacy cfg hmacHex serve) l w →
    ∀ r ∈ (runCalls serve cfg hmacHex l w).1, ¬AuthFails r
  | [], _, _, r, hr => nomatch hr
  | c :: l, w, h, r, hr => by
    rw [runCalls] at hr
    rcases List.mem_cons.1 hr with rfl | hr
    · exact call_not_authFails hmacHex c w h.1
    · exact runCalls_not_authFails l _ h.2 r hr

/-- **Against an agent before 0.2.0 that can be reached, every `_connect` of a run ends authenticated and no call fails to
authenticate exactly when every `_connect` is the first that gets through**: no run survives a reconnect. -/
theorem legacy_iff (ha : PreTokenAgent cfg serve) (l : List (CallInput φ))
    (hl : ∀ c ∈ l, Reachable c.script.first.connect ∧ Reachable c.script.second.connect) (st : σ) :
    (RunConnects cfg hmacHex serve (EndsLegacy cfg hmacHex serve) l (World.fresh st) ∧
      ∀ r ∈ (runCalls serve cfg hmacHex l (World.fresh st)).1, ¬AuthFails r) ↔
    RunConnects cfg hmacHex serve (fun _ => StartsFresh cfg) l (World.fresh st) := by
  have hcongr : RunConnects cfg hmacHex serve (EndsLegacy cfg hmacHex serve) l (World.fresh st) ↔
      RunConnects cfg hmacHex serve (fun _ => StartsFresh cfg) l (World.fresh st) :=
    runConnects_congr hmacHex l _ fun c hc w =>
      ⟨endsLegacy_iff hmacHex ha (hl c hc).1 w, endsLegacy_iff hmacHex ha (hl c hc).2 w⟩
  constructor
  · intro h
    exact hcongr.1 h.1
  · intro h
    exact ⟨hcongr.2 h, runCalls_not_authFails hmacHex l _ (hcongr.2 h)⟩

end

/-! ## An agent before 0.2.0 -/

/-- An agent that takes a hello with the token `k`, rejects every other, and answers the rest as its script says. -/
def oldAgent (f : ReplyFrame) (text _ : Bytes) (st : Unit) : ReplyFrame × Unit :=
  match Json.parse text with
  | some msg =>
    if (msg.get (str "cmd")).asString [] = str "hello" then
      (if (msg.get (str "token")).asString [] = str "k" then welcomeFrame else rejectedFrame, st)
    else (f, st)
  | none => (f, st)

theorem oldAgent_hello (f : ReplyFrame) (id : Nat) {msg : PyDict} (hd : Json.Distinct (.dict msg))
    (hf : Json.isFinite (.dict msg) = true) (hcmd : dictGet msg (py "cmd") = some (.str (py "hello"))) (st : Unit) :
    oldAgent f (requestText id msg []) [] st =
      (if (((dictGet msg (py "token")).map Json.ofPy).getD .null).asString [] = str "k" then welcomeFrame
        else rejectedFrame, st) := by
  obtain ⟨v, hv, hget⟩ := request_fields id [] hd hf
  have hello : (v.get (str "cmd")).asString [] = str "hello" := by
    rw [hget "cmd" (by decide) (by decide) (by decide), hcmd, Option.map_some, Option.getD_some,
      ← Json.agentStr_py "hello" (by decide)]
    rfl
  rw [oldAgent, hv]
  dsimp only
  rw [if_pos hello, hget "token" (by decide) (by decide) (by decide)]

theorem oldAgent_preToken : PreTokenAgent sampleConfig oldAgent where
  rejects f id st := by
    have htoken : dictGet helloMsg (py "token") = none := by decide +kernel
    have hempty : ((none : Option Json.Value).getD .null).asString [] ≠ str "k" := by decide
    refine ⟨[(py "error", .dict [(py "code", .str (py "auth")), (py "message", .str (py "no"))])], _, .str (py "no"), ?_, rfl,
      rfl, rfl⟩
    have hdist : Json.Distinct (.dict helloMsg) := ⟨by decide +kernel, trivial, trivial, trivial, trivial⟩
    rw [oldAgent_hello f id hdist rfl rfl st, htoken, Option.map_none, if_neg hempty]
    dsimp only
    decide +kernel
  accepts f id st := by
    have htoken : dictGet (legacyMsg sampleConfig.token) (py "token") = some (.str (py "k")) := by decide +kernel
    have hk : (((some (PyJson.str (py "k"))).map Json.ofPy).getD .null).asString [] = str "k" := by
      rw [← Json.agentStr_py "k" (by decide)]
      rfl
    refine ⟨[(py "ok", .bool true)], ?_, by decide +kernel, by decide +kernel⟩
    have hdist : Json.Distinct (.dict (legacyMsg sampleConfig.token)) :=
      ⟨by decide +kernel, trivial, trivial, trivial, trivial⟩
    rw [oldAgent_hello f id hdist rfl rfl st, htoken, if_pos hk]
    dsimp only
    decide +kernel

theorem undropped_clean (f : ReplyFrame) : Undropped (clean f) := ⟨rfl, rfl, rfl, rfl, rfl, rfl⟩

theorem reachable_cleanConnect : Reachable cleanConnect := ⟨rfl, undropped_clean _, rfl, rfl, undropped_clean _⟩

theorem legacy_iff_ps :
    (runCalls oldAgent sampleConfig noHash [cleanCall "ps" (clean answerFrame)] (World.fresh ())).1 =
      [.ok ([(py "n", .int 1)], [])] ∧
    RunConnects sampleConfig noHash oldAgent (EndsLegacy sampleConfig noHash oldAgent) [cleanCall "ps" (clean answerFrame)]
      (World.fresh ()) := by
  have hone : ((tryOnce sampleConfig noHash oldAgent 0 (py "ps") [] [] (cleanAttempt (clean answerFrame))).exec
      (World.fresh ())).1 = .ok (some ([(py "n", .int 1)], [])) := by decide +kernel
  have hlen : (requestText 2 (legacyMsg sampleConfig.token) []).length ≤ maxJson := by decide +kernel
  refine ⟨by decide +kernel, ((legacy_iff noHash oldAgent_preToken [cleanCall "ps" (clean answerFrame)] ?_ ()).2
    ⟨⟨fun _ => ⟨rfl, hlen⟩, fun hn => ?_⟩, trivial⟩).1⟩
  · intro c hc
    cases List.mem_singleton.1 hc
    exact ⟨reachable_cleanConnect, reachable_cleanConnect⟩
  · cases hone.symm.trans hn

/-- A call that finds its connection closed. -/
def afterDrop : CallInput ReplyFrame :=
  ⟨py "ps", [], [], ⟨true, cleanConnect, clean answerFrame, dropped⟩, cleanAttempt (clean answerFrame)⟩

/-- **One drop between two calls, and the client is locked out** of an agent that takes its token. -/
theorem reconnect_rejected :
    PreTokenAgent sampleConfig oldAgent ∧ Reachable cleanConnect ∧
    (runCalls oldAgent sampleConfig noHash [cleanCall "ps" (clean answerFrame), afterDrop] (World.fresh ())).1 =
      [.ok ([(py "n", .int 1)], []), .error ⟨clientError "auth" (py "no"), .handshake⟩] :=
  ⟨oldAgent_preToken, reachable_cleanConnect, by decide +kernel⟩

end Agent
end SwitchMcp

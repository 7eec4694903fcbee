import SwitchMcp.Retry
/-!
# Downgrade — when the token crosses the network (clients/agentd.py)

Against an agent that answers `auth: "hmac"` with a challenge the token need never be sent: it is the key of the HMAC that
answers the challenge (`OfChallenge`).  `_connect` sends it all the same when the challenge-response handshake breaks off before
the client has once authenticated: it takes a drop, a deadline or an error reply for an old agent (`Downgrades`).
`token_stays` is the run theorem.
-/
namespace SwitchMcp
namespace Agent

open PyJson (dictGet dictSet)
open Prog (Ends Moves)

section
variable {σ φ : Type} (cfg : ClientConfig) (hmacHex : Bytes → Bytes → PyStr)

/-- What the challenge-response handshake writes: its hello, and for a challenge the HMAC of which the token is the key. -/
inductive ChallengeMsg : Kind → PyDict → Prop
  | hello : ChallengeMsg .hello helloMsg
  | auth {key bytes : Bytes} {challenge : PyStr} (token : encode cfg.token = some key) (text : encode challenge = some bytes) :
    ChallengeMsg .auth (authMsg (hmacHex key bytes))

/-- A frame of the challenge-response handshake. -/
structure OfChallenge (e : Sent φ) : Prop where
  payload_nil : e.payload = []
  msg : ∃ id msg, e.msg = roundtripMsg id msg [] ∧ ChallengeMsg cfg hmacHex e.kind msg

/-- A frame of the challenge-response handshake, or a command's frame as its caller made it. -/
def Discreet (l : List (CallInput φ)) (e : Sent φ) : Prop :=
  OfChallenge cfg hmacHex e ∨ ∃ c ∈ l, IsCommand c.cmd c.payload c.params e

end

section
variable {σ φ : Type} (cfg : ClientConfig) (hmacHex : Bytes → Bytes → PyStr)
  (serve : φ → Bytes → Bytes → σ → ReplyFrame × σ)

/-- The agent answers a hello for challenge-response with a challenge or with an error. -/
def Challenges : Prop := ∀ (fault : φ) (id : Nat) (st : σ), ∃ d,
  PyJson.loads (serve fault (requestText id helloMsg []) [] st).1.text = some (.dict d) ∧
  (dictGet d (py "error") = none → getTruthy d "challenge" = true)

/-- A round of the handshake breaks off: by a drop, at the deadline or over an error reply. -/
def Breaks {α : Type} (p : Prog (World σ φ) Raised α) (w : World σ φ) : Prop :=
  ∃ e w', p.exec w = (.error e, w') ∧ e.exc.oldAgent = true

/-- One of the two rounds of the challenge-response handshake breaks off, from a connection that was just opened. -/
def ProbeBreaks (s : ConnectScript φ) (w : World σ φ) : Prop :=
  Breaks (roundtrip serve .hello false helloMsg [] s.probe) w ∨
  ∃ r w', (roundtrip serve .hello false helloMsg [] s.probe).exec w = (.ok r, w') ∧
    Breaks (authenticateHmac cfg hmacHex serve ((dictGet r.1 (py "challenge")).getD .null) s.auth) w'

/-- A `_connect` that takes the agent for an old one: the client has not authenticated before, the connection opens, a
round of the handshake breaks off, and the connection for the other handshake opens. -/
structure Downgrades (s : ConnectScript φ) (w : World σ φ) : Prop where
  first : w.authMethod = none
  opened : s.opened = .done
  breaks : ProbeBreaks cfg hmacHex serve s { w with conn := some ⟨[], false⟩ }
  reopened : s.again.opened = .done

/-- The frames added are of challenge-response handshakes. -/
def Quiet (w w' : World σ φ) : Prop := Extends serve (OfChallenge cfg hmacHex) w w'

theorem quiet_roundtrip {kind : Kind} {msg : PyDict} (hm : ChallengeMsg cfg hmacHex kind msg) (x : ExchangeScript φ) :
    Moves (Quiet cfg hmacHex serve) (roundtrip serve kind false msg [] x) :=
  roundtrip_extends serve fun id _ => ⟨rfl, id, msg, rfl, hm⟩

theorem macOf_ok {challenge : PyJson} {mac : PyStr} (h : macOf cfg hmacHex challenge = .ok mac) :
    ChallengeMsg cfg hmacHex .auth (authMsg mac) := by
  unfold macOf at h
  split at h
  · split at h
    · rename_i hkey hbytes
      cases h
      exact .auth hkey hbytes
    · cases h
  · cases h

theorem quiet_authenticateHmac (challenge : PyJson) (x : ExchangeScript φ) :
    Moves (Quiet cfg hmacHex serve) (authenticateHmac cfg hmacHex serve challenge x) := by
  unfold authenticateHmac
  split
  · exact fun w => (Prog.ends_throw _).2 (Extends.refl_of rfl rfl)
  · rename_i hmac
    refine Moves.bind (fun _ _ _ => Extends.trans) (quiet_roundtrip cfg hmacHex serve (macOf_ok cfg hmacHex hmac) _) fun r => ?_
    refine Moves.bind (fun _ _ _ => Extends.trans) (fun w => (Prog.ends_modify _).2 (Extends.refl_of rfl rfl)) fun _ => ?_
    exact fun w => (Prog.ends_pure _).2 (Extends.refl_of rfl rfl)

/-- **Against an agent that challenges, `_authenticate` sends no token**, and raises what an old agent is taken for only
when a round breaks off. -/
theorem clientAuthenticate_quiet (hs : Challenges serve) (s : ConnectScript φ) {w : World σ φ} {c : Conn}
    (hc : w.conn = some c) (hrx : c.rx = []) :
    Ends (clientAuthenticate cfg hmacHex serve s) w (fun _ w' => Quiet cfg hmacHex serve w w')
      (fun e w' => Quiet cfg hmacHex serve w w' ∧ (e.exc.oldAgent = true → ProbeBreaks cfg hmacHex serve s w)) := by
  have hq := quiet_roundtrip cfg hmacHex serve .hello s.probe w
  have hr := roundtrip_ends serve hc hrx .hello false helloMsg [] s.probe
  rw [clientAuthenticate, Prog.ends_bind]
  rcases hx : (roundtrip serve .hello false helloMsg [] s.probe).exec w with ⟨e | r, w1⟩
  · exact (Prog.ends_iff_error hx).2 ⟨hq.error hx, fun ho => Or.inl ⟨e, w1, hx, ho⟩⟩
  · obtain ⟨e, he⟩ := hr.ok hx
    have hch : getTruthy r.1 "challenge" = true := by
      obtain ⟨d, hd, hno⟩ := hs e.fault w1.id w.agent
      have htext : e.text = requestText w1.id helloMsg [] := by rw [Sent.text, he.wrote.of_msg]; rfl
      have hdec := he.replied.decodes
      rw [htext, he.wrote.of_payload, hd, Option.some.injEq, PyJson.dict.injEq] at hdec
      rw [← hdec]
      exact hno (by rw [hdec]; exact he.no_error)
    rw [Prog.ends_iff_ok hx, if_pos hch]
    have hq2 := quiet_authenticateHmac cfg hmacHex serve ((dictGet r.1 (py "challenge")).getD .null) s.auth w1
    exact ⟨fun h2 => (hq.ok hx).trans (hq2.ok h2),
      fun h2 => ⟨(hq.ok hx).trans (hq2.error h2), fun ho => Or.inr ⟨r, w1, hx, _, _, h2, ho⟩⟩⟩

/-- A fallback whose new connection does not open writes nothing. -/
theorem authenticateLegacy_quiet (s : LegacyScript φ) (h : s.opened ≠ .done) (w : World σ φ) :
    Ends (authenticateLegacy cfg serve s) w (fun _ w' => Quiet cfg hmacHex serve w w') (fun _ w' => Quiet cfg hmacHex serve w w') := by
  simp only [authenticateLegacy, Prog.ends_bind]
  refine (discardConnection_ends s.drop w).mono (fun _ w1 h1 => ?_) (fun e w1 h1 => by rw [h1.2]; exact Extends.refl_of rfl rfl)
  cases ho : s.opened with
  | done => exact absurd ho h
  | _ => exact (Prog.ends_iff_error rfl).2 (Extends.refl_of (by rw [h1]) (by rw [h1]))

theorem quiet_checkOk (reply : PyDict) (w : World σ φ) :
    Ends (checkOk reply) w (fun _ w' => w' = w) (fun _ w' => w' = w) := by
  unfold checkOk
  split
  · exact (Prog.ends_pure _).2 rfl
  · exact (Prog.ends_throw _).2 rfl

/-- **A `_connect` that does not downgrade sends no token.** -/
theorem connect_quiet (hs : Challenges serve) (s : ConnectScript φ) (w : World σ φ)
    (h : ¬Downgrades cfg hmacHex serve s w) :
    Ends (connect cfg hmacHex serve s) w (fun _ w' => Quiet cfg hmacHex serve w w') (fun _ w' => Quiet cfg hmacHex serve w w') := by
  simp only [connect, Prog.ends_bind, Prog.ends_tryCatch]
  cases ho : s.opened with
  | done =>
    have hx : (openConnection .done : Prog (World σ φ) Raised Unit).exec w
      = (.ok (), { w with conn := some ⟨[], false⟩ }) := rfl
    rw [Prog.ends_iff_ok hx]
    have hend : ∀ reply w2, Quiet cfg hmacHex serve { w with conn := some ⟨[], false⟩ } w2 → Ends (checkOk reply) w2
        (fun _ w' => Quiet cfg hmacHex serve w w') (fun _ w' => Quiet cfg hmacHex serve w w') := fun reply w2 h2 =>
      (quiet_checkOk reply w2).mono (fun _ w' h3 => by rw [h3]; exact h2) (fun _ w' h3 => by rw [h3]; exact h2)
    refine ((clientAuthenticate_quiet cfg hmacHex serve hs s (w := { w with conn := some ⟨[], false⟩ }) rfl rfl).and
      ((handshaking_authMethod cfg serve).clientAuthenticate_moves hmacHex s _)).mono (fun r w2 h2 => hend r w2 h2.1)
      (fun e w2 h2 => ?_)
    obtain ⟨⟨hquiet, hbreaks⟩, hauth⟩ := h2
    simp only [fallBack, Prog.ends_bind, Prog.ends_get]
    split
    · rename_i hold
      rw [Bool.and_eq_true, Option.isNone_iff_eq_none] at hold
      have hfirst : w.authMethod = none := by
        cases hm : w.authMethod with
        | none => rfl
        | some m =>
          have := hauth (by dsimp only; rw [hm]; rfl)
          rw [hold.2] at this
          cases this
      have hre : s.again.opened ≠ .done := fun hr => h ⟨hfirst, ho, hbreaks hold.1, hr⟩
      exact (authenticateLegacy_quiet cfg hmacHex serve s.again hre w2).mono (fun r w3 h3 => hend r w3 (hquiet.trans h3))
        (fun _ w3 h3 => hquiet.trans h3)
    · exact (Prog.ends_throw _).2 hquiet
  | _ => exact (Prog.ends_iff_error rfl).2 (Extends.refl_of rfl rfl)

/-! ## Calls and runs -/

/-- A turn that connects does not downgrade. -/
def TurnHolds (a : AttemptScript φ) (w : World σ φ) : Prop :=
  (w.conn.isNone || a.lost) = true → ¬Downgrades cfg hmacHex serve a.connect { w with sent := false }

/-- No turn that a call takes downgrades. -/
structure CallHolds (c : CallInput φ) (w : World σ φ) : Prop where
  first : TurnHolds cfg hmacHex serve c.script.first w
  second : ((tryOnce cfg hmacHex serve 0 c.cmd c.payload c.params c.script.first).exec w).1 = .ok none →
    TurnHolds cfg hmacHex serve c.script.second
    (afterFirst cfg hmacHex serve c.cmd c.payload c.params c.script.first w)

/-- No call of a run downgrades. -/
def RunHolds : List (CallInput φ) → World σ φ → Prop
  | [], _ => True
  | c :: l, w => CallHolds cfg hmacHex serve c w ∧ RunHolds l ((callOf serve cfg hmacHex c).exec w).2

/-- The frames added are of challenge-response handshakes or the call's own. -/
def QuietCall (c : CallInput φ) (w w' : World σ φ) : Prop :=
  Extends serve (fun e => OfChallenge cfg hmacHex e ∨ IsCommand c.cmd c.payload c.params e) w w'

theorem attempt_quiet (hs : Challenges serve) (c : CallInput φ) (a : AttemptScript φ) (w : World σ φ)
    (h : TurnHolds cfg hmacHex serve a w) :
    QuietCall cfg hmacHex serve c w ((attempt cfg hmacHex serve c.cmd c.payload c.params a).exec w).2 := by
  rw [exec_attempt]
  have hready : Ends (ready cfg hmacHex serve a) { w with sent := false } (fun _ w' => Quiet cfg hmacHex serve w w')
      (fun _ w' => Quiet cfg hmacHex serve w w') := by
    simp only [ready, Prog.ends_bind, Prog.ends_get]
    split
    · rename_i hc
      exact connect_quiet cfg hmacHex serve hs a.connect _ (h hc)
    · exact (Prog.ends_pure _).2 (Extends.refl_of rfl rfl)
  rcases hx : (ready cfg hmacHex serve a).exec { w with sent := false } with ⟨e | ⟨⟩, w1⟩
  · exact (hready.error hx).mono fun e => Or.inl
  · refine ((hready.ok hx).mono fun e => Or.inl).trans ?_
    exact Moves.state (roundtrip_extends serve fun id _ => Or.inr ⟨rfl, rfl, id, rfl⟩) w1

theorem tryOnce_quiet (hs : Challenges serve) (c : CallInput φ) (turn : Nat) (a : AttemptScript φ) (w : World σ φ)
    (h : TurnHolds cfg hmacHex serve a w) :
    QuietCall cfg hmacHex serve c w ((tryOnce cfg hmacHex serve turn c.cmd c.payload c.params a).exec w).2 := by
  have hq := attempt_quiet cfg hmacHex serve hs c a w h
  rw [exec_tryOnce]
  rcases hx : (attempt cfg hmacHex serve c.cmd c.payload c.params a).exec w with ⟨e | r, w'⟩ <;> rw [hx] at hq
  · obtain ⟨hl, ha⟩ := recover_keeps cfg c.cmd turn a e w'
    exact hq.trans (Extends.refl_of hl ha)
  · exact hq

theorem call_quiet (hs : Challenges serve) (c : CallInput φ) (w : World σ φ) (h : CallHolds cfg hmacHex serve c w) :
    QuietCall cfg hmacHex serve c w ((callOf serve cfg hmacHex c).exec w).2 := by
  have hq1 := tryOnce_quiet cfg hmacHex serve hs c 0 c.script.first w h.first
  have hq2 := fun hn => tryOnce_quiet cfg hmacHex serve hs c 1 c.script.second _ (h.second hn)
  rw [afterFirst] at hq2
  rw [callOf, call, Prog.exec_bind]
  rcases hx1 : (tryOnce cfg hmacHex serve 0 c.cmd c.payload c.params c.script.first).exec w with ⟨e | o, w1⟩ <;>
    rw [hx1] at hq1 hq2
  · exact hq1
  · cases o with
    | some r => exact hq1
    | none =>
      replace hq2 := hq2 rfl
      dsimp only at hq2 ⊢
      rw [Prog.exec_bind]
      rcases hx2 : (tryOnce cfg hmacHex serve 1 c.cmd c.payload c.params c.script.second).exec w1 with ⟨e | o, w2⟩ <;>
        rw [hx2] at hq2
      · exact hq1.trans hq2
      · cases o <;> exact hq1.trans hq2

theorem runCalls_discreet (hs : Challenges serve) (all : List (CallInput φ)) : ∀ (l : List (CallInput φ)) (w : World σ φ),
    (∀ c ∈ l, c ∈ all) → RunHolds cfg hmacHex serve l w → (∀ e ∈ w.log, Discreet cfg hmacHex all e) →
    ∀ e ∈ (runCalls serve cfg hmacHex l w).2.log, Discreet cfg hmacHex all e
  | [], _, _, _, hw => hw
  | c :: l, w, hall, hl, hw => by
    rw [runCalls]
    refine runCalls_discreet hs all l _ (fun c hc => hall c (List.mem_cons_of_mem _ hc)) hl.2 fun e he => ?_
    obtain ⟨new, hlog, -, hnew⟩ := call_quiet cfg hmacHex serve hs c w hl.1
    rw [hlog, List.mem_append] at he
    rcases he with he | he
    · exact hw e he
    · rcases hnew e he with hq | hq
      · exact Or.inl hq
      · exact Or.inr ⟨c, hall c List.mem_cons_self, hq⟩

/-- **Against an agent that challenges, in every run of calls that never downgrades, no frame the client writes shows the
token**: besides the callers' commands there are only hellos without it and the HMACs of which it is the key. -/
theorem token_stays (hs : Challenges serve) (st : σ) (l : List (CallInput φ))
    (hl : RunHolds cfg hmacHex serve l (World.fresh st)) :
    ∀ e ∈ (runCalls serve cfg hmacHex l (World.fresh st)).2.log, Discreet cfg hmacHex l e :=
  runCalls_discreet cfg hmacHex serve hs l l _ (fun _ h => h) hl (by simp [World.fresh])

end

/-! ## An agent that challenges -/

def asksChallenge (text : Bytes) : Bool :=
  match Json.parse text with
  | some msg => decide ((msg.get (str "cmd")).asString [] = str "hello" ∧ (msg.get (str "auth")).asString [] = str "hmac")
  | none => false

/-- An agent that answers a hello for challenge-response with a challenge, and every other frame as its script says. -/
def challenger (f : ReplyFrame) (text _ : Bytes) (st : Unit) : ReplyFrame × Unit :=
  (if asksChallenge text then challengeFrame else f, st)

theorem asksChallenge_hello (id : Nat) : asksChallenge (requestText id helloMsg []) = true := by
  have hmsg : roundtripMsg id helloMsg [] = helloMsg ++ [(py "id", .int id)] := rfl
  have hfin : Json.isFinite (.dict (roundtripMsg id helloMsg [])) = true := rfl
  have hkeys : (helloMsg.map Prod.fst ++ [py "id"]).Nodup := by decide +kernel
  have hdist : ((roundtripMsg id helloMsg []).map Prod.fst).Nodup := by
    rw [hmsg, List.map_append]
    exact hkeys
  have hcmd : (Json.ofPy (.dict (roundtripMsg id helloMsg []))).get (str "cmd") = .string (str "hello") := by
    rw [← Json.agentStr_py "cmd" (by decide), Json.get_ofPy _ _ hdist (Json.isAscii_py "cmd" (by decide)),
      ← Json.agentStr_py "hello" (by decide)]
    rfl
  have hauth : (Json.ofPy (.dict (roundtripMsg id helloMsg []))).get (str "auth") = .string (str "hmac") := by
    rw [← Json.agentStr_py "auth" (by decide), Json.get_ofPy _ _ hdist (Json.isAscii_py "auth" (by decide)),
      ← Json.agentStr_py "hmac" (by decide)]
    rfl
  rw [asksChallenge, requestText, Json.parse_dumps _ hfin]
  simp [hcmd, hauth, Json.Value.asString]

theorem challenger_challenges : Challenges challenger := fun f id st => by
  refine ⟨[(py "challenge", .str (py "00"))], ?_, fun _ => by decide +kernel⟩
  have h : PyJson.loads challengeFrame.text = some (.dict [(py "challenge", .str (py "00"))]) := by decide +kernel
  rw [challenger, if_pos (asksChallenge_hello id)]
  exact h

theorem token_stays_ps :
    (runCalls challenger sampleConfig noHash [cleanCall "ps" (clean answerFrame)] (World.fresh ())).1 =
      [.ok ([(py "n", .int 1)], [])] ∧
    ∀ e ∈ (runCalls challenger sampleConfig noHash [cleanCall "ps" (clean answerFrame)] (World.fresh ())).2.log,
      Discreet sampleConfig noHash [cleanCall "ps" (clean answerFrame)] e := by
  have h1 : ((roundtrip challenger .hello false helloMsg [] cleanConnect.probe).exec
      ({ (World.fresh () : World Unit ReplyFrame) with sent := false, conn := some ⟨[], false⟩ })).1
      = .ok ([(py "challenge", .str (py "00"))], []) := by decide +kernel
  have h2 : ((authenticateHmac sampleConfig noHash challenger (.str (py "00")) cleanConnect.auth).exec
      ((roundtrip challenger .hello false helloMsg [] cleanConnect.probe).exec
        ({ (World.fresh () : World Unit ReplyFrame) with sent := false, conn := some ⟨[], false⟩ })).2).1
      = .ok [(py "ok", .bool true)] := by decide +kernel
  have h3 : ((tryOnce sampleConfig noHash challenger 0 (py "ps") [] [] (cleanAttempt (clean answerFrame))).exec
      (World.fresh ())).1 = .ok (some ([(py "n", .int 1)], [])) := by decide +kernel
  refine ⟨by decide +kernel, token_stays sampleConfig noHash challenger challenger_challenges ()
    [cleanCall "ps" (clean answerFrame)] ⟨⟨fun _ hd => ?_, fun hn => ?_⟩, trivial⟩⟩
  · rcases hd.breaks with ⟨e, w', hx, -⟩ | ⟨r, w', hx, e, w2, hx2, -⟩
    · have := h1.symm.trans (congrArg Prod.fst hx)
      cases this
    · have hr := h1.symm.trans (congrArg Prod.fst hx)
      cases hr
      have hw : w' = _ := (congrArg Prod.snd hx).symm
      rw [hw] at hx2
      have := h2.symm.trans (congrArg Prod.fst hx2)
      cases this
  · have := h3.symm.trans hn
    cases this

/-- A first connect whose probe runs into the deadline. -/
def slowProbe : CallInput ReplyFrame :=
  let c : ConnectScript ReplyFrame := { cleanConnect with probe := { clean challengeFrame with head := .timeout } }
  ⟨py "ps", [], [], ⟨false, c, clean answerFrame, dropped⟩, cleanAttempt (clean answerFrame)⟩

/-- **One slow answer to the first hello, and the token crosses the network** to an agent that challenges. -/
theorem token_crosses :
    Challenges challenger ∧
    (runCalls challenger sampleConfig noHash [slowProbe] (World.fresh ())).1 = [.ok ([(py "n", .int 1)], [])] ∧
    (runCalls challenger sampleConfig noHash [slowProbe] (World.fresh ())).2.log.map
      (fun e => dictGet e.msg (py "token")) = [none, some (.str sampleConfig.token), none] := by
  refine ⟨challenger_challenges, by decide +kernel, by decide +kernel⟩

end Agent
end SwitchMcp

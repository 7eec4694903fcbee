import SwitchMcp.History
/-!
# Sync — the connection a call leaves behind (clients/agentd.py, agent/source/server.cpp)

The client never compares a reply's `id` with its request's: a reply is taken for the answer because nothing else is
unread.  Here is what an exchange and a `_connect` do on a connection where that is so (`roundtrip_ends`, `connect_ends`), and
what it means that a call was answered (`Answered`).  `call_admitted` says when a call leaves a connection that the agent let
the client in on: unless a handshake was ended by the agent's answers.
-/
namespace SwitchMcp
namespace Agent

open PyJson (dictGet)
open Prog (Ends Moves)

/-! ## Reading a reply -/

/-- What a link gives out instead of a reply. -/
def Exc.link : Exc → Bool
  | .transport _ | .timeout | .cancelled | .value => true
  | _ => false

theorem Await.link (a : Await) : a.exc.link = true := by cases a <;> rfl

theorem link_of_transient {e : Exc} (h : e.transient = true) : e.link = true := by cases e <;> first | rfl | cases h

theorem readexactly_cases (a : Await) (n : Nat) (rx : Bytes) :
    (∃ b rx', readexactly a n rx = (.ok b, rx') ∧ takeExact n rx = some (b, rx')) ∨
    (∃ e, readexactly a n rx = (.error e, rx) ∧ e.link = true) := by
  unfold readexactly
  cases a with
  | done =>
    cases h : takeExact n rx with
    | none => exact Or.inr ⟨.timeout, rfl, rfl⟩
    | some p => exact Or.inl ⟨p.1, p.2, rfl, rfl⟩
  | transport cls => exact Or.inr ⟨_, rfl, rfl⟩
  | timeout => exact Or.inr ⟨_, rfl, rfl⟩
  | cancelled => exact Or.inr ⟨_, rfl, rfl⟩

section
variable {φ : Type}

/-- **However its awaits end, the reading half of `exchange()` reads what the codec reads, or a link failed.** -/
theorem readAnswer_cases (x : ExchangeScript φ) (rx : Bytes) :
    (∃ d b, (readAnswer x rx).1 = .ok (d, b) ∧ readReply rx = (.reply d b, (readAnswer x rx).2)) ∨
    (∃ e, (readAnswer x rx).1 = .error e ∧ (e.link = true ∨ (readReply rx).1 = .malformed)) := by
  unfold readAnswer readReply
  rcases readexactly_cases x.head 4 rx with ⟨jlen, rx1, h, ht⟩ | ⟨e, h, he⟩
  swap; · rw [h]; exact Or.inr ⟨e, rfl, Or.inl he⟩
  rw [h, ht]
  dsimp only
  rcases readexactly_cases x.body (leNat jlen) rx1 with ⟨text, rx2, h, ht⟩ | ⟨e, h, he⟩
  swap; · rw [h]; exact Or.inr ⟨e, rfl, Or.inl he⟩
  rw [h, ht]
  dsimp only
  rcases PyJson.loads text with _ | v
  · exact Or.inr ⟨.value, rfl, Or.inl rfl⟩
  cases v with
  | dict reply =>
    dsimp only
    split
    · rcases readexactly_cases x.binHead 8 rx2 with ⟨blen, rx3, h, ht⟩ | ⟨e, h, he⟩
      swap; · rw [h]; exact Or.inr ⟨e, rfl, Or.inl he⟩
      rw [h, ht]
      dsimp only
      rcases readexactly_cases x.binBody (leNat blen) rx3 with ⟨blob, rx4, h, ht⟩ | ⟨e, h, he⟩
      swap; · rw [h]; exact Or.inr ⟨e, rfl, Or.inl he⟩
      rw [h, ht]
      exact Or.inl ⟨reply, blob, rfl, rfl⟩
    · exact Or.inl ⟨reply, [], rfl, rfl⟩
  | _ => exact Or.inr ⟨.shape, rfl, Or.inr rfl⟩

end

/-- **Off one frame, the codec reads what it says and leaves nothing.** -/
theorem readReply_frame (f : ReplyFrame) :
    (∀ d b rx, readReply f.bytes = (.reply d b, rx) → PyJson.loads f.text = some (.dict d) ∧ b = f.blob ∧ rx = []) ∧
    (readReply f.bytes).1 ≠ .malformed := by
  have h4 : leNat (leBytes 4 f.text.length) = f.text.length := leNat_leBytes 4 _ (by have := f.text_lt; omega)
  have h8 : leNat (leBytes 8 f.blob.length) = f.blob.length := leNat_leBytes 8 _ (by have := f.blob_lt; omega)
  unfold ReplyFrame.bytes frameBytes
  simp only [readReply, takeExact_append_of_length _ _ (length_leBytes 4 _), h4, takeExact_append]
  cases hv : PyJson.loads f.text with
  | none => exact ⟨fun d b rx h => by simp at h, by simp⟩
  | some v =>
    obtain ⟨d, rfl, hb⟩ := f.object v hv
    simp only [hb]
    by_cases hbl : f.blob = []
    · simp only [hbl, ne_eq, not_true_eq_false, decide_false, Bool.false_eq_true, if_false, if_true]
      exact ⟨fun d' b rx h => by cases h; exact ⟨rfl, rfl, rfl⟩, by simp⟩
    · have ht := takeExact_append f.blob []
      rw [List.append_nil] at ht
      simp only [hbl, ne_eq, not_false_eq_true, decide_true, if_true, if_false,
        takeExact_append_of_length _ _ (length_leBytes 8 _), h8, ht]
      exact ⟨fun d' b rx h => by cases h; exact ⟨rfl, rfl, rfl⟩, by simp⟩

theorem readReply_nil : readReply [] = (.incomplete, []) := rfl

/-! ## One exchange -/

section
variable {σ φ : Type} (serve : φ → Bytes → Bytes → σ → ReplyFrame × σ)

/-- A frame that reached the agent in state `st`, and the reply the client read to its end. -/
structure Replied (e : Sent φ) (st : σ) (r : PyDict × Bytes) : Prop where
  delivered : e.delivered = true
  answered : e.answered = true
  decodes : PyJson.loads (serve e.fault e.text e.payload st).1.text = some (.dict r.1)
  blob : r.2 = (serve e.fault e.text e.payload st).1.blob

/-- **On a connection with nothing unread, an exchange that returns read the reply to its own frame, to its end; one that
raises, raises what a link does.** -/
theorem exchange_cases (x : ExchangeScript φ) (kind : Kind) (text payload : Bytes) (c : Conn) (st : σ) (hrx : c.rx = []) :
    (∃ d b, (exchange serve x kind text payload c st).result = .ok (d, b) ∧ x.delivered = true ∧
      PyJson.loads (serve x.fault text payload st).1.text = some (.dict d) ∧ b = (serve x.fault text payload st).1.blob ∧
      (exchange serve x kind text payload c st).conn =
        ⟨[], c.admitted || (decide (kind = .auth ∨ kind = .legacy) && (serve x.fault text payload st).1.admits)⟩) ∨
    (∃ e, (exchange serve x kind text payload c st).result = .error e ∧ e.link = true) := by
  unfold exchange
  by_cases hd : x.delivered = true
  · rw [if_pos hd]
    cases x.drain with
    | done =>
      dsimp only [deliver]
      rw [hrx, List.nil_append]
      obtain ⟨hf, hm⟩ := readReply_frame (serve x.fault text payload st).1
      rcases readAnswer_cases x (serve x.fault text payload st).1.bytes with ⟨d, b, h, hr⟩ | ⟨e, h, he⟩
      · obtain ⟨h1, h2, h3⟩ := hf d b _ hr
        exact Or.inl ⟨d, b, h, hd, h1, h2, by rw [h3]⟩
      · exact Or.inr ⟨e, h, he.resolve_right hm⟩
    | transport cls => exact Or.inr ⟨_, rfl, rfl⟩
    | timeout => exact Or.inr ⟨_, rfl, rfl⟩
    | cancelled => exact Or.inr ⟨_, rfl, rfl⟩
  · rw [if_neg hd]
    cases x.drain with
    | done =>
      dsimp only
      rw [hrx]
      rcases readAnswer_cases x [] with ⟨d, b, h, hr⟩ | ⟨e, h, he⟩
      · rw [readReply_nil] at hr
        cases hr
      · exact Or.inr ⟨e, h, he.resolve_right (by rw [readReply_nil]; simp)⟩
    | transport cls => exact Or.inr ⟨_, rfl, rfl⟩
    | timeout => exact Or.inr ⟨_, rfl, rfl⟩
    | cancelled => exact Or.inr ⟨_, rfl, rfl⟩

theorem checkError_cases (reply : PyDict) : (checkError reply = .ok () ∧ dictGet reply (py "error") = none) ∨
    (∃ e, checkError reply = .error e ∧ e.link = false) := by
  unfold checkError
  split
  · rename_i h; exact Or.inl ⟨rfl, h⟩
  · split
    · exact Or.inr ⟨_, rfl, rfl⟩
    · exact Or.inr ⟨_, rfl, rfl⟩
  · exact Or.inr ⟨_, rfl, rfl⟩

/-- A roundtrip wrote one frame. -/
structure Wrote (kind : Kind) (msg : PyDict) (payload : Bytes) (w w' : World σ φ) (e : Sent φ) : Prop where
  log : w'.log = w.log ++ [e]
  agent : w'.agent = agentStep serve w.agent e
  of_kind : e.kind = kind
  of_msg : e.msg = roundtripMsg w'.id msg payload
  of_payload : e.payload = payload

/-- What a roundtrip that returns did: one frame, answered. -/
structure Asked (kind : Kind) (msg : PyDict) (payload : Bytes) (c : Conn) (w w' : World σ φ) (r : PyDict × Bytes)
    (e : Sent φ) : Prop where
  wrote : Wrote serve kind msg payload w w' e
  replied : Replied serve e w.agent r
  no_error : dictGet r.1 (py "error") = none
  conn : ∃ c', w'.conn = some c' ∧ c'.rx = [] ∧ (c.admitted = true → c'.admitted = true) ∧
    ((kind = .auth ∨ kind = .legacy) → getTruthy r.1 "ok" = true → c'.admitted = true)

/-- What a roundtrip that raises left: something that a link does, and then a frame without an answer; or an error, and then
nothing unread and no frame written, or one that an error reply answered. -/
structure Failed (kind : Kind) (msg : PyDict) (payload : Bytes) (c : Conn) (w w' : World σ φ) (e : Raised) : Prop where
  stage : e.stage = kind.stage
  link : e.exc.link = true → ∃ f, Wrote serve kind msg payload w w' f ∧ f.answered = false
  other : e.exc.link = false → ∃ c', w'.conn = some c' ∧ c'.rx = [] ∧ (c.admitted = true → c'.admitted = true)
  refused : e.exc.link = false → (w'.log = w.log ∧ w'.agent = w.agent) ∨
    ∃ r f, Wrote serve kind msg payload w w' f ∧ Replied serve f w.agent r ∧ dictGet r.1 (py "error") ≠ none

/-- **A roundtrip on a connection with nothing unread.** -/
theorem roundtrip_ends {w : World σ φ} {c : Conn} (hc : w.conn = some c) (hrx : c.rx = []) (kind : Kind) (flag : Bool)
    (msg : PyDict) (payload : Bytes) (x : ExchangeScript φ) :
    Ends (roundtrip serve kind flag msg payload x) w
      (fun r w' => ∃ e, Asked serve kind msg payload c w w' r e)
      (fun e w' => Failed serve kind msg payload c w w' e) := by
  have hx := @exec_roundtrip _ _ serve _ kind flag msg payload x _ hc
  by_cases hlen : maxJson < (requestText (w.id + 1) msg payload).length
  · rw [if_pos hlen] at hx
    exact (Prog.ends_iff_error hx).2 ⟨rfl, nofun, fun _ => ⟨c, hc, hrx, id⟩, fun _ => Or.inl ⟨rfl, rfl⟩⟩
  rw [if_neg hlen] at hx
  have hagent := exchange_agent serve x kind (requestText (w.id + 1) msg payload) payload c w.agent
  rcases exchange_cases serve x kind (requestText (w.id + 1) msg payload) payload c w.agent hrx with
    ⟨d, b, hr, hd, hl, hb, hconn⟩ | ⟨e, hr, he⟩
  · rcases checkError_cases d with ⟨hok, hnone⟩ | ⟨e, herr, he⟩
    · simp only [hr, roundtripResult, hok] at hx
      refine (Prog.ends_iff_ok hx).2 ⟨_, ⟨rfl, hagent, rfl, rfl, rfl⟩, ⟨hd, by rw [hr]; rfl, hl, hb⟩, hnone, _, rfl,
        by rw [hconn], ?_, ?_⟩
      · intro ha
        rw [hconn, ha, Bool.true_or]
      · intro hk hok
        rw [hconn, decide_eq_true hk, Bool.true_and, Bool.or_eq_true]
        exact Or.inr (by simp [ReplyFrame.admits, hl, hnone, hok])
    · simp only [hr, roundtripResult, herr] at hx
      refine (Prog.ends_iff_error hx).2 ⟨rfl, fun h => ?_, fun _ => ⟨_, rfl, by rw [hconn], fun ha => ?_⟩, fun _ => Or.inr
        ⟨(d, b), _, ⟨rfl, hagent, rfl, rfl, rfl⟩, ⟨hd, by rw [hr]; rfl, hl, hb⟩, fun hnone => ?_⟩⟩
      · rw [he] at h
        cases h
      · rw [hconn, ha, Bool.true_or]
      · rw [checkError, hnone] at herr
        cases herr
  · simp only [hr, roundtripResult] at hx
    have hne : e.link ≠ false := by rw [he]; simp
    exact (Prog.ends_iff_error hx).2 ⟨rfl, fun _ => ⟨_, ⟨rfl, hagent, rfl, rfl, rfl⟩, by rw [hr]; rfl⟩,
      fun h => absurd h hne, fun h => absurd h hne⟩

/-! ## Handshakes -/

variable (cfg : ClientConfig) (hmacHex : Bytes → Bytes → PyStr)

/-- A connection with nothing unread, on which the client was let in when the reply says `ok`. -/
def Greeted (reply : PyDict) (w : World σ φ) : Prop :=
  ∃ c, w.conn = some c ∧ c.rx = [] ∧ (getTruthy reply "ok" = true → c.admitted = true)

/-- How a handshake raises: in an exchange or over its reply, or without a connection. -/
def Rebuffed (e : Raised) (w : World σ φ) : Prop :=
  e.stage = .handshake ∨ ((e.stage = .opening ∨ e.stage = .dropping) ∧ w.conn = none)

theorem openConnection_ends (a : Await) (w : World σ φ) :
    Ends (openConnection a) w (fun _ w' => w'.conn = some ⟨[], false⟩) (fun e w' => e.stage = .opening ∧ w' = w) := by
  cases a with
  | done => exact ⟨fun h => by cases h; rfl, fun h => nomatch h⟩
  | _ => exact ⟨fun h => (nomatch h), fun h => by cases h; exact ⟨rfl, rfl⟩⟩

theorem discardConnection_ends (d : DropScript) (w : World σ φ) :
    Ends (discardConnection d) w (fun _ w' => w' = { w with conn := none })
      (fun e w' => e = ⟨.cancelled, .dropping⟩ ∧ w' = { w with conn := none }) := by
  obtain ⟨closing, wait⟩ := d
  have hx : ((discardConnection ⟨closing, wait⟩).exec w = (.error ⟨.cancelled, .dropping⟩, { w with conn := none })) ∨
      ((discardConnection ⟨closing, wait⟩).exec w = (.ok (), { w with conn := none })) := by
    rw [discardConnection, Prog.exec_of]
    cases w.conn <;> cases closing <;> cases wait <;> simp
  rcases hx with hx | hx
  · exact (Prog.ends_iff_error hx).2 ⟨rfl, rfl⟩
  · exact (Prog.ends_iff_ok hx).2 rfl

theorem authenticateLegacy_ends (s : LegacyScript φ) (w : World σ φ) :
    Ends (authenticateLegacy cfg serve s) w Greeted Rebuffed := by
  simp only [authenticateLegacy, Prog.ends_bind, Prog.ends_modify, Prog.ends_pure]
  refine (discardConnection_ends s.drop w).mono (fun _ w1 h1 => ?_) (fun e w1 h1 => ?_)
  · refine (openConnection_ends s.opened w1).mono (fun _ w2 h2 => ?_) (fun e w2 h2 => ?_)
    · refine (roundtrip_ends serve h2 rfl .legacy false _ [] s.hello).mono (fun r w3 h3 => ?_) (fun e w3 h3 => ?_)
      · obtain ⟨e, he⟩ := h3
        obtain ⟨c, hc, hrx, -, hok⟩ := he.conn
        exact ⟨c, hc, hrx, hok (Or.inr rfl)⟩
      · exact Or.inl h3.stage
    · rw [h1] at h2
      exact Or.inr ⟨Or.inl h2.1, by rw [h2.2]⟩
  · rw [h1.1]
    exact Or.inr ⟨Or.inr rfl, by rw [h1.2]⟩

theorem authenticateHmac_ends (challenge : PyJson) (x : ExchangeScript φ) {w : World σ φ} {c : Conn}
    (hc : w.conn = some c) (hrx : c.rx = []) :
    Ends (authenticateHmac cfg hmacHex serve challenge x) w Greeted Rebuffed := by
  unfold authenticateHmac
  split
  · exact (Prog.ends_throw _).2 (Or.inl rfl)
  · simp only [Prog.ends_bind, Prog.ends_modify, Prog.ends_pure]
    refine (roundtrip_ends serve hc hrx .auth false _ [] x).mono (fun r w1 h1 => ?_) (fun e w1 h1 => Or.inl h1.stage)
    obtain ⟨e, he⟩ := h1
    obtain ⟨c, hc, hrx, -, hok⟩ := he.conn
    exact ⟨c, hc, hrx, hok (Or.inl rfl)⟩

theorem clientAuthenticate_ends (s : ConnectScript φ) {w : World σ φ} {c : Conn} (hc : w.conn = some c) (hrx : c.rx = []) :
    Ends (clientAuthenticate cfg hmacHex serve s) w Greeted Rebuffed := by
  unfold clientAuthenticate
  rw [Prog.ends_bind]
  refine (roundtrip_ends serve hc hrx .hello false _ [] s.probe).mono (fun r w1 h1 => ?_) (fun e w1 h1 => Or.inl h1.stage)
  obtain ⟨e, he⟩ := h1
  obtain ⟨c1, hc1, hrx1, -⟩ := he.conn
  split
  · exact authenticateHmac_ends serve cfg hmacHex _ _ hc1 hrx1
  · exact authenticateLegacy_ends serve cfg _ _

/-- **A `_connect` that returns leaves a connection the agent let the client in on, with nothing unread.** -/
theorem connect_ends (s : ConnectScript φ) (w : World σ φ) :
    Ends (connect cfg hmacHex serve s) w (fun _ w' => w'.conn = some ⟨[], true⟩)
      (fun e w' => Rebuffed e w' ∨ (e.stage = .opening ∧ w' = w)) := by
  simp only [connect, Prog.ends_bind, Prog.ends_tryCatch]
  refine (openConnection_ends s.opened w).mono (fun _ w1 h1 => ?_) (fun e w1 h1 => Or.inr h1)
  have hgreet : ∀ reply (w2 : World σ φ), Greeted reply w2 → Ends (checkOk reply) w2
      (fun _ w' => w'.conn = some ⟨[], true⟩) (fun e w' => Rebuffed e w' ∨ (e.stage = .opening ∧ w' = w)) := by
    rintro reply w2 ⟨c, hc, hrx, hok⟩
    unfold checkOk
    split
    · rename_i h
      rw [Prog.ends_pure, hc]
      obtain ⟨rx, admitted⟩ := c
      cases hrx
      have ha : admitted = true := hok h
      rw [ha]
    · exact (Prog.ends_throw _).2 (Or.inl (Or.inl rfl))
  refine (clientAuthenticate_ends serve cfg hmacHex s h1 rfl).mono hgreet (fun e w2 h2 => ?_)
  simp only [fallBack, Prog.ends_bind, Prog.ends_get]
  split
  · exact (authenticateLegacy_ends serve cfg s.again w2).mono hgreet (fun e w3 h3 => Or.inl h3)
  · exact (Prog.ends_throw _).2 (Or.inl h2)

/-! ## Calls -/

/-- The client keeps no connection that the agent did not let it in on. -/
def Admitted (w : World σ φ) : Prop := ∀ c, w.conn = some c → c.admitted = true

/-- How a call may end and leave the client let in: not in a handshake that the agent's answers ended. -/
def Welcomed (e : Raised) : Prop := e.exc.transient = true ∨ e.stage ≠ .handshake

theorem admitted_of_none {w : World σ φ} (h : w.conn = none) : Admitted w := fun c hc => by rw [h] at hc; cases hc

theorem admitted_of_some {w : World σ φ} {c : Conn} (h : w.conn = some c) (hc : c.admitted = true) : Admitted w :=
  fun c' hc' => by
    rw [h] at hc'
    cases hc'
    exact hc

theorem exchange_admitted (x : ExchangeScript φ) (kind : Kind) (text payload : Bytes) {c : Conn} (st : σ)
    (hc : c.admitted = true) : (exchange serve x kind text payload c st).conn.admitted = true := by
  unfold exchange deliver
  cases x.delivered <;> cases x.drain <;> simp [hc]

/-- **A roundtrip shuts nobody out**, whatever is unread. -/
theorem roundtrip_admitted (kind : Kind) (flag : Bool) (msg : PyDict) (payload : Bytes) (x : ExchangeScript φ) {w : World σ φ}
    (hw : Admitted w) :
    Ends (roundtrip serve kind flag msg payload x) w (fun _ w' => Admitted w') (fun _ w' => Admitted w') := by
  have hmoves : Moves (fun w w' => Admitted w → Admitted w') (roundtrip serve kind flag msg payload x) := Moves.of fun w => by
    split
    · exact id
    · rename_i c hc
      dsimp only
      split
      · exact id
      · exact fun hw => admitted_of_some rfl (exchange_admitted serve x _ _ _ _ (hw c hc))
  exact (hmoves w).mono (fun _ _ h => h hw) (fun _ _ h => h hw)

theorem ready_admitted (a : AttemptScript φ) {w : World σ φ} (hw : Admitted w) :
    Ends (ready cfg hmacHex serve a) w (fun _ w' => Admitted w') (fun e w' => e.stage = .handshake ∨ Admitted w') := by
  simp only [ready, Prog.ends_bind, Prog.ends_get]
  split
  · refine (connect_ends serve cfg hmacHex a.connect w).mono (fun _ _ h => admitted_of_some h rfl) (fun e w1 h1 => ?_)
    rcases h1 with (h1 | ⟨-, hn⟩) | ⟨-, rfl⟩
    · exact Or.inl h1
    · exact Or.inr (admitted_of_none hn)
    · exact Or.inr hw
  · exact (Prog.ends_pure _).2 hw

theorem tryOnce_admitted (turn : Nat) (cmd : PyStr) (payload : Bytes) (params : PyDict) (a : AttemptScript φ) {w : World σ φ}
    (hw : Admitted w) :
    Ends (tryOnce cfg hmacHex serve turn cmd payload params a) w (fun _ w' => Admitted w')
      (fun e w' => Welcomed e → Admitted w') := by
  have hattempt : Ends (attempt cfg hmacHex serve cmd payload params a) w (fun _ w' => Admitted w')
      (fun e w' => e.stage = .handshake ∨ Admitted w') := by
    simp only [attempt, Prog.ends_bind, Prog.ends_modify]
    have hin : Admitted { w with sent := false } := hw
    refine (ready_admitted serve cfg hmacHex a hin).mono (fun _ w1 h1 => ?_) (fun _ _ h => h)
    exact (roundtrip_admitted serve .command true _ payload a.exchange h1).mono (fun _ _ h => h) (fun _ _ h => Or.inr h)
  simp only [tryOnce, Prog.ends_tryCatch, map_eq_pure_bind, Prog.ends_bind, Prog.ends_pure]
  refine hattempt.mono (fun _ _ h => h) (fun e w1 h1 => ?_)
  unfold recover
  split
  · simp only [Prog.ends_bind, Prog.ends_get]
    refine (discardConnection_ends a.drop w1).mono (fun _ w2 h2 => ?_) (fun e w2 h2 _ => ?_)
    · have hnone : Admitted w2 := by
        rw [h2]
        exact admitted_of_none rfl
      repeat' split
      all_goals first | exact (Prog.ends_throw _).2 fun _ => hnone | exact (Prog.ends_pure _).2 hnone
    · rw [h2.2]
      exact admitted_of_none rfl
  · rename_i ht
    exact (Prog.ends_throw _).2 fun hwel => h1.resolve_left (hwel.resolve_left ht)

/-- **A call from a client that was let in** leaves it so, unless it raises in a handshake that the agent's answers ended. -/
theorem call_admitted (cmd : PyStr) (payload : Bytes) (params : PyDict) (s : CallScript φ) {w : World σ φ} (hw : Admitted w) :
    Ends (call cfg hmacHex serve cmd payload params s) w (fun _ w' => Admitted w') (fun e w' => Welcomed e → Admitted w') := by
  simp only [call, Prog.ends_bind]
  refine (tryOnce_admitted serve cfg hmacHex 0 cmd payload params s.first hw).mono (fun o w1 h1 => ?_) (fun _ _ h => h)
  cases o with
  | some r => exact (Prog.ends_pure _).2 h1
  | none =>
    simp only [Prog.ends_bind]
    refine (tryOnce_admitted serve cfg hmacHex 1 cmd payload params s.second h1).mono (fun o w2 h2 => ?_) (fun _ _ h => h)
    cases o with
    | some r => exact (Prog.ends_pure _).2 h2
    | none => exact (Prog.ends_throw _).2 fun _ => h2

/-! ## Answers -/

variable (cmd : PyStr) (payload : Bytes) (params : PyDict)

/-- The frames added are the call's, and none of its own command was answered. -/
def Unanswered (w w' : World σ φ) : Prop :=
  Extends serve (fun f => OfCall cfg.token cmd payload params f ∧ (f.kind = .command → f.answered = false)) w w'

/-- A reply that is the answer to the call's own request: the last frame the call wrote carries the client's newest id, the
agent answered it, and none of the call's earlier frames for the command was answered. -/
structure Answered (w w' : World σ φ) (r : PyDict × Bytes) (pre : List (Sent φ)) (e : Sent φ) : Prop where
  log : w'.log = w.log ++ (pre ++ [e])
  agent : w'.agent = agentAfter serve (pre ++ [e]) w.agent
  earlier : ∀ f ∈ pre, OfCall cfg.token cmd payload params f ∧ (f.kind = .command → f.answered = false)
  of_kind : e.kind = .command
  of_msg : e.msg = roundtripMsg w'.id (callMsg cmd params) payload
  of_payload : e.payload = payload
  replied : Replied serve e (agentAfter serve pre w.agent) r

/-- The call's own request was answered without an error. -/
def Succeeded (w w' : World σ φ) (r : PyDict × Bytes) : Prop :=
  (∃ pre e, Answered serve cfg cmd payload params w w' r pre e) ∧ dictGet r.1 (py "error") = none

/-- The call's own request was answered with an error, or not at all. -/
def Unserved (w w' : World σ φ) : Prop :=
  Unanswered serve cfg cmd payload params w w' ∨
  ∃ r, (∃ pre e, Answered serve cfg cmd payload params w w' r pre e) ∧ dictGet r.1 (py "error") ≠ none

variable {cfg cmd payload params serve}

theorem Unanswered.answered {w w1 w' : World σ φ} {r : PyDict × Bytes} (h : Unanswered serve cfg cmd payload params w w1)
    (ha : ∃ pre e, Answered serve cfg cmd payload params w1 w' r pre e) :
    ∃ pre e, Answered serve cfg cmd payload params w w' r pre e := by
  obtain ⟨new, h1, h2, h3⟩ := h
  obtain ⟨pre, e, ha⟩ := ha
  refine ⟨new ++ pre, e, ?_, ?_, fun f hf => ?_, ha.of_kind, ha.of_msg, ha.of_payload, ?_⟩
  · rw [ha.log, h1, List.append_assoc, List.append_assoc]
  · rw [ha.agent, h2, List.append_assoc, agentAfter_append new]
  · rcases List.mem_append.1 hf with hf | hf
    · exact h3 f hf
    · exact ha.earlier f hf
  · rw [agentAfter_append, ← h2]
    exact ha.replied

theorem Unanswered.unserved {w w1 w' : World σ φ} (h : Unanswered serve cfg cmd payload params w w1)
    (hu : Unserved serve cfg cmd payload params w1 w') : Unserved serve cfg cmd payload params w w' := by
  rcases hu with hu | ⟨r, ha, he⟩
  · exact Or.inl (h.trans hu)
  · exact Or.inr ⟨r, h.answered ha, he⟩

/-- After a `_connect`, a roundtrip whose frame was answered answered the call's request. -/
theorem answered_of_wrote {w w1 w2 : World σ φ} {r : PyDict × Bytes} {f : Sent φ}
    (h : Extends serve (IsHandshake cfg.token) w w1) (hf : Wrote serve .command (callMsg cmd params) payload w1 w2 f)
    (hr : Replied serve f w1.agent r) : ∃ pre e, Answered serve cfg cmd payload params w w2 r pre e := by
  obtain ⟨new, hlog, hagent, hnew⟩ := h
  refine ⟨new, f, ?_, ?_, fun g hg => ⟨Or.inl (hnew g hg), fun hk => absurd hk (hnew g hg).kind_ne⟩, hf.of_kind, hf.of_msg,
    hf.of_payload, ?_⟩
  · rw [hf.log, hlog, List.append_assoc]
  · rw [hf.agent, hagent, agentAfter_append]
    rfl
  · rwa [hagent] at hr

theorem unanswered_of_extends {w w1 : World σ φ} (h : Extends serve (IsHandshake cfg.token) w w1) :
    Unanswered serve cfg cmd payload params w w1 :=
  h.mono fun _ hf => ⟨Or.inl hf, fun hk => absurd hk hf.kind_ne⟩

/-! ## Runs -/

variable (cfg serve)

structure CallInput (φ : Type) where
  cmd : PyStr
  payload : Bytes
  params : PyDict
  script : CallScript φ

/-- `call` with its arguments. -/
def callOf (c : CallInput φ) : Prog (World σ φ) Raised (PyDict × Bytes) :=
  call cfg hmacHex serve c.cmd c.payload c.params c.script

/-- Calls one after the other, whether or not those before raised. -/
def runCalls : List (CallInput φ) → World σ φ → List (Except Raised (PyDict × Bytes)) × World σ φ
  | [], w => ([], w)
  | c :: l, w =>
    let r := (callOf serve cfg hmacHex c).exec w
    let rest := runCalls l r.2
    (r.1 :: rest.1, rest.2)

/-- `AgentClient.__init__`. -/
def World.fresh (st : σ) : World σ φ where
  conn := none
  id := 0
  authMethod := none
  capabilities := []
  sent := false
  agent := st
  log := []

/-- **What each call keeps, a run of calls keeps**, as long as none ends in a way that breaks it. -/
theorem runCalls_keeps {I : World σ φ → Prop} {Q : Raised → Prop}
    (h : ∀ c w, I w → Ends (callOf serve cfg hmacHex c) w (fun _ w' => I w') (fun e w' => Q e → I w')) :
    ∀ (l : List (CallInput φ)) (w : World σ φ), I w → (∀ e, .error e ∈ (runCalls serve cfg hmacHex l w).1 → Q e) →
      I (runCalls serve cfg hmacHex l w).2
  | [], _, hw, _ => hw
  | c :: l, w, hw, hs => by
    rw [runCalls] at hs ⊢
    refine runCalls_keeps h l _ ?_ fun e he => hs e (List.mem_cons_of_mem _ he)
    rcases hx : (callOf serve cfg hmacHex c).exec w with ⟨e | r, w'⟩
    · exact (h c w hw).error hx (hs e (by rw [hx]; exact List.mem_cons_self))
    · exact (h c w hw).ok hx

end

/-! ## Scripts to run -/

theorem no_blob_lt : ([] : Bytes).length < 2 ^ 64 := by decide

theorem object_without_bin {text : Bytes} {d : PyDict} (hl : PyJson.loads text = some (.dict d))
    (hb : dictGet d (py "bin") = none) (v : PyJson) (hv : PyJson.loads text = some v) :
    ∃ d, v = .dict d ∧ (dictGet d (py "bin")).isSome = decide (([] : Bytes) ≠ []) := by
  rw [hl] at hv
  cases hv
  exact ⟨d, rfl, by rw [hb]; rfl⟩

/-- A reply without a payload. -/
def plainFrame (text : Bytes) (d : PyDict) (hl : PyJson.loads text = some (.dict d))
    (hb : dictGet d (py "bin") = none) (ht : text.length < 2 ^ 32) : ReplyFrame where
  text := text
  blob := []
  text_lt := ht
  blob_lt := no_blob_lt
  object := object_without_bin hl hb

def challengeFrame : ReplyFrame := plainFrame (str "\x7b\"challenge\":\"00\"\x7d") [(py "challenge", .str (py "00"))] (by decide +kernel) (by decide +kernel) (by decide +kernel)

def welcomeFrame : ReplyFrame := plainFrame (str "\x7b\"ok\":true\x7d") [(py "ok", .bool true)] (by decide +kernel) (by decide +kernel) (by decide +kernel)

def rejectedFrame : ReplyFrame := plainFrame (str "\x7b\"error\":\x7b\"code\":\"auth\",\"message\":\"no\"\x7d\x7d")
  [(py "error", .dict [(py "code", .str (py "auth")), (py "message", .str (py "no"))])] (by decide +kernel) (by decide +kernel) (by decide +kernel)

def answerFrame : ReplyFrame := plainFrame (str "\x7b\"n\":1\x7d") [(py "n", .int 1)] (by decide +kernel) (by decide +kernel) (by decide +kernel)

def laterFrame : ReplyFrame := plainFrame (str "\x7b\"n\":2\x7d") [(py "n", .int 2)] (by decide +kernel) (by decide +kernel) (by decide +kernel)

/-- A reply whose text is not UTF-8, with a payload. -/
def rawFrame : ReplyFrame where
  text := [0xFF]
  blob := [7]
  text_lt := by decide
  blob_lt := by decide
  object := fun v hv => by
    have h : PyJson.loads [0xFF] = none := by decide +kernel
    rw [h] at hv
    cases hv

/-- An agent that answers each frame with the reply its script names. -/
def scripted (f : ReplyFrame) (_ _ : Bytes) (st : Unit) : ReplyFrame × Unit := (f, st)

def clean (f : ReplyFrame) : ExchangeScript ReplyFrame := ⟨f, true, .done, .done, .done, .done, .done⟩

def dropped : DropScript := ⟨false, .done⟩

def cleanConnect : ConnectScript ReplyFrame :=
  ⟨.done, clean challengeFrame, clean welcomeFrame, ⟨dropped, .done, clean welcomeFrame⟩, ⟨dropped, .done, clean welcomeFrame⟩⟩

def cleanAttempt (x : ExchangeScript ReplyFrame) : AttemptScript ReplyFrame := ⟨false, cleanConnect, x, dropped⟩

def cleanCall (cmd : String) (x : ExchangeScript ReplyFrame) : CallInput ReplyFrame :=
  ⟨py cmd, [], [], cleanAttempt x, cleanAttempt x⟩

def sampleConfig : ClientConfig := ⟨py "switch", 6060, py "k"⟩

def noHash (_ _ : Bytes) : PyStr := py "00"

/-- The results and the last state of a run against the scripted agent. -/
def sampleRun (l : List (CallInput ReplyFrame)) : List (Except Raised (PyDict × Bytes)) × World Unit ReplyFrame :=
  runCalls scripted sampleConfig noHash l (World.fresh ())

end Agent
end SwitchMcp

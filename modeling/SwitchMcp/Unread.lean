import SwitchMcp.Sync
/-!
# Unread — what a call leaves unread on its connection (clients/agentd.py)

A connection on which nothing is unread is all that a call needs to be answered itself, whether or not the client was let in on
it.  Most ways out of a call keep that or drop the connection (`ReadsOut`); a cancellation inside an exchange does not, nor does
a reply with a payload that does not decode.  `call_read` is what a call does from there, `calls_in_step` the same over runs.
-/
namespace SwitchMcp
namespace Agent

open PyJson (dictGet)
open Prog (Ends)

/-! ## One exchange -/

/-- A reply that the client reads to its end even when it does not decode. -/
def ReplyFrame.Plain (f : ReplyFrame) : Prop := PyJson.loads f.text = none → f.blob = []

theorem readexactly_value {a : Await} {n : Nat} {rx rx' : Bytes} (h : readexactly a n rx = (.error .value, rx')) : False := by
  unfold readexactly at h
  cases a with
  | done =>
    dsimp only at h
    split at h <;> cases h
  | _ => cases h

section
variable {φ : Type}

/-- **A reply that does not decode is read to its end**, when it is plain. -/
theorem readAnswer_value (x : ExchangeScript φ) {f : ReplyFrame} (hf : f.Plain) {rx : Bytes}
    (h : readAnswer x f.bytes = (.error .value, rx)) : rx = [] := by
  have h4 : leNat (leBytes 4 f.text.length) = f.text.length := leNat_leBytes 4 _ (by have := f.text_lt; omega)
  unfold ReplyFrame.bytes frameBytes readAnswer at h
  rcases readexactly_cases x.head 4 (leBytes 4 f.text.length ++ (f.text ++ if f.blob = [] then [] else
    leBytes 8 f.blob.length ++ f.blob)) with ⟨jlen, rx1, hr, ht⟩ | ⟨e, hr, -⟩
  swap
  · rw [hr] at h
    cases h
    exact (readexactly_value hr).elim
  rw [takeExact_append_of_length _ _ (length_leBytes 4 _), Option.some.injEq, Prod.mk.injEq] at ht
  obtain ⟨rfl, rfl⟩ := ht
  rw [hr] at h
  dsimp only at h
  rw [h4] at h
  rcases readexactly_cases x.body f.text.length (f.text ++ if f.blob = [] then [] else
    leBytes 8 f.blob.length ++ f.blob) with ⟨text, rx2, hr, ht⟩ | ⟨e, hr, -⟩
  swap
  · rw [hr] at h
    cases h
    exact (readexactly_value hr).elim
  rw [takeExact_append, Option.some.injEq, Prod.mk.injEq] at ht
  obtain ⟨rfl, rfl⟩ := ht
  rw [hr] at h
  dsimp only at h
  split at h
  · rename_i hl
    cases h
    rw [if_pos (hf hl)]
  · split at h
    · split at h
      · rename_i hb
        cases h
        exact (readexactly_value hb).elim
      · split at h
        · rename_i hb
          cases h
          exact (readexactly_value hb).elim
        · cases h
    · cases h
  · cases h

end

section
variable {σ φ : Type} (serve : φ → Bytes → Bytes → σ → ReplyFrame × σ)

theorem exchange_value (x : ExchangeScript φ) (kind : Kind) (text payload : Bytes) {c : Conn} (st : σ) (hrx : c.rx = [])
    (hplain : (serve x.fault text payload st).1.Plain)
    (h : (exchange serve x kind text payload c st).result = .error .value) :
    (exchange serve x kind text payload c st).conn.rx = [] := by
  unfold exchange at h ⊢
  cases hdrain : x.drain with
  | done =>
    simp only [hdrain] at h ⊢
    by_cases hd : x.delivered = true
    · rw [if_pos hd] at h ⊢
      dsimp only [deliver] at h ⊢
      rw [hrx, List.nil_append] at h ⊢
      exact readAnswer_value x hplain (Prod.ext h rfl)
    · rw [if_neg hd] at h ⊢
      dsimp only at h ⊢
      rw [hrx] at h ⊢
      unfold readAnswer at h
      rcases readexactly_cases x.head 4 [] with ⟨_, _, -, ht⟩ | ⟨e, hr, -⟩
      · cases ht
      · rw [hr] at h
        cases h
        exact (readexactly_value hr).elim
  | _ =>
    simp only [hdrain] at h
    cases h

/-- The client has read all that came on its connection. -/
def AllRead (w : World σ φ) : Prop := ∀ c, w.conn = some c → c.rx = []

theorem allRead_of_none {w : World σ φ} (h : w.conn = none) : AllRead w := fun c hc => by rw [h] at hc; cases hc

theorem allRead_of_some {w : World σ φ} {c : Conn} (hc : w.conn = some c) (hrx : c.rx = []) : AllRead w := fun c' hc' => by
  rw [hc] at hc'
  cases hc'
  exact hrx

/-- The replies to these frames are plain. -/
def PlainReplies (P : Sent φ → Prop) : Prop := ∀ f st, P f → (serve f.fault f.text f.payload st).1.Plain

/-- How a step may end and leave nothing unread: not by a cancellation inside an exchange, and by a reply that does not decode
only where such replies have no payload. -/
def ReadsOut (P : Sent φ → Prop) (e : Raised) : Prop :=
  e.stage = .opening ∨ e.stage = .dropping ∨ (e.exc ≠ .cancelled ∧ (e.exc = .value → PlainReplies serve P))

/-- What a step that raises leaves, if its connection is not about to be dropped. -/
def LeavesRead (P : Sent φ → Prop) (e : Raised) (w : World σ φ) : Prop :=
  e.exc.transient = false → ReadsOut serve P e → AllRead w

/-- There is a connection, with nothing unread on it. -/
def Fresh (w : World σ φ) : Prop := ∃ c, w.conn = some c ∧ c.rx = []

theorem Fresh.allRead {w : World σ φ} (h : Fresh w) : AllRead w := by
  obtain ⟨c, hc, hrx⟩ := h
  exact allRead_of_some hc hrx

variable {serve} {P : Sent φ → Prop}

theorem eq_value {e : Exc} (hlink : e.link = true) (ht : e.transient = false) (hc : e ≠ .cancelled) : e = .value := by
  cases e with
  | value => rfl
  | cancelled => exact absurd rfl hc
  | transport _ => cases ht
  | timeout => cases ht
  | _ => cases hlink

/-- **A roundtrip on a connection with nothing unread.** -/
theorem roundtrip_read {kind : Kind} {msg : PyDict} {payload : Bytes} {flag : Bool} {x : ExchangeScript φ}
    (hP : ∀ id answered, P ⟨kind, roundtripMsg id msg payload, payload, x.fault, x.delivered, answered⟩) {w : World σ φ}
    (hw : Fresh w) :
    Ends (roundtrip serve kind flag msg payload x) w (fun _ w' => Fresh w') (fun e w' => LeavesRead serve P e w') := by
  obtain ⟨c, hc, hrx⟩ := hw
  have hvalue : Ends (roundtrip serve kind flag msg payload x) w (fun _ _ => True)
      (fun e w' => PlainReplies serve P → e.exc = .value → AllRead w') := by
    have hx := @exec_roundtrip _ _ serve _ kind flag msg payload x _ hc
    by_cases hlen : maxJson < (requestText (w.id + 1) msg payload).length
    · rw [if_pos hlen] at hx
      exact (Prog.ends_iff_error hx).2 fun _ h => by cases h
    rw [if_neg hlen] at hx
    cases hr : (exchange serve x kind (requestText (w.id + 1) msg payload) payload c w.agent).result with
    | error e =>
      rw [hr] at hx
      refine (Prog.ends_iff_error hx).2 fun hplain he => ?_
      cases he
      exact allRead_of_some rfl (exchange_value serve x kind _ payload _ hrx (hplain _ w.agent (hP (w.id + 1) true)) hr)
    | ok r =>
      rw [hr] at hx
      rcases checkError_cases r.1 with ⟨hok, -⟩ | ⟨e, herr, hlink⟩
      · simp only [roundtripResult, hok] at hx
        exact (Prog.ends_iff_ok hx).2 trivial
      · simp only [roundtripResult, herr] at hx
        refine (Prog.ends_iff_error hx).2 fun _ he => ?_
        cases he
        cases hlink
  refine ((roundtrip_ends serve hc hrx kind flag msg payload x).and hvalue).mono (fun r w1 h1 => ?_) (fun e w1 h1 => ?_)
  · obtain ⟨⟨f, hf⟩, -⟩ := h1
    obtain ⟨c', hc', hrx', -⟩ := hf.conn
    exact ⟨c', hc', hrx'⟩
  · intro ht hout
    have hstage : e.stage ≠ .opening ∧ e.stage ≠ .dropping := by
      rw [h1.1.stage]
      cases kind <;> decide
    obtain ⟨hcancel, hplain⟩ := (hout.resolve_left hstage.1).resolve_left hstage.2
    cases hlink : e.exc.link with
    | false =>
      obtain ⟨c', hc', hrx', -⟩ := h1.1.other hlink
      exact allRead_of_some hc' hrx'
    | true =>
      have hvalue : e.exc = .value := eq_value hlink ht hcancel
      exact h1.2 (hplain hvalue) hvalue

/-! ## Handshakes -/

variable {cfg : ClientConfig} (hmacHex : Bytes → Bytes → PyStr)

theorem handshake_read (hP : ∀ f, IsHandshake cfg.token f → P f) {kind : Kind} {msg : PyDict}
    (hm : HandshakeMsg cfg.token kind msg) (x : ExchangeScript φ) {w : World σ φ} (hw : Fresh w) :
    Ends (roundtrip serve kind false msg [] x) w (fun _ w' => Fresh w') (fun e w' => LeavesRead serve P e w') :=
  roundtrip_read (fun id _ => hP _ ⟨rfl, id, msg, rfl, hm⟩) hw

theorem openConnection_read (a : Await) {w : World σ φ} (hw : AllRead w) :
    Ends (openConnection a) w (fun _ w' => Fresh w') (fun e w' => LeavesRead serve P e w') := by
  refine (openConnection_ends a w).mono (fun _ w1 h1 => ⟨_, h1, rfl⟩) (fun e w1 h1 _ _ => ?_)
  rw [h1.2]
  exact hw

theorem authenticateLegacy_read (hP : ∀ f, IsHandshake cfg.token f → P f) (s : LegacyScript φ) (w : World σ φ) :
    Ends (authenticateLegacy cfg serve s) w (fun _ w' => Fresh w') (fun e w' => LeavesRead serve P e w') := by
  simp only [authenticateLegacy, Prog.ends_bind, Prog.ends_modify, Prog.ends_pure]
  refine (discardConnection_ends s.drop w).mono (fun _ w1 h1 => ?_) (fun e w1 h1 _ _ => ?_)
  · have h1 : AllRead w1 := by
      rw [h1]
      exact allRead_of_none rfl
    refine (openConnection_read s.opened h1).mono (fun _ w2 h2 => ?_) (fun _ _ h => h)
    exact (handshake_read hP .legacy s.hello h2).mono (fun _ _ h => h) (fun _ _ h => h)
  · rw [h1.2]
    exact allRead_of_none rfl

theorem authenticateHmac_read (hP : ∀ f, IsHandshake cfg.token f → P f) (challenge : PyJson) (x : ExchangeScript φ)
    {w : World σ φ} (hw : Fresh w) :
    Ends (authenticateHmac cfg hmacHex serve challenge x) w (fun _ w' => Fresh w') (fun e w' => LeavesRead serve P e w') := by
  unfold authenticateHmac
  split
  · exact (Prog.ends_throw _).2 fun _ _ => hw.allRead
  · simp only [Prog.ends_bind, Prog.ends_modify, Prog.ends_pure]
    exact (handshake_read hP (.auth _) x hw).mono (fun _ _ h => h) (fun _ _ h => h)

theorem clientAuthenticate_read (hP : ∀ f, IsHandshake cfg.token f → P f) (s : ConnectScript φ) {w : World σ φ}
    (hw : Fresh w) :
    Ends (clientAuthenticate cfg hmacHex serve s) w (fun _ w' => Fresh w') (fun e w' => LeavesRead serve P e w') := by
  unfold clientAuthenticate
  rw [Prog.ends_bind]
  refine (handshake_read hP .hello s.probe hw).mono (fun r w1 h1 => ?_) (fun _ _ h => h)
  split
  · exact authenticateHmac_read hmacHex hP _ _ h1
  · exact authenticateLegacy_read hP _ _

/-- **A `_connect`**, when all that came before it was read. -/
theorem connect_read (hP : ∀ f, IsHandshake cfg.token f → P f) (s : ConnectScript φ) {w : World σ φ} (hw : AllRead w) :
    Ends (connect cfg hmacHex serve s) w (fun _ w' => Fresh w') (fun e w' => LeavesRead serve P e w') := by
  have hok : ∀ reply (w2 : World σ φ), Fresh w2 → Ends (checkOk reply) w2 (fun _ w' => Fresh w')
      (fun e w' => LeavesRead serve P e w') := by
    intro reply w2 h2
    unfold checkOk
    split
    · exact (Prog.ends_pure _).2 h2
    · exact (Prog.ends_throw _).2 fun _ _ => h2.allRead
  simp only [connect, Prog.ends_bind, Prog.ends_tryCatch]
  refine (openConnection_read s.opened hw).mono (fun _ w1 h1 => ?_) (fun _ _ h => h)
  refine (clientAuthenticate_read hmacHex hP s h1).mono (fun r w2 h2 => hok r w2 h2) (fun e w2 h2 => ?_)
  simp only [fallBack, Prog.ends_bind, Prog.ends_get]
  split
  · exact (authenticateLegacy_read hP s.again w2).mono (fun r w3 h3 => hok r w3 h3) (fun _ _ h => h)
  · exact (Prog.ends_throw _).2 h2

theorem ready_read (hP : ∀ f, IsHandshake cfg.token f → P f) (a : AttemptScript φ) {w : World σ φ} (hw : AllRead w) :
    Ends (ready cfg hmacHex serve a) w (fun _ w' => Fresh w') (fun e w' => LeavesRead serve P e w') := by
  simp only [ready, Prog.ends_bind, Prog.ends_get]
  split
  · exact connect_read hmacHex hP a.connect hw
  · rename_i h
    rw [Prog.ends_pure]
    cases hc : w.conn with
    | none => simp [hc] at h
    | some c => exact ⟨c, hc, hw c hc⟩

/-! ## Calls -/

variable (cmd : PyStr) (payload : Bytes) (params : PyDict)

variable (serve cfg) in
/-- The call's last frame went out, and its reply was lost with the connection or did not come in time. -/
structure Lost (x : ExchangeScript φ) (w w' : World σ φ) (pre : List (Sent φ)) (e : Sent φ) : Prop where
  log : w'.log = w.log ++ (pre ++ [e])
  agent : w'.agent = agentAfter serve (pre ++ [e]) w.agent
  earlier : ∀ f ∈ pre, OfCall cfg.token cmd payload params f ∧ (f.kind = .command → f.answered = false)
  frame : e = ⟨.command, roundtripMsg w'.id (callMsg cmd params) payload, payload, x.fault, x.delivered, false⟩
  flushed : ∃ c, (exchange serve x .command e.text payload c (agentAfter serve pre w.agent)).flushed = true ∧
    ∃ exc, (exchange serve x .command e.text payload c (agentAfter serve pre w.agent)).result = .error exc ∧
      exc.transient = true

variable (serve cfg) in
/-- A call gives the note for a console that went down: its command is one that does that, and its connection is gone after
its frame was sent. -/
structure Gone (x : ExchangeScript φ) (w w' : World σ φ) (r : PyDict × Bytes) : Prop where
  fires : cmd ∈ fireAndForget
  note : r = (goneNote, [])
  dropped : w'.conn = none
  lost : ∃ pre e, Lost serve cfg cmd payload params x w w' pre e

variable {cmd payload params}

theorem Lost.before {x : ExchangeScript φ} {w w1 w' : World σ φ} {pre : List (Sent φ)} {e : Sent φ}
    (h : Unanswered serve cfg cmd payload params w w1) (hl : Lost serve cfg cmd payload params x w1 w' pre e) :
    ∃ pre, Lost serve cfg cmd payload params x w w' pre e := by
  obtain ⟨new, hlog, hagent, hnew⟩ := h
  refine ⟨new ++ pre, ?_, ?_, fun f hf => ?_, hl.frame, ?_⟩
  · rw [hl.log, hlog, List.append_assoc, List.append_assoc]
  · rw [hl.agent, hagent, List.append_assoc, agentAfter_append new]
  · rcases List.mem_append.1 hf with hf | hf
    · exact hnew f hf
    · exact hl.earlier f hf
  · rw [agentAfter_append, ← hagent]
    exact hl.flushed

theorem Gone.before {x : ExchangeScript φ} {w w1 w' : World σ φ} {r : PyDict × Bytes}
    (h : Unanswered serve cfg cmd payload params w w1) (hg : Gone serve cfg cmd payload params x w1 w' r) :
    Gone serve cfg cmd payload params x w w' r := by
  obtain ⟨pre, e, hl⟩ := hg.lost
  obtain ⟨pre, hl⟩ := hl.before h
  exact ⟨hg.fires, hg.note, hg.dropped, pre, e, hl⟩

/-- A roundtrip whose frame went out and that a link ended wrote that frame. -/
theorem roundtrip_lost {x : ExchangeScript φ} {w : World σ φ} {c : Conn} (hc : w.conn = some c) (hsent : w.sent = false) :
    Ends (roundtrip serve .command true (callMsg cmd params) payload x) w (fun _ _ => True)
      (fun e w' => e.exc.transient = true → w'.sent = true → ∃ f, Lost serve cfg cmd payload params x w w' [] f) := by
  have hx := @exec_roundtrip _ _ serve _ .command true (callMsg cmd params) payload x _ hc
  by_cases hlen : maxJson < (requestText (w.id + 1) (callMsg cmd params) payload).length
  · rw [if_pos hlen] at hx
    exact (Prog.ends_iff_error hx).2 fun h => by cases h
  rw [if_neg hlen] at hx
  cases hr : (exchange serve x .command (requestText (w.id + 1) (callMsg cmd params) payload) payload c w.agent).result with
  | ok r =>
    rw [hr] at hx
    rcases checkError_cases r.1 with ⟨hok, -⟩ | ⟨e, herr, hlink⟩
    · simp only [roundtripResult, hok] at hx
      exact (Prog.ends_iff_ok hx).2 trivial
    · simp only [roundtripResult, herr] at hx
      refine (Prog.ends_iff_error hx).2 fun ht => ?_
      rw [link_of_transient ht] at hlink
      cases hlink
  | error exc =>
    rw [hr] at hx
    refine (Prog.ends_iff_error hx).2 fun ht hs => ?_
    have hflushed : (exchange serve x .command (requestText (w.id + 1) (callMsg cmd params) payload) payload c w.agent).flushed =
        true := by
      rw [afterExchange, hsent, Bool.false_or, Bool.true_and] at hs
      exact hs
    refine ⟨_, rfl, ?_, fun f hf => absurd hf List.not_mem_nil, ?_, c, hflushed, exc, hr, ht⟩
    · exact exchange_agent serve x .command _ payload c w.agent
    · rw [hr]
      rfl

variable (serve cfg cmd payload params) in
/-- What a turn that raises leaves. -/
structure TurnRaises (x : ExchangeScript φ) (w : World σ φ) (e : Raised) (w' : World σ φ) : Prop where
  read : LeavesRead serve (OfCall cfg.token cmd payload params) e w'
  transient : e.exc.transient = true → Unanswered serve cfg cmd payload params w w'
  lost : e.exc.transient = true → w'.sent = true → ∃ pre f, Lost serve cfg cmd payload params x w w' pre f
  unserved : Unserved serve cfg cmd payload params w w'

variable (cmd payload params)

/-- **One turn of `call`**, when all that came before it was read. -/
theorem attempt_read (a : AttemptScript φ) {w : World σ φ} (hw : AllRead w) :
    Ends (attempt cfg hmacHex serve cmd payload params a) w
      (fun r w' => AllRead w' ∧ Succeeded serve cfg cmd payload params w w' r)
      (fun e w' => TurnRaises serve cfg cmd payload params a.exchange w e w') := by
  simp only [attempt, Prog.ends_bind, Prog.ends_modify]
  have hin : AllRead { w with sent := false } := hw
  have hready : Ends (ready cfg hmacHex serve a) { w with sent := false } (fun _ w' => Fresh w')
      (fun e w' => LeavesRead serve (OfCall cfg.token cmd payload params) e w') :=
    ready_read hmacHex (fun _ => Or.inl) a hin
  refine ((hready.and ((handshaking_extends cfg serve).ready_moves hmacHex a { w with sent := false })).and
    ((handshaking_sent cfg serve).ready_moves hmacHex a { w with sent := false })).mono (fun _ w1 h1 => ?_)
    (fun e w1 h1 => ?_)
  · obtain ⟨⟨hfresh, hext⟩, hsent⟩ := h1
    have hext : Extends serve (IsHandshake cfg.token) w w1 := hext
    have hread : Ends (roundtrip serve .command true (callMsg cmd params) payload a.exchange) w1 (fun _ w' => Fresh w')
        (fun e w' => LeavesRead serve (OfCall cfg.token cmd payload params) e w') :=
      roundtrip_read (fun id _ => Or.inr ⟨rfl, rfl, id, rfl⟩) hfresh
    obtain ⟨c, hc, hrx⟩ := hfresh
    have hlost : Ends (roundtrip serve .command true (callMsg cmd params) payload a.exchange) w1 (fun _ _ => True)
        (fun e w2 => e.exc.transient = true → w2.sent = true →
          ∃ f, Lost serve cfg cmd payload params a.exchange w1 w2 [] f) := roundtrip_lost hc hsent
    refine ((hread.and (roundtrip_ends serve hc hrx .command true _ payload a.exchange)).and hlost).mono
      (fun r w2 h2 => ?_) (fun e w2 h2 => ?_)
    · obtain ⟨⟨hfresh, f, hf⟩, -⟩ := h2
      exact ⟨hfresh.allRead, answered_of_wrote hext hf.wrote hf.replied, hf.no_error⟩
    · obtain ⟨⟨hleft, hfailed⟩, hlost⟩ := h2
      have hlink : e.exc.link = true → Unanswered serve cfg cmd payload params w w2 := fun hl => by
        obtain ⟨f, hf, hna⟩ := hfailed.link hl
        exact (unanswered_of_extends hext).trans
          (Extends.one f ⟨Or.inr ⟨hf.of_kind, hf.of_payload, _, hf.of_msg⟩, fun _ => hna⟩ hf.log hf.agent)
      refine ⟨hleft, fun ht => hlink (link_of_transient ht), fun ht hs => ?_, ?_⟩
      · obtain ⟨f, hl⟩ := hlost ht hs
        obtain ⟨pre, hl⟩ := hl.before (unanswered_of_extends hext)
        exact ⟨pre, f, hl⟩
      · cases hl : e.exc.link with
        | true => exact Or.inl (hlink hl)
        | false =>
          rcases hfailed.refused hl with ⟨hlog, hagent⟩ | ⟨r, f, hf, hr, herr⟩
          · exact Or.inl ((unanswered_of_extends hext).trans (Extends.refl_of hlog hagent))
          · exact Or.inr ⟨r, answered_of_wrote hext hf hr, herr⟩
  · obtain ⟨⟨hleft, hext⟩, hsent⟩ := h1
    have hun : Unanswered serve cfg cmd payload params w w1 := unanswered_of_extends hext
    refine ⟨hleft, fun _ => hun, fun _ hs => ?_, Or.inl hun⟩
    rw [hsent] at hs
    cases hs

/-- **One turn of the loop in `call`**: an answer, the note, or nothing and no answer. -/
theorem tryOnce_read (turn : Nat) (a : AttemptScript φ) {w : World σ φ} (hw : AllRead w) :
    Ends (tryOnce cfg hmacHex serve turn cmd payload params a) w
      (fun o w' => AllRead w' ∧ match o with
        | some r => Succeeded serve cfg cmd payload params w w' r ∨ Gone serve cfg cmd payload params a.exchange w w' r
        | none => Unanswered serve cfg cmd payload params w w')
      (fun e w' => (ReadsOut serve (OfCall cfg.token cmd payload params) e → AllRead w') ∧
        Unserved serve cfg cmd payload params w w') := by
  simp only [tryOnce, Prog.ends_tryCatch, map_eq_pure_bind, Prog.ends_bind, Prog.ends_pure]
  refine (attempt_read hmacHex cmd payload params a hw).mono (fun r w1 h1 => ⟨h1.1, Or.inl h1.2⟩) (fun e w1 h1 => ?_)
  unfold recover
  split
  · rename_i ht
    simp only [Prog.ends_bind, Prog.ends_get]
    have hdropped : ∀ w2 : World σ φ, w2 = { w1 with conn := none } →
        AllRead w2 ∧ Unanswered serve cfg cmd payload params w w2 := by
      rintro w2 rfl
      exact ⟨allRead_of_none rfl, (h1.transient ht).trans (Extends.refl_of rfl rfl)⟩
    refine (discardConnection_ends a.drop w1).mono (fun _ w2 h2 => ?_) (fun e w2 h2 => ?_)
    · obtain ⟨hread, hun⟩ := hdropped w2 h2
      split
      · exact (Prog.ends_throw _).2 ⟨fun _ => hread, Or.inl hun⟩
      · split
        · rename_i hgone
          subst h2
          obtain ⟨pre, f, hl⟩ := h1.lost ht hgone.1
          refine (Prog.ends_pure _).2 ⟨hread, Or.inr ⟨hgone.2, rfl, rfl, pre, f, ?_⟩⟩
          exact ⟨hl.log, hl.agent, hl.earlier, hl.frame, hl.flushed⟩
        · split
          · exact (Prog.ends_throw _).2 ⟨fun _ => hread, Or.inl hun⟩
          · split
            · exact (Prog.ends_throw _).2 ⟨fun _ => hread, Or.inl hun⟩
            · exact (Prog.ends_pure _).2 ⟨hread, hun⟩
    · obtain ⟨hread, hun⟩ := hdropped w2 h2.2
      exact ⟨fun _ => hread, Or.inl hun⟩
  · rename_i ht
    exact (Prog.ends_throw _).2 ⟨h1.read (by simpa using ht), h1.unserved⟩

/-- **A call from a client that has read all**: when it returns, the client has again, and what it returns is the answer to its
own request, or the note for a console that went down; when it raises, its request was not answered or answered with an error,
and the client has read all unless it was cancelled inside an exchange or left the payload of a reply that does not decode. -/
theorem call_read (s : CallScript φ) {w : World σ φ} (hw : AllRead w) :
    Ends (call cfg hmacHex serve cmd payload params s) w
      (fun r w' => AllRead w' ∧ (Succeeded serve cfg cmd payload params w w' r ∨
        ∃ x, (x = s.first.exchange ∨ x = s.second.exchange) ∧ Gone serve cfg cmd payload params x w w' r))
      (fun e w' => (ReadsOut serve (OfCall cfg.token cmd payload params) e → AllRead w') ∧
        Unserved serve cfg cmd payload params w w') := by
  simp only [call, Prog.ends_bind]
  refine (tryOnce_read hmacHex cmd payload params 0 s.first hw).mono (fun o w1 h1 => ?_) (fun _ _ h => h)
  cases o with
  | some r => exact (Prog.ends_pure _).2 ⟨h1.1, h1.2.imp_right fun h => ⟨_, Or.inl rfl, h⟩⟩
  | none =>
    simp only [Prog.ends_bind]
    refine (tryOnce_read hmacHex cmd payload params 1 s.second h1.1).mono (fun o w2 h2 => ?_)
      (fun e w2 h2 => ⟨h2.1, h1.2.unserved h2.2⟩)
    cases o with
    | some r =>
      refine (Prog.ends_pure _).2 ⟨h2.1, h2.2.imp (fun h => ⟨h1.2.answered h.1, h.2⟩) fun h => ?_⟩
      exact ⟨_, Or.inr rfl, h.before h1.2⟩
    | none => exact (Prog.ends_throw _).2 ⟨fun _ => h2.1, Or.inl (h1.2.trans h2.2)⟩

/-! ## Runs -/

theorem ReadsOut.of_all {P : Sent φ → Prop} {e : Raised} (h : ReadsOut serve (fun _ => True) e) : ReadsOut serve P e :=
  h.imp_right (Or.imp_right fun h => ⟨h.1, fun hv f st _ => h.2 hv f st trivial⟩)

end

/-- A call that is cancelled while it waits for its reply. -/
def cancelledCall : CallInput ReplyFrame := cleanCall "ps" { clean answerFrame with head := .cancelled }

/-- A call whose handshake the agent rejects. -/
def rejectedCall : CallInput ReplyFrame :=
  let c : ConnectScript ReplyFrame := { cleanConnect with
    auth := clean rejectedFrame
    again := ⟨dropped, .done, clean rejectedFrame⟩ }
  ⟨py "ps", [], [], ⟨false, c, clean answerFrame, dropped⟩, cleanAttempt (clean answerFrame)⟩

/-- A reboot whose reply is lost with the connection. -/
def lostReboot : CallInput ReplyFrame :=
  cleanCall "reboot" { clean answerFrame with head := .transport (py "ConnectionResetError") }

end Agent
end SwitchMcp

import SwitchMcp.Client
/-!
# History — what a run of the client adds to its log

Every program of the client does to the agent what the frames it writes do, in their order (`Extends`).  `connect_moves`
is the induction over a `_connect`: what its steps keep (`Handshaking`), it keeps; so a `_connect` writes frames of
handshakes only.
-/
namespace SwitchMcp
namespace Agent

open PyJson (dictGet dictSet)
open Prog (Ends Moves)

/-! ## Frames -/

/-- What a handshake writes. -/
inductive HandshakeMsg (token : PyStr) : Kind → PyDict → Prop
  | hello : HandshakeMsg token .hello helloMsg
  | auth (mac : PyStr) : HandshakeMsg token .auth (authMsg mac)
  | legacy : HandshakeMsg token .legacy (legacyMsg token)

/-- A frame of a handshake. -/
structure IsHandshake {φ : Type} (token : PyStr) (e : Sent φ) : Prop where
  payload_nil : e.payload = []
  msg : ∃ id msg, e.msg = roundtripMsg id msg [] ∧ HandshakeMsg token e.kind msg

/-- A frame of the command that a call is for. -/
structure IsCommand {φ : Type} (cmd : PyStr) (payload : Bytes) (params : PyDict) (e : Sent φ) : Prop where
  kind : e.kind = .command
  with_payload : e.payload = payload
  msg : ∃ id, e.msg = roundtripMsg id (callMsg cmd params) payload

/-- A frame that a call may write. -/
def OfCall {φ : Type} (token cmd : PyStr) (payload : Bytes) (params : PyDict) (e : Sent φ) : Prop :=
  IsHandshake token e ∨ IsCommand cmd payload params e

theorem HandshakeMsg.kind_ne {token : PyStr} {kind : Kind} {msg : PyDict} (h : HandshakeMsg token kind msg) :
    kind ≠ .command := by
  cases h <;> simp

theorem IsHandshake.kind_ne {φ : Type} {token : PyStr} {e : Sent φ} (h : IsHandshake token e) : e.kind ≠ .command := by
  obtain ⟨-, id, msg, -, hm⟩ := h
  exact hm.kind_ne

/-! ## The log -/

section
variable {σ φ : Type} (cfg : ClientConfig) (hmacHex : Bytes → Bytes → PyStr)
  (serve : φ → Bytes → Bytes → σ → ReplyFrame × σ)

/-- What a written frame does to the agent. -/
def agentStep (st : σ) (e : Sent φ) : σ := if e.delivered then (serve e.fault e.text e.payload st).2 else st

def agentAfter (l : List (Sent φ)) (st : σ) : σ := l.foldl (agentStep serve) st

/-- The log grew by frames with `P`, and the agent is where they take it. -/
def Extends (P : Sent φ → Prop) (w w' : World σ φ) : Prop :=
  ∃ new, w'.log = w.log ++ new ∧ w'.agent = agentAfter serve new w.agent ∧ ∀ e ∈ new, P e

variable {serve} {P P' : Sent φ → Prop} {w w' w'' : World σ φ}

theorem agentAfter_append (l l' : List (Sent φ)) (st : σ) :
    agentAfter serve (l ++ l') st = agentAfter serve l' (agentAfter serve l st) := List.foldl_append

theorem Extends.refl_of (hl : w'.log = w.log) (ha : w'.agent = w.agent) : Extends serve P w w' :=
  ⟨[], by rw [hl, List.append_nil], ha, by simp⟩

theorem Extends.trans (h : Extends serve P w w') (h' : Extends serve P w' w'') : Extends serve P w w'' := by
  obtain ⟨new, h1, h2, h3⟩ := h
  obtain ⟨new', h1', h2', h3'⟩ := h'
  refine ⟨new ++ new', by rw [h1', h1, List.append_assoc], by rw [h2', h2, agentAfter_append], fun e he => ?_⟩
  rcases List.mem_append.1 he with he | he
  · exact h3 e he
  · exact h3' e he

theorem Extends.mono (h : Extends serve P w w') (hP : ∀ e, P e → P' e) : Extends serve P' w w' := by
  obtain ⟨new, h1, h2, h3⟩ := h
  exact ⟨new, h1, h2, fun e he => hP e (h3 e he)⟩

theorem Extends.one (e : Sent φ) (he : P e) (hl : w'.log = w.log ++ [e]) (ha : w'.agent = agentStep serve w.agent e) :
    Extends serve P w w' := ⟨[e], hl, ha, fun x hx => by rwa [List.mem_singleton.1 hx]⟩

variable (serve)

theorem exchange_agent (x : ExchangeScript φ) (kind : Kind) (text payload : Bytes) (c : Conn) (st : σ) :
    (exchange serve x kind text payload c st).agent = if x.delivered then (serve x.fault text payload st).2 else st := by
  unfold exchange deliver
  cases x.delivered <;> cases x.drain <;> rfl

/-- **A roundtrip on a connection**: a request that is too long is not written; any other is exchanged. -/
theorem exec_roundtrip {kind : Kind} {flag : Bool} {msg : PyDict} {payload : Bytes} {x : ExchangeScript φ} {c : Conn}
    (hc : w.conn = some c) :
    (roundtrip serve kind flag msg payload x).exec w =
      if maxJson < (requestText (w.id + 1) msg payload).length then
        (.error ⟨clientError "frame_too_big" (py "request JSON exceeds 64 KiB"), kind.stage⟩, { w with id := w.id + 1 })
      else
        (roundtripResult kind
          (exchange serve x kind (requestText (w.id + 1) msg payload) payload c w.agent).result,
          afterExchange serve kind flag msg payload x c w) := by
  rw [roundtrip, Prog.exec_of, hc]

/-! ## A connection -/

/-- A relation between states that every step of a `_connect` is in. -/
structure Handshaking (R : World σ φ → World σ φ → Prop) : Prop where
  refl : ∀ w, R w w
  trans : ∀ w w' w'', R w w' → R w' w'' → R w w''
  conn : ∀ w c, R w { w with conn := c }
  id : ∀ w, R w { w with id := w.id + 1 }
  auth : ∀ w m d, R w { w with authMethod := some m, capabilities := d }
  exchange : ∀ w c kind msg x, HandshakeMsg cfg.token kind msg → R w (afterExchange serve kind false msg [] x c w)

variable {serve cfg} {R : World σ φ → World σ φ → Prop}

namespace Handshaking
variable (h : Handshaking cfg serve R)
include h

theorem openConnection_moves (a : Await) : Moves R (openConnection a : Prog (World σ φ) Raised Unit) :=
  Moves.of fun w => by
    cases a with
    | done => exact h.conn w _
    | _ => exact h.refl w

theorem discardConnection_moves (d : DropScript) : Moves R (discardConnection d : Prog (World σ φ) Raised Unit) :=
  Moves.of fun w => by split <;> exact h.conn w _

theorem pure_moves {α : Type} (a : α) : Moves R (pure a : Prog (World σ φ) Raised α) := fun w =>
  (Prog.ends_pure a).2 (h.refl w)

theorem throw_moves {α : Type} (e : Raised) : Moves R (throw e : Prog (World σ φ) Raised α) := fun w =>
  (Prog.ends_throw e).2 (h.refl w)

theorem get_moves : Moves R (get : Prog (World σ φ) Raised (World σ φ)) := fun w => Prog.ends_get.2 (h.refl w)

theorem store_moves (m : AuthMethod) (d : PyDict) :
    Moves R (modify fun w => { w with authMethod := some m, capabilities := d } : Prog (World σ φ) Raised PUnit) :=
  fun w => (Prog.ends_modify _).2 (h.auth w _ _)

theorem roundtrip_moves {kind : Kind} {msg : PyDict} (hm : HandshakeMsg cfg.token kind msg) (x : ExchangeScript φ) :
    Moves R (roundtrip serve kind false msg [] x) :=
  Moves.of fun w => by
    split
    · exact h.refl w
    · dsimp only
      split
      · exact h.id w
      · exact h.exchange w _ _ _ _ hm

theorem authenticateLegacy_moves (s : LegacyScript φ) : Moves R (authenticateLegacy cfg serve s) := by
  unfold authenticateLegacy
  refine (h.discardConnection_moves _).bind h.trans fun _ => ?_
  refine (h.openConnection_moves _).bind h.trans fun _ => ?_
  refine (h.roundtrip_moves .legacy _).bind h.trans fun r => ?_
  exact (h.store_moves _ _).bind h.trans fun _ => h.pure_moves _

theorem authenticateHmac_moves (challenge : PyJson) (x : ExchangeScript φ) :
    Moves R (authenticateHmac cfg hmacHex serve challenge x) := by
  unfold authenticateHmac
  split
  · exact h.throw_moves _
  · refine (h.roundtrip_moves (.auth _) _).bind h.trans fun r => ?_
    exact (h.store_moves _ _).bind h.trans fun _ => h.pure_moves _

theorem clientAuthenticate_moves (s : ConnectScript φ) : Moves R (clientAuthenticate cfg hmacHex serve s) := by
  unfold clientAuthenticate
  refine (h.roundtrip_moves .hello _).bind h.trans fun r => ?_
  split
  · exact h.authenticateHmac_moves hmacHex _ _
  · exact h.authenticateLegacy_moves _

theorem fallBack_moves (s : ConnectScript φ) (e : Raised) : Moves R (fallBack cfg serve s e) := by
  unfold fallBack
  refine h.get_moves.bind h.trans fun w => ?_
  split
  · exact h.authenticateLegacy_moves _
  · exact h.throw_moves _

theorem checkOk_moves (reply : PyDict) : Moves R (checkOk reply : Prog (World σ φ) Raised Unit) := by
  unfold checkOk
  split
  · exact h.pure_moves _
  · exact h.throw_moves _

/-- **What every step of a `_connect` keeps, it keeps.** -/
theorem connect_moves (s : ConnectScript φ) : Moves R (connect cfg hmacHex serve s) := by
  unfold connect
  refine (h.openConnection_moves _).bind h.trans fun _ => ?_
  refine Moves.bind h.trans ?_ h.checkOk_moves
  exact (h.clientAuthenticate_moves hmacHex s).tryCatch h.trans (h.fallBack_moves s)

theorem ready_moves (a : AttemptScript φ) : Moves R (ready cfg hmacHex serve a) := by
  unfold ready
  refine h.get_moves.bind h.trans fun w => ?_
  split
  · exact h.connect_moves hmacHex _
  · exact h.pure_moves _

end Handshaking

variable (serve cfg)

theorem roundtrip_extends {kind : Kind} {flag : Bool} {msg : PyDict} {payload : Bytes} {x : ExchangeScript φ}
    (hP : ∀ id answered, P ⟨kind, roundtripMsg id msg payload, payload, x.fault, x.delivered, answered⟩) :
    Moves (Extends serve P) (roundtrip serve kind flag msg payload x) :=
  Moves.of fun w => by
    split
    · exact Extends.refl_of rfl rfl
    · dsimp only
      split
      · exact Extends.refl_of rfl rfl
      · exact Extends.one _ (hP _ _) rfl (exchange_agent serve x _ _ _ _ _)

/-- **A `_connect` writes frames of handshakes only.** -/
theorem handshaking_extends : Handshaking cfg serve (Extends serve (IsHandshake cfg.token)) where
  refl _ := Extends.refl_of rfl rfl
  trans _ _ _ := Extends.trans
  conn _ _ := Extends.refl_of rfl rfl
  id _ := Extends.refl_of rfl rfl
  auth _ _ _ := Extends.refl_of rfl rfl
  exchange _ _ _ _ _ hm := Extends.one _ ⟨rfl, _, _, rfl, hm⟩ rfl (exchange_agent serve _ _ _ _ _ _)

/-- **A `_connect` does not forget how the client authenticated.** -/
theorem handshaking_authMethod :
    Handshaking cfg serve (fun w w' => w.authMethod.isSome = true → w'.authMethod.isSome = true) where
  refl _ h := h
  trans _ _ _ h h' hw := h' (h hw)
  conn _ _ h := h
  id _ h := h
  auth _ _ _ _ := rfl
  exchange _ _ _ _ _ _ h := h

/-- **A `_connect` leaves a call's sent flag alone.** -/
theorem handshaking_sent : Handshaking cfg serve (fun w w' => w'.sent = w.sent) where
  refl _ := rfl
  trans _ _ _ h h' := h'.trans h
  conn _ _ := rfl
  id _ := rfl
  auth _ _ _ := rfl
  exchange w _ _ _ _ _ := Bool.or_false w.sent

/-! ## A call -/

variable (cmd : PyStr) (payload : Bytes) (params : PyDict)

theorem attempt_extends (a : AttemptScript φ) :
    Moves (Extends serve (OfCall cfg.token cmd payload params)) (attempt cfg hmacHex serve cmd payload params a) := by
  have hready : Moves (Extends serve (OfCall cfg.token cmd payload params)) (ready cfg hmacHex serve a) := fun w =>
    ((handshaking_extends cfg serve).ready_moves hmacHex a w).mono (fun _ _ h => h.mono fun _ => Or.inl)
      (fun _ _ h => h.mono fun _ => Or.inl)
  unfold attempt
  refine Moves.bind (fun _ _ _ => Extends.trans) (fun w => (Prog.ends_modify _).2 (Extends.refl_of rfl rfl)) fun _ => ?_
  refine Moves.bind (fun _ _ _ => Extends.trans) hready fun _ => ?_
  exact roundtrip_extends serve fun id _ => Or.inr ⟨rfl, rfl, id, rfl⟩

theorem recover_extends (turn : Nat) (a : AttemptScript φ) (e : Raised) :
    Moves (Extends serve P) (recover cfg turn cmd a e) := by
  have hthrow : ∀ {α : Type} (e : Raised), Moves (Extends serve P) (throw e : Prog (World σ φ) Raised α) := fun e w =>
    (Prog.ends_throw e).2 (Extends.refl_of rfl rfl)
  have hpure : ∀ {α : Type} (x : α), Moves (Extends serve P) (pure x : Prog (World σ φ) Raised α) := fun x w =>
    (Prog.ends_pure x).2 (Extends.refl_of rfl rfl)
  have hdrop : Moves (Extends serve P) (discardConnection a.drop : Prog (World σ φ) Raised Unit) :=
    Moves.of fun w => by split <;> exact Extends.refl_of rfl rfl
  unfold recover
  split
  · refine Moves.bind (fun _ _ _ => Extends.trans) hdrop fun _ => ?_
    refine Moves.bind (fun _ _ _ => Extends.trans) (fun w => Prog.ends_get.2 (Extends.refl_of rfl rfl)) fun w => ?_
    repeat' split
    all_goals first | exact hthrow _ | exact hpure _
  · exact hthrow e

theorem tryOnce_extends (turn : Nat) (a : AttemptScript φ) :
    Moves (Extends serve (OfCall cfg.token cmd payload params)) (tryOnce cfg hmacHex serve turn cmd payload params a) := by
  have hsome : Moves (Extends serve (OfCall cfg.token cmd payload params))
      (some <$> attempt cfg hmacHex serve cmd payload params a) := by
    rw [map_eq_pure_bind]
    exact Moves.bind (fun _ _ _ => Extends.trans) (attempt_extends cfg hmacHex serve cmd payload params a) fun r w =>
      (Prog.ends_pure _).2 (Extends.refl_of rfl rfl)
  exact hsome.tryCatch (fun _ _ _ => Extends.trans) fun e => recover_extends cfg serve cmd turn a e

/-- **A call writes its own frames only**, however it ends and from whatever state. -/
theorem call_extends (s : CallScript φ) :
    Moves (Extends serve (OfCall cfg.token cmd payload params)) (call cfg hmacHex serve cmd payload params s) := by
  have hpure : ∀ r : PyDict × Bytes, Moves (Extends serve (OfCall cfg.token cmd payload params))
      (pure r : Prog (World σ φ) Raised (PyDict × Bytes)) := fun r w => (Prog.ends_pure r).2 (Extends.refl_of rfl rfl)
  unfold call
  refine Moves.bind (fun _ _ _ => Extends.trans) (tryOnce_extends cfg hmacHex serve cmd payload params 0 s.first) fun o => ?_
  cases o with
  | some r => exact hpure r
  | none =>
    refine Moves.bind (fun _ _ _ => Extends.trans) (tryOnce_extends cfg hmacHex serve cmd payload params 1 s.second)
      fun o => ?_
    cases o with
    | some r => exact hpure r
    | none => exact fun w => (Prog.ends_throw _).2 (Extends.refl_of rfl rfl)

end

end Agent
end SwitchMcp

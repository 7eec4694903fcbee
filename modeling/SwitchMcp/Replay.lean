import SwitchMcp.Server
/-!
# Replay — recorded frames against the nonce of a connection (agent/source/server.cpp, `Authenticate`)

A run is a list of connections, one after the other, each with the nonce the agent draws for it and what its peer sends.
Whoever listens has every frame of the connections so far, in both directions.  `replays_refused` says that with
`require_hmac_auth` nothing made out of them gets a peer in, on any connection of any run.
-/
namespace SwitchMcp
namespace Agent

open Json (Value)

/-! ## Codes over nonces -/

/-- `hmacSha256CalculateMac`: a code is `SHA256_HASH_SIZE` bytes long. -/
structure HmacSha256 where
  mac : Bytes → Bytes → Bytes
  length_mac : ∀ key text, (mac key text).length = 32

theorem lowHex_byte_inj {m n : Nat} (hm : m < 16) (hn : n < 16)
    (h : (JsonText.lowHex m).byte = (JsonText.lowHex n).byte) : m = n := by
  have hall : ∀ i j : Fin 16, (JsonText.lowHex i.val).byte = (JsonText.lowHex j.val).byte → i = j := by decide
  exact congrArg Fin.val (hall ⟨m, hm⟩ ⟨n, hn⟩ h)

/-- **The hexadecimal text of a nonce or of a code says which it is.** -/
theorem hexBytes_injective : Function.Injective hexBytes := by
  intro a
  induction a with
  | nil =>
    intro b h
    cases b with
    | nil => rfl
    | cons y b => cases h
  | cons x a ih =>
    intro b h
    cases b with
    | nil => cases h
    | cons y b =>
      simp only [hexBytes, List.flatMap_cons, List.cons_append, List.nil_append, List.cons.injEq] at h
      obtain ⟨hhi, hlo, hrest⟩ := h
      have hx := x.toNat_lt
      have hy := y.toNat_lt
      have e1 := lowHex_byte_inj (by omega) (by omega) hhi
      have e2 := lowHex_byte_inj (by omega) (by omega) hlo
      rw [UInt8.toNat_inj.1 (show x.toNat = y.toNat by omega), ih hrest]

/-- The text of the code over a nonce. -/
def macOver (cfg : AgentConfig) (hmac : HmacSha256) (nonce : Bytes) : Bytes := hexBytes (hmac.mac cfg.token (hexBytes nonce))

theorem length_macOver (cfg : AgentConfig) (hmac : HmacSha256) (nonce : Bytes) : (macOver cfg hmac nonce).length = 64 := by
  rw [macOver, length_hexBytes, hmac.length_mac]

/-! ## Runs -/

/-- The code a frame presents. -/
def presented (msg : Value) : Bytes := (msg.get (str "hmac")).asString []

/-- The nonce the agent draws on a connection, and what the peer sends. -/
structure Connection where
  nonce : Bytes
  turns : List Turn

def Turn.frame (t : Turn) : Option Value :=
  match t.read with
  | .ok (msg, _) => some msg
  | _ => none

def Connection.received (c : Connection) : List Value := c.turns.filterMap Turn.frame

/-- The peer asks for a challenge: the nonce is issued. -/
def Connection.asks (c : Connection) : Bool :=
  match c.turns with
  | ⟨.ok (msg, _), _⟩ :: _ =>
    decide ((msg.get (str "cmd")).asString [] = str "hello" ∧ (msg.get (str "auth")).asString [] = str "hmac")
  | _ => false

/-- The nonces the agent issues in a run. -/
def issued (run : List Connection) : List Bytes := (run.filter Connection.asks).map Connection.nonce

def Event.frame : Event → Option Value
  | .sent msg _ => some msg
  | _ => none

section
variable {σ : Type} (cfg : AgentConfig) (exec : Handler → Request → σ → (Bool × Reply) × σ) (hmac : HmacSha256)
  (fw : Nat × Nat × Nat)

def Connection.serve (c : Connection) (st : σ) : List Event × σ :=
  serveConnection cfg exec ⟨c.nonce, hmac.mac, fw⟩ c.turns st

/-- What the run leaves the console in. -/
def stateAfter (run : List Connection) (st : σ) : σ := run.foldl (fun st c => (c.serve cfg exec hmac fw st).2) st

/-- The frames of a connection, the peer's and the agent's. -/
def Connection.frames (c : Connection) (st : σ) : List Value :=
  c.received ++ (c.serve cfg exec hmac fw st).1.filterMap Event.frame

def recorded : List Connection → σ → List Value
  | [], _ => []
  | c :: run, st => c.frames cfg exec hmac fw st ++ recorded run (c.serve cfg exec hmac fw st).2

end

/-- A member as it was recorded, or cut short. -/
def CutFrom (v w : Value) : Prop := v = w ∨ ∃ (s : Bytes) (k : Nat), w = .string s ∧ v = .string (s.take k)

/-- A frame put together from recorded ones: each of its members is from one of them. -/
def Recombined (frames : List Value) (msg : Value) : Prop :=
  ∀ key, msg.get key = .null ∨ ∃ m ∈ frames, CutFrom (msg.get key) (m.get key)

/-- A frame made with the token for the connection it is sent on. -/
def AnswersFor (cfg : AgentConfig) (hmac : HmacSha256) (c : Connection) (msg : Value) : Prop :=
  c.asks = true ∧ presented msg = macOver cfg hmac c.nonce

/-- A frame made without the token: what it presents is no code over a nonce of the run. -/
def PresentsNone (cfg : AgentConfig) (hmac : HmacSha256) (run : List Connection) (msg : Value) : Prop :=
  ∀ n ∈ issued run, ¬macOver cfg hmac n <+: presented msg

/-- What a frame sent on a connection may be, after the connections before it. -/
def Plausible {σ : Type} (cfg : AgentConfig) (exec : Handler → Request → σ → (Bool × Reply) × σ) (hmac : HmacSha256)
    (fw : Nat × Nat × Nat) (run pre : List Connection) (st : σ) (c : Connection) (msg : Value) : Prop :=
  AnswersFor cfg hmac c msg ∨ PresentsNone cfg hmac run msg ∨ Recombined (recorded cfg exec hmac fw pre st) msg

/-! ## What the agent sends -/

theorem get_hmac_fail (code : String) (message : Bytes) : (fail code message).json.get (str "hmac") = .null := by
  rw [fail, Json.Value.get_set, if_neg (by decide)]
  rfl

theorem checkTier_fail {cmd : Bytes} {c : Command} {cfg : AgentConfig} {r : Reply} (h : checkTier cmd c cfg = some r) :
    ∃ code message, r = fail code message := by
  unfold checkTier at h
  split at h
  · exact ⟨_, _, (Option.some.inj h).symm⟩
  · split at h
    · exact ⟨_, _, (Option.some.inj h).symm⟩
    · split at h
      · exact ⟨_, _, (Option.some.inj h).symm⟩
      · split at h
        · exact ⟨_, _, (Option.some.inj h).symm⟩
        · cases h

theorem get_hmac_finishReply (id : Int64) (r : Reply) : (finishReply id r).get (str "hmac") = r.json.get (str "hmac") := by
  have h1 : str "id" ≠ str "hmac" := by decide
  have h2 : str "bin" ≠ str "hmac" := by decide
  unfold finishReply
  dsimp only
  split
  · rw [Json.Value.get_set, if_neg h1]
  · rw [Json.Value.get_set, if_neg h2, Json.Value.get_set, if_neg h1]

theorem get_hmac_handshake (cfg : AgentConfig) (env : AuthEnv) (id : Int64) :
    (challenge id env.nonce).get (str "hmac") = .null ∧ (rejection id).get (str "hmac") = .null ∧
      (welcome cfg env id).get (str "hmac") = .null := by
  have keys : ∀ k ∈ ["id", "challenge", "algo", "error", "ok", "agent_version", "protocol_version", "fw", "tier", "emummc",
      "allow_nand_write", "allow_overclock", "allow_hardware", "commands"], str k ≠ str "hmac" := by decide
  simp only [List.forall_mem_cons] at keys
  obtain ⟨k1, k2, k3, k4, k5, k6, k7, k8, k9, k10, k11, k12, k13, k14, -⟩ := keys
  refine ⟨?_, ?_, ?_⟩
  · simp only [challenge, Json.Value.get_set, if_neg k1, if_neg k2, if_neg k3]
    rfl
  · simp only [rejection, Json.Value.get_set, if_neg k1, if_neg k4]
    rfl
  · simp only [welcome, Json.Value.get_set, if_neg k1, if_neg k5, if_neg k6, if_neg k7, if_neg k8, if_neg k9, if_neg k10,
      if_neg k11, if_neg k12, if_neg k13, if_neg k14]
    rfl

section
variable {σ : Type} (cfg : AgentConfig) (exec : Handler → Request → σ → (Bool × Reply) × σ) (hmac : HmacSha256)
  (fw : Nat × Nat × Nat)

theorem authenticate_sent (env : AuthEnv) (turns : List Turn) {msg : Value} {out : Bytes}
    (h : Event.sent msg out ∈ (authenticate cfg env turns).2.1) : msg.get (str "hmac") = .null := by
  have conclude : ∀ (authed w : Bool) (m : Value) (id : Int64) (ts : List Turn),
      Event.sent msg out ∈ (concludeAuth cfg env authed m id w ts).2.1 → msg.get (str "hmac") = .null := by
    intro authed w m id ts h
    cases authed with
    | false =>
      cases List.mem_singleton.1 h
      exact (get_hmac_handshake cfg env id).2.1
    | true =>
      have hw : Event.sent msg out = .sent (welcome cfg env ((m.get (str "id")).asInt 0)) [] := by
        cases w with
        | false => exact List.mem_singleton.1 h
        | true =>
          rcases List.mem_cons.1 h with h | h
          · exact h
          · cases List.mem_singleton.1 h
      cases hw
      exact (get_hmac_handshake cfg env _).2.2
  have ask : ∀ id, Event.sent msg out ∈ [Event.sent (challenge id env.nonce) []] → msg.get (str "hmac") = .null := by
    intro id h
    cases List.mem_singleton.1 h
    exact (get_hmac_handshake cfg env id).1
  unfold authenticate at h
  cases turns with
  | nil => cases h
  | cons t ts =>
    obtain ⟨read, w⟩ := t
    rcases read with ⟨hello, p⟩ | _ | _
    case timeout => cases h
    case closed => cases h
    dsimp only at h
    split at h
    · cases h
    · split at h
      · cases w with
        | false => exact ask _ h
        | true =>
          cases ts with
          | nil => exact ask _ h
          | cons t' ts =>
            obtain ⟨read', w'⟩ := t'
            rcases read' with ⟨resp, p'⟩ | _ | _
            case timeout => exact ask _ h
            case closed => exact ask _ h
            rcases List.mem_cons.1 h with h | h
            · exact ask _ (List.mem_singleton.2 h)
            · exact conclude _ _ _ _ _ h
      · exact conclude _ _ _ _ _ h

/-- What the handlers reply has no `hmac` member. -/
def NoHmac : Prop := ∀ (h : Handler) (req : Request) (st : σ), (exec h req st).1.2.json.get (str "hmac") = .null

variable {exec}

theorem answer_no_hmac (hexec : NoHmac exec) (msg : Value) (payload : Bytes) (st : σ) :
    (answer cfg exec msg payload st).1.json.get (str "hmac") = .null := by
  have keys : ∀ k ∈ ["dry_run", "would_run", "tier", "note"], str k ≠ str "hmac" := by decide
  simp only [List.forall_mem_cons] at keys
  obtain ⟨k1, k2, k3, k4, -⟩ := keys
  unfold answer
  dsimp only
  split
  · exact get_hmac_fail _ _
  · split
    · rename_i hc
      obtain ⟨code, message, rfl⟩ := checkTier_fail hc
      exact get_hmac_fail _ _
    · split
      · simp only [preview, Reply.set, Json.Value.get_set, if_neg k1, if_neg k2, if_neg k3, if_neg k4]
        rfl
      · exact hexec _ _ _

theorem serveLoop_sent (hexec : NoHmac exec) {msg : Value} {out : Bytes} : ∀ (ts : List Turn) (idle : Nat) (st : σ),
    Event.sent msg out ∈ (serveLoop cfg exec idle ts st).1 → msg.get (str "hmac") = .null
  | [], idle, st, h => by cases h
  | ⟨.timeout, w⟩ :: ts, idle, st, h => by
    rw [serveLoop_timeout] at h
    split at h
    · cases h
    · exact serveLoop_sent hexec ts _ st h
  | ⟨.closed, w⟩ :: ts, idle, st, h => by
    rw [serveLoop_closed] at h
    cases h
  | ⟨.ok (m, payload), w⟩ :: ts, idle, st, h => by
    rw [serveLoop_frame] at h
    have hnone : Event.sent msg out ∉ (answer cfg exec m payload st).2.1 := by
      intro hm
      have hio := answer_io cfg exec m payload st
      rw [List.filter_eq_nil_iff] at hio
      exact hio _ hm rfl
    rcases List.mem_cons.1 h with h | h
    · cases h
    · rcases List.mem_append.1 h with h | h
      · exact absurd h hnone
      · rcases List.mem_cons.1 h with h | h
        · cases h
          rw [get_hmac_finishReply]
          exact answer_no_hmac cfg hexec m payload st
        · split at h
          · exact serveLoop_sent hexec ts 0 _ h
          · cases h

/-- **The agent sends no frame that presents a code.** -/
theorem serveConnection_sent (hexec : NoHmac exec) (env : AuthEnv) (turns : List Turn) (st : σ) {msg : Value}
    (h : msg ∈ (serveConnection cfg exec env turns st).1.filterMap Event.frame) : presented msg = [] := by
  obtain ⟨e, he, hf⟩ := List.mem_filterMap.1 h
  have hsent : ∃ out, e = .sent msg out := by
    cases e <;> simp only [Event.frame, Option.some.injEq, reduceCtorEq] at hf
    exact ⟨_, by rw [hf]⟩
  obtain ⟨out, rfl⟩ := hsent
  have hnull : msg.get (str "hmac") = .null := by
    unfold serveConnection at he
    dsimp only at he
    split at he
    · rw [List.mem_append, List.mem_append] at he
      rcases he with (he | he) | he
      · exact authenticate_sent cfg env turns he
      · exact serveLoop_sent cfg hexec _ 0 st he
      · cases List.mem_singleton.1 he
    · exact authenticate_sent cfg env turns he
  rw [presented, hnull]
  rfl

/-! ## What was recorded -/

theorem recorded_snoc : ∀ (run : List Connection) (c : Connection) (st : σ),
    recorded cfg exec hmac fw (run ++ [c]) st =
      recorded cfg exec hmac fw run st ++ c.frames cfg exec hmac fw (stateAfter cfg exec hmac fw run st)
  | [], c, st => by
    rw [List.nil_append, recorded, recorded, recorded, List.append_nil, List.nil_append]
    rfl
  | d :: run, c, st => by
    rw [List.cons_append, recorded, recorded, recorded_snoc run c, List.append_assoc]
    rfl

theorem presented_cut {v w : Value} (h : CutFrom v w) : v.asString [] <+: w.asString [] := by
  rcases h with rfl | ⟨s, k, rfl, rfl⟩
  · exact List.prefix_refl _
  · exact List.take_prefix k s

/-- A recombined frame presents nothing, or the beginning of what a recorded one does. -/
theorem presented_recombined {frames : List Value} {msg : Value} (h : Recombined frames msg) :
    presented msg = [] ∨ ∃ m ∈ frames, presented msg <+: presented m := by
  rcases h (str "hmac") with h | ⟨m, hm, h⟩
  · exact Or.inl (by rw [presented, h]; rfl)
  · exact Or.inr ⟨m, hm, presented_cut h⟩

theorem recombined_of_mem {frames : List Value} {msg : Value} (h : msg ∈ frames) : Recombined frames msg :=
  fun _ => Or.inr ⟨msg, h, Or.inl rfl⟩

variable {cfg hmac fw}

/-- **Only the code of a connection that was asked for it is ever recorded.** -/
theorem recorded_code (hexec : NoHmac exec) {run : List Connection} {st : σ}
    (hinj : Set.InjOn (fun n => hmac.mac cfg.token (hexBytes n)) {n | n ∈ issued run})
    (hrun : ∀ pre c post, run = pre ++ c :: post → ∀ msg ∈ c.received, Plausible cfg exec hmac fw run pre st c msg)
    {n : Bytes} (hn : n ∈ issued run) (pre : List Connection) :
    ∀ post, run = pre ++ post → ∀ m ∈ recorded cfg exec hmac fw pre st, macOver cfg hmac n <+: presented m →
      n ∈ issued pre := by
  have nonempty : ∀ {p : Bytes}, macOver cfg hmac n <+: p → p ≠ [] := by
    intro p hp hnil
    have hlen := hp.length_le
    rw [hnil, length_macOver] at hlen
    cases hlen
  induction pre using List.reverseRecOn with
  | nil => exact fun post h m hm => nomatch hm
  | append_singleton pre c ih =>
    intro post hpost m hm hmac
    rw [List.append_assoc, List.singleton_append] at hpost
    have before : n ∈ issued pre → n ∈ issued (pre ++ [c]) := by
      intro h
      rw [issued, List.filter_append, List.map_append]
      exact List.mem_append_left _ h
    rw [recorded_snoc, List.mem_append] at hm
    rcases hm with hm | hm
    · exact before (ih _ hpost m hm hmac)
    · rcases List.mem_append.1 hm with hm | hm
      · rcases hrun pre c post hpost m hm with ⟨hasks, hcode⟩ | hnone | hrec
        · rw [hcode] at hmac
          have heq := hmac.eq_of_length (by rw [length_macOver, length_macOver])
          have hc : c.nonce ∈ issued run := by
            refine List.mem_map.2 ⟨c, List.mem_filter.2 ⟨?_, hasks⟩, rfl⟩
            rw [hpost]
            exact List.mem_append_right _ List.mem_cons_self
          have hnonce : n = c.nonce := hinj hn hc (hexBytes_injective heq)
          rw [hnonce]
          refine List.mem_map.2 ⟨c, List.mem_filter.2 ⟨?_, hasks⟩, rfl⟩
          exact List.mem_append_right _ (List.mem_singleton.2 rfl)
        · exact absurd hmac (hnone n hn)
        · rcases presented_recombined hrec with h | ⟨m', hm', h⟩
          · exact absurd h (nonempty hmac)
          · exact before (ih _ hpost m' hm' (hmac.trans h))
      · exact absurd (serveConnection_sent cfg hexec _ _ _ hm) (nonempty hmac)

/-- **With `require_hmac_auth` a peer without the token is never let in, whatever it recorded.**  In every run in which the
nonces that the agent issues are pairwise distinct and have distinct codes under the token, on every connection whose frames
are put together from frames recorded before it, in any order and cut short anywhere, or present no code at all, the
handshake fails and no handler is entered. -/
theorem replays_refused (hexec : NoHmac exec) (run : List Connection) (st : σ) (hreq : cfg.requireHmacAuth = true)
    (hdistinct : (issued run).Nodup)
    (hinj : Set.InjOn (fun n => hmac.mac cfg.token (hexBytes n)) {n | n ∈ issued run})
    (hrun : ∀ pre c post, run = pre ++ c :: post → ∀ msg ∈ c.received, Plausible cfg exec hmac fw run pre st c msg)
    (pre : List Connection) (c : Connection) (post : List Connection) (hc : run = pre ++ c :: post)
    (hpeer : ∀ msg ∈ c.received, PresentsNone cfg hmac run msg ∨ Recombined (recorded cfg exec hmac fw pre st) msg) :
    (authenticate cfg ⟨c.nonce, hmac.mac, fw⟩ c.turns).1 = false ∧
      ∀ cmd h req, .entered cmd h req ∉ (c.serve cfg exec hmac fw (stateAfter cfg exec hmac fw pre st)).1 := by
  have hrefused : (authenticate cfg ⟨c.nonce, hmac.mac, fw⟩ c.turns).1 = false := by
    rw [Bool.eq_false_iff]
    intro hin
    obtain ⟨hello, p, w, ts, hturns, hcmd, ⟨hauth, -, resp, p', w', ts', hts, hmac'⟩ | ⟨hno, -⟩⟩ := authenticate_checked hin
    · obtain ⟨-, hlen, hcode⟩ := (checkMac_iff cfg _ _).1 hmac'
      have hasks : c.asks = true := by
        rw [Connection.asks, hturns]
        exact decide_eq_true ⟨hcmd, hauth⟩
      have hresp : resp ∈ c.received := by
        rw [Connection.received, hturns, hts]
        exact List.mem_cons_of_mem _ List.mem_cons_self
      have hpresented : macOver cfg hmac c.nonce = presented resp := hcode.symm
      have hissued : issued run = issued pre ++ c.nonce :: issued post := by
        rw [hc, issued, List.filter_append, List.filter_cons_of_pos hasks, List.map_append, List.map_cons]
        rfl
      have hmem : c.nonce ∈ issued run := by
        rw [hissued]
        exact List.mem_append_right _ List.mem_cons_self
      rcases hpeer resp hresp with hnone | hrec
      · exact hnone _ hmem (by rw [hpresented])
      · rcases presented_recombined hrec with hnil | ⟨m, hm, hpre⟩
        · rw [← hpresented] at hnil
          have := length_macOver cfg hmac c.nonce
          rw [hnil] at this
          cases this
        · have hold := recorded_code hexec hinj hrun hmem pre (c :: post) hc m hm (by rwa [hpresented])
          rw [hissued] at hdistinct
          exact (List.nodup_append.1 hdistinct).2.2 _ hold _ List.mem_cons_self rfl
    · rw [hreq] at hno
      cases hno
  refine ⟨hrefused, fun cmd h req he => ?_⟩
  obtain ⟨l, hl, hsent⟩ := authenticate_events cfg ⟨c.nonce, hmac.mac, fw⟩ c.turns
  rw [Connection.serve, serveConnection, hrefused] at he
  rw [hrefused] at hl
  rw [if_neg (by decide), hl, if_neg (by decide), List.append_nil] at he
  obtain ⟨r, hr⟩ := hsent _ he
  cases hr

end

/-! ## A recorded handshake -/

def hmacConfig : AgentConfig := { plainConfig with requireHmacAuth := true }

def firstNonce : Bytes := List.replicate 32 1

def secondNonce : Bytes := List.replicate 32 2

/-- HMAC-SHA256 under the key `k` of the text of `firstNonce`. -/
def firstMac : Bytes :=
  [165, 4, 15, 172, 40, 129, 201, 64, 130, 118, 9, 112, 115, 120, 118, 22, 177, 138, 169, 41, 199, 38, 18, 96, 112, 82, 147,
    228, 117, 106, 40, 39]

/-- HMAC-SHA256 under the key `k` of the text of `secondNonce`. -/
def secondMac : Bytes :=
  [132, 120, 82, 21, 244, 13, 252, 172, 154, 199, 109, 255, 122, 114, 1, 235, 148, 76, 6, 133, 131, 19, 221, 207, 63, 166,
    243, 23, 126, 164, 231, 81]

def keyMac (text : Bytes) : Bytes :=
  if text = hexBytes firstNonce then firstMac else if text = hexBytes secondNonce then secondMac else List.replicate 32 0

theorem length_keyMac (text : Bytes) : (keyMac text).length = 32 := by
  unfold keyMac
  split
  · rfl
  · split <;> rfl

def keyHmac : HmacSha256 := ⟨fun _ text => keyMac text, fun _ => length_keyMac⟩

def probe : Value := .object [(str "cmd", .string (str "hello")), (str "auth", .string (str "hmac"))]

def proof : Value := .object [(str "cmd", .string (str "auth")), (str "hmac", .string (hexBytes firstMac))]

/-- The handshake of a client with the token, and the same frames again on the next connection. -/
def handshake : Connection := ⟨firstNonce, [⟨.ok (probe, []), true⟩, ⟨.ok (proof, []), true⟩]⟩

def replayed : Connection := { handshake with nonce := secondNonce }

theorem replays_refused_handshake :
    (authenticate hmacConfig ⟨firstNonce, keyHmac.mac, (22, 1, 0)⟩ handshake.turns).1 = true ∧
    (authenticate hmacConfig ⟨secondNonce, keyHmac.mac, (22, 1, 0)⟩ replayed.turns).1 = false := by
  have hissued : issued [handshake, replayed] = [firstNonce, secondNonce] := by decide +kernel
  have hreplay : ∀ msg ∈ replayed.received,
      Recombined (recorded hmacConfig always keyHmac (22, 1, 0) [handshake] ()) msg := by
    intro msg hmsg
    exact recombined_of_mem (List.mem_append_left _ (List.mem_append_left _ hmsg))
  refine ⟨by decide +kernel, (replays_refused (fun _ _ _ => rfl) [handshake, replayed] () rfl (by rw [hissued]; decide) ?_ ?_
    [handshake] replayed [] rfl fun msg hmsg => Or.inr (hreplay msg hmsg)).1⟩
  · rw [hissued]
    intro a ha b hb hab
    simp only [Set.mem_ofPred_eq, List.mem_cons, List.not_mem_nil, or_false] at ha hb
    revert hab
    rcases ha with rfl | rfl <;> rcases hb with rfl | rfl <;> decide +kernel
  · intro pre c post h msg hmsg
    rcases pre with _ | ⟨d, _ | ⟨e, pre⟩⟩
    · cases h
      rcases List.mem_cons.1 hmsg with rfl | hmsg
      · refine Or.inr (Or.inl ?_)
        rw [PresentsNone, hissued]
        decide +kernel
      · cases List.mem_singleton.1 hmsg
        exact Or.inl ⟨by decide +kernel, by decide +kernel⟩
    · cases h
      exact Or.inr (Or.inr (hreplay msg hmsg))
    · simp at h

end Agent
end SwitchMcp

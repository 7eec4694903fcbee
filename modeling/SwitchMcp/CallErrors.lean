import SwitchMcp.CardFiles
import SwitchMcp.JsonUtf8
import SwitchMcp.Unread
/-!
# CallErrors — when a call says that the agent does not know a command (clients/agentd.py)

The code of a `ClientError` is what the agent answered, or one of the client's own.  An agent that answers no handshake
with `unknown_command` (`Knows`) is told by a call with that code to have answered the call's own request with it
(`call_raises`), as the agent here is (`knows_serve`).
-/
namespace SwitchMcp
namespace Agent

open Json (Value Ordered Utf8Value ValidValue ofMembers toPy)
open PyJson (dictGet)
open Prog (Ends)

/-- `e.code` of a `ClientError`. -/
def Exc.code : Exc → Option PyJson
  | .clientError code _ => some code
  | _ => none

def unknownCommand : PyJson := .str (py "unknown_command")

theorem code_of_link {e : Exc} (h : e.link = true) : e.code = none := by cases e <;> first | rfl | cases h

theorem code_of_transient {e : Exc} (h : e.transient = true) : e.code = none := code_of_link (link_of_transient h)

theorem code_await (a : Await) : a.exc.code = none := by cases a <;> rfl

theorem code_clientError {code : String} (hc : py code ≠ py "unknown_command") (message : PyStr) :
    (clientError code message).code ≠ some unknownCommand := fun h => hc (PyJson.str.inj (Option.some.inj h))

section
variable {σ φ : Type} (serve : φ → Bytes → Bytes → σ → ReplyFrame × σ) (cfg : ClientConfig)
  (hmacHex : Bytes → Bytes → PyStr)

/-- **A roundtrip that raises a `ClientError`**, on a connection with nothing unread: its request is too long, or the error is
the agent's answer to it. -/
theorem roundtrip_raises {w : World σ φ} {c : Conn} (hc : w.conn = some c) (hrx : c.rx = []) (kind : Kind) (flag : Bool)
    (msg : PyDict) (payload : Bytes) (x : ExchangeScript φ) :
    Ends (roundtrip serve kind flag msg payload x) w (fun _ _ => True)
      (fun e w' => e.exc.code = some unknownCommand →
        ∃ r f, Wrote serve kind msg payload w w' f ∧ Replied serve f w.agent r ∧ checkError r.1 = .error e.exc) := by
  have hx := @exec_roundtrip _ _ serve _ kind flag msg payload x _ hc
  by_cases hlen : maxJson < (requestText (w.id + 1) msg payload).length
  · rw [if_pos hlen] at hx
    exact (Prog.ends_iff_error hx).2 fun h => absurd h (code_clientError (by decide) _)
  · rw [if_neg hlen] at hx
    have hagent := exchange_agent serve x kind (requestText (w.id + 1) msg payload) payload c w.agent
    rcases exchange_cases serve x kind (requestText (w.id + 1) msg payload) payload c w.agent hrx with
      ⟨d, bytes, hr, hd, hl, hb, -⟩ | ⟨e, hr, he⟩
    · cases herr : checkError d with
      | ok _ =>
        simp only [hr, roundtripResult, herr] at hx
        exact (Prog.ends_iff_ok hx).2 trivial
      | error exc =>
        simp only [hr, roundtripResult, herr] at hx
        exact (Prog.ends_iff_error hx).2 fun _ =>
          ⟨(d, bytes), _, ⟨rfl, hagent, rfl, rfl, rfl⟩, ⟨hd, by rw [hr]; rfl, hl, hb⟩, herr⟩
    · simp only [hr, roundtripResult] at hx
      refine (Prog.ends_iff_error hx).2 fun h => ?_
      rw [code_of_link he] at h
      cases h

/-! ## Handshakes -/

/-- The agent answers no frame of a handshake with `unknown_command`. -/
def Knows : Prop := ∀ (f : Sent φ) (st : σ) (d : PyDict) (e : Exc), IsHandshake cfg.token f →
  PyJson.loads (serve f.fault f.text f.payload st).1.text = some (.dict d) → checkError d = .error e →
    e.code ≠ some unknownCommand

/-- The exception does not say that the agent lacks a command. -/
def Raised.Other (e : Raised) : Prop := e.exc.code ≠ some unknownCommand

theorem openConnection_raises (a : Await) (w : World σ φ) :
    Ends (openConnection a) w (fun _ w' => w'.conn = some ⟨[], false⟩) (fun e _ => e.Other) := by
  have hother : Raised.Other ⟨a.exc, .opening⟩ := fun h => by rw [code_await] at h; cases h
  cases a with
  | done => exact ⟨fun h => by cases h; rfl, fun h => nomatch h⟩
  | _ => exact ⟨fun h => (nomatch h), fun h => by cases h; exact hother⟩

variable {serve cfg}

theorem handshake_raises (hk : Knows serve cfg) {kind : Kind} {msg : PyDict} (hm : HandshakeMsg cfg.token kind msg)
    {w : World σ φ} {c : Conn} (hc : w.conn = some c) (hrx : c.rx = []) (x : ExchangeScript φ) :
    Ends (roundtrip serve kind false msg [] x) w (fun _ w' => ∃ c', w'.conn = some c' ∧ c'.rx = [])
      (fun e _ => e.Other) := by
  refine ((roundtrip_ends serve hc hrx kind false msg [] x).and
    (roundtrip_raises serve hc hrx kind false msg [] x)).mono (fun r w1 h1 => ?_) (fun e w1 h1 hcode => ?_)
  · obtain ⟨⟨f, hf⟩, -⟩ := h1
    obtain ⟨c', hc', hrx', -⟩ := hf.conn
    exact ⟨c', hc', hrx'⟩
  · obtain ⟨r, f, hf, hr, herr⟩ := h1.2 hcode
    refine hk f w.agent r.1 e.exc ⟨hf.of_payload, _, msg, hf.of_msg, ?_⟩ hr.decodes herr hcode
    rw [hf.of_kind]
    exact hm

theorem authenticateLegacy_raises (hk : Knows serve cfg) (s : LegacyScript φ) (w : World σ φ) :
    Ends (authenticateLegacy cfg serve s) w (fun _ _ => True) (fun e _ => e.Other) := by
  simp only [authenticateLegacy, Prog.ends_bind, Prog.ends_modify, Prog.ends_pure]
  refine (discardConnection_ends s.drop w).mono (fun _ w1 _ => ?_) (fun e w1 h1 => ?_)
  · refine (openConnection_raises s.opened w1).mono (fun _ w2 h2 => ?_) (fun _ _ h => h)
    exact (handshake_raises hk .legacy h2 rfl s.hello).mono (fun _ _ _ => trivial) (fun _ _ h => h)
  · rw [h1.1]
    intro h
    cases h

theorem authenticateHmac_raises (hk : Knows serve cfg) (challenge : PyJson) (x : ExchangeScript φ) {w : World σ φ}
    {c : Conn} (hc : w.conn = some c) (hrx : c.rx = []) :
    Ends (authenticateHmac cfg hmacHex serve challenge x) w (fun _ _ => True) (fun e _ => e.Other) := by
  unfold authenticateHmac
  split
  · rename_i e he
    refine (Prog.ends_throw _).2 fun h => ?_
    unfold macOf at he
    repeat' split at he
    all_goals cases he
    all_goals cases h
  · simp only [Prog.ends_bind, Prog.ends_modify, Prog.ends_pure]
    exact (handshake_raises hk (.auth _) hc hrx x).mono (fun _ _ _ => trivial) (fun _ _ h => h)

theorem clientAuthenticate_raises (hk : Knows serve cfg) (s : ConnectScript φ) {w : World σ φ} {c : Conn}
    (hc : w.conn = some c) (hrx : c.rx = []) :
    Ends (clientAuthenticate cfg hmacHex serve s) w (fun _ _ => True) (fun e _ => e.Other) := by
  unfold clientAuthenticate
  rw [Prog.ends_bind]
  refine (handshake_raises hk .hello hc hrx s.probe).mono (fun r w1 h1 => ?_) (fun _ _ h => h)
  obtain ⟨c1, hc1, hrx1⟩ := h1
  split
  · exact authenticateHmac_raises hmacHex hk _ _ hc1 hrx1
  · exact authenticateLegacy_raises hk _ _

/-- **No `_connect` says that the agent lacks a command.** -/
theorem connect_raises (hk : Knows serve cfg) (s : ConnectScript φ) (w : World σ φ) :
    Ends (connect cfg hmacHex serve s) w (fun _ _ => True) (fun e _ => e.Other) := by
  have hok : ∀ reply (w2 : World σ φ), Ends (checkOk reply) w2 (fun _ _ => True) (fun e _ => e.Other) := by
    intro reply w2
    unfold checkOk
    split
    · exact (Prog.ends_pure _).2 trivial
    · exact (Prog.ends_throw _).2 (code_clientError (by decide) _)
  simp only [connect, Prog.ends_bind, Prog.ends_tryCatch]
  refine (openConnection_raises s.opened w).mono (fun _ w1 h1 => ?_) (fun _ _ h => h)
  refine (clientAuthenticate_raises hmacHex hk s h1 rfl).mono (fun r w2 _ => hok r w2) (fun e w2 h2 => ?_)
  simp only [fallBack, Prog.ends_bind, Prog.ends_get]
  split
  · exact (authenticateLegacy_raises hk s.again w2).mono (fun r w3 _ => hok r w3) (fun _ _ h => h)
  · exact (Prog.ends_throw _).2 h2

theorem ready_raises (hk : Knows serve cfg) (a : AttemptScript φ) (w : World σ φ) :
    Ends (ready cfg hmacHex serve a) w (fun _ _ => True) (fun e _ => e.Other) := by
  simp only [ready, Prog.ends_bind, Prog.ends_get]
  split
  · exact connect_raises hmacHex hk a.connect w
  · exact (Prog.ends_pure _).2 trivial

/-! ## Calls -/

variable {cmd : PyStr} {payload : Bytes} {params : PyDict}

variable (serve cfg cmd payload params) in
/-- The call's own request was answered with the error that is raised. -/
def Refused (w w' : World σ φ) (e : Exc) : Prop :=
  ∃ r, (∃ pre f, Answered serve cfg cmd payload params w w' r pre f) ∧ checkError r.1 = .error e

theorem attempt_raises (hk : Knows serve cfg) (a : AttemptScript φ) {w : World σ φ} (hw : AllRead w) :
    Ends (attempt cfg hmacHex serve cmd payload params a) w (fun _ _ => True)
      (fun e w' => e.exc.code = some unknownCommand → Refused serve cfg cmd payload params w w' e.exc) := by
  simp only [attempt, Prog.ends_bind, Prog.ends_modify]
  have hin : AllRead { w with sent := false } := hw
  have hready : Ends (ready cfg hmacHex serve a) { w with sent := false } (fun _ w' => Fresh w')
      (fun e w' => LeavesRead serve (OfCall cfg.token cmd payload params) e w') :=
    ready_read hmacHex (fun _ => Or.inl) a hin
  refine ((hready.and ((handshaking_extends cfg serve).ready_moves hmacHex a _)).and
    (ready_raises hmacHex hk a _)).mono (fun _ w1 h1 => ?_) (fun e w1 h1 hcode => absurd hcode h1.2)
  obtain ⟨⟨⟨c, hc, hrx⟩, hext⟩, -⟩ := h1
  refine (roundtrip_raises serve hc hrx .command true _ payload a.exchange).mono (fun _ _ _ => trivial)
    (fun e w2 h2 hcode => ?_)
  obtain ⟨r, f, hf, hr, herr⟩ := h2 hcode
  have hext' : Extends serve (IsHandshake cfg.token) w w1 := hext
  exact ⟨r, answered_of_wrote hext' hf hr, herr⟩

theorem tryOnce_raises (hk : Knows serve cfg) (turn : Nat) (a : AttemptScript φ) {w : World σ φ} (hw : AllRead w) :
    Ends (tryOnce cfg hmacHex serve turn cmd payload params a) w (fun _ _ => True)
      (fun e w' => e.exc.code = some unknownCommand → Refused serve cfg cmd payload params w w' e.exc) := by
  simp only [tryOnce, Prog.ends_tryCatch, map_eq_pure_bind, Prog.ends_bind, Prog.ends_pure]
  refine (attempt_raises hmacHex hk a hw).mono (fun _ _ _ => trivial) (fun e w1 h1 => ?_)
  unfold recover
  split
  · rename_i ht
    simp only [Prog.ends_bind, Prog.ends_get]
    refine (discardConnection_ends a.drop w1).mono (fun _ w2 _ => ?_) (fun e' w2 h2 hcode => ?_)
    · split
      · exact (Prog.ends_throw _).2 fun h => absurd h (code_clientError (by decide) _)
      · split
        · exact (Prog.ends_pure _).2 trivial
        · split
          · exact (Prog.ends_throw _).2 fun h => by rw [code_of_transient ht] at h; cases h
          · split
            · exact (Prog.ends_throw _).2 fun h => absurd h (code_clientError (by decide) _)
            · exact (Prog.ends_pure _).2 trivial
    · rw [h2.1] at hcode
      cases hcode
  · exact (Prog.ends_throw _).2 h1

/-- **A call, from a client that has read all, that raises `unknown_command` raises what the agent answered to its request.** -/
theorem call_raises (hk : Knows serve cfg) (s : CallScript φ) {w : World σ φ} (hw : AllRead w) :
    Ends (call cfg hmacHex serve cmd payload params s) w (fun _ _ => True)
      (fun e w' => e.exc.code = some unknownCommand → Refused serve cfg cmd payload params w w' e.exc) := by
  simp only [call, Prog.ends_bind]
  refine ((tryOnce_read hmacHex cmd payload params 0 s.first hw).and
    (tryOnce_raises hmacHex hk 0 s.first hw)).mono (fun o w1 h1 => ?_) (fun _ _ h => h.2)
  cases o with
  | some r => exact (Prog.ends_pure _).2 trivial
  | none =>
    simp only [Prog.ends_bind]
    refine (tryOnce_raises hmacHex hk 1 s.second h1.1.1).mono (fun o w2 _ => ?_) (fun e w2 h2 hcode => ?_)
    · cases o with
      | some r => exact (Prog.ends_pure _).2 trivial
      | none => exact (Prog.ends_throw _).2 fun h => nomatch h
    · obtain ⟨r, ha, herr⟩ := h2 hcode
      exact ⟨r, h1.1.2.answered ha, herr⟩

end

/-! ## The agent's handshake -/

/-- **What the client reads of a frame that is no refusal to write one.** -/
theorem reads_value {v : Value} (hobj : ∃ o, v = .object o) (hord : Ordered v) (hu : Utf8Value v) {blob : Bytes} {d : PyDict}
    (h : PyJson.loads (replyFrame v blob).text = some (.dict d)) (k : String) (hk : asciiOnly k = true) :
    dictGet d (py k) = if v.has (str k) = true then some (toPy (v.get (str k))) else none := by
  obtain ⟨o, rfl⟩ := hobj
  have hd : d = Json.toPyObject [] o := by
    unfold replyFrame at h
    split at h
    · rw [Json.loads_dump _ hu, toPy] at h
      cases h
      rfl
    · have hblank : PyJson.loads blankFrame.text = none := by decide
      rw [hblank] at h
      cases h
  rw [hd, Json.dictGet_toPy hord hu k hk, Value.has, Value.get]
  cases Json.mapFind o (str k) <;> simp

theorem ordered_ofMembers (l : List (String × Value)) (h : ∀ m ∈ l, Ordered m.2) : Ordered (ofMembers l) := by
  induction l using List.reverseRecOn with
  | nil => exact ⟨List.Pairwise.nil, trivial⟩
  | append_singleton l m ih =>
    rw [Json.ofMembers_snoc]
    exact Json.ordered_set _ _ _ (ih fun m hm => h m (List.mem_append_left _ hm))
      (h m (List.mem_append_right _ List.mem_cons_self))

/-- **An object without an `error` is read as one.** -/
theorem no_error_ofMembers {l : List (String × Value)} (keys : List String) (hl : l.map Prod.fst = keys)
    (hk : Json.MemberKeys keys) (hno : str "error" ∉ keys.map str) (hv : ∀ m ∈ l, ValidValue m.2 ∧ Ordered m.2)
    {blob : Bytes} {d : PyDict} (h : PyJson.loads (replyFrame (ofMembers l) blob).text = some (.dict d)) {e : Exc} :
    checkError d ≠ .error e := by
  obtain ⟨o, ho, hfind, hvalid⟩ := Json.object_ofMembers l (by rwa [hl])
  have hu : ValidValue (ofMembers l) := by
    rw [ho]
    exact hvalid.2 fun m hm => (hv m hm).1
  have hget := reads_value ⟨o, ho⟩ (ordered_ofMembers l fun m hm => (hv m hm).2) (ValidValue.utf8 _ hu) h "error"
    (by decide)
  rw [ho, Value.has, hfind _ (by rwa [hl]), Option.isSome_none, if_neg Bool.false_ne_true] at hget
  unfold checkError
  rw [hget]
  intro h
  cases h

theorem validUtf8_hexBytes (s : Bytes) : ValidUtf8 (hexBytes s) := by
  rw [hexBytes_eq]
  refine validUtf8_utf8 fun c hc => ?_
  obtain ⟨b, -, hc⟩ := List.mem_flatMap.1 hc
  have hb := b.toNat_lt
  have hcp : ∀ n : Fin 16, isSurrogate (Guards.hexCp n.val).val = false := by decide
  rcases List.mem_cons.1 hc with rfl | hc
  · exact hcp ⟨b.toNat / 16, by omega⟩
  · rw [List.mem_singleton.1 hc]
    exact hcp ⟨b.toNat % 16, by omega⟩

theorem advertised_valid {cfg : AgentConfig} {name : Bytes} (h : name ∈ advertised cfg) : ValidUtf8 name := by
  have hkeys : ∀ (l : List Command) (o : List (Bytes × Value)) (k : Bytes),
      k ∈ (l.foldl (fun o c => Json.mapSet o (str c.name) .null) o).map Prod.fst →
      k ∈ o.map Prod.fst ∨ ∃ c ∈ l, k = str c.name := by
    intro l
    induction l with
    | nil => exact fun o k hk => Or.inl hk
    | cons c l ih =>
      intro o k hk
      rcases ih _ k hk with hk | ⟨c', hc', hk⟩
      · rcases Json.mem_keys_mapSet o _ _ k hk with rfl | hk
        · exact Or.inr ⟨c, List.mem_cons_self, rfl⟩
        · exact Or.inl hk
      · exact Or.inr ⟨c', List.mem_cons_of_mem c hc', hk⟩
  rcases hkeys _ [] name h with h | ⟨c, hc, rfl⟩
  · cases h
  · have hall : (dispatch.all fun c => asciiOnly c.name) = true := by decide
    exact Json.validUtf8_str (List.all_eq_true.1 hall c (List.mem_filter.1 hc).1)

theorem challenge_reads {id : Int64} {nonce : Bytes} {d : PyDict} {e : Exc}
    (h : PyJson.loads (replyFrame (challenge id nonce) []).text = some (.dict d)) : checkError d ≠ .error e := by
  have hmembers : challenge id nonce = ofMembers [("id", .int id), ("challenge", .string (hexBytes nonce)),
    ("algo", .string (str "hmac-sha256"))] := rfl
  rw [hmembers] at h
  refine no_error_ofMembers ["id", "challenge", "algo"] rfl (by decide) (by decide) ?_ h
  simp only [List.forall_mem_cons, List.not_mem_nil, false_imp_iff, implies_true, and_true]
  exact ⟨⟨trivial, trivial⟩, ⟨validUtf8_hexBytes nonce, trivial⟩, ⟨Json.validUtf8_str (by decide), trivial⟩⟩

theorem decimal_valid (n : Nat) : ValidUtf8 (welcome.fmtDec n) := by
  refine validUtf8_ascii fun b hb => ?_
  obtain ⟨d, -, rfl⟩ := List.mem_map.1 hb
  have hall : ∀ d : Fin 10, (JsonText.digitByte d).toNat < 0x80 := by decide
  exact hall d

theorem welcome_reads {cfg : AgentConfig} {env : AuthEnv} {id : Int64} {d : PyDict} {e : Exc}
    (h : PyJson.loads (replyFrame (welcome cfg env id) []).text = some (.dict d)) : checkError d ≠ .error e := by
  have hmembers : welcome cfg env id = ofMembers [("id", .int id), ("ok", .bool true),
    ("agent_version", .string (str "0.2.0")), ("protocol_version", .int 1),
    ("fw", .string (welcome.fmtDec env.fw.1 ++ ch '.' :: (welcome.fmtDec env.fw.2.1 ++ ch '.' :: welcome.fmtDec env.fw.2.2))),
    ("tier", .string (tierName cfg.tier)), ("emummc", .bool cfg.isEmummc), ("allow_nand_write", .bool cfg.allowNandWrite),
    ("allow_overclock", .bool cfg.allowOverclock), ("allow_hardware", .bool cfg.allowHardware),
    ("commands", .array ((advertised cfg).map .string))] := rfl
  have hfw : ValidUtf8 (welcome.fmtDec env.fw.1 ++ ch '.' :: (welcome.fmtDec env.fw.2.1 ++ ch '.' :: welcome.fmtDec env.fw.2.2)) := by
    rw [validUtf8_split (by decide), validUtf8_split (by decide)]
    exact ⟨decimal_valid _, decimal_valid _, decimal_valid _⟩
  have htier : ValidUtf8 (tierName cfg.tier) := by
    cases cfg.tier <;> exact Json.validUtf8_str (by decide)
  have hcommands : ValidValue (.array ((advertised cfg).map .string)) := by
    rw [ValidValue, Json.validArray_iff, List.forall_mem_map]
    exact fun name hname => advertised_valid hname
  have hordered : Ordered (.array ((advertised cfg).map .string)) := by
    rw [Ordered]
    generalize advertised cfg = names
    induction names with
    | nil => trivial
    | cons name names ih => exact ⟨trivial, ih⟩
  rw [hmembers] at h
  refine no_error_ofMembers ["id", "ok", "agent_version", "protocol_version", "fw", "tier", "emummc", "allow_nand_write",
    "allow_overclock", "allow_hardware", "commands"] rfl (by decide) (by decide) ?_ h
  simp only [List.forall_mem_cons, List.not_mem_nil, false_imp_iff, implies_true, and_true]
  exact ⟨⟨trivial, trivial⟩, ⟨trivial, trivial⟩, ⟨Json.validUtf8_str (by decide), trivial⟩, ⟨trivial, trivial⟩,
    ⟨hfw, trivial⟩, ⟨htier, trivial⟩, ⟨trivial, trivial⟩, ⟨trivial, trivial⟩, ⟨trivial, trivial⟩, ⟨trivial, trivial⟩,
    ⟨hcommands, hordered⟩⟩

theorem rejection_reads {id : Int64} {d : PyDict} {e : Exc}
    (h : PyJson.loads (replyFrame (rejection id) []).text = some (.dict d)) (he : checkError d = .error e) :
    e.code ≠ some unknownCommand := by
  have hinner : toPy (((Value.object []).set (str "code") (.string (str "auth"))).set (str "message")
      (.string (str "invalid credentials"))) =
      .dict [(py "code", .str (py "auth")), (py "message", .str (py "invalid credentials"))] := by decide +kernel
  have hu : Utf8Value (rejection id) := by
    refine Json.utf8Value_set _ _ _ (Json.utf8Value_set _ _ _ trivial (Json.isUtf8_str "id" (by decide)) trivial)
      (Json.isUtf8_str "error" (by decide)) ?_
    exact Json.utf8Value_set _ _ _ (Json.utf8Value_set _ _ _ trivial (Json.isUtf8_str "code" (by decide))
      (Json.isUtf8_str "auth" (by decide))) (Json.isUtf8_str "message" (by decide))
      (Json.isUtf8_str "invalid credentials" (by decide))
  have hempty : Ordered (.object []) := ⟨List.Pairwise.nil, trivial⟩
  have hord : Ordered (rejection id) := Json.ordered_set _ _ _ (Json.ordered_set _ _ _ hempty trivial)
    (Json.ordered_set _ _ _ (Json.ordered_set _ _ _ hempty trivial) trivial)
  have hget := reads_value (object_set _ _ _) hord hu h "error" (by decide)
  rw [Value.has_set, decide_eq_true rfl, Bool.true_or, if_pos rfl, Value.get_set, if_pos rfl, hinner] at hget
  unfold checkError at he
  rw [hget] at he
  cases he
  exact code_clientError (by decide) _

/-- **The agent here answers no handshake with `unknown_command`.** -/
theorem knows_serve (b : Build) : Knows b.serve cfg := by
  intro f st d e hf hl he
  obtain ⟨msg, hserve⟩ := serve_greets b hf
  rw [hserve st] at hl
  unfold Build.greet at hl
  dsimp only at hl
  split at hl
  · split at hl
    · exact absurd he (challenge_reads hl)
    · split at hl
      · exact absurd he (welcome_reads hl)
      · exact rejection_reads hl he
  · split at hl
    · exact absurd he (welcome_reads hl)
    · exact rejection_reads hl he

end Agent
end SwitchMcp

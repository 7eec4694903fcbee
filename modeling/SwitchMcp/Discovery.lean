import SwitchMcp.CallErrors
/-!
# Discovery — the agents of the local network (server/src/switch_mcp/discovery.py)

`_probe` sends an agent's hello to a host, with the token in it, and reads one frame back; `scan` does so to the 254 hosts of
the local /24.  A host may be an agent, whose `ReadFrame` and `Authenticate` answer, or anything else.  What `json.loads` makes of
a text of a host that is no agent depends on the encoding it guesses and on the limits of the interpreter, so it is a parameter,
of which only the reading of what agents write is assumed.  `scan_finds` says which hosts are found, and where no list comes
back at all.
-/
namespace SwitchMcp
namespace Agent
namespace Discovery

open Json (Value Ordered Utf8Value ofPy toPy)
open PyJson (dictGet)

/-! ## Hosts -/

/-- How a connection goes on after some bytes: it ends, or nothing more comes. -/
inductive Ending
  | closed | silent
deriving DecidableEq

/-- What a host sends back. -/
structure Stream where
  bytes : Bytes
  ending : Ending

/-- An agent: its configuration, its part of the handshake, and how the bytes it is sent are cut into segments. -/
structure AgentHost where
  cfg : AgentConfig
  env : AuthEnv
  fw_lt : env.fw.1 < 256 ∧ env.fw.2.1 < 256 ∧ env.fw.2.2 < 256
  cut : Bytes → List Arrival
  cut_marks : ∀ b, ∃ t, marks (cut b) = b.map some ++ t
  ending : Ending

/-- What is at an address: nothing that accepts a connection in time, an agent, or something else. -/
inductive Peer
  | absent
  | agent (a : AgentHost)
  | other (answer : Bytes → Stream)

def written : List Event → Bytes
  | [] => []
  | .sent msg out :: l => writeFrame msg out ++ written l
  | _ :: l => written l

/-- What an agent sends back to the first frame of a connection. -/
def AgentHost.answer (a : AgentHost) (sent : Bytes) : Stream :=
  ⟨written (authenticate a.cfg a.env [⟨(readFrame (a.cut sent)).1, true⟩]).2.1, a.ending⟩

/-! ## The scan -/

/-- `json.dumps({"id": 0, "cmd": "hello", "token": token, "version": 1})`. -/
def probeMsg (token : PyStr) : PyDict :=
  [(py "id", .int 0), (py "cmd", .str (py "hello")), (py "token", .str token), (py "version", .int 1)]

def probeText (token : PyStr) : Bytes := PyJson.dumps (.dict (probeMsg token))

/-- The outcome of `json.loads`: a value, a `ValueError`, or another exception. -/
inductive Loaded
  | value (v : PyJson)
  | invalid
  | raises

/-- The outcome of `_probe`: what it returns, an exception that it does not catch, or a read that never ends. -/
inductive Probe
  | found (fw agentVersion : Option PyJson)
  | nothing
  | raises
  | hangs

section
variable (loads : Bytes → Loaded)

/-- What `_probe` makes of what a host sends: the read of the text that follows the length has no timeout, a `ValueError` is
caught, and a reply that is no object has no `get`. -/
def readProbe (s : Stream) : Probe :=
  match takeExact 4 s.bytes with
  | none => .nothing
  | some (jlen, rest) =>
    match takeExact (leNat jlen) rest with
    | none => if s.ending = .closed then .nothing else .hangs
    | some (text, _) =>
      match loads text with
      | .invalid => .nothing
      | .raises => .raises
      | .value (.dict reply) =>
        if getTruthy reply "ok" then .found (dictGet reply (py "fw")) (dictGet reply (py "agent_version")) else .nothing
      | .value _ => .raises

def probe (token : PyStr) : Peer → Probe
  | .absent => .nothing
  | .agent a => readProbe loads (a.answer (frameBytes (probeText token) []))
  | .other answer => readProbe loads (answer (frameBytes (probeText token) []))

end

/-- A console in the result: its address, firmware and version. -/
structure Found where
  host : Nat
  fw : Option PyJson
  agentVersion : Option PyJson

/-- `ip_network(f"{local}/24", strict=False).hosts()`. -/
def lanHosts (ip : Nat) : List Nat := (List.range 254).map (ip / 256 * 256 + 1 + ·)

def Probe.result (host : Nat) : Probe → Option Found
  | .found fw version => some ⟨host, fw, version⟩
  | _ => none

/-- `gather` returns no list where one of the probes raises or does not end. -/
def Probe.disturbs : Probe → Bool
  | .raises | .hangs => true
  | _ => false

/-- `scan`: the list it returns, if it returns one.  There is no address where the machine has no route. -/
def scan (loads : Bytes → Loaded) (localIpv4 : Option Nat) (token : PyStr) (net : Nat → Peer) : Option (List Found) :=
  match localIpv4 with
  | none => some []
  | some ip =>
    if (lanHosts ip).any fun host => (probe loads token (net host)).disturbs then none
    else some ((lanHosts ip).filterMap fun host => (probe loads token (net host)).result host)

/-! ## What agents write -/

/-- Containers nest at most `n` deep. -/
def Shallow : Nat → Value → Prop
  | n + 1, .array a => ∀ v ∈ a, Shallow n v
  | n + 1, .object o => ∀ p ∈ o, Shallow n p.2
  | 0, .array _ => False
  | 0, .object _ => False
  | _, _ => True

/-- `json.loads` reads an object that an agent writes: a text that begins with a brace and has no NUL is taken for UTF-8, and
where it nests at most 100 deep and its integers have 64 bits no limit is met. -/
def ReadsObjects (loads : Bytes → Loaded) : Prop :=
  ∀ o, Utf8Value (.object o) → Shallow 100 (.object o) → loads (Json.dump (.object o)) = .value (toPy (.object o))

theorem shallow_set {n : Nat} {v : Value} (hv : ∃ o, v = .object o) (h : Shallow (n + 1) v) (k : Bytes) {x : Value}
    (hx : Shallow n x) : Shallow (n + 1) (v.set k x) := by
  obtain ⟨o, rfl⟩ := hv
  exact Json.forall_mapSet hx o h

theorem ofMembers_object (l : List (String × Value)) : ∃ o, Json.ofMembers l = .object o := by
  cases l using List.reverseRecOn with
  | nil => exact ⟨[], rfl⟩
  | append_singleton l m =>
    rw [Json.ofMembers_snoc]
    exact object_set _ _ _

theorem shallow_ofMembers {n : Nat} (l : List (String × Value)) (h : ∀ m ∈ l, Shallow n m.2) :
    Shallow (n + 1) (Json.ofMembers l) := by
  induction l using List.reverseRecOn with
  | nil => exact fun p hp => absurd hp List.not_mem_nil
  | append_singleton l m ih =>
    rw [Json.ofMembers_snoc]
    exact shallow_set (ofMembers_object l) (ih fun m hm => h m (List.mem_append_left _ hm)) _
      (h m (List.mem_append_right _ List.mem_cons_self))

/-! ## An agent's answer -/

/-- The agent lets a peer in that shows it the token. -/
def Takes (cfg : AgentConfig) (token : PyStr) : Prop :=
  cfg.requireHmacAuth = false ∧ cfg.token ≠ [] ∧ Json.agentStr token = cfg.token

instance (cfg : AgentConfig) (token : PyStr) : Decidable (Takes cfg token) := inferInstanceAs (Decidable (_ ∧ _ ∧ _))

/-- The probe as a message of the client's codec. -/
def probeOutgoing (token : PyStr) (h : (probeText token).length ≤ maxJson) : Outgoing where
  id := 0
  msg := probeMsg token
  payload := []
  distinct := by
    refine ⟨?_, ?_⟩
    · show ([py "id", py "cmd", py "token", py "version"] : List PyStr).Nodup
      decide
    · exact ⟨trivial, trivial, trivial, trivial, trivial⟩
  finite := rfl
  no_bin := rfl
  text_le := h
  payload_le := Nat.zero_le _

/-- **What the agent reads of a probe.** -/
theorem readFrame_probe {token : PyStr} (h : (probeText token).length ≤ maxJson) {s : List Arrival} {t : List Mark}
    (hs : marks s = (frameBytes (probeText token) []).map some ++ t) :
    ∃ msg, (readFrame s).1 = .ok (msg, []) ∧ msg.get (str "cmd") = .string (str "hello") ∧ msg.get (str "auth") = .null ∧
      msg.get (str "id") = .int 0 ∧ msg.get (str "token") = .string (Json.agentStr token) := by
  obtain ⟨msg, hparse, hget⟩ := request_get 0 [] (probeOutgoing token h).distinct (probeOutgoing token h).finite
  have hvalue : (probeOutgoing token h).value = msg := Option.some.inj ((probeOutgoing token h).parse_text.symm.trans hparse)
  have hread := readFrame_client (probeOutgoing token h) t
  rw [show (probeOutgoing token h).bytes.map some ++ t = marks s from hs.symm, readFrame_marks, hvalue] at hread
  refine ⟨msg, congrArg Prod.fst hread, ?_, ?_, ?_, ?_⟩
  · rw [hget "cmd" (by decide),
      show dictGet (roundtripMsg 0 (probeOutgoing token h).msg []) (py "cmd") = some (.str (py "hello")) from rfl,
      Option.map_some, Option.getD_some, ofPy, Json.agentStr_py "hello" (by decide)]
  · rw [hget "auth" (by decide)]
    rfl
  · rw [hget "id" (by decide)]
    rfl
  · rw [hget "token" (by decide)]
    rfl

/-! ## The welcome -/

theorem weightArray_keys (o : List (Bytes × Value)) : weightArray ((o.map Prod.fst).map .string) ≤ weightObject o := by
  induction o with
  | nil => exact Nat.le_refl 0
  | cons p o ih =>
    simp only [List.map_cons, weightArray, weight, weightObject]
    omega

/-- What the names of commands weigh as members. -/
def nameWeights (l : List Command) : Nat := (l.map fun c => 6 * (str c.name).length + 8).sum

theorem weightObject_names : ∀ (l : List Command) (o : List (Bytes × Value)),
    weightObject (l.foldl (fun o c => Json.mapSet o (str c.name) .null) o) ≤ weightObject o + nameWeights l
  | [], o => Nat.le_refl _
  | c :: l, o => by
    have ih := weightObject_names l (Json.mapSet o (str c.name) .null)
    have hset := weightObject_mapSet o (str c.name) .null
    rw [weight] at hset
    rw [List.foldl_cons, nameWeights, List.map_cons, List.sum_cons]
    rw [nameWeights] at ih
    omega

theorem weight_advertised (cfg : AgentConfig) : weightArray ((advertised cfg).map .string) ≤ 100000 := by
  have hall : nameWeights dispatch ≤ 100000 := by decide
  have hsub : ∀ p : Command → Bool, nameWeights (dispatch.filter p) ≤ nameWeights dispatch := fun p =>
    ((List.filter_sublist (p := p)).map _).sum_le_sum fun _ _ => Nat.zero_le _
  refine (weightArray_keys _).trans ((weightObject_names _ []).trans ?_)
  rw [weightObject, Nat.zero_add]
  exact (hsub _).trans hall

theorem weight_ofMembers (l : List (String × Value)) :
    weight (Json.ofMembers l) ≤ 2 + (l.map fun m => 6 * (str m.1).length + 4 + weight m.2).sum := by
  induction l using List.reverseRecOn with
  | nil => exact Nat.le_refl 2
  | append_singleton l m ih =>
    have hm := weight_set (ofMembers_object l) (str m.1) m.2
    rw [Json.ofMembers_snoc, List.map_append, List.sum_append, List.map_singleton, List.sum_singleton]
    omega

/-- The firmware's version as the welcome says it. -/
def fwText (env : AuthEnv) : Bytes :=
  welcome.fmtDec env.fw.1 ++ ch '.' :: (welcome.fmtDec env.fw.2.1 ++ ch '.' :: welcome.fmtDec env.fw.2.2)

theorem length_fmtDec {n : Nat} (h : n < 256) : (welcome.fmtDec n).length ≤ 3 := by
  rw [welcome.fmtDec, List.length_map]
  exact JsonText.length_decimal (by decide) (by omega)

def welcomeMembers (cfg : AgentConfig) (env : AuthEnv) (id : Int64) : List (String × Value) :=
  [("id", .int id), ("ok", .bool true), ("agent_version", .string (str "0.2.0")), ("protocol_version", .int 1),
    ("fw", .string (fwText env)), ("tier", .string (tierName cfg.tier)), ("emummc", .bool cfg.isEmummc),
    ("allow_nand_write", .bool cfg.allowNandWrite), ("allow_overclock", .bool cfg.allowOverclock),
    ("allow_hardware", .bool cfg.allowHardware), ("commands", .array ((advertised cfg).map .string))]

theorem welcome_members (cfg : AgentConfig) (env : AuthEnv) (id : Int64) :
    welcome cfg env id = Json.ofMembers (welcomeMembers cfg env id) := rfl

theorem fwText_valid (env : AuthEnv) : ValidUtf8 (fwText env) := by
  rw [fwText, validUtf8_split (by decide), validUtf8_split (by decide)]
  exact ⟨decimal_valid _, decimal_valid _, decimal_valid _⟩

theorem ordered_strings (names : List Bytes) : Ordered (.array (names.map .string)) := by
  rw [Ordered]
  induction names with
  | nil => trivial
  | cons name names ih => exact ⟨trivial, ih⟩

theorem welcome_clean (cfg : AgentConfig) (env : AuthEnv) (id : Int64) :
    (∃ o, welcome cfg env id = .object o) ∧ Ordered (welcome cfg env id) ∧ Utf8Value (welcome cfg env id) ∧
      Shallow 100 (welcome cfg env id) := by
  have htier : ValidUtf8 (tierName cfg.tier) := by
    cases cfg.tier <;> exact Json.validUtf8_str (by decide)
  have hcommands : Json.ValidValue (.array ((advertised cfg).map .string)) := by
    rw [Json.ValidValue, Json.validArray_iff, List.forall_mem_map]
    exact fun name hname => advertised_valid hname
  have hv : ∀ m ∈ welcomeMembers cfg env id, Json.ValidValue m.2 ∧ Ordered m.2 := by
    simp only [welcomeMembers, List.forall_mem_cons, List.not_mem_nil, false_imp_iff, implies_true, and_true]
    exact ⟨⟨trivial, trivial⟩, ⟨trivial, trivial⟩, ⟨Json.validUtf8_str (by decide), trivial⟩, ⟨trivial, trivial⟩,
      ⟨fwText_valid env, trivial⟩, ⟨htier, trivial⟩, ⟨trivial, trivial⟩, ⟨trivial, trivial⟩, ⟨trivial, trivial⟩,
      ⟨trivial, trivial⟩, ⟨hcommands, ordered_strings _⟩⟩
  have hkeys : Json.MemberKeys ((welcomeMembers cfg env id).map Prod.fst) := by
    rw [show (welcomeMembers cfg env id).map Prod.fst = ["id", "ok", "agent_version", "protocol_version", "fw", "tier",
      "emummc", "allow_nand_write", "allow_overclock", "allow_hardware", "commands"] from rfl]
    decide
  obtain ⟨o, ho, -, hvalid⟩ := Json.object_ofMembers _ hkeys
  have hshallow : ∀ m ∈ welcomeMembers cfg env id, Shallow 99 m.2 := by
    simp only [welcomeMembers, List.forall_mem_cons, List.not_mem_nil, false_imp_iff, implies_true, and_true]
    refine ⟨trivial, trivial, trivial, trivial, trivial, trivial, trivial, trivial, trivial, trivial, ?_⟩
    rw [Shallow, List.forall_mem_map]
    exact fun _ _ => trivial
  rw [welcome_members]
  refine ⟨⟨o, ho⟩, ordered_ofMembers _ fun m hm => (hv m hm).2, ?_, shallow_ofMembers _ hshallow⟩
  rw [ho]
  exact Json.ValidValue.utf8 _ (hvalid.2 fun m hm => (hv m hm).1)

theorem welcome_short (cfg : AgentConfig) {env : AuthEnv} (hfw : env.fw.1 < 256 ∧ env.fw.2.1 < 256 ∧ env.fw.2.2 < 256)
    (id : Int64) : (Json.dump (welcome cfg env id)).length < 2 ^ 32 := by
  have hlen := length_write (welcome cfg env id)
  have hweight := weight_ofMembers (welcomeMembers cfg env id)
  have hcommands := weight_advertised cfg
  have hkeys : (str "id").length + (str "ok").length + (str "agent_version").length + (str "protocol_version").length +
      (str "fw").length + (str "tier").length + (str "emummc").length + (str "allow_nand_write").length +
      (str "allow_overclock").length + (str "allow_hardware").length + (str "commands").length ≤ 200 := by decide
  have hversion : (str "0.2.0").length = 5 := by decide
  have htier : (tierName cfg.tier).length ≤ 20 := by
    cases cfg.tier <;> decide
  have hfwText : (fwText env).length ≤ 11 := by
    have h1 := length_fmtDec hfw.1
    have h2 := length_fmtDec hfw.2.1
    have h3 := length_fmtDec hfw.2.2
    simp only [fwText, List.length_append, List.length_cons]
    omega
  rw [← welcome_members] at hweight
  simp only [welcomeMembers, List.map_cons, List.map_nil, List.sum_cons, List.sum_nil, weight] at hweight
  rw [Json.dump]
  omega

theorem rejection_clean (id : Int64) :
    (∃ o, rejection id = .object o) ∧ Ordered (rejection id) ∧ Utf8Value (rejection id) ∧ Shallow 100 (rejection id) := by
  have hempty : Ordered (.object []) := ⟨List.Pairwise.nil, trivial⟩
  have hutf8 : ∀ {v x : Value} {k : String}, asciiOnly k = true → Utf8Value v → Utf8Value x → Utf8Value (v.set (str k) x) :=
    fun {v x k} hk hv hx => Json.utf8Value_set v (str k) x hv (Json.isUtf8_str k hk) hx
  have hnone : ∀ n, Shallow (n + 1) (.object []) := fun n p hp => absurd hp List.not_mem_nil
  refine ⟨object_set _ _ _, ?_, ?_, ?_⟩
  · exact Json.ordered_set _ _ _ (Json.ordered_set _ _ _ hempty trivial)
      (Json.ordered_set _ _ _ (Json.ordered_set _ _ _ hempty trivial) trivial)
  · exact hutf8 (by decide) (hutf8 (by decide) trivial trivial)
      (hutf8 (by decide) (hutf8 (by decide) trivial (Json.isUtf8_str "auth" (by decide)))
        (Json.isUtf8_str "invalid credentials" (by decide)))
  · exact shallow_set (object_set _ _ _) (shallow_set ⟨[], rfl⟩ (hnone 99) _ (x := .int id) trivial) _
      (shallow_set (object_set _ _ _) (shallow_set ⟨[], rfl⟩ (hnone 98) _ (x := .string (str "auth")) trivial) _
        (x := .string (str "invalid credentials")) trivial)

theorem rejection_short (id : Int64) : (Json.dump (rejection id)).length < 2 ^ 32 := by
  have hlen := length_write (rejection id)
  have hid := weight_set ⟨[], rfl⟩ (str "id") (.int id)
  have herror := weight_set (object_set (.object []) (str "id") (.int id)) (str "error")
    (((Value.object []).set (str "code") (.string (str "auth"))).set (str "message") (.string (str "invalid credentials")))
  have hkeys : (str "id").length = 2 ∧ (str "error").length = 5 := by decide
  have hinner : weight (((Value.object []).set (str "code") (.string (str "auth"))).set (str "message")
      (.string (str "invalid credentials"))) ≤ 1000 := by decide
  have hsmall : weight (.object []) = 2 ∧ weight (.int id) = 20 := ⟨rfl, rfl⟩
  rw [show rejection id = ((Value.object []).set (str "id") (.int id)).set (str "error")
    (((Value.object []).set (str "code") (.string (str "auth"))).set (str "message")
      (.string (str "invalid credentials"))) from rfl] at hlen ⊢
  rw [Json.dump]
  omega

/-! ## What a probe finds -/

theorem readProbe_frame {loads : Bytes → Loaded} (hloads : ReadsObjects loads) {v : Value} (hobj : ∃ o, v = .object o)
    (hord : Ordered v) (hu : Utf8Value v) (hs : Shallow 100 v) (hlen : (Json.dump v).length < 2 ^ 32) (ending : Ending) :
    readProbe loads ⟨writeFrame v [], ending⟩ =
      if v.has (str "ok") = true ∧ truthy (toPy (v.get (str "ok"))) = true then
        .found (if v.has (str "fw") = true then some (toPy (v.get (str "fw"))) else none)
          (if v.has (str "agent_version") = true then some (toPy (v.get (str "agent_version"))) else none)
      else .nothing := by
  obtain ⟨o, rfl⟩ := hobj
  have hget : ∀ k : String, asciiOnly k = true → dictGet (Json.toPyObject [] o) (py k) =
      if (Value.object o).has (str k) = true then some (toPy ((Value.object o).get (str k))) else none := by
    intro k hk
    rw [Json.dictGet_toPy hord hu k hk, Value.has, Value.get]
    cases Json.mapFind o (str k) <;> simp
  have hjlen : leNat (leBytes 4 (Json.dump (.object o)).length) = (Json.dump (.object o)).length :=
    leNat_leBytes 4 _ (hlen.trans_eq (by decide))
  rw [readProbe, writeFrame, frameBytes, if_pos rfl, List.append_nil,
    takeExact_append_of_length _ _ (length_leBytes 4 _)]
  dsimp only
  rw [hjlen, takeExact, if_pos le_rfl, List.take_length]
  dsimp only
  rw [hloads o hu hs, toPy]
  dsimp only
  rw [getTruthy, hget "ok" (by decide), hget "fw" (by decide), hget "agent_version" (by decide)]
  by_cases hok : (Value.object o).has (str "ok") = true
  · simp [hok]
  · simp [hok]

theorem readProbe_welcome {loads : Bytes → Loaded} (hloads : ReadsObjects loads) (cfg : AgentConfig) {env : AuthEnv}
    (hfw : env.fw.1 < 256 ∧ env.fw.2.1 < 256 ∧ env.fw.2.2 < 256) (id : Int64) (ending : Ending) :
    readProbe loads ⟨writeFrame (welcome cfg env id) [], ending⟩ =
      .found (some (.str (Json.decoded (fwText env)))) (some (.str (py "0.2.0"))) := by
  obtain ⟨hobj, hord, hu, hs⟩ := welcome_clean cfg env id
  have keys : ∀ k ∈ ["ok", "agent_version", "protocol_version", "fw", "tier", "emummc", "allow_nand_write",
      "allow_overclock", "allow_hardware", "commands"], ∀ k' ∈ ["ok", "agent_version", "fw"], str k = str k' ↔ k = k' := by decide
  have hget : (welcome cfg env id).get (str "ok") = .bool true ∧ (welcome cfg env id).get (str "fw") = .string (fwText env) ∧
      (welcome cfg env id).get (str "agent_version") = .string (str "0.2.0") := by
    simp [welcome, keys, fwText]
  have hhas : (welcome cfg env id).has (str "ok") = true ∧ (welcome cfg env id).has (str "fw") = true ∧
      (welcome cfg env id).has (str "agent_version") = true := by
    simp [welcome, keys]
  rw [readProbe_frame hloads hobj hord hu hs (welcome_short cfg hfw id), hget.1, hget.2.1, hget.2.2, hhas.1, hhas.2.1, hhas.2.2,
    if_pos ⟨rfl, rfl⟩, if_pos rfl, if_pos rfl]
  simp only [toPy, Json.decoded_str "0.2.0" (by decide)]

theorem readProbe_rejection {loads : Bytes → Loaded} (hloads : ReadsObjects loads) (id : Int64) (ending : Ending) :
    readProbe loads ⟨writeFrame (rejection id) [], ending⟩ = .nothing := by
  obtain ⟨hobj, hord, hu, hs⟩ := rejection_clean id
  have hhas : (rejection id).has (str "ok") = false := by
    have keys : str "error" ≠ str "ok" ∧ str "id" ≠ str "ok" := by decide
    simp only [rejection, Value.has_set, keys, decide_false, Bool.false_or]
    rfl
  rw [readProbe_frame hloads hobj hord hu hs (rejection_short id), hhas, if_neg (fun h => Bool.false_ne_true h.1)]

theorem written_conclude (cfg : AgentConfig) (env : AuthEnv) (ok : Bool) (msg : Value) (id : Int64) :
    written (concludeAuth cfg env ok msg id true []).2.1 =
      writeFrame (if ok then welcome cfg env ((msg.get (str "id")).asInt 0) else rejection id) [] := by
  cases ok with
  | true => exact List.append_nil _
  | false => exact List.append_nil _

/-- **A probe finds an agent exactly when the agent takes its token.** -/
theorem probe_takes {loads : Bytes → Loaded} (hloads : ReadsObjects loads) {token : PyStr}
    (h : (probeText token).length ≤ maxJson) (a : AgentHost) :
    probe loads token (.agent a) =
      if Takes a.cfg token then .found (some (.str (Json.decoded (fwText a.env)))) (some (.str (py "0.2.0")))
      else .nothing := by
  obtain ⟨t, ht⟩ := a.cut_marks (frameBytes (probeText token) [])
  obtain ⟨msg, hread, hcmd, hauth, hid, htoken⟩ := readFrame_probe h ht
  have hsent : a.answer (frameBytes (probeText token) []) =
      ⟨written (concludeAuth a.cfg a.env (!a.cfg.requireHmacAuth && (decide (a.cfg.token ≠ []) &&
        secureEqual (Json.agentStr token) a.cfg.token)) msg 0 true []).2.1, a.ending⟩ := by
    have hhmac : ([] : Bytes) ≠ str "hmac" := by decide
    rw [AgentHost.answer, authenticate, hread]
    dsimp only
    rw [hcmd, hauth, hid, htoken]
    simp only [Value.asString, Value.asInt, ne_eq, not_true_eq_false, if_false, hhmac]
  have htakes : (!a.cfg.requireHmacAuth && (decide (a.cfg.token ≠ []) && secureEqual (Json.agentStr token) a.cfg.token)) =
      decide (Takes a.cfg token) := by
    rw [Bool.eq_iff_iff, decide_eq_true_iff, Bool.and_eq_true, Bool.and_eq_true, Bool.not_eq_true', decide_eq_true_iff,
      secureEqual_iff]
    exact Iff.rfl
  rw [probe, hsent, htakes, written_conclude]
  by_cases hin : Takes a.cfg token
  · rw [decide_eq_true hin, if_pos hin, if_pos rfl, readProbe_welcome hloads a.cfg a.fw_lt]
  · rw [decide_eq_false hin, if_neg hin, if_neg Bool.false_ne_true, readProbe_rejection hloads]

/-! ## What a scan finds -/

/-- What stands for the console at `host` in the list of a scan. -/
def Lists (loads : Bytes → Loaded) (token : PyStr) (net : Nat → Peer) (f : Found) : Prop :=
  (∃ a, net f.host = .agent a ∧ Takes a.cfg token ∧ f.fw = some (.str (Json.decoded (fwText a.env))) ∧
    f.agentVersion = some (.str (py "0.2.0"))) ∨
  ∃ answer, net f.host = .other answer ∧ readProbe loads (answer (frameBytes (probeText token) [])) = .found f.fw f.agentVersion

theorem result_iff {p : Probe} {host : Nat} {f : Found} :
    p.result host = some f ↔ host = f.host ∧ p = .found f.fw f.agentVersion := by
  cases p with
  | found fw version =>
    obtain ⟨fhost, ffw, fversion⟩ := f
    simp [Probe.result]
  | _ => simp [Probe.result]

theorem probe_found_iff {loads : Bytes → Loaded} (hloads : ReadsObjects loads) {token : PyStr}
    (h : (probeText token).length ≤ maxJson) (net : Nat → Peer) (f : Found) :
    probe loads token (net f.host) = .found f.fw f.agentVersion ↔ Lists loads token net f := by
  unfold Lists
  cases hp : net f.host with
  | absent => simp [probe]
  | agent a =>
    rw [probe_takes hloads h]
    by_cases hin : Takes a.cfg token
    · simp [hin, eq_comm]
    · simp [hin]
  | other answer => simp [probe]

theorem disturbs_iff {loads : Bytes → Loaded} (hloads : ReadsObjects loads) {token : PyStr}
    (h : (probeText token).length ≤ maxJson) (p : Peer) :
    (probe loads token p).disturbs = true ↔
      ∃ answer, p = .other answer ∧ (readProbe loads (answer (frameBytes (probeText token) []))).disturbs = true := by
  cases p with
  | absent => simp [probe, Probe.disturbs]
  | agent a =>
    rw [probe_takes hloads h]
    by_cases hin : Takes a.cfg token
    · simp [hin, Probe.disturbs]
    · simp [hin, Probe.disturbs]
  | other answer => simp [probe]

theorem mem_lanHosts {ip host : Nat} : host ∈ lanHosts ip ↔ host / 256 = ip / 256 ∧ 0 < host % 256 ∧ host % 256 < 255 := by
  simp only [lanHosts, List.mem_map, List.mem_range]
  constructor
  · rintro ⟨i, hi, rfl⟩
    omega
  · rintro ⟨h1, h2, h3⟩
    exact ⟨host % 256 - 1, by omega, by omega⟩

theorem lanHosts_sorted (ip : Nat) : (lanHosts ip).Pairwise (· < ·) := by
  rw [lanHosts, List.pairwise_map]
  exact List.pairwise_lt_range.imp fun h => by omega

theorem hosts_sublist (loads : Bytes → Loaded) (token : PyStr) (net : Nat → Peer) : ∀ hosts : List Nat,
    List.Sublist ((hosts.filterMap fun host => (probe loads token (net host)).result host).map Found.host) hosts
  | [] => List.Sublist.slnil
  | host :: hosts => by
    have ih := hosts_sublist loads token net hosts
    rw [List.filterMap_cons]
    cases hr : (probe loads token (net host)).result host with
    | none => exact ih.cons host
    | some f =>
      obtain ⟨rfl, -⟩ := result_iff.1 hr
      exact ih.cons_cons f.host

/-- `json.loads` without limits, on UTF-8. -/
def loadsUtf8 (text : Bytes) : Loaded := (PyJson.loads text).elim .invalid .value

theorem loadsUtf8_reads : ReadsObjects loadsUtf8 := by
  intro o hu _
  rw [loadsUtf8, Json.loads_dump _ hu]
  rfl

/-- A console whose token is `k`. -/
def plainHost : AgentHost where
  cfg := plainConfig
  env := plainEnv
  fw_lt := by decide
  cut
    | [] => []
    | b :: bs => [.seg b bs]
  cut_marks := by
    rintro (_ | ⟨b, bs⟩)
    · exact ⟨[], rfl⟩
    · exact ⟨[], rfl⟩
  ending := .silent

def oneConsole (host : Nat) : Peer := if host = 5 then .agent plainHost else .absent

end Discovery
end Agent
end SwitchMcp

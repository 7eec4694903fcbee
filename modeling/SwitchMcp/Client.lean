import SwitchMcp.Frame
import SwitchMcp.Prog
/-!
# Client — the native client's connection and its calls (clients/agentd.py)

`AgentClient` as a program over its own fields and what the agent has sent it.  How every `await` ends is the schedule's:
normally, with a transport error, with the deadline, or with the cancellation of the calling task.  The agent is any
function that answers each whole request frame with one reply frame; a frame that was written reaches it or does not,
whether `drain()` returns or raises.  Behind the client's fields stand two records of the run that the code does not keep:
the frames that were written, and what of the replies is still unread.
-/
namespace SwitchMcp
namespace Agent

open PyJson (dictGet dictSet)

/-! ## Exceptions -/

/-- How an `await` ends. -/
inductive Await
  | done
  /-- `ConnectionError`, `IncompleteReadError` or another `OSError`, by its class. -/
  | transport (cls : PyStr)
  | timeout
  | cancelled

inductive Exc
  | clientError (code message : PyJson)
  | transport (cls : PyStr)
  | timeout
  | cancelled
  /-- `ValueError`: bytes that are not UTF-8 or not JSON, a string that cannot be encoded. -/
  | value
  /-- `KeyError`, `TypeError` or `AttributeError`: a reply of another shape. -/
  | shape
  | assertion
deriving DecidableEq

/-- Where an exception was raised: opening a connection, dropping one, in a handshake, or in a command's own exchange. -/
inductive Stage
  | opening | dropping | handshake | command
deriving DecidableEq

structure Raised where
  exc : Exc
  stage : Stage
deriving DecidableEq

def Await.exc : Await → Exc
  | .transport cls => .transport cls
  | .cancelled => .cancelled
  | _ => .timeout

/-- The `transient` of `call`: an `asyncio.TimeoutError` is an `OSError`. -/
def Exc.transient : Exc → Bool
  | .transport _ | .timeout => true
  | _ => false

/-- `type(exc).__name__` of a transient exception. -/
def Exc.name : Exc → PyStr
  | .transport cls => cls
  | _ => py "TimeoutError"

/-- What `_connect` takes for an old agent. -/
def Exc.oldAgent : Exc → Bool
  | .clientError _ _ | .transport _ | .timeout => true
  | _ => false

def clientError (code : String) (message : PyStr) : Exc := .clientError (.str (py code)) (.str message)

/-! ## Values -/

/-- `bool(v)`. -/
def truthy : PyJson → Bool
  | .null => false
  | .bool b => b
  | .int i => decide (i ≠ 0)
  | .float n _ =>
    match strtod n.text with
    | .finite _ mant _ => decide (mant ≠ 0)
    | _ => true
  | .inf _ | .nan => true
  | .str s => decide (s ≠ [])
  | .list l => !l.isEmpty
  | .dict d => !d.isEmpty

/-- `bool(d.get(k))`. -/
def getTruthy (d : PyDict) (k : String) : Bool := ((dictGet d (py k)).map truthy).getD false

/-! ## Replies -/

/-- One reply frame: a JSON object, with a payload exactly when it has a `bin`. -/
structure ReplyFrame where
  text : Bytes
  blob : Bytes
  text_lt : text.length < 2 ^ 32
  blob_lt : blob.length < 2 ^ 64
  object : ∀ v, PyJson.loads text = some v → ∃ d, v = .dict d ∧ (dictGet d (py "bin")).isSome = decide (blob ≠ [])

def ReplyFrame.bytes (f : ReplyFrame) : Bytes := frameBytes f.text f.blob

/-- The frame says that the handshake is over and succeeded. -/
def ReplyFrame.admits (f : ReplyFrame) : Bool :=
  match PyJson.loads f.text with
  | some (.dict d) => (dictGet d (py "error")).isNone && getTruthy d "ok"
  | _ => false

/-- `await reader.readexactly(n)`.  A wait for bytes that nobody sends ends with the deadline. -/
def readexactly (a : Await) (n : Nat) (rx : Bytes) : Except Exc Bytes × Bytes :=
  match a with
  | .done =>
    match takeExact n rx with
    | some (b, rx) => (.ok b, rx)
    | none => (.error .timeout, rx)
  | a => (.error a.exc, rx)

/-- How each `await` of one `exchange()` ends, whether the frame it writes reaches the agent, and what the agent then
meets. -/
structure ExchangeScript (φ : Type) where
  fault : φ
  delivered : Bool
  drain : Await
  head : Await
  body : Await
  binHead : Await
  binBody : Await

/-- The reading half of `exchange()`. -/
def readAnswer {φ : Type} (x : ExchangeScript φ) (rx : Bytes) : Except Exc (PyDict × Bytes) × Bytes :=
  match readexactly x.head 4 rx with
  | (.error e, rx) => (.error e, rx)
  | (.ok jlen, rx) =>
    match readexactly x.body (leNat jlen) rx with
    | (.error e, rx) => (.error e, rx)
    | (.ok text, rx) =>
      match PyJson.loads text with
      | none => (.error .value, rx)
      | some (.dict reply) =>
        if (dictGet reply (py "bin")).isSome then
          match readexactly x.binHead 8 rx with
          | (.error e, rx) => (.error e, rx)
          | (.ok blen, rx) =>
            match readexactly x.binBody (leNat blen) rx with
            | (.error e, rx) => (.error e, rx)
            | (.ok blob, rx) => (.ok (reply, blob), rx)
        else (.ok (reply, []), rx)
      | some _ => (.error .shape, rx)

/-! ## The client -/

inductive AuthMethod
  | hmac | legacy
deriving DecidableEq

/-- What a frame was written for. -/
inductive Kind
  | hello | auth | legacy | command
deriving DecidableEq

/-- A connection: what the agent sent on it and the client has not read, and whether the agent let the client in. -/
structure Conn where
  rx : Bytes
  admitted : Bool
deriving DecidableEq

/-- A frame that was written, whether it reached the agent, and whether its reply was read to the end. -/
structure Sent (φ : Type) where
  kind : Kind
  msg : PyDict
  payload : Bytes
  fault : φ
  delivered : Bool
  answered : Bool

def Sent.text {φ : Type} (e : Sent φ) : Bytes := PyJson.dumps (.dict e.msg)

/-- The client's fields, the flag a call hands to `_roundtrip`, the agent, and the frames written so far. -/
structure World (σ φ : Type) where
  conn : Option Conn
  id : Nat
  authMethod : Option AuthMethod
  capabilities : PyDict
  sent : Bool
  agent : σ
  log : List (Sent φ)

structure ClientConfig where
  host : PyStr
  port : Nat
  token : PyStr

def capabilityKeys : List String := ["agent_version", "protocol_version", "fw", "tier", "emummc", "allow_nand_write",
  "allow_overclock", "allow_hardware", "commands"]

/-- `_store_capabilities`. -/
def capabilitiesOf (reply : PyDict) : PyDict :=
  capabilityKeys.filterMap (fun k => (dictGet reply (py k)).map (fun v => (py k, v)))

/-- The three messages of the handshakes. -/
def helloMsg : PyDict := [(py "cmd", .str (py "hello")), (py "auth", .str (py "hmac")), (py "version", .int 1)]

def authMsg (mac : PyStr) : PyDict := [(py "cmd", .str (py "auth")), (py "hmac", .str mac)]

def legacyMsg (token : PyStr) : PyDict :=
  [(py "cmd", .str (py "hello")), (py "token", .str token), (py "version", .int 1)]

/-- How dropping a connection goes: whether it is closing by itself, and how `wait_closed()` ends. -/
structure DropScript where
  closing : Bool
  wait : Await

structure LegacyScript (φ : Type) where
  drop : DropScript
  opened : Await
  hello : ExchangeScript φ

/-- One `_connect`: `legacy` is the fallback inside `_authenticate`, `again` the one that follows when that raises. -/
structure ConnectScript (φ : Type) where
  opened : Await
  probe : ExchangeScript φ
  auth : ExchangeScript φ
  legacy : LegacyScript φ
  again : LegacyScript φ

/-- One turn of the loop in `call`; `lost` is `writer.is_closing()`. -/
structure AttemptScript (φ : Type) where
  lost : Bool
  connect : ConnectScript φ
  exchange : ExchangeScript φ
  drop : DropScript

structure CallScript (φ : Type) where
  first : AttemptScript φ
  second : AttemptScript φ

def fireAndForget : List PyStr := ["reboot", "shutdown", "reboot_to_payload", "agent.restart"].map py

def idempotentCommands : List PyStr := ["hello", "agent.info", "sysinfo", "ps", "titles", "title_icon", "running_app",
  "crash_reports", "read_log", "screenshot", "console_info", "controllers",
  "get_clocks", "get_brightness", "get_volume", "get_time",
  "fs.list", "fs.stat", "fs.mounts", "fs.read", "nand.read",
  "album.list", "album.download",
  "debug.memmap", "debug.threads", "debug.registers", "debug.read_mem",
  "debug.search", "cheat.status", "cheat.list",
  "i2c.read", "gpio.read",
  "debug.set_watchpoint", "debug.set_breakpoint", "debug.clear_breakpoint",
  "fs.hash"].map py

def unreachableGuidance : String :=
  "Could not reach the console. It may be asleep (the lockscreen sleeps even " ++
  "with auto-sleep off, which drops the network), or its IP may have changed. " ++
  "Note that ping is unreliable on this hardware — it drops ICMP but accepts " ++
  "TCP. Try `find_console` to rescan the network. If it was recently rebooted, " ++
  "give it ~30s. If it stays unreachable someone may need to wake it."

section
variable {σ φ : Type} (cfg : ClientConfig) (hmacHex : Bytes → Bytes → PyStr)
  (serve : φ → Bytes → Bytes → σ → ReplyFrame × σ)

/-- `asyncio.open_connection` under its deadline, and the assignment of its result. -/
def openConnection (a : Await) : Prog (World σ φ) Raised Unit := .of fun w =>
  match a with
  | .done => (.ok (), { w with conn := some ⟨[], false⟩ })
  | a => (.error ⟨a.exc, .opening⟩, w)

/-- `_discard_connection`: only a cancellation gets out of it. -/
def discardConnection (d : DropScript) : Prog (World σ φ) Raised Unit := .of fun w =>
  match w.conn, d.closing, d.wait with
  | some _, false, .cancelled => (.error ⟨.cancelled, .dropping⟩, { w with conn := none })
  | _, _, _ => (.ok (), { w with conn := none })

/-- What `exchange()` leaves: its result, whether `drain()` returned, the connection and the agent. -/
structure Exchanged (σ : Type) where
  result : Except Exc (PyDict × Bytes)
  flushed : Bool
  conn : Conn
  agent : σ

/-- The frame reaches the agent: the agent answers it, and what it answers is on its way. -/
def deliver (kind : Kind) (fault : φ) (text payload : Bytes) (c : Conn) (st : σ) : Conn × σ :=
  let r := serve fault text payload st
  let letsIn := decide (kind = .auth ∨ kind = .legacy) && r.1.admits
  (⟨c.rx ++ r.1.bytes, c.admitted || letsIn⟩, r.2)

def exchange (x : ExchangeScript φ) (kind : Kind) (text payload : Bytes) (c : Conn) (st : σ) : Exchanged σ :=
  let p := if x.delivered then deliver serve kind x.fault text payload c st else (c, st)
  match x.drain with
  | .done =>
    let r := readAnswer x p.1.rx
    ⟨r.1, true, { p.1 with rx := r.2 }, p.2⟩
  | a => ⟨.error a.exc, false, p.1, p.2⟩

def Kind.stage : Kind → Stage
  | .command => .command
  | _ => .handshake

/-- `if "error" in reply: raise ClientError(reply["error"]["code"], reply["error"]["message"])`. -/
def checkError (reply : PyDict) : Except Exc Unit :=
  match dictGet reply (py "error") with
  | none => .ok ()
  | some (.dict e) =>
    match dictGet e (py "code"), dictGet e (py "message") with
    | some code, some message => .error (.clientError code message)
    | _, _ => .error .shape
  | some _ => .error .shape

/-- What a roundtrip gives for what its exchange gave. -/
def roundtripResult (kind : Kind) (r : Except Exc (PyDict × Bytes)) : Except Raised (PyDict × Bytes) :=
  match r with
  | .error exc => .error ⟨exc, kind.stage⟩
  | .ok r =>
    match checkError r.1 with
    | .error exc => .error ⟨exc, kind.stage⟩
    | .ok () => .ok r

/-- The state after an exchange. -/
def afterExchange (kind : Kind) (flag : Bool) (msg : PyDict) (payload : Bytes) (x : ExchangeScript φ) (c : Conn)
    (w : World σ φ) : World σ φ :=
  let e := exchange serve x kind (requestText (w.id + 1) msg payload) payload c w.agent
  { w with
    conn := some e.conn
    id := w.id + 1
    sent := w.sent || (flag && e.flushed)
    agent := e.agent
    log := w.log ++ [⟨kind, roundtripMsg (w.id + 1) msg payload, payload, x.fault, x.delivered, e.result.isOk⟩] }

/-- `_roundtrip`; `flag` says whether the caller handed it a `sent_flag`. -/
def roundtrip (kind : Kind) (flag : Bool) (msg : PyDict) (payload : Bytes) (x : ExchangeScript φ) :
    Prog (World σ φ) Raised (PyDict × Bytes) := .of fun w =>
  match w.conn with
  | none => (.error ⟨.assertion, kind.stage⟩, w)
  | some c =>
    let text := requestText (w.id + 1) msg payload
    if maxJson < text.length then
      (.error ⟨clientError "frame_too_big" (py "request JSON exceeds 64 KiB"), kind.stage⟩, { w with id := w.id + 1 })
    else (roundtripResult kind (exchange serve x kind text payload c w.agent).result,
      afterExchange serve kind flag msg payload x c w)

def authenticateLegacy (s : LegacyScript φ) : Prog (World σ φ) Raised PyDict := do
  discardConnection s.drop
  openConnection s.opened
  let r ← roundtrip serve .legacy false (legacyMsg cfg.token) [] s.hello
  modify fun w => { w with authMethod := some .legacy, capabilities := capabilitiesOf r.1 }
  return r.1

/-- `hmac.new(self.token.encode(), challenge.encode(), hashlib.sha256).hexdigest()`. -/
def macOf (challenge : PyJson) : Except Exc PyStr :=
  match challenge with
  | .str c =>
    match encode cfg.token, encode c with
    | some key, some c => .ok (hmacHex key c)
    | _, _ => .error .value
  | _ => .error .shape

def authenticateHmac (challenge : PyJson) (x : ExchangeScript φ) : Prog (World σ φ) Raised PyDict :=
  match macOf cfg hmacHex challenge with
  | .error e => throw ⟨e, .handshake⟩
  | .ok mac => do
    let r ← roundtrip serve .auth false (authMsg mac) [] x
    modify fun w => { w with authMethod := some .hmac, capabilities := capabilitiesOf r.1 }
    return r.1

/-- `_authenticate`. -/
def clientAuthenticate (s : ConnectScript φ) : Prog (World σ φ) Raised PyDict := do
  let r ← roundtrip serve .hello false helloMsg [] s.probe
  if getTruthy r.1 "challenge" then
    authenticateHmac cfg hmacHex serve ((dictGet r.1 (py "challenge")).getD .null) s.auth
  else authenticateLegacy cfg serve s.legacy

/-- The `except` of `_connect`. -/
def fallBack (s : ConnectScript φ) (e : Raised) : Prog (World σ φ) Raised PyDict := do
  let w ← get
  if e.exc.oldAgent && w.authMethod.isNone then authenticateLegacy cfg serve s.again else throw e

def checkOk (reply : PyDict) : Prog (World σ φ) Raised Unit :=
  if getTruthy reply "ok" then pure () else throw ⟨clientError "auth" (py "agent rejected handshake"), .handshake⟩

/-- `_connect`. -/
def connect (s : ConnectScript φ) : Prog (World σ φ) Raised Unit := do
  openConnection s.opened
  let reply ← tryCatch (clientAuthenticate cfg hmacHex serve s) (fallBack cfg serve s)
  checkOk reply

/-- `if self._writer is None or self._writer.is_closing(): await self._connect()`. -/
def ready (a : AttemptScript φ) : Prog (World σ φ) Raised Unit := do
  let w ← get
  if w.conn.isNone || a.lost then connect cfg hmacHex serve a.connect

/-- `{"cmd": cmd, **params}`. -/
def callMsg (cmd : PyStr) (params : PyDict) : PyDict := (py "cmd", .str cmd) :: params

/-- The body of the `try` in `call`. -/
def attempt (cmd : PyStr) (payload : Bytes) (params : PyDict) (a : AttemptScript φ) :
    Prog (World σ φ) Raised (PyDict × Bytes) := do
  modify fun w => { w with sent := false }
  ready cfg hmacHex serve a
  roundtrip serve .command true (callMsg cmd params) payload a.exchange

/-- What `call` returns when the console went down on a command whose success looks like that. -/
def goneNote : PyDict := [(py "ok", .bool true), (py "note", .str (py "no reply: console went down as expected"))]

def unreachable (e : Exc) : Exc := clientError "unreachable" (e.name ++ py " talking to " ++ cfg.host ++ py ":" ++
  pyNat cfg.port ++ py ". " ++ py unreachableGuidance)

def uncertain (cmd : PyStr) (e : Exc) : Exc := clientError "uncertain" (py "'" ++ cmd ++
  py "' was sent but the connection dropped before the agent replied (" ++ e.name ++
  py "). Not retrying: it may already have taken effect. Check device state, then re-issue if needed.")

/-- The `except` in `call`, for each turn of its loop: a result, or nothing to go on to the next turn. -/
def recover (turn : Nat) (cmd : PyStr) (a : AttemptScript φ) (e : Raised) :
    Prog (World σ φ) Raised (Option (PyDict × Bytes)) :=
  if e.exc.transient then do
    discardConnection a.drop
    let w ← get
    if turn = 1 ∧ w.sent = false then throw ⟨unreachable cfg e.exc, .command⟩
    else if w.sent = true ∧ cmd ∈ fireAndForget then return some (goneNote, [])
    else if turn = 1 then throw e
    else if w.sent = true ∧ cmd ∉ idempotentCommands then throw ⟨uncertain cmd e.exc, .command⟩
    else return none
  else throw e

def tryOnce (turn : Nat) (cmd : PyStr) (payload : Bytes) (params : PyDict) (a : AttemptScript φ) :
    Prog (World σ φ) Raised (Option (PyDict × Bytes)) :=
  tryCatch (some <$> attempt cfg hmacHex serve cmd payload params a) (recover cfg turn cmd a)

/-- `AgentClient.call`.  The loop never runs out: its second turn returns or raises. -/
def call (cmd : PyStr) (payload : Bytes) (params : PyDict) (s : CallScript φ) :
    Prog (World σ φ) Raised (PyDict × Bytes) := do
  match ← tryOnce cfg hmacHex serve 0 cmd payload params s.first with
  | some r => return r
  | none =>
    match ← tryOnce cfg hmacHex serve 1 cmd payload params s.second with
    | some r => return r
    | none => throw ⟨.shape, .command⟩

end

end Agent
end SwitchMcp

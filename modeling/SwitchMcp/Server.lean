import SwitchMcp.Frame
/-!
# Server — authentication, capability tiers and dispatch (agent/source/server.cpp)

One connection from its hello to its end.  The peer is the list of what `ReadFrame` gives, turn by turn, with whether the
write that follows succeeds; the console is the state the handlers run on, and what they do to it is a parameter.  The
result is a trace: frames read, handlers entered, journal lines, frames written.  `connection_guarded` says what stands
before a handler in it, and that frames and replies alternate.
-/
namespace SwitchMcp
namespace Agent

open Json (Value)

/-! ## The command table -/

inductive Handler
  | agentInfo | screenshot | sysInfo | processList | crashReports | readLog | titles | titleIcon | runningApp
  | consoleInfo | netInfo | fatalReports | preflightCheck | journalRead | watchdogStatus | controllers
  | readInput | waitEvent | recordInput | getClocks | getBrightness | getVolume | getTime | getSleep
  | settingsGet | fsList | fsRead | fsStat | fsMounts | fsHash | fsFreeSpace | fsFind | fsGrep | saveList
  | saveMount | saveUnmount | nandRead | albumList | albumDownload | i2cRead | gpioRead | cheatStatus
  | cheatList | cheatMeta | cheatMappings | cheatReadMem | searchBegin | searchNext | searchResults
  | searchReset | input | touch | typeText | launch | terminate | reboot | shutdown | agentRestart
  | setBrightness | setAutoBrightness | setVolume | setSleep | setTime | setWireless | fsWrite | fsDelete
  | fsMkdir | fsRename | fsCopy | backupSave | debugAttach | debugDetach | debugContinue | debugBreak
  | debugPollEvents | debugReadMem | debugMemMap | debugThreads | debugRegisters | debugSearch | debugModules
  | debugBacktrace | cheatToggle | debugSetWatchpoint | debugSetBreakpoint | debugClearBreakpoint | restoreSave
  | uninstall | rebootToPayload | setClocks | debugWriteMem | debugWriteRegisters | debugSetHwBpRaw
  | cheatWriteMem | freezeAddress | unfreezeAddress | i2cWrite
deriving DecidableEq

/-- A command, the authority it needs, and whether it mutates. -/
structure Command where
  name : String
  fn : Handler
  tier : Tier
  mutating : Bool
deriving DecidableEq

def dispatch : List Command := [
  ⟨"agent.info", .agentInfo, .observe, false⟩,
  ⟨"screenshot", .screenshot, .observe, false⟩,
  ⟨"sysinfo", .sysInfo, .observe, false⟩,
  ⟨"ps", .processList, .observe, false⟩,
  ⟨"crash_reports", .crashReports, .observe, false⟩,
  ⟨"read_log", .readLog, .observe, false⟩,
  ⟨"titles", .titles, .observe, false⟩,
  ⟨"title_icon", .titleIcon, .observe, false⟩,
  ⟨"running_app", .runningApp, .observe, false⟩,
  ⟨"console_info", .consoleInfo, .observe, false⟩,
  ⟨"net_info", .netInfo, .observe, false⟩,
  ⟨"fatal_reports", .fatalReports, .observe, false⟩,
  ⟨"preflight", .preflightCheck, .observe, false⟩,
  ⟨"journal", .journalRead, .observe, false⟩,
  ⟨"watchdog", .watchdogStatus, .observe, false⟩,
  ⟨"controllers", .controllers, .observe, false⟩,
  ⟨"read_input", .readInput, .observe, false⟩,
  ⟨"wait_event", .waitEvent, .observe, false⟩,
  ⟨"record_input", .recordInput, .observe, false⟩,
  ⟨"get_clocks", .getClocks, .observe, false⟩,
  ⟨"get_brightness", .getBrightness, .observe, false⟩,
  ⟨"get_volume", .getVolume, .observe, false⟩,
  ⟨"get_time", .getTime, .observe, false⟩,
  ⟨"get_sleep", .getSleep, .observe, false⟩,
  ⟨"settings.get", .settingsGet, .observe, false⟩,
  ⟨"fs.list", .fsList, .observe, false⟩,
  ⟨"fs.read", .fsRead, .observe, false⟩,
  ⟨"fs.stat", .fsStat, .observe, false⟩,
  ⟨"fs.mounts", .fsMounts, .observe, false⟩,
  ⟨"fs.hash", .fsHash, .observe, false⟩,
  ⟨"fs.freespace", .fsFreeSpace, .observe, false⟩,
  ⟨"fs.find", .fsFind, .observe, false⟩,
  ⟨"fs.grep", .fsGrep, .observe, false⟩,
  ⟨"save.list", .saveList, .observe, false⟩,
  ⟨"save.mount", .saveMount, .observe, false⟩,
  ⟨"save.unmount", .saveUnmount, .observe, false⟩,
  ⟨"nand.read", .nandRead, .observe, false⟩,
  ⟨"album.list", .albumList, .observe, false⟩,
  ⟨"album.download", .albumDownload, .observe, false⟩,
  ⟨"i2c.read", .i2cRead, .observe, false⟩,
  ⟨"gpio.read", .gpioRead, .observe, false⟩,
  ⟨"cheat.status", .cheatStatus, .observe, false⟩,
  ⟨"cheat.list", .cheatList, .observe, false⟩,
  ⟨"cheat.meta", .cheatMeta, .observe, false⟩,
  ⟨"cheat.mappings", .cheatMappings, .observe, false⟩,
  ⟨"cheat.read_mem", .cheatReadMem, .observe, false⟩,
  ⟨"search.begin", .searchBegin, .observe, false⟩,
  ⟨"search.next", .searchNext, .observe, false⟩,
  ⟨"search.results", .searchResults, .observe, false⟩,
  ⟨"search.reset", .searchReset, .observe, false⟩,
  ⟨"input", .input, .control, false⟩,
  ⟨"touch", .touch, .control, false⟩,
  ⟨"type_text", .typeText, .control, false⟩,
  ⟨"launch", .launch, .control, true⟩,
  ⟨"terminate", .terminate, .control, true⟩,
  ⟨"reboot", .reboot, .control, true⟩,
  ⟨"shutdown", .shutdown, .control, true⟩,
  ⟨"agent.restart", .agentRestart, .control, true⟩,
  ⟨"set_brightness", .setBrightness, .control, true⟩,
  ⟨"set_auto_brightness", .setAutoBrightness, .control, true⟩,
  ⟨"set_volume", .setVolume, .control, true⟩,
  ⟨"set_sleep", .setSleep, .control, true⟩,
  ⟨"set_time", .setTime, .control, true⟩,
  ⟨"set_wireless", .setWireless, .control, true⟩,
  ⟨"fs.write", .fsWrite, .control, true⟩,
  ⟨"fs.delete", .fsDelete, .control, true⟩,
  ⟨"fs.mkdir", .fsMkdir, .control, true⟩,
  ⟨"fs.rename", .fsRename, .control, true⟩,
  ⟨"fs.copy", .fsCopy, .control, true⟩,
  ⟨"save.backup", .backupSave, .control, true⟩,
  ⟨"debug.attach", .debugAttach, .control, true⟩,
  ⟨"debug.detach", .debugDetach, .control, true⟩,
  ⟨"debug.continue", .debugContinue, .control, true⟩,
  ⟨"debug.break", .debugBreak, .control, true⟩,
  ⟨"debug.poll_events", .debugPollEvents, .control, false⟩,
  ⟨"debug.read_mem", .debugReadMem, .control, false⟩,
  ⟨"debug.memmap", .debugMemMap, .control, false⟩,
  ⟨"debug.threads", .debugThreads, .control, false⟩,
  ⟨"debug.registers", .debugRegisters, .control, false⟩,
  ⟨"debug.search", .debugSearch, .control, false⟩,
  ⟨"debug.modules", .debugModules, .observe, false⟩,
  ⟨"debug.backtrace", .debugBacktrace, .control, false⟩,
  ⟨"cheat.toggle", .cheatToggle, .control, true⟩,
  ⟨"debug.set_watchpoint", .debugSetWatchpoint, .control, true⟩,
  ⟨"debug.set_breakpoint", .debugSetBreakpoint, .control, true⟩,
  ⟨"debug.clear_breakpoint", .debugClearBreakpoint, .control, true⟩,
  ⟨"save.restore", .restoreSave, .invasive, true⟩,
  ⟨"uninstall", .uninstall, .invasive, true⟩,
  ⟨"reboot_to_payload", .rebootToPayload, .invasive, true⟩,
  ⟨"set_clocks", .setClocks, .invasive, true⟩,
  ⟨"debug.write_mem", .debugWriteMem, .invasive, true⟩,
  ⟨"debug.write_registers", .debugWriteRegisters, .invasive, true⟩,
  ⟨"debug.set_hwbp_raw", .debugSetHwBpRaw, .invasive, true⟩,
  ⟨"cheat.write_mem", .cheatWriteMem, .invasive, true⟩,
  ⟨"cheat.freeze", .freezeAddress, .invasive, true⟩,
  ⟨"cheat.unfreeze", .unfreezeAddress, .invasive, true⟩,
  ⟨"i2c.write", .i2cWrite, .invasive, true⟩]

/-- `dispatch.find(cmd)`. -/
def lookup (cmd : Bytes) : Option Command := dispatch.find? (fun c => decide (str c.name = cmd))

theorem lookup_some {cmd : Bytes} {c : Command} (h : lookup cmd = some c) : c ∈ dispatch ∧ str c.name = cmd :=
  ⟨List.mem_of_find?_eq_some h, by simpa using List.find?_some h⟩

/-! ## Capability tiers -/

/-- `CheckTier`: the refusal, or nothing. -/
def checkTier (cmd : Bytes) (c : Command) (cfg : AgentConfig) : Option Reply :=
  if cfg.tier.rank < c.tier.rank then
    some (fail "tier_denied" (str "'" ++ cmd ++ str "' requires tier=" ++ tierName c.tier ++
      str " but the agent is configured for tier=" ++ tierName cfg.tier ++
      str ". Raise `tier` in sd:/config/switch-agentd/config.ini and restart the agent."))
  else if (cmd = str "i2c.write" ∨ cmd = str "gpio.read" ∨ cmd = str "i2c.read") ∧ cfg.allowHardware = false then
    some (fail "disabled" (str "raw hardware bus access requires allow_hardware=true in config"))
  else if cmd = str "set_clocks" ∧ cfg.allowOverclock = false then
    some (fail "disabled" (str "clock control requires allow_overclock=true in config"))
  else if (cmd = str "uninstall" ∨ cmd = str "save.restore") ∧ cfg.allowNandWrite = false then
    some (fail "disabled" (str "'" ++ cmd ++ str "' writes to NAND and requires allow_nand_write=true in config"))
  else none

/-- What a command that passed the tier check may rely on. -/
structure Permitted (cfg : AgentConfig) (cmd : Bytes) (c : Command) : Prop where
  tier : c.tier.rank ≤ cfg.tier.rank
  hardware : cmd = str "i2c.write" ∨ cmd = str "gpio.read" ∨ cmd = str "i2c.read" → cfg.allowHardware = true
  overclock : cmd = str "set_clocks" → cfg.allowOverclock = true
  nand : cmd = str "uninstall" ∨ cmd = str "save.restore" → cfg.allowNandWrite = true

/-- **The tier check lets a command through exactly when the tier and its own gate permit it.** -/
theorem checkTier_eq_none_iff (cmd : Bytes) (c : Command) (cfg : AgentConfig) :
    checkTier cmd c cfg = none ↔ Permitted cfg cmd c := by
  have hb : ∀ b : Bool, b = false ↔ ¬b = true := fun b => by cases b <;> simp
  unfold checkTier
  constructor
  · intro h
    split at h; · cases h
    rename_i h1
    split at h; · cases h
    rename_i h2
    split at h; · cases h
    rename_i h3
    split at h; · cases h
    rename_i h4
    rw [hb, not_and, not_not] at h2 h3 h4
    exact ⟨by omega, h2, h3, h4⟩
  · intro h
    rw [if_neg (by have := h.tier; omega), if_neg, if_neg, if_neg]
    · rintro ⟨hc, hn⟩; rw [h.nand hc] at hn; cases hn
    · rintro ⟨hc, hn⟩; rw [h.overclock hc] at hn; cases hn
    · rintro ⟨hc, hn⟩; rw [h.hardware hc] at hn; cases hn

/-! ## Authentication -/

/-- `SecureEqual`: the loop has no early exit. -/
def secureEqual (a b : Bytes) : Bool :=
  decide (a.length = b.length) && decide ((a.zip b).foldl (fun diff p => diff ||| (p.1 ^^^ p.2)) 0 = 0)

/-- `%02x` of every byte. -/
def hexBytes (b : Bytes) : Bytes :=
  b.flatMap (fun x => [(JsonText.lowHex (x.toNat / 16)).byte, (JsonText.lowHex (x.toNat % 16)).byte])

theorem length_hexBytes : ∀ b : Bytes, (hexBytes b).length = 2 * b.length
  | [] => rfl
  | x :: b => by
    have ih := length_hexBytes b
    unfold hexBytes at ih ⊢
    rw [List.flatMap_cons, List.length_append, ih, List.length_cons, List.length_cons, List.length_cons, List.length_nil]
    omega

/-- What the handshake takes from outside the server: the nonce it draws, HMAC-SHA256 and the firmware's version. -/
structure AuthEnv where
  nonce : Bytes
  hmacSha256 : Bytes → Bytes → Bytes
  fw : Nat × Nat × Nat

/-- What `ReadFrame` gives, and whether the write after it succeeds. -/
structure Turn where
  read : IoResult (Value × Bytes)
  writeOk : Bool

inductive Event
  /-- The handshake succeeded: `WatchdogOnConnect`. -/
  | authenticated
  /-- A frame was read after the handshake. -/
  | got (msg : Value) (payload : Bytes)
  | entered (cmd : Bytes) (h : Handler) (req : Request)
  | journal (cmd : Bytes) (ok : Bool)
  /-- `WriteFrame` was called. -/
  | sent (msg : Value) (payload : Bytes)
  /-- `vpad::Release`. -/
  | released

def challenge (id : Int64) (nonce : Bytes) : Value :=
  (((Value.object []).set (str "id") (.int id)).set (str "challenge") (.string (hexBytes nonce))).set (str "algo")
    (.string (str "hmac-sha256"))

def rejection (id : Int64) : Value :=
  ((Value.object []).set (str "id") (.int id)).set (str "error")
    (((Value.object []).set (str "code") (.string (str "auth"))).set (str "message")
      (.string (str "invalid credentials")))

/-- The commands the tier permits, in the order of the map. -/
def advertised (cfg : AgentConfig) : List Bytes :=
  (((dispatch.filter (fun c => decide (c.tier.rank ≤ cfg.tier.rank))).foldl
    (fun o c => Json.mapSet o (str c.name) .null) []).map Prod.fst)

def welcome (cfg : AgentConfig) (env : AuthEnv) (id : Int64) : Value :=
  let fw := fmtDec env.fw.1 ++ ch '.' :: (fmtDec env.fw.2.1 ++ ch '.' :: fmtDec env.fw.2.2)
  (((((((((((Value.object []).set (str "id") (.int id)).set (str "ok") (.bool true)).set (str "agent_version")
    (.string (str "0.2.0"))).set (str "protocol_version") (.int 1)).set (str "fw") (.string fw)).set (str "tier")
    (.string (tierName cfg.tier))).set (str "emummc") (.bool cfg.isEmummc)).set (str "allow_nand_write")
    (.bool cfg.allowNandWrite)).set (str "allow_overclock") (.bool cfg.allowOverclock)).set (str "allow_hardware")
    (.bool cfg.allowHardware)).set (str "commands") (.array ((advertised cfg).map .string))
where
  fmtDec (n : Nat) : Bytes := (JsonText.decimal n).map JsonText.digitByte

/-- The end of `Authenticate`: whether the peer is in, what was written, and the turns that are left. -/
def concludeAuth (cfg : AgentConfig) (env : AuthEnv) (authed : Bool) (msg : Value) (helloId : Int64) (writeOk : Bool)
    (ts : List Turn) : Bool × List Event × List Turn :=
  if !authed then (false, [.sent (rejection helloId) []], ts)
  else
    let r := welcome cfg env ((msg.get (str "id")).asInt 0)
    if writeOk then (true, [.sent r [], .authenticated], ts) else (false, [.sent r []], ts)

def checkMac (cfg : AgentConfig) (env : AuthEnv) (presented : Bytes) : Bool :=
  decide (cfg.token ≠ []) && decide (presented.length = 32 * 2) &&
    secureEqual presented (hexBytes (env.hmacSha256 cfg.token (hexBytes env.nonce)))

/-- `Server::Authenticate`. -/
def authenticate (cfg : AgentConfig) (env : AuthEnv) : List Turn → Bool × List Event × List Turn
  | [] => (false, [], [])
  | t :: ts =>
    match t.read with
    | .timeout => (false, [], ts)
    | .closed => (false, [], ts)
    | .ok (msg, _) =>
      if (msg.get (str "cmd")).asString [] ≠ str "hello" then (false, [], ts)
      else
        let helloId := (msg.get (str "id")).asInt 0
        if (msg.get (str "auth")).asString [] = str "hmac" then
          let ask := Event.sent (challenge helloId env.nonce) []
          if !t.writeOk then (false, [ask], ts)
          else
            match ts with
            | [] => (false, [ask], [])
            | t' :: ts =>
              match t'.read with
              | .timeout => (false, [ask], ts)
              | .closed => (false, [ask], ts)
              | .ok (resp, _) =>
                let r := concludeAuth cfg env (checkMac cfg env ((resp.get (str "hmac")).asString [])) resp
                  ((resp.get (str "id")).asInt helloId) t'.writeOk ts
                (r.1, ask :: r.2.1, r.2.2)
        else
          let authed := !cfg.requireHmacAuth &&
            (decide (cfg.token ≠ []) && secureEqual ((msg.get (str "token")).asString []) cfg.token)
          concludeAuth cfg env authed msg helloId t.writeOk ts

/-! ## Serving -/

section
variable {σ : Type} (cfg : AgentConfig) (exec : Handler → Request → σ → (Bool × Reply) × σ)

/-- The answer to a dry run. -/
def preview (cmd : Bytes) (c : Command) : Reply :=
  ((({} : Reply).set "dry_run" (.bool true)).set "would_run" (.string cmd)).set "tier" (.string (tierName c.tier))
    |>.set "note" (.string (str "not executed; re-send without dry_run to apply"))

/-- The body of the loop between reading a frame and writing its reply. -/
def answer (msg : Value) (payload : Bytes) (st : σ) : Reply × List Event × σ :=
  let cmd := (msg.get (str "cmd")).asString []
  match lookup cmd with
  | none => (fail "unknown_command" cmd, [], st)
  | some c =>
    match checkTier cmd c cfg with
    | some refusal => (refusal, [], st)
    | none =>
      if c.mutating && isDryRun msg then (preview cmd c, [], st)
      else
        let r := exec c.fn ⟨msg, payload⟩ st
        (r.1.2, .entered cmd c.fn ⟨msg, payload⟩ :: (if c.mutating then [.journal (cStr cmd) r.1.1] else []), r.2)

def kMaxIdleTimeouts : Nat := 10

/-- The loop of `ServeConnection`, after `idle` timeouts in a row. -/
def serveLoop : Nat → List Turn → σ → List Event × σ
  | _, [], st => ([], st)
  | idle, t :: ts, st =>
    match t.read with
    | .timeout => if kMaxIdleTimeouts ≤ idle + 1 then ([], st) else serveLoop (idle + 1) ts st
    | .closed => ([], st)
    | .ok (msg, payload) =>
      let a := answer cfg exec msg payload st
      let reply := finishReply ((msg.get (str "id")).asInt 0) a.1
      let rest := if t.writeOk then serveLoop 0 ts a.2.2 else ([], a.2.2)
      (.got msg payload :: (a.2.1 ++ .sent reply a.1.out :: rest.1), rest.2)

/-- `Server::ServeConnection`. -/
def serveConnection (env : AuthEnv) (turns : List Turn) (st : σ) : List Event × σ :=
  let a := authenticate cfg env turns
  if a.1 then
    let r := serveLoop cfg exec 0 a.2.2 st
    (a.2.1 ++ r.1 ++ [.released], r.2)
  else (a.2.1, st)

end

/-! ## What authentication checks -/

theorem foldl_diff : ∀ (l : List (UInt8 × UInt8)) (d : UInt8),
    l.foldl (fun diff p => diff ||| (p.1 ^^^ p.2)) d = 0 ↔ d = 0 ∧ ∀ p ∈ l, p.1 = p.2
  | [], d => by simp
  | p :: l, d => by
    rw [List.foldl_cons, foldl_diff l, UInt8.or_eq_zero_iff, UInt8.xor_eq_zero_iff]
    simp [and_assoc]

theorem zip_eq : ∀ (a b : Bytes), a.length = b.length → (∀ p ∈ a.zip b, p.1 = p.2) → a = b
  | [], [], _, _ => rfl
  | [], _ :: _, h, _ => by cases h
  | _ :: _, [], h, _ => by cases h
  | x :: a, y :: b, h, he => by
    have hx : x = y := he (x, y) (by simp)
    rw [zip_eq a b (by simpa using h) (fun p hp => he p (by simp [hp])), hx]

/-- **The constant-time comparison compares.** -/
theorem secureEqual_iff (a b : Bytes) : secureEqual a b = true ↔ a = b := by
  unfold secureEqual
  rw [Bool.and_eq_true, decide_eq_true_iff, decide_eq_true_iff, foldl_diff]
  constructor
  · rintro ⟨hl, -, he⟩
    exact zip_eq a b hl he
  · rintro rfl
    refine ⟨rfl, rfl, fun p hp => ?_⟩
    rw [List.zip_eq_zipWith, List.zipWith_self, List.mem_map] at hp
    obtain ⟨x, -, rfl⟩ := hp
    rfl

/-- The peer proved that it knows the token: by the code over the nonce of this connection, or, where that is allowed, by
the token itself. -/
def Accepted (cfg : AgentConfig) (env : AuthEnv) (turns : List Turn) : Prop :=
  cfg.token ≠ [] ∧ ∃ hello p w ts, turns = ⟨.ok (hello, p), w⟩ :: ts ∧
    (hello.get (str "cmd")).asString [] = str "hello" ∧
    ((∃ resp p' w' ts', ts = ⟨.ok (resp, p'), w'⟩ :: ts' ∧
        (resp.get (str "hmac")).asString [] = hexBytes (env.hmacSha256 cfg.token (hexBytes env.nonce))) ∨
      (cfg.requireHmacAuth = false ∧ (hello.get (str "token")).asString [] = cfg.token))

theorem concludeAuth_true {cfg : AgentConfig} {env : AuthEnv} {authed w : Bool} {msg : Value} {id : Int64} {ts : List Turn}
    (h : (concludeAuth cfg env authed msg id w ts).1 = true) :
    authed = true ∧ ∃ r, concludeAuth cfg env authed msg id w ts = (true, [.sent r [], .authenticated], ts) := by
  unfold concludeAuth at h ⊢
  cases authed with
  | false => cases h
  | true =>
    cases w with
    | false => cases h
    | true => exact ⟨rfl, _, rfl⟩

/-- Only a write in a handshake that fails, and `authenticated` last in one that succeeds. -/
theorem concludeAuth_events (cfg : AgentConfig) (env : AuthEnv) (authed w : Bool) (msg : Value) (id : Int64) (ts : List Turn) :
    ∃ r, (concludeAuth cfg env authed msg id w ts).2.1
      = .sent r [] :: (if (concludeAuth cfg env authed msg id w ts).1 then [.authenticated] else []) := by
  unfold concludeAuth
  cases authed <;> cases w <;> exact ⟨_, rfl⟩

/-- What an authentication that succeeded checked. -/
theorem authenticate_checked {cfg : AgentConfig} {env : AuthEnv} {turns : List Turn}
    (h : (authenticate cfg env turns).1 = true) :
    ∃ hello p w ts, turns = ⟨.ok (hello, p), w⟩ :: ts ∧ (hello.get (str "cmd")).asString [] = str "hello" ∧
      (((hello.get (str "auth")).asString [] = str "hmac" ∧ w = true ∧ ∃ resp p' w' ts', ts = ⟨.ok (resp, p'), w'⟩ :: ts' ∧
          checkMac cfg env ((resp.get (str "hmac")).asString []) = true) ∨
        (cfg.requireHmacAuth = false ∧ cfg.token ≠ [] ∧ (hello.get (str "token")).asString [] = cfg.token)) := by
  unfold authenticate at h
  cases turns with
  | nil => cases h
  | cons t ts =>
    obtain ⟨read, w⟩ := t
    rcases read with ⟨hello, p⟩ | _ | _
    case timeout => cases h
    case closed => cases h
    dsimp only at h
    split at h; · cases h
    rename_i hcmd
    rw [not_not] at hcmd
    split at h
    · rename_i hauth
      cases w with
      | false => cases h
      | true =>
        cases ts with
        | nil => cases h
        | cons t' ts =>
          obtain ⟨read', w'⟩ := t'
          rcases read' with ⟨resp, p'⟩ | _ | _
          case timeout => cases h
          case closed => cases h
          exact ⟨hello, p, true, _, rfl, hcmd, Or.inl ⟨hauth, rfl, resp, p', w', ts, rfl, (concludeAuth_true h).1⟩⟩
    · have hm := (concludeAuth_true h).1
      rw [Bool.and_eq_true, Bool.and_eq_true, decide_eq_true_iff, secureEqual_iff, Bool.not_eq_true'] at hm
      exact ⟨hello, p, w, ts, rfl, hcmd, Or.inr ⟨hm.1, hm.2.1, hm.2.2⟩⟩

theorem checkMac_iff (cfg : AgentConfig) (env : AuthEnv) (presented : Bytes) :
    checkMac cfg env presented = true ↔ cfg.token ≠ [] ∧ presented.length = 32 * 2 ∧
      presented = hexBytes (env.hmacSha256 cfg.token (hexBytes env.nonce)) := by
  rw [checkMac, Bool.and_eq_true, Bool.and_eq_true, decide_eq_true_iff, decide_eq_true_iff, secureEqual_iff, and_assoc]

/-- **Authentication succeeds only for a peer that proved it knows the token.** -/
theorem authenticate_accepted {cfg : AgentConfig} {env : AuthEnv} {turns : List Turn}
    (h : (authenticate cfg env turns).1 = true) : Accepted cfg env turns := by
  obtain ⟨hello, p, w, ts, hturns, hcmd, ⟨-, -, resp, p', w', ts', hts, hmac⟩ | ⟨hreq, htok, htoken⟩⟩ := authenticate_checked h
  · obtain ⟨htok, -, hmac⟩ := (checkMac_iff cfg env _).1 hmac
    exact ⟨htok, hello, p, w, ts, hturns, hcmd, Or.inl ⟨resp, p', w', ts', hts, hmac⟩⟩
  · exact ⟨htok, hello, p, w, ts, hturns, hcmd, Or.inr ⟨hreq, htoken⟩⟩

/-! ## What stands before a handler -/

/-- What the dispatcher checked before it entered a handler. -/
structure Entered (cfg : AgentConfig) (cmd : Bytes) (h : Handler) (req : Request) : Prop where
  named : (req.msg.get (str "cmd")).asString [] = cmd
  command : ∃ c ∈ dispatch, str c.name = cmd ∧ c.fn = h ∧ Permitted cfg cmd c ∧
    (c.mutating = true → NotDryRun (req.msg.get (str "dry_run")))

/-- Frames read and frames written. -/
def Event.io : Event → Bool
  | .got _ _ | .sent _ _ => true
  | _ => false

section
variable {σ : Type} (cfg : AgentConfig) (exec : Handler → Request → σ → (Bool × Reply) × σ)

theorem answer_entered {msg : Value} {payload : Bytes} {st : σ} {cmd : Bytes} {h : Handler} {req : Request}
    (he : Event.entered cmd h req ∈ (answer cfg exec msg payload st).2.1) :
    req = ⟨msg, payload⟩ ∧ Entered cfg cmd h req := by
  unfold answer at he
  dsimp only at he
  split at he
  · cases he
  · rename_i c hc
    split at he
    · cases he
    · rename_i hp
      split at he
      · cases he
      · rename_i hd
        rcases List.mem_cons.1 he with e | he
        · cases e
          refine ⟨rfl, rfl, c, (lookup_some hc).1, (lookup_some hc).2, rfl, (checkTier_eq_none_iff _ _ _).1 hp, fun hm => ?_⟩
          exact notDryRun_of_isDryRun (by simpa [hm] using hd)
        · split at he
          · cases List.mem_singleton.1 he
          · cases he

/-- A handler reads no frame and writes none. -/
theorem answer_io (msg : Value) (payload : Bytes) (st : σ) :
    (answer cfg exec msg payload st).2.1.filter Event.io = [] := by
  unfold answer
  dsimp only
  split
  · rfl
  · split
    · rfl
    · split
      · rfl
      · split <;> rfl

theorem serveLoop_timeout (idle : Nat) (w : Bool) (ts : List Turn) (st : σ) :
    serveLoop cfg exec idle (⟨.timeout, w⟩ :: ts) st =
      if kMaxIdleTimeouts ≤ idle + 1 then ([], st) else serveLoop cfg exec (idle + 1) ts st := rfl

theorem serveLoop_closed (idle : Nat) (w : Bool) (ts : List Turn) (st : σ) :
    serveLoop cfg exec idle (⟨.closed, w⟩ :: ts) st = ([], st) := rfl

theorem serveLoop_frame (idle : Nat) (msg : Value) (payload : Bytes) (w : Bool) (ts : List Turn) (st : σ) :
    (serveLoop cfg exec idle (⟨.ok (msg, payload), w⟩ :: ts) st).1 = .got msg payload ::
      ((answer cfg exec msg payload st).2.1 ++
        .sent (finishReply ((msg.get (str "id")).asInt 0) (answer cfg exec msg payload st).1)
          (answer cfg exec msg payload st).1.out ::
        (if w then serveLoop cfg exec 0 ts (answer cfg exec msg payload st).2.2
          else ([], (answer cfg exec msg payload st).2.2)).1) := rfl

/-- **Every handler the loop enters was checked, for a frame that was read before.** -/
theorem serveLoop_entered : ∀ (ts : List Turn) (idle : Nat) (st : σ) (pre post : List Event) (cmd : Bytes) (h : Handler)
    (req : Request), (serveLoop cfg exec idle ts st).1 = pre ++ .entered cmd h req :: post →
    Entered cfg cmd h req ∧ .got req.msg req.payload ∈ pre
  | [], idle, st, pre, post, cmd, h, req, e => by
    rw [serveLoop] at e
    simp at e
  | ⟨.timeout, w⟩ :: ts, idle, st, pre, post, cmd, h, req, e => by
    rw [serveLoop_timeout] at e
    split at e
    · simp at e
    · exact serveLoop_entered ts _ st pre post cmd h req e
  | ⟨.closed, w⟩ :: ts, idle, st, pre, post, cmd, h, req, e => by
    rw [serveLoop_closed] at e
    simp at e
  | ⟨.ok (msg, payload), w⟩ :: ts, idle, st, pre, post, cmd, h, req, e => by
    rw [serveLoop_frame] at e
    cases pre with
    | nil => cases e
    | cons x pre =>
      rw [List.cons_append, List.cons.injEq] at e
      obtain ⟨rfl, e⟩ := e
      rcases List.append_eq_append_iff.1 e with ⟨as, hpre, hpost⟩ | ⟨bs, hans, hrest⟩
      · cases as with
        | nil => cases hpost
        | cons y as =>
          rw [List.cons_append, List.cons.injEq] at hpost
          obtain ⟨-, hpost⟩ := hpost
          split at hpost
          · have ih := serveLoop_entered ts 0 _ as post cmd h req hpost
            refine ⟨ih.1, ?_⟩
            rw [hpre]
            simp [ih.2]
          · simp at hpost
      · cases bs with
        | nil => cases hrest
        | cons y bs =>
          rw [List.cons_append, List.cons.injEq] at hrest
          obtain ⟨rfl, -⟩ := hrest
          have hmem : Event.entered cmd h req ∈ (answer cfg exec msg payload st).2.1 := by rw [hans]; simp
          obtain ⟨rfl, hen⟩ := answer_entered cfg exec hmem
          exact ⟨hen, List.mem_cons_self⟩

/-! ## Replies -/

/-- A frame and the reply to it. -/
structure Exchange where
  msg : Value
  payload : Bytes
  reply : Value
  out : Bytes

def Exchange.events (x : Exchange) : List Event := [.got x.msg x.payload, .sent x.reply x.out]

/-- The frames the loop reads when no write fails: up to the end of the connection or the last idle timeout it bears. -/
def framesRead : Nat → List Turn → List (Value × Bytes)
  | _, [] => []
  | idle, t :: ts =>
    match t.read with
    | .timeout => if kMaxIdleTimeouts ≤ idle + 1 then [] else framesRead (idle + 1) ts
    | .closed => []
    | .ok f => f :: framesRead 0 ts

/-- A frame and what the loop answers it with. -/
def exchangeOf (msg : Value) (payload : Bytes) (st : σ) : Exchange where
  msg := msg
  payload := payload
  reply := finishReply ((msg.get (str "id")).asInt 0) (answer cfg exec msg payload st).1
  out := (answer cfg exec msg payload st).1.out

theorem get_id_finishReply (id : Int64) (r : Reply) : (finishReply id r).get (str "id") = .int id := by
  have hne : str "bin" ≠ str "id" := by decide
  unfold finishReply
  dsimp only
  split <;> simp [hne]

/-- **The loop answers every frame it reads once, before it reads the next, with that frame's id.** -/
theorem serveLoop_answers : ∀ (ts : List Turn) (idle : Nat) (st : σ), ∃ xs : List Exchange,
    (serveLoop cfg exec idle ts st).1.filter Event.io = xs.flatMap Exchange.events ∧
    (∀ x ∈ xs, x.reply.get (str "id") = .int ((x.msg.get (str "id")).asInt 0)) ∧
    ((∀ t ∈ ts, t.writeOk = true) → xs.map (fun x => (x.msg, x.payload)) = framesRead idle ts)
  | [], idle, st => ⟨[], rfl, by simp, fun _ => rfl⟩
  | ⟨.timeout, w⟩ :: ts, idle, st => by
    rw [serveLoop_timeout, framesRead]
    by_cases hi : kMaxIdleTimeouts ≤ idle + 1
    · rw [if_pos hi]
      exact ⟨[], rfl, by simp, fun _ => by simp [hi]⟩
    · obtain ⟨xs, h1, h2, h3⟩ := serveLoop_answers ts (idle + 1) st
      rw [if_neg hi]
      exact ⟨xs, h1, h2, fun hw => by simp [hi, h3 fun t ht => hw t (List.mem_cons_of_mem _ ht)]⟩
  | ⟨.closed, w⟩ :: ts, idle, st => ⟨[], rfl, by simp, fun _ => rfl⟩
  | ⟨.ok (msg, payload), w⟩ :: ts, idle, st => by
    have hio := answer_io cfg exec msg payload st
    obtain ⟨xs, h1, h2, h3⟩ := serveLoop_answers ts 0 (answer cfg exec msg payload st).2.2
    rw [serveLoop_frame, framesRead]
    have hid : ∀ r : Reply, (finishReply ((msg.get (str "id")).asInt 0) r).get (str "id")
        = .int ((msg.get (str "id")).asInt 0) := get_id_finishReply _
    cases w with
    | true =>
      refine ⟨exchangeOf cfg exec msg payload st :: xs, ?_, ?_, fun hw => ?_⟩
      · rw [if_pos rfl, List.filter_cons_of_pos rfl, List.filter_append, hio, List.nil_append, List.filter_cons_of_pos rfl,
          h1, List.flatMap_cons]
        rfl
      · intro x hx
        rcases List.mem_cons.1 hx with rfl | hx
        · exact hid _
        · exact h2 x hx
      · rw [List.map_cons, h3 fun t ht => hw t (List.mem_cons_of_mem _ ht)]
        rfl
    | false =>
      refine ⟨[exchangeOf cfg exec msg payload st], ?_, ?_, fun hw => ?_⟩
      · rw [if_neg (by simp), List.filter_cons_of_pos rfl, List.filter_append, hio, List.nil_append,
          List.filter_cons_of_pos rfl]
        rfl
      · intro x hx
        rw [List.mem_singleton.1 hx]
        exact hid _
      · exact absurd (hw _ List.mem_cons_self) (by simp)

/-! ## A connection -/

theorem append_split {α : Type} {a b pre post : List α} {e : α} (h : a ++ b = pre ++ e :: post) (ha : e ∉ a) :
    ∃ pre', pre = a ++ pre' ∧ b = pre' ++ e :: post := by
  rcases List.append_eq_append_iff.1 h with ⟨as, hpre, hb⟩ | ⟨bs, rfl, hb⟩
  · exact ⟨as, hpre, hb⟩
  · cases bs with
    | nil => exact ⟨[], by simp, by simpa using hb.symm⟩
    | cons x bs =>
      rw [List.cons_append, List.cons.injEq] at hb
      exact absurd (by simp [hb.1]) ha

theorem append_split_right {α : Type} {a b pre post : List α} {e : α} (h : a ++ b = pre ++ e :: post) (hb : e ∉ b) :
    ∃ post', a = pre ++ e :: post' := by
  rcases List.append_eq_append_iff.1 h with ⟨as, -, hb'⟩ | ⟨bs, ha, hb'⟩
  · exact absurd (by simp [hb']) hb
  · cases bs with
    | nil =>
      rw [List.nil_append] at hb'
      exact absurd (by rw [← hb']; exact List.mem_cons_self) hb
    | cons x bs =>
      rw [List.cons_append, List.cons.injEq] at hb'
      exact ⟨bs, by rw [ha, hb'.1]⟩

/-- A handshake writes, and does nothing else until it succeeds. -/
theorem authenticate_events (env : AuthEnv) (turns : List Turn) : ∃ pre : List Event,
    (authenticate cfg env turns).2.1 = pre ++ (if (authenticate cfg env turns).1 then [.authenticated] else []) ∧
    ∀ e ∈ pre, ∃ r, e = .sent r [] := by
  unfold authenticate
  cases turns with
  | nil => exact ⟨[], rfl, by simp⟩
  | cons t ts =>
    obtain ⟨read, w⟩ := t
    rcases read with ⟨hello, p⟩ | _ | _
    case timeout => exact ⟨[], rfl, by simp⟩
    case closed => exact ⟨[], rfl, by simp⟩
    dsimp only
    split
    · exact ⟨[], rfl, by simp⟩
    split
    · have hask : ∀ e ∈ [Event.sent (challenge ((hello.get (str "id")).asInt 0) env.nonce) []], ∃ r, e = .sent r [] :=
        fun e he => ⟨_, List.mem_singleton.1 he⟩
      cases w with
      | false => exact ⟨_, rfl, hask⟩
      | true =>
        cases ts with
        | nil => exact ⟨_, rfl, hask⟩
        | cons t' ts =>
          obtain ⟨read', w'⟩ := t'
          rcases read' with ⟨resp, p'⟩ | _ | _
          case timeout => exact ⟨_, rfl, hask⟩
          case closed => exact ⟨_, rfl, hask⟩
          obtain ⟨r, hr⟩ := concludeAuth_events cfg env (checkMac cfg env ((resp.get (str "hmac")).asString [])) w' resp
            ((resp.get (str "id")).asInt ((hello.get (str "id")).asInt 0)) ts
          refine ⟨[.sent (challenge ((hello.get (str "id")).asInt 0) env.nonce) [], .sent r []], by simp [hr], ?_⟩
          intro e he
          rcases List.mem_cons.1 he with rfl | he
          · exact ⟨_, rfl⟩
          · exact ⟨_, List.mem_singleton.1 he⟩
    · obtain ⟨r, hr⟩ := concludeAuth_events cfg env (!cfg.requireHmacAuth &&
        (decide (cfg.token ≠ []) && secureEqual ((hello.get (str "token")).asString []) cfg.token)) w hello
        ((hello.get (str "id")).asInt 0) ts
      exact ⟨[.sent r []], hr, fun e he => ⟨r, List.mem_singleton.1 he⟩⟩

/-- What a connection does after its handshake succeeded. -/
def afterAuth : List Event → List Event
  | [] => []
  | .authenticated :: l => l
  | _ :: l => afterAuth l

theorem afterAuth_append : ∀ (pre l : List Event), (∀ e ∈ pre, ∃ r, e = .sent r []) →
    afterAuth (pre ++ .authenticated :: l) = l
  | [], l, _ => rfl
  | e :: pre, l, h => by
    obtain ⟨r, rfl⟩ := h e List.mem_cons_self
    rw [List.cons_append, afterAuth, afterAuth_append pre l fun e he => h e (List.mem_cons_of_mem _ he)]
    exact fun h => nomatch h

theorem afterAuth_sent : ∀ (pre : List Event), (∀ e ∈ pre, ∃ r, e = .sent r []) → afterAuth pre = []
  | [], _ => rfl
  | e :: pre, h => by
    obtain ⟨r, rfl⟩ := h e List.mem_cons_self
    rw [afterAuth, afterAuth_sent pre fun e he => h e (List.mem_cons_of_mem _ he)]
    exact fun h => nomatch h

/-- **What stands before a handler, and what follows a frame.**  In every run of a connection, for every configuration, every
peer and whatever the handlers do: a handler is entered only after this connection's handshake succeeded, which takes the
token; for a frame that was read; as the command that frame names, with its tier, its own gate and its dry run checked.
And after the handshake frames and replies alternate: each frame that is read is answered once, with its id, before the
next one is read. -/
theorem connection_guarded (env : AuthEnv) (turns : List Turn) (st : σ) :
    (∀ (pre post : List Event) (cmd : Bytes) (h : Handler) (req : Request),
      (serveConnection cfg exec env turns st).1 = pre ++ .entered cmd h req :: post →
      .authenticated ∈ pre ∧ .got req.msg req.payload ∈ pre ∧ Accepted cfg env turns ∧ Entered cfg cmd h req) ∧
    (∃ xs : List Exchange,
      (afterAuth (serveConnection cfg exec env turns st).1).filter Event.io = xs.flatMap Exchange.events ∧
      (∀ x ∈ xs, x.reply.get (str "id") = .int ((x.msg.get (str "id")).asInt 0)) ∧
      ((authenticate cfg env turns).1 = true → (∀ t ∈ (authenticate cfg env turns).2.2, t.writeOk = true) →
        xs.map (fun x => (x.msg, x.payload)) = framesRead 0 (authenticate cfg env turns).2.2)) := by
  obtain ⟨hs, hev, hsent⟩ := authenticate_events cfg env turns
  cases ha : (authenticate cfg env turns).1 with
  | false =>
    rw [ha] at hev
    have htrace : (serveConnection cfg exec env turns st).1 = hs := by
      simpa [serveConnection, ha] using hev
    refine ⟨fun pre post cmd h req e => ?_, [], ?_, by simp, fun h => by cases h⟩
    · rw [htrace] at e
      obtain ⟨r, hr⟩ := hsent (.entered cmd h req) (by rw [e]; simp)
      cases hr
    · rw [htrace, afterAuth_sent hs hsent]; rfl
  | true =>
    rw [ha] at hev
    obtain ⟨xs, h1, h2, h3⟩ := serveLoop_answers cfg exec (authenticate cfg env turns).2.2 0 st
    have htrace : (serveConnection cfg exec env turns st).1 = hs ++ ([.authenticated] ++
        ((serveLoop cfg exec 0 (authenticate cfg env turns).2.2 st).1 ++ [.released])) := by
      simp [serveConnection, ha, hev]
    refine ⟨fun pre post cmd h req e => ?_, xs, ?_, h2, fun _ hw => h3 hw⟩
    · rw [htrace] at e
      have hhs : Event.entered cmd h req ∉ hs := fun hm => by
        obtain ⟨r, hr⟩ := hsent _ hm
        cases hr
      obtain ⟨pre₁, rfl, e₁⟩ := append_split e hhs
      obtain ⟨pre₂, rfl, e₂⟩ := append_split e₁ (by simp)
      obtain ⟨post₂, hloop⟩ := append_split_right e₂ (by simp)
      obtain ⟨hen, hgot⟩ := serveLoop_entered cfg exec _ 0 st pre₂ post₂ cmd h req hloop
      exact ⟨by simp, by simp [hgot], authenticate_accepted ha, hen⟩
    · rw [htrace, List.singleton_append, afterAuth_append hs _ hsent, List.filter_append, h1]
      simp [Event.io]

end

/-- A configuration that takes the token itself. -/
def plainConfig : AgentConfig where
  token := str "k"
  tier := .control
  allowNandWrite := false
  allowOverclock := false
  allowHardware := false
  requireHmacAuth := false
  isEmummc := true

def plainEnv : AuthEnv := ⟨List.replicate 32 0, fun _ _ => List.replicate 32 0, (22, 1, 0)⟩

def hello : Value := .object [(str "cmd", .string (str "hello")), (str "token", .string (str "k"))]

def psRequest : Value := .object [(str "cmd", .string (str "ps")), (str "id", .int 7)]

def always (_ : Handler) (_ : Request) (st : Unit) : (Bool × Reply) × Unit := ((true, {}), st)

theorem connection_guarded_ps : Entered plainConfig (str "ps") .processList ⟨psRequest, []⟩ := by
  obtain ⟨h, -⟩ := connection_guarded plainConfig always plainEnv [⟨.ok (hello, []), true⟩, ⟨.ok (psRequest, []), true⟩] ()
  exact (h [.sent (welcome plainConfig plainEnv 0) [], .authenticated, .got psRequest []]
    [.sent (finishReply 7 {}) [], .released] (str "ps") .processList ⟨psRequest, []⟩ rfl).2.2.2

end Agent
end SwitchMcp

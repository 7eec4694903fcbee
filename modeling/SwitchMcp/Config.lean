import SwitchMcp.Debug
import SwitchMcp.Trace
/-!
# Config — config.ini, and what is written when it has no token (agent/source/config.cpp)

`LoadConfig` reads the settings line by line, and writes a whole new file when the token is missing.  The file's
settings are the pairs its lines give (`fileSettings`), and of each setting the last line counts (`valueOf`).
`next_boot_iff` says for which files the next boot runs on the configuration of this one.
-/
namespace SwitchMcp
namespace Agent

open JsonText (digitsVal decimal digitByte)

/-! ## Lines -/

def newline : UInt8 := 10

/-- `fgets` over a whole file: `k` more bytes fit into the buffer, `line` is in it. -/
def fgetsLoop (max : Nat) : Nat → Bytes → Bytes → List Bytes
  | _, [], line => if line = [] then [] else [line]
  | k, b :: s, line =>
    if b = newline ∨ k ≤ 1 then (line ++ [b]) :: fgetsLoop max max s []
    else fgetsLoop max (k - 1) s (line ++ [b])

/-- What `fgets(line, size, f)` returns until the file ends. -/
def fgetsLines (size : Nat) (text : Bytes) : List Bytes := fgetsLoop (size - 1) (size - 1) text []

/-- The characters `Trim` takes off. -/
def isBlank (b : UInt8) : Bool := decide (b = ch ' ' ∨ b = 9 ∨ b = 13 ∨ b = newline)

def trim (s : Bytes) : Bytes := ((s.dropWhile isBlank).reverse.dropWhile isBlank).reverse

/-- `key = value`, unless the line is empty, a comment or has no `=`. -/
def configLine (line : Bytes) : Option (Bytes × Bytes) :=
  let s := trim (cStr line)
  if s = [] ∨ s.head? = some (ch '#') ∨ s.head? = some (ch ';') then none
  else if ch '=' ∈ s then
    some (trim (s.takeWhile (fun b => decide (b ≠ ch '='))), trim ((s.dropWhile (fun b => decide (b ≠ ch '='))).drop 1))
  else none

/-! ## Settings -/

inductive Setting
  | port | token | logLevel | allowNandWrite | allowOverclock | allowHardware | tier | clearLockscreenOnBoot | enableUsb
  | enablePsc | requireHmacAuth | keepAwakeMinutes
deriving DecidableEq

def Setting.all : List Setting :=
  [.port, .token, .logLevel, .allowNandWrite, .allowOverclock, .allowHardware, .tier, .clearLockscreenOnBoot, .enableUsb,
    .enablePsc, .requireHmacAuth, .keepAwakeMinutes]

def Setting.key : Setting → Bytes
  | .port => str "port"
  | .token => str "token"
  | .logLevel => str "log_level"
  | .allowNandWrite => str "allow_nand_write"
  | .allowOverclock => str "allow_overclock"
  | .allowHardware => str "allow_hardware"
  | .tier => str "tier"
  | .clearLockscreenOnBoot => str "clear_lockscreen_on_boot"
  | .enableUsb => str "enable_usb"
  | .enablePsc => str "enable_psc"
  | .requireHmacAuth => str "require_hmac_auth"
  | .keepAwakeMinutes => str "keep_awake_minutes"

/-- The setting a key names. -/
def settingOf (key : Bytes) : Option Setting := Setting.all.find? (fun k => decide (k.key = key))

/-- `AgentConfig`, with what only the boot reads of it. -/
structure BootConfig extends AgentConfig where
  port : UInt16
  logLevel : Nat
  clearLockscreenOnBoot : Bool
  keepAwakeMinutes : Int32
  enablePsc : Bool
  enableUsb : Bool
deriving DecidableEq

/-- The initializers of protocol.hpp. -/
def BootConfig.initial : BootConfig where
  token := []
  tier := .observe
  allowNandWrite := false
  allowOverclock := false
  allowHardware := false
  requireHmacAuth := false
  isEmummc := false
  port := 6060
  logLevel := 2
  clearLockscreenOnBoot := true
  keepAwakeMinutes := 10
  enablePsc := false
  enableUsb := false

/-- `strtoul(s, nullptr, 10)`. -/
def strtoul10 (s : Bytes) : UInt64 :=
  let p := takeSign ((cStr s).dropWhile isSpace)
  let n := digitsVal (takeDigits p.2)
  if 2 ^ 64 ≤ n then UInt64.ofNat (2 ^ 64 - 1) else if p.1 then 0 - UInt64.ofNat n else UInt64.ofNat n

/-- `strtol(s, nullptr, 10)`. -/
def strtol10 (s : Bytes) : Int64 := strtoll ((cStr s).dropWhile isSpace)

def parsePort (v : Bytes) : UInt16 := (strtoul10 v).toUInt16

def parseLogLevel (v : Bytes) : Nat :=
  if v = str "error" then 0 else if v = str "warn" then 1 else if v = str "debug" then 3 else 2

def parseTier (v : Bytes) : Tier :=
  if v = str "control" then .control else if v = str "invasive" then .invasive else .observe

/-- `val == "true" || val == "1"`. -/
def parseFlag (v : Bytes) : Bool := decide (v = str "true" ∨ v = str "1")

def parseKeepAwake (v : Bytes) : Int32 :=
  let n := (strtol10 v).toInt32
  if n < 0 then 0 else n

/-- A line's effect on the configuration. -/
def BootConfig.set (cfg : BootConfig) : Setting × Bytes → BootConfig
  | (.port, v) => { cfg with port := parsePort v }
  | (.token, v) => { cfg with token := v }
  | (.logLevel, v) => { cfg with logLevel := parseLogLevel v }
  | (.allowNandWrite, v) => { cfg with allowNandWrite := parseFlag v }
  | (.allowOverclock, v) => { cfg with allowOverclock := parseFlag v }
  | (.allowHardware, v) => { cfg with allowHardware := parseFlag v }
  | (.tier, v) => { cfg with tier := parseTier v }
  | (.clearLockscreenOnBoot, v) => { cfg with clearLockscreenOnBoot := parseFlag v }
  | (.enableUsb, v) => { cfg with enableUsb := parseFlag v }
  | (.enablePsc, v) => { cfg with enablePsc := parseFlag v }
  | (.requireHmacAuth, v) => { cfg with requireHmacAuth := parseFlag v }
  | (.keepAwakeMinutes, v) => { cfg with keepAwakeMinutes := parseKeepAwake v }

/-- What a line sets. -/
def lineSetting (line : Bytes) : Option (Setting × Bytes) := do
  let (key, val) ← configLine line
  let k ← settingOf key
  return (k, val)

/-- The lines of a file that set something. -/
def fileSettings (text : Bytes) : List (Setting × Bytes) := (fgetsLines 512 text).filterMap lineSetting

/-! ## The console's boot -/

/-- What the boot finds on the card: config.ini and the two places of emummc.ini. -/
structure BootCard where
  config : Option Bytes
  emuMMC : Option Bytes
  emummc : Option Bytes
deriving DecidableEq

/-- What becomes of a file that is written anew: it does not open, or some of the bytes reach it. -/
inductive Write
  | refused
  | stored (n : Nat)

def Write.apply (old : Option Bytes) (text : Bytes) : Write → Option Bytes
  | .refused => old
  | .stored n => some (text.take n)

/-- The whole text reaches the file. -/
def Write.Succeeds (text : Bytes) : Write → Prop
  | .refused => False
  | .stored n => text.length ≤ n

/-- One boot: the bytes of the random generator and how the write goes. -/
structure Boot where
  random : Fin 16 → UInt8
  write : Write

def hexChar (n : Nat) : UInt8 := (JsonText.lowHex n).byte

def randomToken (random : Fin 16 → UInt8) : Bytes :=
  (List.ofFn random).flatMap (fun b => [hexChar (b.toNat / 16), hexChar (b.toNat % 16)])

/-- The generated lines up to the token. -/
def generatedHead (port : UInt16) (token : Bytes) : List Bytes :=
  [str "# switch-agentd config (auto-generated)", str "port" ++ str " = " ++ fmtU port.toNat,
    str "token" ++ str " = " ++ cStr token]

/-- The generated lines after it. -/
def generatedTail : List Bytes :=
  ["log_level = info",
    "",
    "# Capability tier: observe | control | invasive",
    "#   observe  - read-only; cannot change the console",
    "#   control  - input, launch apps, SD-card files",
    "#   invasive - NAND/BIS writes, raw i2c, memory patching",
    "# Starts read-only on purpose. Raise it deliberately.",
    "tier = observe",
    "",
    "# Clear the boot lockscreen automatically (needs tier >= control).",
    "# The lockscreen sleeps even with auto-sleep set to Never, and",
    "# sleeping drops the network, so a headless console left at the",
    "# lockscreen becomes unreachable until someone power-cycles it.",
    "clear_lockscreen_on_boot = true",
    "",
    "# Minutes between keep-awake nudges, 0 to disable. Stops the",
    "# console re-locking and then sleeping while idle, which drops",
    "# the network. Skipped while a game is running.",
    "keep_awake_minutes = 10",
    "",
    "# Refuse the legacy cleartext-token handshake. The token then",
    "# never crosses the network; clients prove knowledge of it by",
    "# answering a server-issued nonce. Turn on once every client",
    "# supports it (switch-mcp does).",
    "require_hmac_auth = false",
    "",
    "# Extra opt-ins, each also requiring tier = invasive.",
    "allow_nand_write = false",
    "allow_overclock = false",
    "allow_hardware = false"].map str

def linesText (lines : List Bytes) : Bytes := lines.flatMap (fun l => l ++ [newline])

/-- The text of a generated config.ini. -/
def generatedText (port : UInt16) (token : Bytes) : Bytes := linesText (generatedHead port token ++ generatedTail)

/-- What the lines of emummc.ini say: the first `enabled` counts. -/
def emummcEnabled : List Bytes → Bool
  | [] => false
  | line :: lines =>
    let s := trim (cStr line)
    if s.head? = some (ch '[') then emummcEnabled lines
    else
      match configLine line with
      | none => emummcEnabled lines
      | some (key, v) => if key = str "enabled" then decide (v ≠ str "0" ∧ v ≠ []) else emummcEnabled lines

def detectEmummc (card : BootCard) : Bool :=
  match card.emuMMC.or card.emummc with
  | none => false
  | some text => emummcEnabled (fgetsLines 256 text)

/-- The settings the card's config.ini gives. -/
def cardSettings (card : BootCard) : List (Setting × Bytes) := (card.config.map fileSettings).getD []

/-- What `LoadConfig` has read when it closes the file. -/
def readConfig (card : BootCard) : BootConfig := (cardSettings card).foldl BootConfig.set .initial

/-- `LoadConfig`: the configuration it returns and the card it leaves. -/
def loadConfig (boot : Boot) (card : BootCard) : BootConfig × BootCard :=
  let cfg := readConfig card
  if cfg.token = [] then
    let token := randomToken boot.random
    ({ cfg with token := token, isEmummc := detectEmummc card },
      { card with config := boot.write.apply card.config (generatedText cfg.port token) })
  else ({ cfg with isEmummc := detectEmummc card }, card)

end Agent
end SwitchMcp

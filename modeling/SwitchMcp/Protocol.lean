import SwitchMcp.Json
/-!
# Protocol — requests, replies and configuration of the agent (agent/source/protocol.hpp)

A handler gets a `Request` and fills a `Reply`; `fail` is how it reports an error, and `isDryRun` what the dispatcher
asks before it runs one that mutates.  `Json.Value.asBool` and `asInt` are typed accessors with defaults, so a field of
the wrong type is a field that is not there.
-/
namespace SwitchMcp
namespace Agent

open Json (Value)

inductive Tier
  | observe | control | invasive
deriving DecidableEq

/-- The `int` behind a tier. -/
def Tier.rank : Tier → Nat
  | .observe => 0
  | .control => 1
  | .invasive => 2

def tierName : Tier → Bytes
  | .observe => str "observe"
  | .control => str "control"
  | .invasive => str "invasive"

/-- What the server reads of its configuration. -/
structure AgentConfig where
  token : Bytes
  tier : Tier
  allowNandWrite : Bool
  allowOverclock : Bool
  allowHardware : Bool
  requireHmacAuth : Bool
  isEmummc : Bool
deriving DecidableEq

structure Request where
  msg : Value
  payload : Bytes

def Request.get (req : Request) (k : String) : Value := req.msg.get (str k)

structure Reply where
  json : Value := .object []
  out : Bytes := []

def Reply.set (r : Reply) (k : String) (v : Value) : Reply := { r with json := r.json.set (str k) v }

/-- `Fail(reply, code, message)`; both texts go through a `const char*`. -/
def fail (code : String) (message : Bytes) : Reply where
  json := (Value.object []).set (str "error")
    (((Value.object []).set (str "code") (.string (str code))).set (str "message") (.string (cStr message)))
  out := []

/-- The code of an error reply. -/
def Reply.errorCode (r : Reply) : Value := (r.json.get (str "error")).get (str "code")

theorem errorCode_fail (code : String) (message : Bytes) : (fail code message).errorCode = .string (str code) := by
  simp [fail, Reply.errorCode, show str "message" ≠ str "code" by decide]

def isDryRun (msg : Value) : Bool :=
  let v := msg.get (str "dry_run")
  v.asBool false || decide (v.asInt 0 = 1)

/-- `(u64)v.as_int(d)`. -/
def asU64 (v : Value) (d : Int64) : UInt64 := (v.asInt d).toUInt64

/-- **A request with `dry_run` set to true or to the number 1 is a dry run.** -/
theorem isDryRun_iff (msg : Value) :
    isDryRun msg = true ↔ msg.get (str "dry_run") = .bool true ∨ (msg.get (str "dry_run")).asInt 0 = 1 := by
  unfold isDryRun
  rw [Bool.or_eq_true, decide_eq_true_iff]
  cases msg.get (str "dry_run") <;> simp [Value.asBool]

/-- A `dry_run` that a command is executed under: neither true nor the number 1, written with or without a fraction. -/
structure NotDryRun (v : Value) : Prop where
  not_true : v ≠ .bool true
  not_one : v ≠ .int 1
  not_one_float : ∀ d : Double, d.isOne = true → v ≠ .double d

theorem notDryRun_of_isDryRun {msg : Value} (h : isDryRun msg = false) : NotDryRun (msg.get (str "dry_run")) := by
  have hn : ¬(msg.get (str "dry_run") = .bool true ∨ (msg.get (str "dry_run")).asInt 0 = 1) := by
    rw [← isDryRun_iff, h]
    exact Bool.false_ne_true
  rw [not_or] at hn
  refine ⟨hn.1, fun h1 => hn.2 (by rw [h1]; rfl), fun d hd h1 => hn.2 ?_⟩
  rw [h1]
  exact d.toInt64_of_isOne hd

end Agent
end SwitchMcp

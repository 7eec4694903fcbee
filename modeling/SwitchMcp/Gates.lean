import SwitchMcp.HostTools
import SwitchMcp.Retry
import SwitchMcp.Transfer
/-!
# Gates — the tools behind `require_confirmation`, and what they send (guards.py, tools/)

`require_confirmation` compares only the detail of a token with the detail of the call (`other_operation_proceeds`): that a
token lets nothing through but what it was issued for is up to the texts that the tools give as details, and
`effect_of_detail` says that they see to it.  The server runs its tools concurrently: a tool that was let through waits for
the client's lock, and others ask, are cancelled and call meanwhile.  `destructive_backed` counts, over every such run, the
frames that each effect has on the wire against the tokens that were issued for it.
-/
namespace SwitchMcp
namespace Guards

open Agent
open PyJson (dictGet dictSet)
open Prog (Ends Moves)

/-! ## The tools -/

/-- What a tool asks of the console; no payload when it raises before. -/
structure Effect where
  cmd : PyStr
  payload : Option Bytes
  params : PyDict
deriving DecidableEq

/-- A call of a tool behind `require_confirmation`. -/
structure Gated where
  operation : PyStr
  detail : PyStr
  effect : Effect

/-- `str(i)`. -/
def pyInt (i : Int) : PyStr := if i < 0 then py "-" ++ pyNat i.natAbs else pyNat i.natAbs

def hexVal (c : CodePoint) : Option Nat :=
  if 48 ≤ c.val ∧ c.val ≤ 57 then some (c.val - 48)
  else if 65 ≤ c.val ∧ c.val ≤ 70 then some (c.val - 55)
  else if 97 ≤ c.val ∧ c.val ≤ 102 then some (c.val - 87)
  else none

/-- White space of ASCII. -/
def isBlank (c : CodePoint) : Bool := decide (c.val = 32 ∨ (9 ≤ c.val ∧ c.val ≤ 13))

/-- `bytes.fromhex`: white space may stand before a byte, not inside one. -/
def fromHex : PyStr → Option Bytes
  | [] => some []
  | [c] => if isBlank c then some [] else none
  | c :: d :: s =>
    if isBlank c then fromHex (d :: s)
    else
      match hexVal c, hexVal d, fromHex s with
      | some hi, some lo, some bytes => some ((16 * hi + lo).toUInt8 :: bytes)
      | _, _, _ => none

/-- `s.replace(' ', '')`. -/
def withoutSpaces (s : PyStr) : PyStr := s.filter fun c => decide (c ≠ cp 32)

example : fromHex (withoutSpaces (py "0 aF F")) = some [10, 255] := by decide +kernel

namespace Gated

def fsDelete (path : PyStr) : Gated :=
  ⟨py "fs_delete", py "delete '" ++ path ++ py "' from the SD card",
    ⟨py "fs.delete", some [], [(py "path", .str path)]⟩⟩

def restoreSave (titleId : PyStr) : Gated :=
  ⟨py "restore_save", py "overwrite the live save data for title " ++ titleId ++
    py " with the SD backup (current in-game progress since that backup is lost)",
    ⟨py "save.restore", some [], [(py "tid", .str titleId)]⟩⟩

def reboot : Gated :=
  ⟨py "reboot", py "reboot the console now, losing any unsaved game progress", ⟨py "reboot", some [], []⟩⟩

def shutdown : Gated :=
  ⟨py "shutdown",
    py "power off the console; it cannot be woken remotely and someone must press the power button to bring it back",
    ⟨py "shutdown", some [], []⟩⟩

def rebootToPayload : Gated :=
  ⟨py "reboot_to_payload",
    py "reboot into the payload/recovery menu; the console may sit at a menu until someone interacts with it physically",
    ⟨py "reboot_to_payload", some [], []⟩⟩

def uninstallTitle (titleId : PyStr) : Gated :=
  ⟨py "uninstall_title", py "permanently uninstall title " ++ titleId,
    ⟨py "uninstall", some [], [(py "tid", .str titleId)]⟩⟩

/-- What `update_agent` sends besides is what any tool may send; the order is `updateAgent`'s. -/
def updateAgent (sha256 : Sha256) (name : PyStr) (data : Bytes) : Gated :=
  ⟨py "update_agent", updateDetail sha256 name data, ⟨py "agent.restart", some [], []⟩⟩

def i2cWrite (device : Int) (hexBytes : PyStr) : Gated :=
  ⟨py "i2c_write", py "write 0x" ++ withoutSpaces hexBytes ++ py " to i2c device " ++ pyInt device ++
    py "; on the PMIC this can permanently damage hardware",
    ⟨py "i2c.write", fromHex (withoutSpaces hexBytes), [(py "device", .int device)]⟩⟩

end Gated

/-- The tools behind `require_confirmation`, with what they are called with. -/
inductive Destructive
  | fsDelete (path : PyStr)
  | restoreSave (titleId : PyStr)
  | reboot
  | shutdown
  | rebootToPayload
  | uninstallTitle (titleId : PyStr)
  | updateAgent (name : PyStr) (data : Bytes)
  | i2cWrite (device : Int) (hexBytes : PyStr)

def Destructive.gated (sha256 : Sha256) : Destructive → Gated
  | .fsDelete path => .fsDelete path
  | .restoreSave titleId => .restoreSave titleId
  | .reboot => .reboot
  | .shutdown => .shutdown
  | .rebootToPayload => .rebootToPayload
  | .uninstallTitle titleId => .uninstallTitle titleId
  | .updateAgent name data => .updateAgent sha256 name data
  | .i2cWrite device hexBytes => .i2cWrite device hexBytes

/-- The commands that the other tools call, and `update_agent` for its upload. -/
def openCommands : List PyStr := ["agent.info", "sysinfo", "running_app", "crash_reports", "screenshot", "input", "wait_event",
  "read_input", "record_input", "type_text", "touch", "ps", "net_info", "fatal_reports", "read_log", "titles", "title_icon",
  "launch", "terminate", "fs.list", "fs.stat", "fs.mounts", "nand.read", "fs.read", "fs.write", "fs.mkdir", "fs.rename",
  "save.list", "save.mount", "save.unmount", "fs.freespace", "fs.find", "fs.grep", "save.backup", "preflight", "journal",
  "watchdog", "set_brightness", "set_sleep", "fs.hash", "get_brightness", "set_auto_brightness", "get_volume", "set_volume",
  "set_wireless", "get_time", "set_time", "console_info", "fs.copy", "album.list", "album.download", "controllers",
  "get_clocks", "cheat.meta", "cheat.read_mem", "cheat.write_mem", "cheat.mappings", "search.begin", "search.next",
  "search.results", "search.reset", "cheat.status", "cheat.list", "cheat.toggle", "cheat.freeze", "cheat.unfreeze",
  "debug.attach", "debug.poll_events", "debug.continue", "debug.break", "debug.detach", "debug.read_mem", "debug.write_mem",
  "debug.set_watchpoint", "debug.set_breakpoint", "debug.clear_breakpoint", "debug.write_registers", "debug.modules",
  "debug.backtrace", "debug.memmap", "debug.threads", "debug.registers", "debug.search", "i2c.read", "gpio.read"].map py

/-! ## The details -/

/-- How the detail of a tool begins. -/
def Destructive.tag : Destructive → PyStr
  | .fsDelete _ => py "delete '"
  | .restoreSave _ => py "overwrit"
  | .reboot => py "reboot t"
  | .shutdown => py "power of"
  | .rebootToPayload => py "reboot i"
  | .uninstallTitle _ => py "permanen"
  | .updateAgent _ _ => py "replace "
  | .i2cWrite _ _ => py "write 0x"

theorem take_detail (sha256 : Sha256) (t : Destructive) : (t.gated sha256).detail.take 8 = t.tag := by
  cases t <;> rfl

/-- What stands before the first `x` of a list. -/
theorem before_first {α : Type} {x : α} : ∀ {l l' r r' : List α}, x ∉ l → x ∉ l' → l ++ x :: r = l' ++ x :: r' →
    l = l' ∧ r = r'
  | [], [], _, _, _, _, h => ⟨rfl, (List.cons.inj h).2⟩
  | [], y :: l', _, _, _, h', h => absurd (by rw [(List.cons.inj h).1]; exact List.mem_cons_self) h'
  | y :: l, [], _, _, hl, _, h => absurd (by rw [← (List.cons.inj h).1]; exact List.mem_cons_self) hl
  | y :: l, z :: l', _, _, hl, hl', h => by
    rw [List.cons_append, List.cons_append, List.cons.injEq] at h
    obtain ⟨hi, hr⟩ := before_first (fun hx => hl (List.mem_cons_of_mem _ hx))
      (fun hx => hl' (List.mem_cons_of_mem _ hx)) h.2
    exact ⟨by rw [h.1, hi], hr⟩

theorem pyNat_digit (n : Nat) : ∀ c ∈ pyNat n, 48 ≤ c.val ∧ c.val ≤ 57 := by
  intro c hc
  obtain ⟨d, -, rfl⟩ := List.mem_map.1 hc
  have h : ∀ d : JsonText.Digit, 48 ≤ (cp (JsonText.digitByte d).toNat).val ∧
      (cp (JsonText.digitByte d).toNat).val ≤ 57 := by decide
  exact h d

theorem pyNat_injective : Function.Injective pyNat := by
  intro m n h
  have hdigit : Function.Injective fun d : JsonText.Digit => cp (JsonText.digitByte d).toNat := by decide
  rw [← JsonText.digitsVal_decimal m, ← JsonText.digitsVal_decimal n, List.map_injective_iff.2 hdigit h]

theorem pyInt_injective : Function.Injective pyInt := by
  have hminus : ∀ {m n : Nat}, py "-" ++ pyNat m ≠ pyNat n := by
    intro m n h
    have := (pyNat_digit n (cp 45) (by rw [← h]; exact List.mem_cons_self)).1
    exact absurd this (by decide)
  intro i j h
  unfold pyInt at h
  split at h <;> split at h
  · have := pyNat_injective (List.append_cancel_left h)
    omega
  · exact absurd h hminus
  · exact absurd h.symm hminus
  · have := pyNat_injective h
    omega

theorem no_space (s : PyStr) : cp 32 ∉ withoutSpaces s := by
  intro h
  exact of_decide_eq_true (List.mem_filter.1 h).2 rfl

/-- **The detail says the effect**: two calls of tools with one detail are of the same tool, for the same effect. -/
theorem effect_of_detail (sha256 : Sha256) {t t' : Destructive} (h : (t.gated sha256).detail = (t'.gated sha256).detail) :
    (t.gated sha256).effect = (t'.gated sha256).effect := by
  have htag : t.tag = t'.tag := by rw [← take_detail sha256, h, take_detail]
  cases t with
  | fsDelete path =>
    cases t' with
    | fsDelete path' =>
      obtain rfl := List.append_cancel_left (List.append_cancel_right h)
      rfl
    | _ => exact absurd htag (by dsimp only [Destructive.tag]; decide)
  | restoreSave titleId =>
    cases t' with
    | restoreSave titleId' =>
      obtain rfl := List.append_cancel_left (List.append_cancel_right h)
      rfl
    | _ => exact absurd htag (by dsimp only [Destructive.tag]; decide)
  | uninstallTitle titleId =>
    cases t' with
    | uninstallTitle titleId' =>
      obtain rfl := List.append_cancel_left h
      rfl
    | _ => exact absurd htag (by dsimp only [Destructive.tag]; decide)
  | i2cWrite device hexBytes =>
    cases t' with
    | i2cWrite device' hexBytes' =>
      have hbody := List.append_cancel_right h
      rw [List.append_assoc, List.append_assoc, List.append_assoc, List.append_assoc] at hbody
      obtain ⟨hhex, hrest⟩ := before_first (no_space hexBytes) (no_space hexBytes') (List.append_cancel_left hbody)
      have hdevice : py "to i2c device " ++ pyInt device = py "to i2c device " ++ pyInt device' := hrest
      obtain rfl := pyInt_injective (List.append_cancel_left hdevice)
      show Effect.mk _ (fromHex (withoutSpaces hexBytes)) _ = Effect.mk _ (fromHex (withoutSpaces hexBytes')) _
      rw [hhex]
    | _ => exact absurd htag (by dsimp only [Destructive.tag]; decide)
  | reboot =>
    cases t' with
    | reboot => rfl
    | _ => exact absurd htag (by dsimp only [Destructive.tag]; decide)
  | shutdown =>
    cases t' with
    | shutdown => rfl
    | _ => exact absurd htag (by dsimp only [Destructive.tag]; decide)
  | rebootToPayload =>
    cases t' with
    | rebootToPayload => rfl
    | _ => exact absurd htag (by dsimp only [Destructive.tag]; decide)
  | updateAgent name data =>
    cases t' with
    | updateAgent name' data' => rfl
    | _ => exact absurd htag (by dsimp only [Destructive.tag]; decide)

/-! ## The server -/

/-- A call of a tool up to where `require_confirmation` let it through or raised. -/
structure Asked where
  tool : Destructive
  call : Call
  outcome : Outcome

/-- The calls of `require_confirmation` so far, the tools that it let through and that wait for the client's lock, and the
client with the console. -/
structure Serving where
  asked : List Asked
  waiting : List Destructive
  device : Session

/-- What the server does next. -/
inductive Event
  | asks (tool : Destructive) (confirm : Option PyStr) (at_ : Moment)
  /-- A waiting tool gets the lock. -/
  | sends (i : Nat)
  /-- A waiting tool is cancelled, or goes no further: `update_agent` aborts after its hash. -/
  | stops (i : Nat)
  /-- A call of another tool. -/
  | calls (cmd : PyStr) (payload : Bytes) (params : PyDict)

section
variable (env : Process) (cfg : ClientConfig) (hmacHex : Bytes → Bytes → PyStr) (b : Build)
  (scripts : Nat → CallScript CardFault)

/-- The call of `require_confirmation` in a tool. -/
def confirmCall (tool : Destructive) (confirm : Option PyStr) (at_ : Moment) : Call :=
  ⟨(tool.gated env.sha256).operation, (tool.gated env.sha256).detail, confirm, at_.now, at_.clock⟩

/-- What an effect asks of the client. -/
def send (e : Effect) (d : Session) : Session :=
  match e.payload with
  | none => d
  | some payload => ((callNext cfg hmacHex b scripts e.cmd payload e.params).exec d).2

def Serving.step (s : Serving) : Event → Serving
  | .asks tool confirm at_ =>
    let c := confirmCall env tool confirm at_
    let o := outcome env (s.asked.map Asked.call) c
    { s with
      asked := s.asked ++ [⟨tool, c, o⟩]
      waiting := if o = .proceeds then s.waiting ++ [tool] else s.waiting }
  | .sends i =>
    match s.waiting[i]? with
    | none => s
    | some tool => { s with
      waiting := s.waiting.eraseIdx i
      device := send cfg hmacHex b scripts (tool.gated env.sha256).effect s.device }
  | .stops i => { s with waiting := s.waiting.eraseIdx i }
  | .calls cmd payload params =>
    if cmd ∈ openCommands then { s with device := ((callNext cfg hmacHex b scripts cmd payload params).exec s.device).2 }
    else s

/-- The server after these events. -/
def Serving.run (s : Serving) (events : List Event) : Serving := events.foldl (Serving.step env cfg hmacHex b scripts) s

end

/-- What a message asks, without its id and the length of the payload. -/
def request (msg : PyDict) : PyDict := msg.filter fun p => decide (p.1 ≠ py "id" ∧ p.1 ≠ py "bin")

/-- A frame asks for this effect. -/
def Effect.shows (e : Effect) (f : Sent CardFault) : Bool :=
  decide (request f.msg = callMsg e.cmd e.params ∧ e.payload = some f.payload)

/-- The frames that ask for an effect. -/
def Effect.frames (e : Effect) (l : List (Sent CardFault)) : Nat := l.countP e.shows

/-- The tools' calls for an effect that were let through. -/
def Effect.grants (sha256 : Sha256) (e : Effect) (l : List Asked) : Nat :=
  l.countP fun a => decide ((a.tool.gated sha256).effect = e ∧ a.outcome = .proceeds)

/-- The tools' calls for an effect that were answered with a token. -/
def Effect.issues (sha256 : Sha256) (e : Effect) (l : List Asked) : Nat :=
  l.countP fun a => decide ((a.tool.gated sha256).effect = e ∧ a.outcome.token ≠ none)

/-! ## What a call writes -/

section
variable {cfg : ClientConfig} {hmacHex : Bytes → Bytes → PyStr} {b : Build} {scripts : Nat → CallScript CardFault}

/-- The frames added are a call's, and at most so many of them are of its command. -/
def Adds (cfg : ClientConfig) (cmd : PyStr) (payload : Bytes) (params : PyDict) (n : Nat)
    (l l' : List (Sent CardFault)) : Prop :=
  ∃ new, l' = l ++ new ∧ (∀ f ∈ new, OfCall cfg.token cmd payload params f) ∧
    new.countP (fun f => decide (f.kind = .command)) ≤ n

variable {cmd : PyStr} {payload : Bytes} {params : PyDict} {n m : Nat} {l l' l'' : List (Sent CardFault)}

theorem Adds.mono (h : Adds cfg cmd payload params n l l') (hnm : n ≤ m) : Adds cfg cmd payload params m l l' := by
  obtain ⟨new, hl, hof, hcount⟩ := h
  exact ⟨new, hl, hof, hcount.trans hnm⟩

theorem Adds.trans (h : Adds cfg cmd payload params n l l') (h' : Adds cfg cmd payload params m l' l'') :
    Adds cfg cmd payload params (n + m) l l'' := by
  obtain ⟨new, rfl, hof, hcount⟩ := h
  obtain ⟨new', rfl, hof', hcount'⟩ := h'
  refine ⟨new ++ new', List.append_assoc _ _ _, fun f hf => (List.mem_append.1 hf).elim (hof f) (hof' f), ?_⟩
  rw [List.countP_append]
  omega

theorem adds_handshakes {serve : CardFault → Bytes → Bytes → Card → ReplyFrame × Card} {w w' : World Card CardFault}
    (h : Extends serve (IsHandshake cfg.token) w w') : Adds cfg cmd payload params 0 w.log w'.log := by
  obtain ⟨new, hl, -, hnew⟩ := h
  refine ⟨new, hl, fun f hf => Or.inl (hnew f hf), le_of_eq (List.countP_eq_zero.2 fun f hf => ?_)⟩
  rw [decide_eq_true_eq]
  exact (hnew f hf).kind_ne

/-- **A turn writes one frame of its command at most.** -/
theorem attempt_adds (serve : CardFault → Bytes → Bytes → Card → ReplyFrame × Card) (a : AttemptScript CardFault)
    (w : World Card CardFault) : Adds cfg cmd payload params 1 w.log
      ((attempt cfg hmacHex serve cmd payload params a).exec w).2.log := by
  rw [exec_attempt]
  have hready := (handshaking_extends cfg serve).ready_moves hmacHex a { w with sent := false }
  rcases hr : (ready cfg hmacHex serve a).exec { w with sent := false } with ⟨e | ⟨⟩, w1⟩
  · exact (adds_handshakes (hready.error hr)).mono (Nat.zero_le 1)
  · refine (adds_handshakes (hready.ok hr)).trans (m := 1) ?_
    have hnone : Adds cfg cmd payload params 1 w1.log w1.log := ⟨[], (List.append_nil _).symm, by simp, Nat.zero_le 1⟩
    cases hc : w1.conn with
    | none =>
      dsimp only
      rw [roundtrip, Prog.exec_of, hc]
      exact hnone
    | some c =>
      dsimp only
      rw [exec_roundtrip serve hc]
      split
      · exact hnone
      · refine ⟨[_], rfl, fun f hf => ?_, List.countP_le_length⟩
        rw [List.mem_singleton.1 hf]
        exact Or.inr ⟨rfl, rfl, _, rfl⟩

/-- **A call writes two frames of its command at most**: one in each turn. -/
theorem callNext_adds (d : Session) : Adds cfg cmd payload params 2 d.world.log
    ((callNext cfg hmacHex b scripts cmd payload params).exec d).2.world.log := by
  show Adds cfg cmd payload params 2 d.world.log
    ((call cfg hmacHex b.serve cmd payload params (scripts d.turn)).exec d.world).2.log
  have hfirst : Adds cfg cmd payload params 1 d.world.log
      ((attempt cfg hmacHex b.serve cmd payload params (scripts d.turn).first).exec d.world).2.log :=
    attempt_adds b.serve _ _
  rw [call_log]
  split
  · refine Adds.trans (n := 1) (m := 1) ?_ (attempt_adds b.serve _ _)
    rw [afterFirst, tryOnce_log]
    exact hfirst
  · exact hfirst.mono (by omega)

end

/-! ## Whose frame it is -/

theorem request_dictSet {k : PyStr} (hk : ¬(k ≠ py "id" ∧ k ≠ py "bin")) (v : PyJson) : ∀ msg : PyDict,
    request (dictSet msg k v) = request msg
  | [] => by
    simp only [dictSet, request, List.filter_cons, decide_eq_false hk, Bool.false_eq_true, if_false, List.filter_nil]
  | (k', v') :: msg => by
    unfold dictSet
    split
    · next h =>
      subst h
      simp only [request, List.filter_cons, decide_eq_false hk, Bool.false_eq_true, if_false]
    · have ih := request_dictSet hk v msg
      unfold request at ih ⊢
      rw [List.filter_cons, List.filter_cons, ih]

theorem request_roundtripMsg (id : Nat) (msg : PyDict) (payload : Bytes) :
    request (roundtripMsg id msg payload) = request msg := by
  unfold roundtripMsg
  dsimp only
  split
  · rw [request_dictSet (by decide)]
  · rw [request_dictSet (by decide), request_dictSet (by decide)]

theorem request_callMsg (cmd : PyStr) (params : PyDict) : request (callMsg cmd params) = callMsg cmd (request params) := rfl

theorem request_params (sha256 : Sha256) (t : Destructive) :
    request (t.gated sha256).effect.params = (t.gated sha256).effect.params := by
  cases t <;> rfl

theorem callMsg_injective {cmd cmd' : PyStr} {params params' : PyDict} (h : callMsg cmd params = callMsg cmd' params') :
    cmd = cmd' ∧ params = params' := by
  unfold callMsg at h
  rw [List.cons.injEq, Prod.mk.injEq, PyJson.str.injEq] at h
  exact ⟨h.1.2, h.2⟩

/-- The commands of the tools behind the confirmation. -/
def gatedCommands : List PyStr := [py "fs.delete", py "save.restore", py "reboot", py "shutdown", py "reboot_to_payload",
  py "uninstall", py "agent.restart", py "i2c.write"]

theorem gatedCommands_apart :
    gatedCommands.all (fun cmd => !openCommands.contains cmd && cmd != py "hello" && cmd != py "auth") = true := by
  decide +kernel

theorem cmd_mem (sha256 : Sha256) (t : Destructive) : (t.gated sha256).effect.cmd ∈ gatedCommands := by
  cases t <;> simp only [gatedCommands, List.mem_cons, Destructive.gated, Gated.fsDelete, Gated.restoreSave, Gated.reboot,
    Gated.shutdown, Gated.rebootToPayload, Gated.uninstallTitle, Gated.updateAgent, Gated.i2cWrite, true_or, or_true]

/-- These commands are not called otherwise. -/
theorem cmd_apart (sha256 : Sha256) (t : Destructive) : (t.gated sha256).effect.cmd ∉ openCommands ∧
    (t.gated sha256).effect.cmd ≠ py "hello" ∧ (t.gated sha256).effect.cmd ≠ py "auth" := by
  have h := List.all_eq_true.1 gatedCommands_apart _ (cmd_mem sha256 t)
  simpa only [Bool.and_eq_true, Bool.not_eq_true', List.contains_eq_mem, decide_eq_false_iff_not, bne_iff_ne,
    and_assoc] using h

/-- A handshake's frame asks for no effect. -/
theorem handshake_shows (sha256 : Sha256) (t : Destructive) {token : PyStr} {f : Sent CardFault} (hf : IsHandshake token f) :
    (t.gated sha256).effect.shows f = false := by
  obtain ⟨-, hhello, hauth⟩ := cmd_apart sha256 t
  obtain ⟨-, id, msg, hmsg, hkind⟩ := hf
  refine decide_eq_false fun h => ?_
  have hreq := h.1
  rw [hmsg, request_roundtripMsg] at hreq
  generalize f.kind = kind at hkind
  cases hkind with
  | hello => exact hhello (callMsg_injective (show callMsg (py "hello") _ = _ from hreq)).1.symm
  | auth mac => exact hauth (callMsg_injective (show callMsg (py "auth") _ = _ from hreq)).1.symm
  | legacy => exact hhello (callMsg_injective (show callMsg (py "hello") _ = _ from hreq)).1.symm

/-- **A call's frame that asks for an effect is of a call that does.** -/
theorem shows_of_call (sha256 : Sha256) (t : Destructive) {token cmd : PyStr} {payload : Bytes} {params : PyDict}
    {f : Sent CardFault} (hf : OfCall token cmd payload params f) (h : (t.gated sha256).effect.shows f = true) :
    f.kind = .command ∧ (t.gated sha256).effect = ⟨cmd, some payload, request params⟩ := by
  rcases hf with hf | ⟨hkind, hpayload, id, hmsg⟩
  · rw [handshake_shows sha256 t hf] at h
    cases h
  · obtain ⟨hreq, hsame⟩ := of_decide_eq_true h
    rw [hmsg, request_roundtripMsg, request_callMsg] at hreq
    obtain ⟨hcmd, hparams⟩ := callMsg_injective hreq
    refine ⟨hkind, ?_⟩
    rw [hcmd, hparams, ← hpayload, ← hsame]

section
variable {cfg : ClientConfig} {cmd : PyStr} {payload : Bytes} {params : PyDict} {n : Nat} {l l' : List (Sent CardFault)}

theorem Adds.frames_le (h : Adds cfg cmd payload params n l l') (sha256 : Sha256) (t : Destructive) :
    ∃ new, l' = l ++ new ∧ (t.gated sha256).effect.frames new ≤ n ∧
      ((t.gated sha256).effect ≠ ⟨cmd, some payload, request params⟩ → (t.gated sha256).effect.frames new = 0) := by
  obtain ⟨new, hl, hof, hcount⟩ := h
  refine ⟨new, hl, le_trans ?_ hcount, fun hne => List.countP_eq_zero.2 fun f hf hs =>
    hne (shows_of_call sha256 t (hof f hf) hs).2⟩
  exact List.countP_mono_left fun f hf hs => decide_eq_true (shows_of_call sha256 t (hof f hf) hs).1

end

/-! ## The table of tokens -/

section
variable {env : Process} {e : Effect} {l : List Asked} {a : Asked}

theorem grants_snoc (sha256 : Sha256) : e.grants sha256 (l ++ [a]) =
    e.grants sha256 l + if (a.tool.gated sha256).effect = e ∧ a.outcome = .proceeds then 1 else 0 := by
  unfold Effect.grants
  rw [List.countP_append, List.countP_singleton]
  simp only [decide_eq_true_eq]

theorem issues_snoc (sha256 : Sha256) : e.issues sha256 (l ++ [a]) =
    e.issues sha256 l + if (a.tool.gated sha256).effect = e ∧ a.outcome.token ≠ none then 1 else 0 := by
  unfold Effect.issues
  rw [List.countP_append, List.countP_singleton]
  simp only [decide_eq_true_eq]

/-- The tokens that wait for an effect are some of those that were issued for it and not used. -/
def Backed (env : Process) (e : Effect) (l : List Asked) : Prop :=
  ∃ tokens : Finset PyStr,
    (∀ k t expiry, pendingAfter env (l.map Asked.call) k = some ((Destructive.gated env.sha256 t).detail, expiry) →
      (t.gated env.sha256).effect = e → k ∈ tokens) ∧
    tokens.card + e.grants env.sha256 l ≤ e.issues env.sha256 l

theorem backed_nil : Backed env e [] :=
  ⟨∅, fun _ _ _ h _ => (Option.some_ne_none _ h.symm).elim, Nat.le_refl 0⟩

/-- **A call of a tool keeps the account**: what it lets through uses a token up that was issued for the very effect. -/
theorem Backed.asks (hd : env.allowDestructive = none) (h : Backed env e l) (tool : Destructive) (confirm : Option PyStr)
    (at_ : Moment) : Backed env e (l ++ [⟨tool, confirmCall env tool confirm at_,
      outcome env (l.map Asked.call) (confirmCall env tool confirm at_)⟩]) := by
  obtain ⟨tokens, hwaits, hcard⟩ := h
  unfold Backed
  rw [grants_snoc, issues_snoc, List.map_append, List.map_singleton, pendingAfter_snoc]
  dsimp only
  have hsame : (confirmCall env tool confirm at_).detail = (tool.gated env.sha256).detail := rfl
  generalize confirmCall env tool confirm at_ = c at hsame
  unfold outcome
  rcases require_cases hd (pendingAfter env (l.map Asked.call)) c with
    ⟨k, expiry, -, hk, hr⟩ | ⟨o, ho, hno, hr⟩ | ⟨k, -, hr⟩
  · -- A token goes.
    rw [hr]
    have hrest : ∀ k' t expiry', Function.update (sweep c.now (pendingAfter env (l.map Asked.call))) k none k' =
        some ((Destructive.gated env.sha256 t).detail, expiry') → (t.gated env.sha256).effect = e →
        k' ≠ k ∧ k' ∈ tokens := by
      intro k' t expiry' hp ht
      have hne : k' ≠ k := by
        rintro rfl
        rw [Function.update_self] at hp
        cases hp
      rw [Function.update_of_ne hne] at hp
      exact ⟨hne, hwaits k' t expiry' (sweep_eq_some.1 hp).1 ht⟩
    by_cases he : (tool.gated env.sha256).effect = e
    · have hmem : k ∈ tokens := hwaits k tool expiry (by rw [← hsame]; exact (sweep_eq_some.1 hk).1) he
      refine ⟨tokens.erase k, fun k' t expiry' hp ht => Finset.mem_erase.2 (hrest k' t expiry' hp ht), ?_⟩
      have hless := Finset.card_erase_add_one hmem
      rw [if_pos ⟨he, rfl⟩, if_neg (by simp [Outcome.token])]
      omega
    · refine ⟨tokens, fun k' t expiry' hp ht => (hrest k' t expiry' hp ht).2, ?_⟩
      rw [if_neg fun h => he h.1, if_neg fun h => he h.1]
      exact hcard
  · -- Nothing but the sweep.
    rw [hr]
    refine ⟨tokens, fun k' t expiry' hp ht => hwaits k' t expiry' (sweep_eq_some.1 hp).1 ht, ?_⟩
    rw [if_neg fun h => ho h.2, if_neg fun h => h.2 hno]
    exact hcard
  · -- A token comes.
    rw [hr]
    dsimp only
    by_cases he : (tool.gated env.sha256).effect = e
    · refine ⟨insert k tokens, fun k' t expiry' hp ht => ?_, ?_⟩
      · by_cases hne : k' = k
        · exact Finset.mem_insert.2 (Or.inl hne)
        · rw [Function.update_of_ne hne] at hp
          exact Finset.mem_insert_of_mem (hwaits k' t expiry' (sweep_eq_some.1 hp).1 ht)
      · have hmore := Finset.card_insert_le k tokens
        rw [if_neg (by simp), if_pos ⟨he, by simp [Outcome.token]⟩]
        omega
    · refine ⟨tokens, fun k' t expiry' hp ht => ?_, ?_⟩
      · by_cases hne : k' = k
        · subst hne
          rw [Function.update_self, Option.some.injEq, Prod.mk.injEq, hsame] at hp
          exact absurd ((effect_of_detail env.sha256 hp.1).trans ht) he
        · rw [Function.update_of_ne hne] at hp
          exact hwaits k' t expiry' (sweep_eq_some.1 hp).1 ht
      · rw [if_neg fun h => he h.1, if_neg fun h => he h.1]
        exact hcard

end

/-! ## Runs -/

section
variable {env : Process} {cfg : ClientConfig} {hmacHex : Bytes → Bytes → PyStr} {b : Build}
  {scripts : Nat → CallScript CardFault} {l : List (Sent CardFault)} {s : Serving} {t : Destructive}

theorem frames_append (e : Effect) (l l' : List (Sent CardFault)) : e.frames (l ++ l') = e.frames l + e.frames l' :=
  List.countP_append

/-- The waiting tools that are for this effect. -/
def Serving.waits (sha256 : Sha256) (s : Serving) (e : Effect) : Nat :=
  s.waiting.countP fun t => decide ((t.gated sha256).effect = e)

/-- **What an effect asks writes no frame of another effect**, and two of its own at most. -/
theorem send_frames (t t' : Destructive) (d : Session) :
    ∃ new, (send cfg hmacHex b scripts (t'.gated env.sha256).effect d).world.log = d.world.log ++ new ∧
      (t.gated env.sha256).effect.frames new ≤
        if (t'.gated env.sha256).effect = (t.gated env.sha256).effect then 2 else 0 := by
  unfold send
  cases hp : (t'.gated env.sha256).effect.payload with
  | none => exact ⟨[], (List.append_nil _).symm, Nat.zero_le _⟩
  | some payload =>
    have hadds : Adds cfg (t'.gated env.sha256).effect.cmd payload (t'.gated env.sha256).effect.params 2 d.world.log
        ((callNext cfg hmacHex b scripts _ payload _).exec d).2.world.log := callNext_adds d
    obtain ⟨new, hlog, htwo, hother⟩ := hadds.frames_le env.sha256 t
    refine ⟨new, hlog, ?_⟩
    split
    · exact htwo
    · next hne =>
      refine le_of_eq (hother fun h => hne ?_)
      rw [h, request_params, ← hp]

/-- What a run keeps for an effect, from a log `l` on: a tool that waits may write two frames. -/
structure Counted (env : Process) (l : List (Sent CardFault)) (t : Destructive) (s : Serving) : Prop where
  wire : ∃ new, s.device.world.log = l ++ new ∧ (t.gated env.sha256).effect.frames new +
    2 * s.waits env.sha256 (t.gated env.sha256).effect ≤ 2 * (t.gated env.sha256).effect.grants env.sha256 s.asked
  backed : Backed env (t.gated env.sha256).effect s.asked

theorem countP_eraseIdx_le {α : Type} (p : α → Bool) (l : List α) (i : Nat) : (l.eraseIdx i).countP p ≤ l.countP p :=
  (List.eraseIdx_sublist l i).countP_le

/-- The tool at `i` is counted when it is of the kind. -/
theorem countP_eraseIdx {α : Type} (p : α → Bool) {l : List α} {i : Nat} {x : α} (h : l[i]? = some x) :
    (l.eraseIdx i).countP p + (if p x = true then 1 else 0) = l.countP p := by
  obtain ⟨hi, rfl⟩ := List.getElem?_eq_some_iff.1 h
  rw [← List.countP_singleton, ← List.countP_append]
  exact ((List.perm_append_comm.trans (List.getElem_cons_eraseIdx_perm hi))).countP_eq p

/-- **One event keeps the account**, whatever else waits. -/
theorem Counted.step (hd : env.allowDestructive = none) (h : Counted env l t s) (event : Event) :
    Counted env l t (s.step env cfg hmacHex b scripts event) := by
  obtain ⟨⟨new, hlog, hcount⟩, hbacked⟩ := h
  unfold Serving.waits at hcount
  cases event with
  | asks tool confirm at_ =>
    refine ⟨⟨new, hlog, ?_⟩, hbacked.asks hd tool confirm at_⟩
    unfold Serving.waits
    dsimp only [Serving.step]
    rw [grants_snoc]
    by_cases ho : outcome env (s.asked.map Asked.call) (confirmCall env tool confirm at_) = .proceeds
    · rw [if_pos ho, List.countP_append, List.countP_singleton]
      simp only [ho, and_true, decide_eq_true_eq]
      split <;> omega
    · rw [if_neg ho, if_neg fun h => ho h.2]
      exact hcount
  | sends i =>
    dsimp only [Serving.step]
    cases hi : s.waiting[i]? with
    | none => exact ⟨⟨new, hlog, hcount⟩, hbacked⟩
    | some tool =>
      have hsends : ∃ sent, (send cfg hmacHex b scripts (tool.gated env.sha256).effect s.device).world.log =
          s.device.world.log ++ sent ∧ _ := send_frames t tool s.device
      obtain ⟨sent, hsent, hframes⟩ := hsends
      refine ⟨⟨new ++ sent, ?_, ?_⟩, hbacked⟩
      · rw [hsent, hlog, List.append_assoc]
      · have hone := countP_eraseIdx (fun t' => decide ((t'.gated env.sha256).effect = (t.gated env.sha256).effect)) hi
        rw [frames_append]
        unfold Serving.waits
        simp only [decide_eq_true_eq] at hone
        dsimp only
        split at hframes <;> rename_i he
        · rw [if_pos he] at hone
          omega
        · rw [if_neg he] at hone
          omega
  | stops i =>
    refine ⟨⟨new, hlog, le_trans ?_ hcount⟩, hbacked⟩
    exact Nat.add_le_add_left (Nat.mul_le_mul_left 2 (countP_eraseIdx_le _ _ i)) _
  | calls cmd payload params =>
    dsimp only [Serving.step]
    split
    · next hopen =>
      have hadds : Adds cfg cmd payload params 2 s.device.world.log
          ((callNext cfg hmacHex b scripts cmd payload params).exec s.device).2.world.log := callNext_adds s.device
      obtain ⟨sent, hsent, -, hother⟩ := hadds.frames_le env.sha256 t
      refine ⟨⟨new ++ sent, ?_, ?_⟩, hbacked⟩
      · rw [hsent, hlog, List.append_assoc]
      · rw [frames_append, hother fun h => (cmd_apart env.sha256 t).1 (by rw [h]; exact hopen)]
        exact hcount
    · exact ⟨⟨new, hlog, hcount⟩, hbacked⟩

theorem Counted.run (hd : env.allowDestructive = none) : ∀ (events : List Event) {s : Serving}, Counted env l t s →
    Counted env l t (s.run env cfg hmacHex b scripts events)
  | [], _, h => h
  | event :: events, _, h => Counted.run hd events (h.step hd event)

end

/-- **No effect on the console but for a token of its own.**  Over every run of the server, in which tools ask, wait for the
client's lock, are cancelled or go on in any order, other tools call between them and connections fail, the frames that ask
for an effect are two at most for each call that was let through for it, and those calls are no more than the tokens that
were issued for that very effect. -/
theorem destructive_backed (env : Process) (hd : env.allowDestructive = none) (cfg : ClientConfig)
    (hmacHex : Bytes → Bytes → PyStr) (b : Build) (scripts : Nat → CallScript CardFault) (d : Session)
    (events : List Event) (t : Destructive) :
    ∃ new, (Serving.run env cfg hmacHex b scripts ⟨[], [], d⟩ events).device.world.log = d.world.log ++ new ∧
      (t.gated env.sha256).effect.frames new ≤ 2 * (t.gated env.sha256).effect.grants env.sha256
        (Serving.run env cfg hmacHex b scripts ⟨[], [], d⟩ events).asked ∧
      (t.gated env.sha256).effect.grants env.sha256 (Serving.run env cfg hmacHex b scripts ⟨[], [], d⟩ events).asked ≤
        (t.gated env.sha256).effect.issues env.sha256 (Serving.run env cfg hmacHex b scripts ⟨[], [], d⟩ events).asked := by
  have h0 : Counted env d.world.log t ⟨[], [], d⟩ := ⟨⟨[], (List.append_nil _).symm, Nat.le_refl 0⟩, backed_nil⟩
  obtain ⟨⟨new, hlog, hcount⟩, tokens, -, hcard⟩ := h0.run hd events
  exact ⟨new, hlog, by omega, by omega⟩

/-- A reboot that is asked for and confirmed, and a deletion that is asked for before it is sent. -/
def rebootEvents : List Event :=
  [.asks .reboot none ⟨0, py "0.5"⟩, .asks .reboot (some (py "000000000000")) ⟨300, py "1.5"⟩,
    .asks (.fsDelete (py "/a")) none ⟨300, py "2.5"⟩, .sends 0, .calls (py "sysinfo") [] []]

/-- The server after `rebootEvents`. -/
def rebootRun : Serving := Serving.run sampleProcess sampleConfig noHash sampleBuild (sampleScripts (answeredWith .none
  (storing chunk))) ⟨[], [], sampleSession noFiles⟩ rebootEvents

theorem destructive_backed_reboot :
    (∃ new, rebootRun.device.world.log = (sampleSession noFiles).world.log ++ new ∧
      (Destructive.reboot.gated sampleProcess.sha256).effect.frames new ≤ 2 *
        (Destructive.reboot.gated sampleProcess.sha256).effect.grants sampleProcess.sha256 rebootRun.asked ∧
      (Destructive.reboot.gated sampleProcess.sha256).effect.grants sampleProcess.sha256 rebootRun.asked ≤
        (Destructive.reboot.gated sampleProcess.sha256).effect.issues sampleProcess.sha256 rebootRun.asked) ∧
    (Destructive.reboot.gated sampleProcess.sha256).effect.frames rebootRun.device.world.log = 1 ∧
    (Destructive.reboot.gated sampleProcess.sha256).effect.issues sampleProcess.sha256 rebootRun.asked = 1 :=
  ⟨destructive_backed sampleProcess rfl sampleConfig noHash sampleBuild _ (sampleSession noFiles) rebootEvents .reboot,
    by decide +kernel, by decide +kernel⟩

end Guards
end SwitchMcp

import SwitchMcp.Fields
import SwitchMcp.Debug
import SwitchMcp.MemSearch
/-!
# Quantities — 64-bit numbers across the wire

An address, a search value or a register is a `u64` on the console and an integer on the host, and between them a JSON
integer that the agent stores as an `int64_t`: `strtoll` saturates on the way in, and `%lld` prints a negative number on
the way out.  Both ways the number arrives exactly when it is below 2^63 (`u64_crosses_iff`).
-/
namespace SwitchMcp
namespace Agent

open Json (Value Message Step AsciiPath IsAscii Ordered Utf8Value ofPy toPy parse dump place pyPlace agentStr decoded
  saturate)
open PyJson (dictGet)

/-- **What a handler reads is the quantity when it is below 2^63, and 2^63 - 1 otherwise.** -/
theorem asU64_ofPy (v : UInt64) (d : Int64) :
    asU64 (ofPy (.int v.toNat)) d = if v.toNat < 2 ^ 63 then v else 0x7FFFFFFFFFFFFFFF := by
  rw [ofPy, asU64, Value.asInt]
  split
  · rename_i h
    rw [Json.saturate_of_lt h, Int64.toUInt64_ofNat', UInt64.ofNat_toNat]
  · rename_i h
    rw [Json.saturate_of_ge (by omega)]; rfl

theorem asU64_ofPy_iff (v : UInt64) (d : Int64) : asU64 (ofPy (.int v.toNat)) d = v ↔ v.toNat < 2 ^ 63 := by
  rw [asU64_ofPy]
  split
  · rename_i h; exact iff_of_true rfl h
  · rename_i h; exact iff_of_false (fun e => h (by rw [← e]; decide)) h

/-- **What the client reads is the quantity when it is below 2^63, and the quantity less 2^64 otherwise.** -/
theorem toPy_ofU64 (v : UInt64) :
    toPy (.ofU64 v) = .int (if v.toNat < 2 ^ 63 then v.toNat else (v.toNat : Int) - 2 ^ 64) := by
  have hv := v.toNat_lt
  have e : v.toInt64 = Int64.ofNat v.toNat := by rw [← UInt64.toInt64_ofNat', UInt64.ofNat_toNat]
  have hm : ((v.toNat : Int)).bmod Int64.size = if v.toNat < 2 ^ 63 then (v.toNat : Int) else (v.toNat : Int) - 2 ^ 64 := by
    rw [Int.bmod_def, show (Int64.size : Int) = 2 ^ 64 from rfl]
    split <;> split <;> omega
  rw [Value.ofU64, toPy, e, Int64.toInt_ofNat', hm]

theorem toPy_ofU64_iff (v : UInt64) : toPy (.ofU64 v) = .int v.toNat ↔ v.toNat < 2 ^ 63 := by
  rw [toPy_ofU64, PyJson.int.injEq]
  split <;> omega

/-- **A handler finds a request's quantity where the client put it.** -/
theorem request_quantity (v : UInt64) (m : Message) (p : List (Step PyStr)) (d : Int64) (hp : AsciiPath p)
    (h : pyPlace (.dict m.items) p = some (.int v.toNat)) :
    ((parse m.text).bind (place · (p.map (Step.map agentStr)))).map (asU64 · d) = some v ↔ v.toNat < 2 ^ 63 := by
  rw [m.parse_text, Option.bind_some, Json.place_ofPy p _ _ m.distinct hp h, Option.map_some, Option.some.injEq,
    asU64_ofPy_iff]

/-- **The client finds a reply's quantity where the handler put it.** -/
theorem reply_quantity (v : UInt64) (r : Value) (p : List (Step Bytes)) (hd : Ordered r) (hu : Utf8Value r)
    (h : place r p = some (.ofU64 v)) :
    (PyJson.loads (dump r)).bind (pyPlace · (p.map (Step.map decoded))) = some (.int v.toNat) ↔ v.toNat < 2 ^ 63 := by
  rw [Json.loads_dump r hu, Option.bind_some, Json.place_toPy p r _ hd hu h, Option.some.injEq, toPy_ofU64_iff]

theorem get_py (m : Message) (req : Request) (k : String) (hk : asciiOnly k = true) (x : PyJson)
    (hm : parse m.text = some req.msg) (h : dictGet m.items (py k) = some x) : req.get k = ofPy x := by
  rw [m.parse_text, Option.some.injEq] at hm
  rw [Request.get, ← hm, ← Json.agentStr_py k hk, Json.get_ofPy m.items _ m.distinct.1 (Json.isAscii_py k hk), h]
  rfl

/-- **A register is written with the request's quantity.** -/
theorem register_quantity (v : UInt64) (m : Message) (regs : PyDict) (k : PyStr) (r : Reg) (svc : Svc) (req : Request)
    (c : SetContext) (hm : parse m.text = some req.msg) (hregs : dictGet m.items (py "registers") = some (.dict regs))
    (hk : IsAscii k) (hkey : agentStr k = r.key) (h : dictGet regs k = some (.int v.toNat))
    (hc : (debugWriteRegisters svc req).2 = some c) : c.ctx.get r = v ↔ v.toNat < 2 ^ 63 := by
  have hdist : (regs.map Prod.fst).Nodup :=
    (Json.distinct_dictGet m.items (py "registers") (.dict regs) m.distinct.2 hregs).1
  have hget : req.get "registers" = ofPy (.dict regs) := get_py m req "registers" (by decide) _ hm hregs
  obtain ⟨ctx, -, hctx⟩ := debugWriteRegisters_ctx svc req c hc
  rw [hctx, patchAll_get, hget, ← hkey, Json.has_ofPy regs k hdist hk, h, Option.isSome_some, if_pos rfl,
    Json.get_ofPy regs k hdist hk, h]
  exact asU64_ofPy_iff v 0

/-- **A search looks for the request's quantity.** -/
theorem search_quantity (v : UInt64) (m : Message) (req : Request) (t : SearchTarget) (hm : parse m.text = some req.msg)
    (h : dictGet m.items (py "value") = some (.int v.toNat)) (ht : searchTarget req = .ok t) :
    t.value = v ↔ v.toNat < 2 ^ 63 := by
  rw [searchTarget_value ht, get_py m req "value" (by decide) _ hm h]
  exact asU64_ofPy_iff v 0

/-- **A 64-bit quantity crosses the wire exactly when it is below 2^63**: out to any field of a request, back in any field
of a reply, into a register and into a search. -/
theorem u64_crosses_iff (v : UInt64) :
    (∀ (m : Message) (p : List (Step PyStr)) (d : Int64), AsciiPath p → pyPlace (.dict m.items) p = some (.int v.toNat) →
      (((parse m.text).bind (place · (p.map (Step.map agentStr)))).map (asU64 · d) = some v ↔ v.toNat < 2 ^ 63)) ∧
    (∀ (r : Value) (p : List (Step Bytes)), Ordered r → Utf8Value r → place r p = some (.ofU64 v) →
      ((PyJson.loads (dump r)).bind (pyPlace · (p.map (Step.map decoded))) = some (.int v.toNat) ↔ v.toNat < 2 ^ 63)) ∧
    (∀ (m : Message) (regs : PyDict) (k : PyStr) (r : Reg) (svc : Svc) (req : Request) (c : SetContext),
      parse m.text = some req.msg → dictGet m.items (py "registers") = some (.dict regs) → IsAscii k →
      agentStr k = r.key → dictGet regs k = some (.int v.toNat) → (debugWriteRegisters svc req).2 = some c →
      (c.ctx.get r = v ↔ v.toNat < 2 ^ 63)) ∧
    (∀ (m : Message) (req : Request) (t : SearchTarget), parse m.text = some req.msg →
      dictGet m.items (py "value") = some (.int v.toNat) → searchTarget req = .ok t →
      (t.value = v ↔ v.toNat < 2 ^ 63)) :=
  ⟨request_quantity v, reply_quantity v, register_quantity v, search_quantity v⟩

/-- A debugger attached to a thread whose registers are all zero. -/
def zeroSvc : Svc := ⟨true, some [1], fun _ => some ⟨fun _ => 0, 0, 0, 0, 0⟩, fun _ _ _ => 0⟩

/-- A request that names a register, a search value and an address, all of them 7. -/
def sevens : Message where
  items := [(py "registers", .dict [(py "x0", .int 7)]), (py "value", .int 7), (py "addr", .int 7)]
  distinct := ⟨by decide, ⟨by decide, trivial, trivial⟩, trivial, trivial, trivial⟩
  finite := rfl

def sevensRequest : Request := ⟨ofPy (.dict sevens.items), []⟩

theorem u64_crosses_seven :
    (((parse sevens.text).bind (place · [.key (agentStr (py "addr"))])).map (asU64 · 0) = some 7) ∧
    ((PyJson.loads (dump (.object [(str "addr", .ofU64 7)]))).bind (pyPlace · [.key (decoded (str "addr"))])
      = some (.int 7)) ∧
    (∀ c, (debugWriteRegisters zeroSvc sevensRequest).2 = some c → c.ctx.get (.x 0) = 7) ∧
    (∀ t, searchTarget sevensRequest = .ok t → t.value = 7) := by
  obtain ⟨h1, h2, h3, h4⟩ := u64_crosses_iff 7
  have hp : AsciiPath [.key (py "addr")] := by
    intro k hk; cases List.mem_singleton.1 hk; exact Json.isAscii_py "addr" (by decide)
  have hutf : Utf8Value (.object [(str "addr", .ofU64 7)]) := ⟨⟨py "addr", rfl⟩, trivial, trivial⟩
  refine ⟨?_, ?_, fun c hc => ?_, fun t ht => ?_⟩
  · exact (h1 sevens [.key (py "addr")] 0 hp rfl).2 (by decide)
  · exact (h2 (.object [(str "addr", .ofU64 7)]) [.key (str "addr")] ⟨by decide, trivial, trivial⟩ hutf rfl).2 (by decide)
  · exact (h3 sevens [(py "x0", .int 7)] (py "x0") (.x 0) zeroSvc sevensRequest c sevens.parse_text rfl
      (Json.isAscii_py "x0" (by decide)) (by decide +kernel) rfl hc).2 (by decide)
  · exact (h4 sevens sevensRequest t sevens.parse_text rfl ht).2 (by decide)

/-- **2^63 is written into a register as 2^63 - 1, and comes back to the client as a negative number.** -/
theorem u64_high_bit_lost :
    PyJson.dumps (.dict [(py "registers", .dict [(py "x0", .int 0x8000000000000000)])])
      = str "\x7b\"registers\": \x7b\"x0\": 9223372036854775808\x7d\x7d" ∧
    ((parse (str "\x7b\"registers\": \x7b\"x0\": 9223372036854775808\x7d\x7d")).bind
      (fun msg => (debugWriteRegisters zeroSvc ⟨msg, []⟩).2)).map (fun c => c.ctx.get (.x 0))
        = some 0x7FFFFFFFFFFFFFFF ∧
    PyJson.loads (dump (.object [(str "addr", .ofU64 0x8000000000000000)]))
      = some (.dict [(py "addr", .int (-0x8000000000000000))]) :=
  ⟨by decide +kernel, by decide +kernel, rfl⟩

end Agent
end SwitchMcp

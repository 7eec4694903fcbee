import SwitchMcp.Client
/-!
# Replies — how long a reply is, and the frame that carries it (agent/source/server.cpp)

`Sendable` bounds a handler's reply: it is an object whose text has at most so many bytes, and the client can read it.
`replyFrame` is the frame of any reply, and of a sendable one it is what `WriteFrame` writes (`replyFrame_served`).
-/
namespace SwitchMcp
namespace Agent

open Json (Value Utf8Value Ordered)
open PyJson (dictGet)

/-! ## The length of a text -/

mutual
/-- A bound on the length of a value's text. -/
def weight : Value → Nat
  | .null => 4
  | .bool _ => 5
  | .int _ => 20
  | .double d => (Json.writeDouble d).length
  | .string s => 6 * s.length + 2
  | .array a => 2 + weightArray a
  | .object o => 2 + weightObject o
def weightArray : List Value → Nat
  | [] => 0
  | v :: a => 1 + weight v + weightArray a
def weightObject : List (Bytes × Value) → Nat
  | [] => 0
  | (k, v) :: o => 6 * k.length + 4 + weight v + weightObject o
end

theorem length_writeChar (c : UInt8) : (Json.writeChar c).length ≤ 6 := by
  unfold Json.writeChar
  repeat' split
  all_goals first | decide | simp [Json.hex4, str]

theorem length_writeString (s : Bytes) : (Json.writeString s).length ≤ 6 * s.length + 2 := by
  have h : (s.flatMap Json.writeChar).length ≤ 6 * s.length := by
    induction s with
    | nil => exact Nat.le_refl 0
    | cons c s ih =>
      have hc := length_writeChar c
      rw [List.flatMap_cons, List.length_append, List.length_cons]
      omega
  rw [Json.writeString, List.length_cons, List.length_append, List.length_singleton]
  omega

theorem length_writeInt (i : Int64) : (Json.writeInt i).length ≤ 20 := by
  have h1 := i.toInt_lt
  have h2 := i.le_toInt
  exact JsonText.Number.length_text_ofInt (by decide) (by omega)

mutual
/-- **A value's text is no longer than its weight.** -/
theorem length_write : ∀ v : Value, (Json.write v).length ≤ weight v
  | .null => by decide
  | .bool b => by cases b <;> decide
  | .int i => length_writeInt i
  | .double d => Nat.le_refl _
  | .string s => length_writeString s
  | .array a => by
    have := length_writeArray true a
    rw [Json.write, List.length_cons, List.length_append, List.length_singleton, weight]
    omega
  | .object o => by
    have := length_writeObject true o
    rw [Json.write, List.length_cons, List.length_append, List.length_singleton, weight]
    omega
theorem length_writeArray : ∀ (first : Bool) (a : List Value), (Json.writeArray first a).length ≤ weightArray a
  | _, [] => Nat.le_refl 0
  | first, v :: a => by
    have h1 := length_write v
    have h2 := length_writeArray false a
    rw [Json.writeArray, List.length_append, List.length_append, weightArray]
    split
    · rw [List.length_nil]; omega
    · rw [List.length_singleton]; omega
theorem length_writeObject : ∀ (first : Bool) (o : List (Bytes × Value)), (Json.writeObject first o).length ≤ weightObject o
  | _, [] => Nat.le_refl 0
  | first, (k, v) :: o => by
    have h1 := length_write v
    have h2 := length_writeObject false o
    have h3 := length_writeString k
    rw [Json.writeObject, List.length_append, List.length_append, List.length_cons, List.length_append, weightObject]
    split
    · rw [List.length_nil]; omega
    · rw [List.length_singleton]; omega
end

theorem weightObject_mapSet : ∀ (o : List (Bytes × Value)) (k : Bytes) (v : Value),
    weightObject (Json.mapSet o k v) ≤ weightObject o + (6 * k.length + 4 + weight v)
  | [], k, v => by
    simp only [Json.mapSet, weightObject]
    omega
  | (k0, v0) :: o, k, v => by
    unfold Json.mapSet
    split
    · simp only [weightObject]
      omega
    · split
      · simp only [weightObject]
        omega
      · have := weightObject_mapSet o k v
        simp only [weightObject]
        omega

/-- **A member adds no more than its own weight.** -/
theorem weight_set {v : Value} (hv : ∃ o, v = .object o) (k : Bytes) (x : Value) :
    weight (v.set k x) ≤ weight v + (6 * k.length + 4 + weight x) := by
  obtain ⟨o, rfl⟩ := hv
  have := weightObject_mapSet o k x
  rw [Value.set, weight, weight]
  omega

theorem object_set (v : Value) (k : Bytes) (x : Value) : ∃ o, v.set k x = .object o := by
  cases v <;> exact ⟨_, rfl⟩

/-! ## Replies that can be sent -/

/-- A reply that is an object of at most `n` bytes, of which the client can read every string, without a `bin` of its own
and with a payload of at most a chunk. -/
structure Sendable (n : Nat) (r : Reply) : Prop where
  object : ∃ o, r.json = .object o
  ordered : Ordered r.json
  utf8 : Utf8Value r.json
  no_bin : r.json.has (str "bin") = false
  weight : weight r.json ≤ n
  out : r.out.length ≤ kMaxBinary

@[simp] theorem has_empty (k : Bytes) : (({} : Reply).json).has k = false := rfl

theorem sendable_empty : Sendable 2 {} :=
  ⟨⟨[], rfl⟩, ⟨List.Pairwise.nil, trivial⟩, trivial, rfl, Nat.le_refl 2, Nat.zero_le _⟩

/-- **A member more.** -/
theorem Sendable.set {n : Nat} {r : Reply} (h : Sendable n r) {k : String} (hk : asciiOnly k = true)
    (hne : str k ≠ str "bin") {v : Value} (hv : Ordered v) (hu : Utf8Value v) :
    Sendable (n + (6 * (str k).length + 4 + Agent.weight v)) (r.set k v) := by
  refine ⟨object_set _ _ _, Json.ordered_set _ _ _ h.ordered hv, Json.utf8Value_set _ _ _ h.utf8 (Json.isUtf8_str k hk) hu, ?_,
    (weight_set h.object _ _).trans (Nat.add_le_add_right h.weight _), h.out⟩
  rw [Reply.set, Value.has_set, h.no_bin, Bool.or_false]
  exact decide_eq_false hne

/-- A payload. -/
theorem Sendable.with_out {n : Nat} {r : Reply} (h : Sendable n r) {out : Bytes} (ho : out.length ≤ kMaxBinary) :
    Sendable n { r with out := out } := ⟨h.object, h.ordered, h.utf8, h.no_bin, h.weight, ho⟩

theorem sendable_fail {code : String} {message : Bytes} (hc : asciiOnly code = true) (hm : Json.IsUtf8 message)
    (hnul : 0 ∉ message) : Sendable (6 * (str code).length + 6 * message.length + 120) (fail code message) := by
  have hobj : ∀ (k : String) (v : Value), asciiOnly k = true → str k ≠ str "bin" → Ordered v → Utf8Value v →
      Sendable (2 + (6 * (str k).length + 4 + Agent.weight v)) (({} : Reply).set k v) := fun k v hk hne hv hu =>
    sendable_empty.set hk hne hv hu
  have hinner := (hobj "code" (.string (str code)) (by decide) (by decide) trivial (Json.isUtf8_str code hc)).set
    (k := "message") (v := .string message) (by decide) (by decide) trivial hm
  have houter := hobj "error" _ (by decide) (by decide) hinner.ordered hinner.utf8
  have hfail : fail code message = ({} : Reply).set "error"
      ((({} : Reply).set "code" (.string (str code))).set "message" (.string message)).json := by
    rw [fail, cStr_of_no_nul message hnul]
    rfl
  rw [hfail]
  refine ⟨houter.object, houter.ordered, houter.utf8, houter.no_bin, le_trans houter.weight ?_, houter.out⟩
  have hw := hinner.weight
  have e1 : (str "code").length = 4 := by decide
  have e2 : (str "message").length = 7 := by decide
  have e3 : (str "error").length = 5 := by decide
  simp only [Agent.weight, e1, e2] at hw
  omega

/-! ## Framing -/

theorem weight_finishReply {r : Reply} (ho : ∃ o, r.json = .object o) (id : Int64) :
    weight (finishReply id r) ≤ weight r.json + 100 := by
  have e1 : (str "id").length = 2 := by decide
  have e2 : (str "bin").length = 3 := by decide
  have hid := weight_set ho (str "id") (.int id)
  have hbin := weight_set (object_set r.json (str "id") (.int id)) (str "bin") (.int (Int64.ofNat r.out.length))
  unfold finishReply
  dsimp only
  split
  · simp only [weight, e1] at hid
    omega
  · simp only [weight, e1] at hid
    simp only [weight, e2] at hbin
    omega

theorem Sendable.text_lt {n : Nat} {r : Reply} (h : Sendable n r) (hn : n < 2 ^ 31) (id : Int64) :
    (Json.dump (finishReply id r)).length < 2 ^ 32 := by
  have h1 := length_write (finishReply id r)
  have h2 := weight_finishReply h.object id
  have h3 := h.weight
  rw [Json.dump]
  omega

theorem Sendable.out_lt {n : Nat} {r : Reply} (h : Sendable n r) : r.out.length < 2 ^ 64 := by
  have h1 := h.out
  simp only [kMaxBinary] at h1
  omega

/-- **A sendable reply is served.** -/
def Sendable.served {n : Nat} {r : Reply} (h : Sendable n r) (hn : n < 2 ^ 31) (id : Int64) : Served where
  id := id
  reply := r
  ordered := h.ordered
  utf8 := h.utf8
  no_bin := h.no_bin
  text_lt := h.text_lt hn id
  out_lt := h.out_lt

/-- What a frame needs: lengths that its fields can say, and an object whose `bin` says that there is a payload. -/
structure Framed (text blob : Bytes) : Prop where
  text_lt : text.length < 2 ^ 32
  blob_lt : blob.length < 2 ^ 64
  object : ∀ v, PyJson.loads text = some v → ∃ d, v = .dict d ∧ (dictGet d (py "bin")).isSome = decide (blob ≠ [])

def framed (text blob : Bytes) : Bool :=
  decide (text.length < 2 ^ 32) && decide (blob.length < 2 ^ 64) &&
    match PyJson.loads text with
    | none => true
    | some (.dict d) => decide ((dictGet d (py "bin")).isSome = decide (blob ≠ []))
    | some _ => false

theorem framed_iff (text blob : Bytes) : framed text blob = true ↔ Framed text blob := by
  unfold framed
  rw [Bool.and_eq_true, Bool.and_eq_true, decide_eq_true_iff, decide_eq_true_iff]
  constructor
  · rintro ⟨⟨h1, h2⟩, h3⟩
    refine ⟨h1, h2, fun v hv => ?_⟩
    rw [hv] at h3
    cases v with
    | dict d => exact ⟨d, rfl, of_decide_eq_true h3⟩
    | _ => cases h3
  · rintro ⟨h1, h2, h3⟩
    refine ⟨⟨h1, h2⟩, ?_⟩
    cases hv : PyJson.loads text with
    | none => rfl
    | some v =>
      obtain ⟨d, rfl, hd⟩ := h3 v hv
      exact decide_eq_true hd

/-- A frame that does not decode. -/
def blankFrame : ReplyFrame where
  text := []
  blob := []
  text_lt := by decide
  blob_lt := by decide
  object := by
    have h : PyJson.loads [] = none := by decide
    intro v hv
    rw [h] at hv
    cases hv

/-- The frame of a reply. -/
def replyFrame (v : Value) (blob : Bytes) : ReplyFrame :=
  if h : framed (Json.dump v) blob = true then
    ⟨Json.dump v, blob, ((framed_iff _ _).1 h).text_lt, ((framed_iff _ _).1 h).blob_lt, ((framed_iff _ _).1 h).object⟩
  else blankFrame

/-- **The frame of a served reply is what `WriteFrame` writes.** -/
theorem replyFrame_served (v : Served) :
    (replyFrame v.final v.reply.out).bytes = v.bytes ∧
      PyJson.loads (replyFrame v.final v.reply.out).text = some (.dict v.items) ∧
      (replyFrame v.final v.reply.out).blob = v.reply.out := by
  have h : Framed (Json.dump v.final) v.reply.out := ⟨v.text_lt, v.out_lt, fun x hx => by
    rw [v.loads_text] at hx
    cases hx
    exact ⟨v.items, rfl, v.items_bin⟩⟩
  unfold replyFrame
  rw [dif_pos ((framed_iff _ _).2 h)]
  exact ⟨rfl, v.loads_text, rfl⟩

/-- **What the client reads of a sendable reply.** -/
theorem Sendable.reads {n : Nat} {r : Reply} (h : Sendable n r) (hn : n < 2 ^ 31) (id : Int64) :
    ∃ d, PyJson.loads (replyFrame (finishReply id r) r.out).text = some (.dict d) ∧
      (replyFrame (finishReply id r) r.out).blob = r.out ∧
      ∀ k : String, asciiOnly k = true → str k ≠ str "id" → str k ≠ str "bin" →
        dictGet d (py k) = if r.json.has (str k) = true then some (Json.toPy (r.json.get (str k))) else none := by
  obtain ⟨-, hl, hb⟩ := replyFrame_served (h.served hn id)
  refine ⟨_, hl, hb, fun k hk hid hbin => ?_⟩
  have hget : (finishReply id r).get (str k) = r.json.get (str k) ∧ (finishReply id r).has (str k) = r.json.has (str k) := by
    unfold finishReply
    dsimp only
    split
    · simp [Ne.symm hid]
    · simp [Ne.symm hid, Ne.symm hbin]
  rw [(h.served hn id).dictGet_items k hk]
  have hfinal : (h.served hn id).final = finishReply id r := rfl
  rw [hfinal, hget.1, hget.2]

end Agent
end SwitchMcp

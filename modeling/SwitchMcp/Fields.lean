import SwitchMcp.JsonRequest
import SwitchMcp.JsonReply
import SwitchMcp.Protocol
/-!
# Fields — a place in a message on the one side is the same place on the other

A place in a value is a path of keys and indices.  What the client puts at a path of ASCII keys, the agent finds there
(`place_ofPy`), and what the agent puts at any path, the client finds there (`place_toPy`).  Both need what a Python
`dict` and a `std::map` promise: no key twice.
-/
namespace SwitchMcp
namespace Json

open PyJson (dictGet dictSet)

def IsAscii (k : PyStr) : Prop := ∀ c ∈ k, c.val < 0x80

instance (k : PyStr) : Decidable (IsAscii k) := List.decidableBAll (fun c : CodePoint => c.val < 0x80) k

/-! ## Requests -/

theorem agentStr_cons (c : CodePoint) (s : PyStr) :
    agentStr (c :: s) = (utf16Units c.val).flatMap encodeUnit ++ agentStr s := rfl

theorem agentStr_ascii_cons {c : CodePoint} (s : PyStr) (h : c.val < 0x80) :
    agentStr (c :: s) = UInt8.ofNat c.val :: agentStr s := by
  rw [agentStr_cons, utf16Units_bmp (by omega), List.flatMap_singleton, encodeUnit_ascii h, List.singleton_append]

/-- A character above U+007F starts with a byte that is not ASCII. -/
theorem encode_high {c : CodePoint} (h : ¬c.val < 0x80) :
    ∃ b s, (utf16Units c.val).flatMap encodeUnit = b :: s ∧ 0x80 ≤ b.toNat := by
  have hc := c.isLt
  have hunit : ∀ u, ¬u < 0x80 → u < 65536 → ∃ b s, encodeUnit u = b :: s ∧ 0x80 ≤ b.toNat := by
    intro u hu hlt
    rw [encodeUnit_eq_utf8Char hlt]
    unfold utf8Char
    rw [if_neg hu]
    split
    · exact ⟨_, _, rfl, by rw [toNat_ofNat_lt (by omega)]; omega⟩
    · exact ⟨_, _, rfl, by rw [toNat_ofNat_lt (by omega)]; omega⟩
  unfold utf16Units
  split
  · rw [List.flatMap_singleton]
    exact hunit c.val h (by omega)
  · rw [List.flatMap_cons]
    obtain ⟨b, s, e, hb⟩ := hunit (0xD800 + (c.val - 0x10000) / 1024) (by omega) (by omega)
    exact ⟨b, _, by rw [e]; rfl, hb⟩

/-- **No other key is sent as an ASCII key is.** -/
theorem agentStr_inj : ∀ {k s : PyStr}, IsAscii k → agentStr s = agentStr k → s = k
  | [], [], _, _ => rfl
  | [], c :: s, _, h => by
    by_cases hc : c.val < 0x80
    · rw [agentStr_ascii_cons s hc] at h; cases h
    · obtain ⟨b, t, e, -⟩ := encode_high hc
      rw [agentStr_cons, e] at h; cases h
  | d :: k, [], hk, h => by
    rw [agentStr_ascii_cons k (hk d (by simp))] at h; cases h
  | d :: k, c :: s, hk, h => by
    have hd : d.val < 0x80 := hk d (by simp)
    rw [agentStr_ascii_cons k hd] at h
    by_cases hc : c.val < 0x80
    · rw [agentStr_ascii_cons s hc, List.cons.injEq] at h
      have e := congrArg UInt8.toNat h.1
      rw [toNat_ofNat_lt (by omega), toNat_ofNat_lt (by omega)] at e
      rw [Fin.ext e, agentStr_inj (fun x hx => hk x (by simp [hx])) h.2]
    · obtain ⟨b, t, e, hb⟩ := encode_high hc
      rw [agentStr_cons, e, List.cons_append, List.cons.injEq] at h
      rw [h.1, toNat_ofNat_lt (by omega)] at hb
      omega

theorem cp_val_of_lt {n : Nat} (h : n < 0x110000) : (cp n).val = n := by rw [cp, Fin.val_ofNat, Nat.mod_eq_of_lt h]

/-- The literals of the sources are ASCII. -/
theorem agentStr_py (s : String) (hs : asciiOnly s = true) : agentStr (py s) = str s := by
  have h := asciiOnly_mem hs
  unfold py str
  generalize s.toList = l at h
  induction l with
  | nil => rfl
  | cons c l ih =>
    have hc : (cp c.toNat).val = c.toNat := cp_val_of_lt (by have := h c (by simp); omega)
    rw [List.map_cons, List.map_cons, agentStr_ascii_cons _ (by rw [hc]; exact h c (by simp)),
      ih (fun x hx => h x (by simp [hx])), hc]
    rfl

theorem isAscii_py (s : String) (hs : asciiOnly s = true) : IsAscii (py s) := by
  have h := asciiOnly_mem hs
  intro c hc
  obtain ⟨x, hx, rfl⟩ := List.mem_map.1 hc
  rw [cp_val_of_lt (by have := h x hx; omega)]
  exact h x hx

theorem dictGet_eq_none {d : PyDict} {k : PyStr} (h : k ∉ d.map Prod.fst) : dictGet d k = none := by
  induction d with
  | nil => rfl
  | cons p d ih =>
    rw [List.map_cons, List.mem_cons, not_or] at h
    rw [PyJson.dictGet_cons, if_neg (Ne.symm h.1), ih h.2]

theorem mapFind_ofPyDict {k : PyStr} (hk : IsAscii k) : ∀ (d : PyDict) (o : List (Bytes × Value)),
    (d.map Prod.fst).Nodup → mapFind (ofPyDict o d) (agentStr k) = ((dictGet d k).map ofPy).or (mapFind o (agentStr k))
  | [], o, _ => by rw [ofPyDict, PyJson.dictGet_nil, Option.map_none, Option.none_or]
  | (k', v) :: d, o, h => by
    rw [List.map_cons, List.nodup_cons] at h
    rw [ofPyDict, mapFind_ofPyDict hk d _ h.2, PyJson.dictGet_cons, mapFind_mapSet]
    by_cases e : k' = k
    · subst e
      rw [if_pos rfl, if_pos rfl, dictGet_eq_none h.1, Option.map_none, Option.none_or, Option.map_some, Option.some_or]
    · rw [if_neg e, if_neg (fun e' => e (agentStr_inj hk e'))]

/-- **The agent finds a field where the client put it.** -/
theorem get_ofPy (d : PyDict) (k : PyStr) (hd : (d.map Prod.fst).Nodup) (hk : IsAscii k) :
    (ofPy (.dict d)).get (agentStr k) = ((dictGet d k).map ofPy).getD .null := by
  rw [ofPy, Value.get, mapFind_ofPyDict hk d [] hd, mapFind_nil, Option.or_none]

theorem has_ofPy (d : PyDict) (k : PyStr) (hd : (d.map Prod.fst).Nodup) (hk : IsAscii k) :
    (ofPy (.dict d)).has (agentStr k) = (dictGet d k).isSome := by
  rw [ofPy, Value.has, mapFind_ofPyDict hk d [] hd, mapFind_nil, Option.or_none, Option.isSome_map]

theorem getElem_ofPyList : ∀ (l : List PyJson) (i : Nat), (ofPyList l)[i]? = l[i]?.map ofPy
  | [], _ => rfl
  | _ :: _, 0 => rfl
  | _ :: l, i + 1 => getElem_ofPyList l i

mutual
/-- No `dict` in the value has a key twice. -/
def Distinct : PyJson → Prop
  | .list l => DistinctList l
  | .dict d => (d.map Prod.fst).Nodup ∧ DistinctDict d
  | _ => True
def DistinctList : List PyJson → Prop
  | [] => True
  | v :: l => Distinct v ∧ DistinctList l
def DistinctDict : List (PyStr × PyJson) → Prop
  | [] => True
  | (_, v) :: d => Distinct v ∧ DistinctDict d
end

theorem distinct_getElem : ∀ (l : List PyJson) (i : Nat) (v : PyJson), DistinctList l → l[i]? = some v → Distinct v
  | v :: _, 0, w, h, e => by cases e; exact h.1
  | _ :: l, i + 1, w, h, e => distinct_getElem l i w h.2 e

theorem distinct_dictGet : ∀ (d : PyDict) (k : PyStr) (v : PyJson), DistinctDict d → dictGet d k = some v → Distinct v
  | (k', w) :: d, k, v, h, e => by
    rw [PyJson.dictGet_cons] at e
    split at e
    · cases e; exact h.1
    · exact distinct_dictGet d k v h.2 e

/-- A step down into a value. -/
inductive Step (κ : Type)
  | key (k : κ)
  | idx (i : Nat)

def Step.map {κ κ' : Type} (f : κ → κ') : Step κ → Step κ'
  | .key k => .key (f k)
  | .idx i => .idx i

/-- What stands at a place of a Python value. -/
def pyPlace : PyJson → List (Step PyStr) → Option PyJson
  | v, [] => some v
  | .list l, .idx i :: p => l[i]?.bind (pyPlace · p)
  | .dict d, .key k :: p => (dictGet d k).bind (pyPlace · p)
  | _, _ => none

/-- What stands at a place of an agent's value. -/
def place : Value → List (Step Bytes) → Option Value
  | v, [] => some v
  | .array a, .idx i :: p => a[i]?.bind (place · p)
  | .object o, .key k :: p => (mapFind o k).bind (place · p)
  | _, _ => none

def AsciiPath (p : List (Step PyStr)) : Prop := ∀ k, .key k ∈ p → IsAscii k

/-- **What the client puts at a place, the agent finds there.** -/
theorem place_ofPy : ∀ (p : List (Step PyStr)) (v x : PyJson), Distinct v → AsciiPath p → pyPlace v p = some x →
    place (ofPy v) (p.map (Step.map agentStr)) = some (ofPy x)
  | [], v, x, _, _, h => by
    rw [pyPlace] at h; cases h
    rw [List.map_nil, place]
  | .idx i :: p, v, x, hv, hp, h => by
    cases v with
    | list l =>
      rw [pyPlace, Option.bind_eq_some_iff] at h
      obtain ⟨w, hw, hx⟩ := h
      rw [ofPy, List.map_cons, Step.map, place, getElem_ofPyList, hw, Option.map_some, Option.bind_some]
      exact place_ofPy p w x (distinct_getElem l i w hv hw) (fun k hk => hp k (List.mem_cons_of_mem _ hk)) hx
    | _ => simp [pyPlace] at h
  | .key k :: p, v, x, hv, hp, h => by
    cases v with
    | dict d =>
      rw [pyPlace, Option.bind_eq_some_iff] at h
      obtain ⟨w, hw, hx⟩ := h
      rw [ofPy, List.map_cons, Step.map, place, mapFind_ofPyDict (hp k (by simp)) d [] hv.1, mapFind_nil,
        Option.or_none, hw, Option.map_some, Option.bind_some]
      exact place_ofPy p w x (distinct_dictGet d k w hv.2 hw) (fun k hk => hp k (List.mem_cons_of_mem _ hk)) hx
    | _ => simp [pyPlace] at h

/-- A message the client can send: a `dict`, with no float that JSON cannot carry. -/
structure Message where
  items : PyDict
  distinct : Distinct (.dict items)
  finite : isFinite (.dict items) = true

def Message.text (m : Message) : Bytes := PyJson.dumps (.dict m.items)

theorem Message.parse_text (m : Message) : parse m.text = some (ofPy (.dict m.items)) := parse_dumps _ m.finite

/-! ## Replies -/

theorem saturate_of_lt {n : Nat} (h : n < 2 ^ 63) : saturate n = Int64.ofNat n := by
  have hm : max (-2 ^ 63) (min (2 ^ 63 - 1) (n : Int)) = n := by omega
  rw [saturate, hm]; rfl

theorem saturate_of_ge {n : Nat} (h : 2 ^ 63 ≤ n) : saturate n = Int64.maxValue := by
  have hm : max (-2 ^ 63) (min (2 ^ 63 - 1) (n : Int)) = 2 ^ 63 - 1 := by omega
  rw [saturate, hm]; rfl

theorem str_eq_utf8 (s : String) (hs : asciiOnly s = true) : str s = utf8 (py s) := by
  rw [← agentStr_py s hs]
  refine List.flatMap_congr fun c hc => ?_
  have hlt := isAscii_py s hs c hc
  rw [utf16Units_bmp (by omega), List.flatMap_singleton, encodeUnit_eq_utf8Char (by omega)]

theorem isUtf8_str (s : String) (hs : asciiOnly s = true) : IsUtf8 (str s) := ⟨py s, str_eq_utf8 s hs⟩

theorem decoded_str (s : String) (hs : asciiOnly s = true) : decoded (str s) = py s := by rw [str_eq_utf8 s hs, decoded_utf8]

theorem dictGet_toPyObject (k : Bytes) : ∀ (o : List (Bytes × Value)) (d : PyDict), (∀ p ∈ o, p.1 ≠ k → decoded p.1 ≠ decoded k) →
    (o.map Prod.fst).Nodup →
    dictGet (toPyObject d o) (decoded k) = ((mapFind o k).map toPy).or (dictGet d (decoded k))
  | [], d, _, _ => by rw [toPyObject, mapFind_nil, Option.map_none, Option.none_or]
  | (k', v) :: o, d, hk, h => by
    rw [List.map_cons, List.nodup_cons] at h
    rw [toPyObject, dictGet_toPyObject k o _ (fun p hp => hk p (List.mem_cons_of_mem _ hp)) h.2, PyJson.dictGet_dictSet,
      mapFind_cons]
    by_cases e : k' = k
    · subst e
      have hn : mapFind o k' = none := by
        unfold mapFind
        rw [Option.map_eq_none_iff, List.find?_eq_none]
        intro p hp
        simpa using fun e : p.1 = k' => h.1 (List.mem_map.2 ⟨p, hp, e⟩)
      rw [if_pos rfl, if_pos rfl, hn, Option.map_none, Option.none_or, Option.map_some, Option.some_or]
    · rw [if_neg (hk (k', v) (by simp) e), if_neg e]

theorem getElem_toPyArray : ∀ (a : List Value) (i : Nat), (toPyArray a)[i]? = a[i]?.map toPy
  | [], _ => rfl
  | _ :: _, 0 => rfl
  | _ :: a, i + 1 => getElem_toPyArray a i

theorem nodup_keys {ks : List Bytes} (h : ks.Pairwise (· < ·)) : ks.Nodup :=
  h.imp (fun {a b} hlt (e : a = b) => List.lt_irrefl b (e ▸ hlt))

theorem clean_getElem : ∀ (a : List Value) (i : Nat) (v : Value), OrderedArray a → Utf8Array a → a[i]? = some v →
    Ordered v ∧ Utf8Value v
  | v :: _, 0, w, hd, hu, e => by cases e; exact ⟨hd.1, hu.1⟩
  | _ :: a, i + 1, w, hd, hu, e => clean_getElem a i w hd.2 hu.2 e

theorem clean_mapFind : ∀ (o : List (Bytes × Value)) (k : Bytes) (v : Value), OrderedObject o → Utf8Object o →
    mapFind o k = some v → Ordered v ∧ Utf8Value v
  | (k', w) :: o, k, v, hd, hu, e => by
    rw [mapFind_cons] at e
    split at e
    · cases e; exact ⟨hd.1, hu.2.1⟩
    · exact clean_mapFind o k v hd.2 hu.2.2 e

theorem decoded_ne {o : List (Bytes × Value)} (hu : Utf8Object o) {k : Bytes} (hk : IsUtf8 k) :
    ∀ p ∈ o, p.1 ≠ k → decoded p.1 ≠ decoded k := by
  induction o with
  | nil => simp
  | cons q o ih =>
    intro p hp hne
    rcases List.mem_cons.1 hp with rfl | hp
    · obtain ⟨l, hl⟩ := hu.1
      obtain ⟨m, rfl⟩ := hk
      have hl : p.1 = utf8 l := hl
      intro e
      rw [hl, decoded_utf8, decoded_utf8] at e
      exact hne (by rw [hl, e])
    · exact ih hu.2.2 p hp hne

/-- **The client finds a member of an object under its name.** -/
theorem dictGet_toPy {o : List (Bytes × Value)} (hd : Ordered (.object o)) (hu : Utf8Value (.object o)) (k : String)
    (hk : asciiOnly k = true) : dictGet (toPyObject [] o) (py k) = (mapFind o (str k)).map toPy := by
  rw [← decoded_str k hk, dictGet_toPyObject (str k) o [] (decoded_ne hu (isUtf8_str k hk)) (nodup_keys hd.1),
    PyJson.dictGet_nil, Option.or_none]

theorem utf8_key : ∀ (o : List (Bytes × Value)) (k : Bytes) (v : Value), Utf8Object o → mapFind o k = some v → IsUtf8 k
  | (k', w) :: o, k, v, hu, e => by
    rw [mapFind_cons] at e
    split at e
    · rename_i h; exact h ▸ hu.1
    · exact utf8_key o k v hu.2.2 e

/-- **What the agent puts at a place, the client finds there.** -/
theorem place_toPy : ∀ (p : List (Step Bytes)) (v x : Value), Ordered v → Utf8Value v → place v p = some x →
    pyPlace (toPy v) (p.map (Step.map decoded)) = some (toPy x)
  | [], v, x, _, _, h => by
    rw [place] at h; cases h
    rw [List.map_nil, pyPlace]
  | .idx i :: p, v, x, hd, hu, h => by
    cases v with
    | array a =>
      rw [place, Option.bind_eq_some_iff] at h
      obtain ⟨w, hw, hx⟩ := h
      have hc := clean_getElem a i w hd hu hw
      rw [toPy, List.map_cons, Step.map, pyPlace, getElem_toPyArray, hw, Option.map_some, Option.bind_some]
      exact place_toPy p w x hc.1 hc.2 hx
    | _ => simp [place] at h
  | .key k :: p, v, x, hd, hu, h => by
    cases v with
    | object o =>
      rw [place, Option.bind_eq_some_iff] at h
      obtain ⟨w, hw, hx⟩ := h
      have hc := clean_mapFind o k w hd.2 hu hw
      rw [toPy, List.map_cons, Step.map, pyPlace,
        dictGet_toPyObject k o [] (decoded_ne hu (utf8_key o k w hu hw)) (nodup_keys hd.1), hw, Option.map_some, Option.some_or,
        Option.bind_some]
      exact place_toPy p w x hc.1 hc.2 hx
    | _ => simp [place] at h

end Json
end SwitchMcp

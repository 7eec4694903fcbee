import SwitchMcp.Fields
import SwitchMcp.Fs
/-!
# Names — strings and file names across the wire

The client escapes every character above U+007F and the agent encodes every `\uXXXX` by itself; the agent writes raw
bytes and the client decodes them as UTF-8.  So a string reaches the agent as its UTF-8 encoding exactly when no character
of it needs a surrogate pair (`agentStr_eq_utf8_iff`), and a name the agent lists comes back to it under the same
condition (`names_cross_iff`).
-/
namespace SwitchMcp
namespace Agent

open Json (Value Message Step AsciiPath Ordered OrderedArray Utf8Value Utf8Array IsUtf8 ofPy toPy parse dump place pyPlace
  agentStr decoded encodeUnit)

/-- No character of the string is above U+FFFF. -/
def Bmp (s : PyStr) : Prop := ∀ c ∈ s, c.val < 0x10000

instance (s : PyStr) : Decidable (Bmp s) := List.decidableBAll (fun c : CodePoint => c.val < 0x10000) s

/-! ## Requests -/

theorem agentStr_bmp {s : PyStr} (h : Bmp s) : agentStr s = utf8 s :=
  List.flatMap_congr fun c hc => by
    rw [utf16Units, if_pos (h c hc), List.flatMap_singleton, Json.encodeUnit_eq_utf8Char (h c hc)]

/-- A character above U+FFFF is sent in six bytes instead of four. -/
theorem length_encoded (c : CodePoint) :
    ((utf16Units c.val).flatMap encodeUnit).length = (utf8Char c.val).length + (if c.val < 0x10000 then 0 else 2) := by
  have hc := c.isLt
  by_cases h : c.val < 0x10000
  · rw [utf16Units, if_pos h, List.flatMap_singleton, Json.encodeUnit_eq_utf8Char h, if_pos h]; rfl
  · have hi : ∀ u, 0x800 ≤ u → u < 0x10000 → (encodeUnit u).length = 3 := fun u h1 h2 => by
      rw [Json.encodeUnit_eq_utf8Char h2, utf8Char, if_neg (by omega), if_neg (by omega), if_pos h2]; rfl
    rw [utf16Units, if_neg h, List.flatMap_cons, List.flatMap_singleton, List.length_append, hi _ (by omega) (by omega),
      hi _ (by omega) (by omega), if_neg h, utf8Char, if_neg (by omega), if_neg (by omega), if_neg h]
    rfl

theorem length_agentStr : ∀ s : PyStr, (utf8 s).length ≤ (agentStr s).length ∧ (¬Bmp s → (utf8 s).length < (agentStr s).length)
  | [] => ⟨le_rfl, fun h => absurd (fun c hc => by cases hc) h⟩
  | c :: s => by
    have ih := length_agentStr s
    have hl := length_encoded c
    rw [Json.agentStr_cons, utf8_cons, List.length_append, List.length_append, hl]
    refine ⟨by omega, fun h => ?_⟩
    by_cases hc : c.val < 0x10000
    · have hs : ¬Bmp s := fun hs => h fun x hx => by
        rcases List.mem_cons.1 hx with rfl | hx
        · exact hc
        · exact hs x hx
      have := ih.2 hs
      omega
    · rw [if_neg hc]; omega

/-- **A string reaches the agent as its UTF-8 encoding exactly when no character of it is above U+FFFF.** -/
theorem agentStr_eq_utf8_iff (s : PyStr) : agentStr s = utf8 s ↔ Bmp s := by
  refine ⟨fun h => ?_, agentStr_bmp⟩
  by_contra hb
  have := (length_agentStr s).2 hb
  rw [h] at this
  omega

theorem bmp_append (s t : PyStr) : Bmp (s ++ t) ↔ Bmp s ∧ Bmp t := List.forall_mem_append

/-! ## Listings -/

theorem get_listEntry (stat : Bytes → Option Stat) (dev : Bytes) (de : Dirent) :
    (listEntry stat dev de).get (str "name") = .string de.name := by
  unfold listEntry
  dsimp only
  split <;> simp [show str "type" ≠ str "name" by decide, show str "size" ≠ str "name" by decide,
    show str "mtime" ≠ str "name" by decide]

theorem ordered_listEntry (stat : Bytes → Option Stat) (dev : Bytes) (de : Dirent) : Ordered (listEntry stat dev de) := by
  unfold listEntry
  have h0 : Ordered (.object []) := ⟨List.Pairwise.nil, trivial⟩
  have h1 := Json.ordered_set _ (str "type") (.string (entryType stat de.type (dev ++ slash :: de.name)))
    (Json.ordered_set _ (str "name") (.string de.name) h0 trivial) trivial
  dsimp only
  split
  · exact Json.ordered_set _ _ _ (Json.ordered_set _ _ _ h1 trivial) trivial
  · exact h1

theorem utf8_entryType (stat : Bytes → Option Stat) (t : DirType) (full : Bytes) : IsUtf8 (entryType stat t full) := by
  have hd : IsUtf8 (str "dir") := Json.isUtf8_str "dir" (by decide)
  have hf : IsUtf8 (str "file") := Json.isUtf8_str "file" (by decide)
  unfold entryType
  split
  · exact hd
  · exact hf
  · split
    · split
      · exact hd
      · exact hf
    · exact hf

theorem utf8_listEntry (stat : Bytes → Option Stat) (dev : Bytes) (de : Dirent) (h : IsUtf8 de.name) :
    Utf8Value (listEntry stat dev de) := by
  unfold listEntry
  have h0 : Utf8Value (.object []) := trivial
  have h1 := Json.utf8Value_set _ (str "type") (.string (entryType stat de.type (dev ++ slash :: de.name)))
    (Json.utf8Value_set _ (str "name") (.string de.name) h0 (Json.isUtf8_str "name" (by decide)) h)
    (Json.isUtf8_str "type" (by decide)) (utf8_entryType _ _ _)
  dsimp only
  split
  · exact Json.utf8Value_set _ _ _ (Json.utf8Value_set _ _ _ h1 (Json.isUtf8_str "size" (by decide)) trivial)
      (Json.isUtf8_str "mtime" (by decide)) trivial
  · exact h1

/-- The names a listing gives. -/
def listedNames (des : List Dirent) : List Bytes := (des.filter (fun de => !isDots de.name)).map Dirent.name

/-- What the server sends for a listing of `des`. -/
def listReply (stat : Bytes → Option Stat) (dev : Bytes) (des : List Dirent) (id : Int64) : Value :=
  (((Value.object []).set (str "entries")
    (.array ((des.filter (fun de => !isDots de.name)).map (listEntry stat dev)))).set (str "id") (.int id))

theorem fsList_json {saveMounted : Bool} {opendir : Bytes → Option (List Dirent)} {stat : Bytes → Option Stat}
    {req : Request} {p : Resolved} {des : List Dirent} (hp : fsListPath saveMounted req = .ok p)
    (hd : opendir (cStr p.dev) = some des) (id : Int64) :
    (fsList saveMounted opendir stat req).2.json.set (str "id") (.int id) = listReply stat p.dev des id := by
  rw [fsList, hp]
  simp only [hd]
  rfl

theorem ordered_array : ∀ a : List Value, (∀ v ∈ a, Ordered v) → OrderedArray a
  | [], _ => trivial
  | v :: a, h => ⟨h v (by simp), ordered_array a fun w hw => h w (by simp [hw])⟩

theorem utf8_array : ∀ a : List Value, (∀ v ∈ a, Utf8Value v) → Utf8Array a
  | [], _ => trivial
  | v :: a, h => ⟨h v (by simp), utf8_array a fun w hw => h w (by simp [hw])⟩

theorem ordered_listReply (stat : Bytes → Option Stat) (dev : Bytes) (des : List Dirent) (id : Int64) :
    Ordered (listReply stat dev des id) := by
  refine Json.ordered_set _ _ _ (Json.ordered_set _ _ _ ⟨List.Pairwise.nil, trivial⟩ (ordered_array _ fun v hv => ?_)) trivial
  obtain ⟨de, -, rfl⟩ := List.mem_map.1 hv
  exact ordered_listEntry stat dev de

theorem utf8_listReply (stat : Bytes → Option Stat) (dev : Bytes) (des : List Dirent) (id : Int64)
    (h : ∀ n ∈ listedNames des, IsUtf8 n) : Utf8Value (listReply stat dev des id) := by
  refine Json.utf8Value_set _ _ _ (Json.utf8Value_set _ _ _ trivial (Json.isUtf8_str "entries" (by decide))
    (utf8_array _ fun v hv => ?_)) (Json.isUtf8_str "id" (by decide)) trivial
  obtain ⟨de, hde, rfl⟩ := List.mem_map.1 hv
  exact utf8_listEntry stat dev de (h de.name (List.mem_map.2 ⟨de, hde, rfl⟩))

theorem place_listReply (stat : Bytes → Option Stat) (dev : Bytes) (des : List Dirent) (id : Int64) {i : Nat} {n : Bytes}
    (h : (listedNames des)[i]? = some n) :
    place (listReply stat dev des id) [.key (str "entries"), .idx i, .key (str "name")] = some (.string n) := by
  rw [listedNames, List.getElem?_map, Option.map_eq_some_iff] at h
  obtain ⟨de, hde, rfl⟩ := h
  have hname : ∀ v : Value, v.get (str "name") = .string de.name → place v [.key (str "name")] = some (.string de.name) := by
    intro v hv
    cases v with
    | object o =>
      rw [Value.get] at hv
      rw [place]
      cases hm : Json.mapFind o (str "name") with
      | none => rw [hm] at hv; cases hv
      | some w =>
        rw [hm, Option.getD_some] at hv
        rw [Option.bind_some, hv, place]
    | _ => cases hv
  have hentries : Json.mapFind (Json.mapSet [(str "entries", Value.array ((des.filter (fun de => !isDots de.name)).map
      (listEntry stat dev)))] (str "id") (.int id)) (str "entries")
      = some (.array ((des.filter (fun de => !isDots de.name)).map (listEntry stat dev))) := by
    rw [Json.mapFind_mapSet, if_neg (by decide), Json.mapFind_cons, if_pos rfl]
  rw [listReply, Value.set, Value.set, place, Json.mapSet, hentries, Option.bind_some, place, List.getElem?_map, hde,
    Option.map_some, Option.bind_some]
  exact hname _ (get_listEntry stat dev de)

/-- **A name comes back to the agent as the agent gave it exactly when no character of it is above U+FFFF**: a string
reaches the agent as its UTF-8 encoding under this condition and no other; a name that is UTF-8, at any place of a reply,
is read by the client as its characters, and put into any path of a later request reaches the agent again as the same
bytes under the same condition; and so for the names of a listing. -/
theorem names_cross_iff :
    (∀ s : PyStr, parse (PyJson.dumps (.str s)) = some (.string (utf8 s)) ↔ Bmp s) ∧
    (∀ (r : Value) (p : List (Step Bytes)) (l : PyStr), Ordered r → Utf8Value r → place r p = some (.string (utf8 l)) →
      (PyJson.loads (dump r)).bind (pyPlace · (p.map (Step.map decoded))) = some (.str l)) ∧
    (∀ (m : Message) (q : List (Step PyStr)) (pre l post : PyStr), AsciiPath q →
      pyPlace (.dict m.items) q = some (.str (pre ++ l ++ post)) → Bmp pre → Bmp post →
      ((parse m.text).bind (place · (q.map (Step.map agentStr)))
        = some (.string (utf8 pre ++ utf8 l ++ utf8 post)) ↔ Bmp l)) ∧
    (∀ (saveMounted : Bool) (opendir : Bytes → Option (List Dirent)) (stat : Bytes → Option Stat) (req : Request)
      (p : Resolved) (des : List Dirent) (id : Int64) (i : Nat) (l : PyStr), fsListPath saveMounted req = .ok p →
      opendir (cStr p.dev) = some des → (∀ n ∈ listedNames des, IsUtf8 n) → (listedNames des)[i]? = some (utf8 l) →
      (PyJson.loads (dump ((fsList saveMounted opendir stat req).2.json.set (str "id") (.int id)))).bind
        (pyPlace · [.key (py "entries"), .idx i, .key (py "name")]) = some (.str l)) := by
  have hreply : ∀ (r : Value) (p : List (Step Bytes)) (l : PyStr), Ordered r → Utf8Value r →
      place r p = some (.string (utf8 l)) →
      (PyJson.loads (dump r)).bind (pyPlace · (p.map (Step.map decoded))) = some (.str l) := by
    intro r p l hd hu h
    rw [Json.loads_dump r hu, Option.bind_some, Json.place_toPy p r _ hd hu h, toPy, Json.decoded_utf8]
  refine ⟨fun s => ?_, hreply, fun m q pre l post hq h hpre hpost => ?_, ?_⟩
  · rw [Json.parse_dumps (.str s) rfl, ofPy, Option.some.injEq, Value.string.injEq, agentStr_eq_utf8_iff]
  · have hutf : utf8 pre ++ utf8 l ++ utf8 post = utf8 (pre ++ l ++ post) := by rw [utf8_append, utf8_append]
    rw [m.parse_text, Option.bind_some, Json.place_ofPy q _ _ m.distinct hq h, ofPy, Option.some.injEq,
      Value.string.injEq, hutf, agentStr_eq_utf8_iff, bmp_append, bmp_append]
    simp [hpre, hpost]
  · intro saveMounted opendir stat req p des id i l hp hd hu h
    have he : decoded (str "entries") = py "entries" := by decide +kernel
    have hn : decoded (str "name") = py "name" := by decide +kernel
    have := hreply _ _ l (ordered_listReply stat p.dev des id) (utf8_listReply stat p.dev des id hu)
      (place_listReply stat p.dev des id h)
    simp only [List.map_cons, List.map_nil, Step.map, he, hn] at this
    rw [fsList_json hp hd]
    exact this

/-- A directory with one file, named by an accented letter. -/
def accented : List Dirent := [⟨utf8 [cp 0xE9], .reg⟩]

theorem names_cross_accented :
    parse (PyJson.dumps (.str [cp 0xE9])) = some (.string (utf8 [cp 0xE9])) ∧
    (PyJson.loads (dump ((fsList false (fun _ => some accented) (fun _ => none) ⟨.object [], []⟩).2.json.set (str "id")
      (.int 1)))).bind (pyPlace · [.key (py "entries"), .idx 0, .key (py "name")]) = some (.str [cp 0xE9]) := by
  obtain ⟨h1, -, -, h4⟩ := names_cross_iff
  refine ⟨(h1 [cp 0xE9]).2 (by decide), h4 false (fun _ => some accented) (fun _ => none) ⟨.object [], []⟩
    ⟨str "/", str "sdmc:/"⟩ accented 1 0 [cp 0xE9] (by rfl) rfl (fun n hn => ⟨[cp 0xE9], ?_⟩) rfl⟩
  rw [show listedNames accented = [utf8 [cp 0xE9]] from rfl] at hn
  exact List.mem_singleton.1 hn

/-- **U+1F600 arrives at the agent as two surrogates of three bytes each, and not as its UTF-8 encoding.** -/
theorem astral_string_lost :
    (parse (PyJson.dumps (.str [cp 0x1F600]))).map (·.asString []) = some [0xED, 0xA0, 0xBD, 0xED, 0xB8, 0x80] ∧
    utf8 [cp 0x1F600] = [0xF0, 0x9F, 0x98, 0x80] :=
  ⟨by decide +kernel, by decide⟩

end Agent
end SwitchMcp

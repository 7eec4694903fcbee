import SwitchMcp.Frame
import SwitchMcp.JsonUtf8
import SwitchMcp.Names
/-!
# Reports — the handlers that cut text (agent/source/handlers/fs.cpp, sysinfo.cpp, guards.cpp, system.cpp)

`fs.grep` clips the lines it echoes, `read_log` and `journal` send the tail of a file, `fatal_reports` stops at a size.  They
count bytes.  `reply_valid_iff` says exactly when the reply is valid UTF-8 although they do, for `crash_reports` as well,
which sends a report whole: each cut falls between two characters, and the names the reply has are valid themselves.
-/
namespace SwitchMcp
namespace Agent

open Json (Value ValidValue ofMembers)

/-- What the handlers look at. -/
structure Disk where
  saveMounted : Bool
  files : Files
  opendir : Bytes → Option (List Dirent)
  stat : Bytes → Option Stat

def Reply.ofMembers (l : List (String × Value)) : Reply := ⟨Json.ofMembers l, []⟩

/-- The reply of a handler: of the checks at its start, or of what they let through. -/
def replyWith {α : Type} (checked : Except Reply α) (reply : α → Reply) : Reply :=
  match checked with
  | .error r => r
  | .ok a => reply a

/-! ## `FsGrep` -/

/-- `Lower`. -/
def lower (s : Bytes) : Bytes := s.map fun c => if ch 'A' ≤ c ∧ c ≤ ch 'Z' then c + 32 else c

structure GrepArgs where
  needle : Bytes
  ignoreCase : Bool
  limit : Nat

def grepArgs (req : Request) : GrepArgs where
  needle :=
    let pattern := (req.get "pattern").asString []
    if (req.get "ignore_case").asBool false then lower pattern else pattern
  ignoreCase := (req.get "ignore_case").asBool false
  limit :=
    let limit := ((req.get "limit").asInt 100).toInt32.toInt
    if limit < 1 ∨ 1000 < limit then 100 else limit.toNat

/-- `hay.find(needle) != std::string::npos`. -/
def GrepArgs.finds (a : GrepArgs) (line : Bytes) : Bool :=
  decide (a.needle <:+: if a.ignoreCase then lower line else line)

structure GrepMatch where
  line : Nat
  offset : Nat
  text : Bytes

def GrepMatch.value (m : GrepMatch) : Value :=
  ofMembers [("line", .int (Int64.ofNat m.line)), ("offset", .int (Int64.ofNat m.offset)), ("text", .string m.text)]

/-- What the loop has: the line so far, the counters, and the matches. -/
structure Grep where
  line : Bytes := []
  lineno : Nat := 0
  offset : Nat := 0
  lineStart : Nat := 0
  truncated : Bool := false
  found : List GrepMatch := []

def clip (line : Bytes) : Bytes := if 300 < line.length then line.take 300 ++ str "..." else line

/-- The loop over the bytes of the file. -/
def grepLoop (a : GrepArgs) : Bytes → Grep → Grep
  | [], g => g
  | c :: s, g =>
    if c = 10 then
      if a.finds g.line then
        if a.limit ≤ g.found.length then { g with offset := g.offset + 1, lineno := g.lineno + 1, truncated := true }
        else grepLoop a s { g with
          offset := g.offset + 1
          lineno := g.lineno + 1
          found := g.found ++ [⟨g.lineno + 1, g.lineStart, clip g.line⟩]
          line := []
          lineStart := g.offset + 1 }
      else grepLoop a s { g with offset := g.offset + 1, lineno := g.lineno + 1, line := [], lineStart := g.offset + 1 }
    else if c = 13 then grepLoop a s { g with offset := g.offset + 1 }
    else grepLoop a s { g with offset := g.offset + 1, line := if g.line.length < 4096 then g.line ++ [c] else g.line }

def grepFile (d : Disk) (req : Request) : Except Reply Bytes :=
  match fsGrepPath d.saveMounted req with
  | .error r => .error r
  | .ok p =>
    if (req.get "pattern").asString [] = [] then .error (fail "bad_arg" (str "need a 'pattern'"))
    else
      match d.files (cStr p.dev) with
      | none => .error (fail "not_found" (str "cannot open file"))
      | some content => .ok content

def grepReply (g : Grep) : Reply :=
  .ofMembers ([("lines_scanned", .int (Int64.ofNat g.lineno)), ("count", .int (Int64.ofNat g.found.length))] ++
    (if g.truncated then [("truncated", .bool true)] else []) ++ [("matches", .array (g.found.map GrepMatch.value))])

def fsGrep (d : Disk) (req : Request) : Reply :=
  replyWith (grepFile d req) fun content => grepReply (grepLoop (grepArgs req) content {})

/-! ## `ReadLog` and `JournalRead` -/

/-- Where the last `limit` bytes of a file start. -/
def tailStart (size limit : Nat) : Nat := if limit < size then size - limit else 0

def logMax (req : Request) : Nat :=
  let n := ((req.get "max_bytes").asInt (16 * 1024)).toInt
  if n ≤ 0 ∨ 256 * 1024 < n then 16 * 1024 else n.toNat

def logFile (d : Disk) (req : Request) : Except Reply Bytes :=
  let path := (req.get "path").asString (str "sdmc:/config/switch-agentd/agent.log")
  if ¬str "sdmc:/" <+: path ∨ str ".." <:+: path then
    .error (fail "bad_path" (str "only sdmc: paths without .. allowed"))
  else
    match d.files (cStr path) with
    | none => .error (fail "not_found" (str "cannot open log"))
    | some content => .ok content

def readLog (d : Disk) (req : Request) : Reply :=
  replyWith (logFile d req) fun content =>
    let start := tailStart content.length (logMax req)
    .ofMembers [("content", .string (content.drop start)), ("truncated", .bool (decide (0 < start)))]

def kJournalPath : Bytes := str "sdmc:/switch-agentd/journal.log"

def journalMax (req : Request) : Nat :=
  let n := ((req.get "max_bytes").asInt 16384).toInt32.toInt
  if n < 256 ∨ 48000 < n then 16384 else n.toNat

def journalFile (d : Disk) : Except Reply Bytes :=
  match d.files kJournalPath with
  | none => .error (.ofMembers [("content", .string []),
      ("note", .string (str "no journal yet (nothing mutating has been logged)"))])
  | some content => .ok content

def journalRead (d : Disk) (req : Request) : Reply :=
  replyWith (journalFile d) fun content =>
    let start := tailStart content.length (journalMax req)
    .ofMembers [("total_bytes", .int (Int64.ofNat content.length)), ("truncated", .bool (decide (0 < start))),
      ("content", .string (content.drop start))]

/-! ## `FatalReports` and `CrashReports` -/

/-- What a request for reports is about: one of them, by its name, or the entries to list. -/
inductive Wanted
  | report (name content : Bytes)
  | listing (des : List Dirent)

/-- An entry of a listing; only `crash_reports` gives the time. -/
def reportEntry (d : Disk) (dir : Bytes) (withTime : Bool) (de : Dirent) : Value :=
  ofMembers (("name", .string de.name) ::
    match d.stat (cStr (dir ++ slash :: de.name)) with
    | none => []
    | some st => ("size", .int st.size) :: if withTime then [("mtime", .int st.mtime)] else [])

def fatalDir : Bytes := str "sdmc:/atmosphere/fatal_reports"

def fatalWanted (d : Disk) (req : Request) : Except Reply Wanted :=
  let name := (req.get "name").asString []
  if name ≠ [] then
    if slash ∈ name ∨ str ".." <:+: name then .error (fail "bad_path" (str "name must be a bare filename"))
    else
      match d.files (cStr (fatalDir ++ slash :: name)) with
      | none => .error (fail "not_found" (str "no such fatal report"))
      | some content => .ok (.report name content)
  else
    match d.opendir fatalDir with
    | none => .error (.ofMembers [("reports", .array []),
        ("note", .string (str "no fatal_reports directory (nothing has gone fatal)"))])
    | some des => .ok (.listing ((des.filter fun de => !(isDots de.name || decide (de.name = str "dumps"))).take 200))

/-- The loop over a fatal report: 4096 bytes at a time until there are no more, or `content` has 48000. -/
def appendChunks : Nat → Bytes → Bytes → Bytes
  | 0, _, content => content
  | fuel + 1, rest, content =>
    if rest.take 4096 = [] ∨ 48000 ≤ content.length then content
    else appendChunks fuel (rest.drop 4096) (content ++ rest.take 4096)

def fatalReports (d : Disk) (req : Request) : Reply :=
  replyWith (fatalWanted d req) fun
    | .report name content =>
      .ofMembers [("name", .string name), ("content", .string (appendChunks (content.length + 1) content []))]
    | .listing des =>
      .ofMembers [("count", .int (Int64.ofNat des.length)), ("reports", .array (des.map (reportEntry d fatalDir false)))]

def crashDir : Bytes := str "sdmc:/atmosphere/crash_reports"

def crashWanted (d : Disk) (req : Request) : Except Reply Wanted :=
  let name := (req.get "name").asString []
  if req.msg.has (str "name") then
    if str ".." <:+: name then .error (fail "bad_path" (str "invalid name"))
    else
      match d.files (cStr (crashDir ++ slash :: name)) with
      | none => .error (fail "not_found" (str "no such crash report"))
      | some content => .ok (.report name content)
  else .ok (.listing (((d.opendir crashDir).getD []).filter fun de => !isDots de.name))

/-- `CrashReports`: a report is read to its end. -/
def crashReports (d : Disk) (req : Request) : Reply :=
  replyWith (crashWanted d req) fun
    | .report name content => .ofMembers [("name", .string name), ("content", .string content)]
    | .listing des => .ofMembers [("reports", .array (des.map (reportEntry d crashDir true)))]

/-! ## Where they cut -/

inductive Reporter
  | fsGrep | readLog | journalRead | fatalReports | crashReports

def Reporter.reply (d : Disk) (req : Request) : Reporter → Reply
  | .fsGrep => Agent.fsGrep d req
  | .readLog => Agent.readLog d req
  | .journalRead => Agent.journalRead d req
  | .fatalReports => Agent.fatalReports d req
  | .crashReports => Agent.crashReports d req

/-- The lines that a newline ends, after `line`. -/
def linesFrom : Bytes → Bytes → List Bytes
  | _, [] => []
  | line, c :: s => if c = 10 then line :: linesFrom [] s else linesFrom (line ++ [c]) s

/-- The lines of a file that `fs.grep` echoes, without carriage returns: those that have the needle in their first 4096
bytes, up to the limit. -/
def echoedLines (a : GrepArgs) (content : Bytes) : List Bytes :=
  (((linesFrom [] content).map (·.filter (· ≠ 13))).filter fun line => a.finds (line.take 4096)).take a.limit

/-- The names are valid, and so is what is sent of a report. -/
def Wanted.Valid (sent : Bytes → Prop) : Wanted → Prop
  | .report name content => ValidUtf8 name ∧ sent content
  | .listing des => ∀ de ∈ des, ValidUtf8 de.name

/-- Every cut of a handler falls between two characters, and the names in its reply are valid. -/
def Reporter.Uncut (d : Disk) (req : Request) : Reporter → Prop
  | .fsGrep => ∀ content, grepFile d req = .ok content →
      ∀ line ∈ echoedLines (grepArgs req) content, 300 < line.length → AtChar line 300
  | .readLog => ∀ content, logFile d req = .ok content → AtChar content (tailStart content.length (logMax req))
  | .journalRead => ∀ content, journalFile d = .ok content → AtChar content (tailStart content.length (journalMax req))
  | .fatalReports => ∀ w, fatalWanted d req = .ok w → w.Valid (AtChar · 49152)
  | .crashReports => ∀ w, crashWanted d req = .ok w → w.Valid fun _ => True

/-! ## What the loops leave -/

theorem take_push (line : Bytes) (c : UInt8) :
    (if (line.take 4096).length < 4096 then line.take 4096 ++ [c] else line.take 4096) = (line ++ [c]).take 4096 := by
  rw [List.length_take]
  by_cases h : line.length < 4096
  · rw [if_pos (by omega), List.take_of_length_le (by omega), List.take_of_length_le (by simp; omega)]
  · rw [if_neg (by omega), List.take_append_of_le_length (by omega)]

/-- **The matches are the lines of the file that have the needle**, up to the limit, clipped. -/
theorem grepLoop_texts (a : GrepArgs) : ∀ (s line : Bytes) (g : Grep), g.line = (line.filter (· ≠ 13)).take 4096 →
    (grepLoop a s g).found.map GrepMatch.text = g.found.map GrepMatch.text ++
      ((((linesFrom line s).map (·.filter (· ≠ 13))).filter fun line => a.finds (line.take 4096)).take
        (a.limit - g.found.length)).map fun line => clip (line.take 4096)
  | [], line, g, _ => by simp [grepLoop, linesFrom]
  | c :: s, line, g, hg => by
    rw [grepLoop, linesFrom]
    by_cases hc : c = 10
    · rw [if_pos hc, if_pos hc, List.map_cons, List.filter_cons, ← hg]
      by_cases hf : a.finds g.line = true
      · rw [if_pos hf, if_pos hf]
        by_cases hl : a.limit ≤ g.found.length
        · rw [if_pos hl, Nat.sub_eq_zero_of_le hl, List.take_zero, List.map_nil, List.append_nil]
        · obtain ⟨n, hn⟩ : ∃ n, a.limit - g.found.length = n + 1 := ⟨a.limit - g.found.length - 1, by omega⟩
          rw [if_neg hl, grepLoop_texts a s [] _ rfl, hn, List.take_succ_cons, List.map_cons, ← hg]
          dsimp only
          rw [List.map_append, List.length_append, List.length_singleton, List.map_singleton, List.append_assoc,
            show a.limit - (g.found.length + 1) = n by omega]
          rfl
      · rw [if_neg hf, if_neg hf, grepLoop_texts a s [] _ rfl]
    · rw [if_neg hc, if_neg hc]
      by_cases hr : c = 13
      · rw [if_pos hr, grepLoop_texts a s (line ++ [c]) _ ?_]
        rw [List.filter_append, hr, List.filter_cons_of_neg (by decide), List.filter_nil, List.append_nil]
        exact hg
      · have hkeep : [c].filter (· ≠ 13) = [c] := by simp [hr]
        rw [if_neg hr, grepLoop_texts a s (line ++ [c]) _ ?_]
        rw [List.filter_append, hkeep, hg]
        exact take_push _ c

/-- **What is sent of a fatal report is its first 49152 bytes.** -/
theorem appendChunks_eq : ∀ (fuel : Nat) (rest content : Bytes), rest.length < fuel →
    appendChunks fuel rest content = content ++ rest.take ((48000 - content.length + 4095) / 4096 * 4096)
  | 0, rest, content, h => absurd h (Nat.not_lt_zero _)
  | fuel + 1, rest, content, h => by
    rw [appendChunks]
    by_cases hstop : rest.take 4096 = [] ∨ 48000 ≤ content.length
    · rw [if_pos hstop]
      rcases hstop with hnil | hfull
      · have hrest : rest = [] := by simpa using hnil
        rw [hrest, List.take_nil, List.append_nil]
      · rw [show (48000 - content.length + 4095) / 4096 * 4096 = 0 by omega, List.take_zero, List.append_nil]
    · rw [if_neg hstop]
      rw [not_or, not_le] at hstop
      have hpos : 0 < rest.length := List.length_pos_of_ne_nil fun e => hstop.1 (by rw [e, List.take_nil])
      rw [appendChunks_eq fuel (rest.drop 4096) _ (by rw [List.length_drop]; omega), List.append_assoc]
      congr 1
      by_cases hlen : 4096 ≤ rest.length
      · rw [List.length_append, List.length_take, show (48000 - content.length + 4095) / 4096 * 4096 = 4096 +
          (48000 - (content.length + min 4096 rest.length) + 4095) / 4096 * 4096 by omega, List.take_add]
      · rw [List.drop_of_length_le (by omega), List.take_nil, List.append_nil, List.take_of_length_le (by omega),
          List.take_of_length_le (by omega)]

theorem valid_linesFrom : ∀ s line : Bytes, ValidUtf8 (line ++ s) → ∀ l ∈ linesFrom line s, ValidUtf8 l
  | [], _, _, l, hl => nomatch hl
  | c :: s, line, h, l, hl => by
    rw [linesFrom] at hl
    by_cases hc : c = 10
    · rw [if_pos hc] at hl
      obtain ⟨h1, h2⟩ := (validUtf8_split (by rw [hc]; decide) line s).1 h
      rcases List.mem_cons.1 hl with rfl | hl
      · exact h1
      · exact valid_linesFrom s [] h2 l hl
    · rw [if_neg hc] at hl
      exact valid_linesFrom s (line ++ [c]) (by rwa [List.append_assoc]) l hl

/-- **The clip of a line is valid exactly when it falls between two characters.** -/
theorem valid_clip_iff {line : Bytes} (h : ValidUtf8 line) :
    ValidUtf8 (clip (line.take 4096)) ↔ (300 < line.length → AtChar line 300) := by
  have hdots : ValidUtf8 (str "...") := Json.validUtf8_str (by decide)
  unfold clip
  rw [List.length_take, List.take_take]
  by_cases hlen : 300 < line.length
  · rw [if_pos (by omega), show min 300 4096 = 300 from rfl, ← validUtf8_take_iff h]
    refine ⟨fun hv _ => ?_, fun hv => (hv hlen).append hdots⟩
    exact ((validUtf8_split (x := ch '.') (by decide) (line.take 300) (str "..")).1 hv).1
  · rw [if_neg (by omega), List.take_of_length_le (by omega)]
    exact iff_of_true h fun hc => absurd hc hlen

/-! ## Which replies are valid -/

theorem finishReply_ofMembers (id : Int64) (l : List (String × Value)) :
    finishReply id (.ofMembers l) = ofMembers (l ++ [("id", .int id)]) := by
  rw [Json.ofMembers_snoc]
  rfl

/-- **A reply is valid exactly when the values of its members are.** -/
theorem valid_ofMembers_iff (id : Int64) (keys : List String) {l : List (String × Value)} (hl : l.map Prod.fst = keys)
    (hk : Json.MemberKeys (keys ++ ["id"])) : ValidValue (finishReply id (.ofMembers l)) ↔ ∀ m ∈ l, ValidValue m.2 := by
  have hkeys : (l ++ [("id", Value.int id)]).map Prod.fst = keys ++ ["id"] := by
    rw [List.map_append, hl]
    rfl
  rw [finishReply_ofMembers, Json.validValue_ofMembers_iff _ hkeys hk, List.forall_mem_append, List.forall_mem_singleton]
  exact and_iff_left trivial

theorem valid_fail (id : Int64) {code message : String} (hc : asciiOnly code = true) (hm : asciiOnly message = true)
    (hn : cStr (str message) = str message) : ValidValue (finishReply id (fail code (str message))) := by
  have hinner : ValidValue (ofMembers [("code", .string (str code)), ("message", .string (str message))]) := by
    rw [Json.validValue_ofMembers_iff ["code", "message"] rfl (by decide)]
    simp only [List.forall_mem_cons, List.not_mem_nil, false_imp_iff, implies_true, and_true]
    exact ⟨Json.validUtf8_str hc, Json.validUtf8_str hm⟩
  have hfail : fail code (str message) =
      .ofMembers [("error", ofMembers [("code", .string (str code)), ("message", .string (str message))])] := by
    rw [fail, hn]
    rfl
  rw [hfail, valid_ofMembers_iff id ["error"] rfl (by decide), List.forall_mem_singleton]
  exact hinner

/-- The reply of a handler is valid when its early replies are and what it makes of the rest is, under `P`. -/
theorem valid_replyWith_iff {α : Type} {checked : Except Reply α} {reply : α → Reply} {P : α → Prop} (id : Int64)
    (he : ∀ r, checked = .error r → ValidValue (finishReply id r))
    (ho : ∀ a, checked = .ok a → (ValidValue (finishReply id (reply a)) ↔ P a)) :
    ValidValue (finishReply id (replyWith checked reply)) ↔ ∀ a, checked = .ok a → P a := by
  cases checked with
  | error r => exact iff_of_true (he r rfl) fun a h => nomatch h
  | ok a =>
    refine (ho a rfl).trans ⟨fun h b hb => ?_, fun h => h a rfl⟩
    cases hb
    exact h

theorem valid_note (id : Int64) {key note : String} {v : Value} (hk : Json.MemberKeys ([key, "note"] ++ ["id"]))
    (hv : ValidValue v) (hn : asciiOnly note = true) :
    ValidValue (finishReply id (.ofMembers [(key, v), ("note", .string (str note))])) := by
  rw [valid_ofMembers_iff id [key, "note"] rfl hk]
  simp only [List.forall_mem_cons, List.not_mem_nil, false_imp_iff, implies_true, and_true]
  exact ⟨hv, Json.validUtf8_str hn⟩

section
variable {d : Disk} {req : Request} {r : Reply} (id : Int64)

theorem grepFile_error (h : grepFile d req = .error r) : ValidValue (finishReply id r) := by
  unfold grepFile fsGrepPath readable at h
  cases hp : resolveDevicePath d.saveMounted ((req.get "device").asString (str "sd")) ((req.get "path").asString []) with
  | none =>
    rw [hp] at h
    cases h
    exact valid_fail id (by decide) (by decide) (by decide)
  | some p =>
    rw [hp] at h
    dsimp only at h
    split at h
    · cases h
      exact valid_fail id (by decide) (by decide) (by decide)
    · split at h
      · cases h
        exact valid_fail id (by decide) (by decide) (by decide)
      · cases h

theorem logFile_error (h : logFile d req = .error r) : ValidValue (finishReply id r) := by
  unfold logFile at h
  dsimp only at h
  split at h
  · cases h
    exact valid_fail id (by decide) (by decide) (by decide)
  · split at h
    · cases h
      exact valid_fail id (by decide) (by decide) (by decide)
    · cases h

theorem journalFile_error (h : journalFile d = .error r) : ValidValue (finishReply id r) := by
  unfold journalFile at h
  split at h
  · cases h
    exact valid_note id (by decide) validUtf8_nil (by decide)
  · cases h

theorem fatalWanted_error (h : fatalWanted d req = .error r) : ValidValue (finishReply id r) := by
  unfold fatalWanted at h
  dsimp only at h
  split at h
  · split at h
    · cases h
      exact valid_fail id (by decide) (by decide) (by decide)
    · split at h
      · cases h
        exact valid_fail id (by decide) (by decide) (by decide)
      · cases h
  · split at h
    · cases h
      exact valid_note id (by decide) trivial (by decide)
    · cases h

theorem crashWanted_error (h : crashWanted d req = .error r) : ValidValue (finishReply id r) := by
  unfold crashWanted at h
  dsimp only at h
  split at h
  · split at h
    · cases h
      exact valid_fail id (by decide) (by decide) (by decide)
    · split at h
      · cases h
        exact valid_fail id (by decide) (by decide) (by decide)
      · cases h
  · cases h

end

theorem validValue_grepMatch (m : GrepMatch) : ValidValue m.value ↔ ValidUtf8 m.text := by
  rw [GrepMatch.value, Json.validValue_ofMembers_iff ["line", "offset", "text"] rfl (by decide)]
  simp only [List.forall_mem_cons, List.not_mem_nil, false_imp_iff, implies_true, and_true]
  exact ⟨fun h => h.2.2, fun h => ⟨trivial, trivial, h⟩⟩

theorem valid_grepReply_iff (id : Int64) (g : Grep) :
    ValidValue (finishReply id (grepReply g)) ↔ ∀ t ∈ g.found.map GrepMatch.text, ValidUtf8 t := by
  have harray : ValidValue (.array (g.found.map GrepMatch.value)) ↔ ∀ t ∈ g.found.map GrepMatch.text, ValidUtf8 t := by
    rw [ValidValue, Json.validArray_iff, List.forall_mem_map, List.forall_mem_map]
    exact forall₂_congr fun m _ => validValue_grepMatch m
  rw [← harray, grepReply]
  cases g.truncated with
  | true =>
    rw [valid_ofMembers_iff id ["lines_scanned", "count", "truncated", "matches"] rfl (by decide), if_pos rfl]
    simp only [List.cons_append, List.nil_append, List.forall_mem_cons, List.not_mem_nil, false_imp_iff, implies_true,
      and_true]
    exact ⟨fun h => h.2.2.2, fun h => ⟨trivial, trivial, trivial, h⟩⟩
  | false =>
    rw [valid_ofMembers_iff id ["lines_scanned", "count", "matches"] rfl (by decide), if_neg Bool.false_ne_true]
    simp only [List.cons_append, List.nil_append, List.forall_mem_cons, List.not_mem_nil, false_imp_iff, implies_true,
      and_true]
    exact ⟨fun h => h.2.2, fun h => ⟨trivial, trivial, h⟩⟩

theorem valid_echoedLines {a : GrepArgs} {content line : Bytes} (h : ValidUtf8 content)
    (hl : line ∈ echoedLines a content) : ValidUtf8 line := by
  obtain ⟨whole, hwhole, rfl⟩ := List.mem_map.1 (List.mem_filter.1 (List.mem_of_mem_take hl)).1
  exact (valid_linesFrom content [] h whole hwhole).filter_ne (by decide)

theorem valid_grepLoop_iff (id : Int64) (a : GrepArgs) {content : Bytes} (h : ValidUtf8 content) :
    ValidValue (finishReply id (grepReply (grepLoop a content {}))) ↔
      ∀ line ∈ echoedLines a content, 300 < line.length → AtChar line 300 := by
  have htexts := grepLoop_texts a content [] {} rfl
  rw [valid_grepReply_iff, htexts, List.map_nil, List.nil_append, List.forall_mem_map]
  exact forall₂_congr fun line hline => valid_clip_iff (valid_echoedLines h hline)

/-! ## The five handlers -/

section
variable {d : Disk} (hvalid : ∀ path content, d.files path = some content → ValidUtf8 content)
include hvalid

theorem valid_of_grepFile {req : Request} {content : Bytes} (h : grepFile d req = .ok content) : ValidUtf8 content := by
  unfold grepFile at h
  split at h
  · cases h
  · split at h
    · cases h
    · split at h
      · cases h
      · rename_i hfile
        cases h
        exact hvalid _ _ hfile

theorem valid_of_logFile {req : Request} {content : Bytes} (h : logFile d req = .ok content) : ValidUtf8 content := by
  unfold logFile at h
  dsimp only at h
  split at h
  · cases h
  · split at h
    · cases h
    · rename_i hfile
      cases h
      exact hvalid _ _ hfile

theorem valid_of_journalFile {content : Bytes} (h : journalFile d = .ok content) : ValidUtf8 content := by
  unfold journalFile at h
  split at h
  · cases h
  · rename_i hfile
    cases h
    exact hvalid _ _ hfile

theorem valid_of_fatalWanted {req : Request} {name content : Bytes} (h : fatalWanted d req = .ok (.report name content)) :
    ValidUtf8 content := by
  unfold fatalWanted at h
  dsimp only at h
  split at h
  · split at h
    · cases h
    · split at h
      · cases h
      · rename_i hfile
        cases h
        exact hvalid _ _ hfile
  · split at h
    · cases h
    · cases h

theorem valid_of_crashWanted {req : Request} {name content : Bytes} (h : crashWanted d req = .ok (.report name content)) :
    ValidUtf8 content := by
  unfold crashWanted at h
  dsimp only at h
  split at h
  · split at h
    · cases h
    · split at h
      · cases h
      · rename_i hfile
        cases h
        exact hvalid _ _ hfile
  · cases h

end

theorem validValue_reportEntry (d : Disk) (dir : Bytes) (withTime : Bool) (de : Dirent) :
    ValidValue (reportEntry d dir withTime de) ↔ ValidUtf8 de.name := by
  unfold reportEntry
  cases d.stat (cStr (dir ++ slash :: de.name)) with
  | none =>
    rw [Json.validValue_ofMembers_iff ["name"] rfl (by decide), List.forall_mem_singleton]
    exact Iff.rfl
  | some st =>
    cases withTime with
    | true =>
      rw [Json.validValue_ofMembers_iff ["name", "size", "mtime"] rfl (by decide)]
      dsimp only
      rw [if_pos rfl]
      simp only [List.forall_mem_cons, List.not_mem_nil, false_imp_iff, implies_true, and_true]
      exact ⟨fun h => h.1, fun h => ⟨h, trivial, trivial⟩⟩
    | false =>
      rw [Json.validValue_ofMembers_iff ["name", "size"] rfl (by decide)]
      dsimp only
      rw [if_neg Bool.false_ne_true]
      simp only [List.forall_mem_cons, List.not_mem_nil, false_imp_iff, implies_true, and_true]
      exact ⟨fun h => h.1, fun h => ⟨h, trivial⟩⟩

theorem validValue_listing (d : Disk) (dir : Bytes) (withTime : Bool) (des : List Dirent) :
    ValidValue (.array (des.map (reportEntry d dir withTime))) ↔ ∀ de ∈ des, ValidUtf8 de.name := by
  rw [ValidValue, Json.validArray_iff, List.forall_mem_map]
  exact forall₂_congr fun de _ => validValue_reportEntry d dir withTime de

/-- The reply that has a report. -/
theorem valid_report_iff (id : Int64) (name sent : Bytes) :
    ValidValue (finishReply id (.ofMembers [("name", .string name), ("content", .string sent)])) ↔
      ValidUtf8 name ∧ ValidUtf8 sent := by
  rw [valid_ofMembers_iff id ["name", "content"] rfl (by decide)]
  simp only [List.forall_mem_cons, List.not_mem_nil, false_imp_iff, implies_true, and_true]
  exact Iff.rfl

theorem validValue_reply_iff {d : Disk} (hvalid : ∀ path content, d.files path = some content → ValidUtf8 content)
    (h : Reporter) (req : Request) (id : Int64) : ValidValue (finishReply id (h.reply d req)) ↔ h.Uncut d req := by
  cases h with
  | fsGrep =>
    refine valid_replyWith_iff id (fun r hr => grepFile_error id hr) fun content hc => ?_
    exact valid_grepLoop_iff id (grepArgs req) (valid_of_grepFile hvalid hc)
  | readLog =>
    refine valid_replyWith_iff id (fun r hr => logFile_error id hr) fun content hc => ?_
    rw [valid_ofMembers_iff id ["content", "truncated"] rfl (by decide), ← validUtf8_drop_iff (valid_of_logFile hvalid hc)]
    simp only [List.forall_mem_cons, List.not_mem_nil, false_imp_iff, implies_true, and_true]
    exact and_iff_left trivial
  | journalRead =>
    refine valid_replyWith_iff id (fun r hr => journalFile_error id hr) fun content hc => ?_
    rw [valid_ofMembers_iff id ["total_bytes", "truncated", "content"] rfl (by decide),
      ← validUtf8_drop_iff (valid_of_journalFile hvalid hc)]
    simp only [List.forall_mem_cons, List.not_mem_nil, false_imp_iff, implies_true, and_true]
    exact ⟨fun hv => hv.2.2, fun hv => ⟨trivial, trivial, hv⟩⟩
  | fatalReports =>
    refine valid_replyWith_iff id (fun r hr => fatalWanted_error id hr) fun w hw => ?_
    cases w with
    | report name content =>
      have hsent : appendChunks (content.length + 1) content [] = content.take 49152 :=
        appendChunks_eq _ content [] (Nat.lt_succ_self _)
      dsimp only
      rw [hsent, valid_report_iff, validUtf8_take_iff (valid_of_fatalWanted hvalid hw)]
      exact Iff.rfl
    | listing des =>
      dsimp only
      rw [valid_ofMembers_iff id ["count", "reports"] rfl (by decide)]
      simp only [List.forall_mem_cons, List.not_mem_nil, false_imp_iff, implies_true, and_true, validValue_listing]
      exact and_iff_right trivial
  | crashReports =>
    refine valid_replyWith_iff id (fun r hr => crashWanted_error id hr) fun w hw => ?_
    cases w with
    | report name content =>
      dsimp only
      rw [valid_report_iff]
      exact and_congr_right fun _ => iff_of_true (valid_of_crashWanted hvalid hw) trivial
    | listing des =>
      dsimp only
      rw [valid_ofMembers_iff id ["reports"] rfl (by decide), List.forall_mem_singleton, validValue_listing]
      exact Iff.rfl

/-- **The reply of each of the five handlers is valid UTF-8, and loaded by the client, exactly when no cut of the handler
falls inside a character**, whatever the request. -/
theorem reply_valid_iff (d : Disk) (hvalid : ∀ path content, d.files path = some content → ValidUtf8 content)
    (h : Reporter) (req : Request) (id : Int64) :
    (ValidUtf8 (Json.dump (finishReply id (h.reply d req))) ∧
      (PyJson.loads (Json.dump (finishReply id (h.reply d req)))).isSome = true) ↔ h.Uncut d req := by
  rw [Json.validUtf8_dump_iff, ← validValue_reply_iff hvalid h req id]
  refine and_iff_left_of_imp fun hv => ?_
  rw [Json.loads_of_validValue hv]
  rfl

/-- A card with a log. -/
def logOf (content : Bytes) : Disk where
  saveMounted := false
  files path := if path = str "sdmc:/config/switch-agentd/agent.log" then some content else none
  opendir _ := none
  stat _ := none

theorem logOf_valid {log : Bytes} (hlog : ValidUtf8 log) (path content : Bytes)
    (h : (logOf log).files path = some content) : ValidUtf8 content := by
  rw [logOf] at h
  dsimp only at h
  split at h
  · cases h
    exact hlog
  · cases h

/-- The request for the end of the log. -/
def lastBytes (n : Int64) : Request := ⟨.object [(str "max_bytes", .int n)], []⟩

def eAcute : Bytes := [0xC3, 0xA9]

/-- The last two bytes of four, a cut between two characters. -/
theorem reply_valid_log :
    ValidUtf8 (Json.dump (finishReply 1 (Reporter.readLog.reply (logOf (eAcute ++ eAcute)) (lastBytes 2)))) ∧
      (PyJson.loads (Json.dump (finishReply 1 (Reporter.readLog.reply (logOf (eAcute ++ eAcute)) (lastBytes 2))))).isSome =
        true := by
  have hvalid : ValidUtf8 (eAcute ++ eAcute) := ⟨[cp 0xE9, cp 0xE9], rfl⟩
  refine (reply_valid_iff (logOf (eAcute ++ eAcute)) (logOf_valid hvalid) .readLog (lastBytes 2) 1).2 fun content hc => ?_
  have hfile : logFile (logOf (eAcute ++ eAcute)) (lastBytes 2) = .ok (eAcute ++ eAcute) := rfl
  have hmax : logMax (lastBytes 2) = 2 := rfl
  rw [hfile, Except.ok.injEq] at hc
  rw [← hc, hmax]
  intro b hb
  obtain rfl : (0xC3 : UInt8) = b := Option.some.inj hb
  decide

/-- **The last byte of a character is no text**, and the client does not load the reply. -/
theorem readLog_cuts :
    ¬ValidUtf8 (Json.dump (finishReply 1 (readLog (logOf eAcute) (lastBytes 1)))) ∧
      PyJson.loads (Json.dump (finishReply 1 (readLog (logOf eAcute) (lastBytes 1)))) = none := by
  have hreply : readLog (logOf eAcute) (lastBytes 1) =
      .ofMembers [("content", .string [0xA9]), ("truncated", .bool true)] := rfl
  rw [hreply]
  constructor
  · rw [Json.validUtf8_dump_iff, valid_ofMembers_iff 1 ["content", "truncated"] rfl (by decide)]
    exact fun h => not_validUtf8_tail (by decide) [] (h _ List.mem_cons_self)
  · have hdec : utf8Decode (Json.dump (finishReply 1 (.ofMembers [("content", .string [0xA9]), ("truncated", .bool true)]))) =
        none := by decide +kernel
    rw [PyJson.loads, hdec]

end Agent
end SwitchMcp

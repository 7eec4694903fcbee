import SwitchMcp.CardFiles
import SwitchMcp.Unread
import SwitchMcp.FsWrites
/-!
# Transfer — a file in chunks (clients/agentd.py, `read_file` and `write_file`)

The two loops of the client over its calls, against the agent as it serves its card.  What is written of a file is pieces:
each frame of `fs.write` that reaches the agent lays one, or none when the file does not open.  `clientWriteFile_iff` says when
the pieces of a run that returns are the whole data, `clientReadFile_iff` when the chunks of one are the whole file.
-/
namespace SwitchMcp
namespace Agent

open Pieces (OfData lay assemble Complete)
open PyJson (dictGet)
open Prog (Ends)

/-- The client, the console it talks to, and how many calls it has made. -/
structure Session where
  world : World Card CardFault
  turn : Nat

section
variable (cfg : ClientConfig) (hmacHex : Bytes → Bytes → PyStr) (b : Build) (scripts : Nat → CallScript CardFault)

/-- `self.call`: the schedule has a script for each. -/
def callNext (cmd : PyStr) (payload : Bytes) (params : PyDict) : Prog Session Raised (PyDict × Bytes) := .of fun s =>
  let r := (call cfg hmacHex b.serve cmd payload params (scripts s.turn)).exec s.world
  (r.1, ⟨r.2, s.turn + 1⟩)

/-- The loop of `write_file`. -/
def writeLoop (path : PyStr) (data : Bytes) (offset : Nat) : Prog Session Raised Unit :=
  if offset < data.length ∨ offset = 0 then do
    let part := (data.drop offset).take chunk
    let _ ← callNext cfg hmacHex b scripts (py "fs.write") part (writeParams path offset)
    if part = [] then pure () else writeLoop path data (offset + part.length)
  else pure ()
termination_by data.length - offset
decreasing_by
  rename_i hpart
  have hlen : 0 < ((data.drop offset).take chunk).length := List.length_pos_of_ne_nil hpart
  rw [List.length_take, List.length_drop] at hlen ⊢
  omega

def clientWriteFile (path : PyStr) (data : Bytes) : Prog Session Raised Nat := do
  writeLoop cfg hmacHex b scripts path data 0
  return data.length

/-- The loop of `read_file`, for so many turns: `none` when they do not suffice. -/
def readLoop (path : PyStr) : Nat → Nat → Bytes → Prog Session Raised (Option Bytes)
  | 0, _, _ => pure none
  | fuel + 1, offset, parts => do
    let r ← callNext cfg hmacHex b scripts (py "fs.read") [] (readParams path offset)
    if getTruthy r.1 "eof" then return some (parts ++ r.2)
    else readLoop path fuel (offset + r.2.length) (parts ++ r.2)

def clientReadFile (fuel : Nat) (path : PyStr) : Prog Session Raised (Option Bytes) :=
  readLoop cfg hmacHex b scripts path fuel 0 []

end

/-! ## Runs to look at -/

/-- A build that knows every command, with no restriction. -/
def sampleBuild : Build where
  config := ⟨str "k", .invasive, false, false, false, false, false⟩
  has _ := true
  sha256 _ := ⟨List.replicate 32 0, List.length_replicate⟩
  hmacSha256 _ _ := [0]
  fw := (0, 0, 0)
  others _ _ _ st := ((true, {}), st)

/-- An exchange that goes well, with what stdio does meanwhile. -/
def answeredWith (read : ReadFault) (write : WriteFault) : ExchangeScript CardFault :=
  ⟨⟨read, write, []⟩, true, .done, .done, .done, .done, .done⟩

/-- Calls whose exchanges go well. -/
def sampleScripts (x : ExchangeScript CardFault) (_ : Nat) : CallScript CardFault :=
  let c : ConnectScript CardFault := ⟨.done, x, x, ⟨dropped, .done, x⟩, ⟨dropped, .done, x⟩⟩
  ⟨⟨false, c, x, dropped⟩, ⟨false, c, x, dropped⟩⟩

/-- A client on a connection that the agent let it in on. -/
def sampleSession (files : Files) : Session :=
  ⟨{ World.fresh ⟨files, false, []⟩ with conn := some ⟨[], true⟩ }, 0⟩

theorem sampleSession_allRead (files : Files) : AllRead (sampleSession files).world := allRead_of_some rfl rfl

def noFiles : Files := fun _ => none

/-- `fwrite` that reports all and stores so many bytes. -/
def storing (n : Nat) : WriteFault := ⟨true, true, chunk, n⟩

def samplePath : PyStr := py "/a"

/-! ## What a frame lays over the file -/

/-- The offset that a frame of `fs.read` or `fs.write` asks for. -/
def Sent.offset {φ : Type} (e : Sent φ) : Nat :=
  match dictGet e.msg (py "offset") with
  | some (.int n) => n.toNat
  | _ => 0

/-- The command that a frame names. -/
def Sent.command {φ : Type} (e : Sent φ) : Option PyJson := dictGet e.msg (py "cmd")

/-- The piece that `FsWrite` lays for a frame: nothing when the file does not open, and a fresh one when it opens emptied. -/
def Sent.piece (e : Sent CardFault) : Option (Piece UInt8) :=
  let w := e.fault.write
  let stored := e.payload.take (min w.stored (min w.written e.payload.length))
  if e.offset = 0 then if w.openWb then some ⟨true, 0, stored⟩ else none
  else if w.openRw then some ⟨false, e.offset, stored⟩
  else if w.openWb then some ⟨true, e.offset, stored⟩ else none

/-- The pieces that frames lay: those of a command that reached the agent. -/
def pieces (l : List (Sent CardFault)) : List (Piece UInt8) :=
  l.filterMap fun e => if e.kind = .command ∧ e.delivered = true then e.piece else none

theorem pieces_append (l l' : List (Sent CardFault)) : pieces (l ++ l') = pieces l ++ pieces l' := List.filterMap_append

theorem offset_of_msg {φ : Type} {e : Sent φ} {id : Nat} {cmd : PyStr} {params : PyDict} {payload : Bytes} {offset : Nat}
    (hmsg : e.msg = roundtripMsg id (callMsg cmd params) payload)
    (hoff : dictGet params (py "offset") = some (.int offset)) : e.offset = offset := by
  unfold Sent.offset
  rw [hmsg, dictGet_roundtripMsg_ne _ _ _ (by decide) (by decide), callMsg, PyJson.dictGet_cons, if_neg (by decide), hoff]
  rfl

theorem command_of_msg {φ : Type} {e : Sent φ} {id : Nat} {cmd : PyStr} {params : PyDict} {payload : Bytes}
    (hmsg : e.msg = roundtripMsg id (callMsg cmd params) payload) : e.command = some (.str cmd) := by
  rw [Sent.command, hmsg, dictGet_roundtripMsg_ne _ _ _ (by decide) (by decide), callMsg, PyJson.dictGet_cons, if_pos rfl]

/-- The commands that frames name are all this one. -/
def Commands {φ : Type} (cmd : PyStr) (l : List (Sent φ)) : Prop := ∀ f ∈ l, f.kind = .command → f.command = some (.str cmd)

theorem commands_of_call {φ : Type} {token cmd : PyStr} {payload : Bytes} {params : PyDict} {l : List (Sent φ)}
    (h : ∀ f ∈ l, OfCall token cmd payload params f) : Commands cmd l := by
  intro f hf hk
  rcases h f hf with hf | hf
  · exact absurd hk hf.kind_ne
  · obtain ⟨id, hmsg⟩ := hf.msg
    exact command_of_msg hmsg

theorem Commands.append {φ : Type} {cmd : PyStr} {l l' : List (Sent φ)} (h : Commands cmd l) (h' : Commands cmd l') :
    Commands cmd (l ++ l') := fun f hf => (List.mem_append.1 hf).elim (h f) (h' f)

theorem int64_ofNat_eq_zero {n : Nat} (h : n < 2 ^ 63) : Int64.ofNat n = 0 ↔ n = 0 := by
  constructor
  · intro h0
    have := seekPos_ofNat h
    rw [h0] at this
    exact this.symm
  · rintro rfl
    rfl

/-- **The piece of a frame is what `FsWrite` does for it**, over a file that the pieces before it made up. -/
theorem writeStep_eq {e : Sent CardFault} (ho : e.offset < 2 ^ 63) (file : Option Bytes) (ps : List (Piece UInt8))
    (hfile : e.offset = 0 ∨ file = some (assemble 0 ps)) :
    writeStep e.fault.write e.offset e.payload file = e.piece.map fun p => assemble 0 (ps ++ [p]) := by
  unfold writeStep openForWrite Sent.piece
  simp only [int64_ofNat_eq_zero ho, overwrite_eq, Pieces.assemble_snoc]
  by_cases h0 : e.offset = 0
  · rw [if_pos h0, if_pos h0, h0]
    cases e.fault.write.openWb <;> rfl
  · rw [if_neg h0, if_neg h0, hfile.resolve_left h0]
    cases e.fault.write.openRw
    · cases e.fault.write.openWb <;> rfl
    · rfl

theorem piece_ofData {data : Bytes} {e : Sent CardFault} (hpay : e.payload <+: data.drop e.offset) {p : Piece UInt8}
    (hp : e.piece = some p) : OfData data p := by
  have hstored : ∀ n, e.payload.take n <+: data.drop e.offset := fun n => (List.take_prefix n _).trans hpay
  unfold Sent.piece at hp
  dsimp only at hp
  by_cases h0 : e.offset = 0
  · rw [if_pos h0] at hp
    split at hp
    · cases hp
      rw [h0] at hstored
      exact hstored _
    · cases hp
  · rw [if_neg h0] at hp
    repeat' split at hp
    all_goals cases hp
    all_goals exact hstored _

/-! ## One call of `fs.write` -/

/-- The file is what the pieces made up, once there are any. -/
def Laid (path : PyStr) (st : Card) (ps : List (Piece UInt8)) : Prop := ps ≠ [] → st.fileAt path = some (assemble 0 ps)

section
variable {cfg : ClientConfig} {hmacHex : Bytes → Bytes → PyStr} {b : Build} {scripts : Nat → CallScript CardFault}
  {path : PyStr} {offset : Nat} {part : Bytes}

/-- A frame that a call of `fs.write` writes. -/
abbrev WriteFrame (cfg : ClientConfig) (path : PyStr) (offset : Nat) (part : Bytes) : Sent CardFault → Prop :=
  OfCall cfg.token (py "fs.write") part (writeParams path offset)

/-- **A frame of `fs.write` lays its piece**, one of a handshake nothing. -/
theorem laid_step (hw : b.writes path) (ho : offset < 2 ^ 63) {f : Sent CardFault} (hf : WriteFrame cfg path offset part f)
    {st : Card} {ps : List (Piece UInt8)} (hst : Laid path st ps) (h0 : offset = 0 ∨ ps ≠ []) :
    Laid path (agentStep b.serve st f) (ps ++ pieces [f]) := by
  unfold agentStep pieces
  rw [List.filterMap_cons, List.filterMap_nil]
  cases hd : f.delivered with
  | false =>
    rw [if_neg (by simp), if_neg (by simp)]
    rwa [List.append_nil]
  | true =>
    rcases hf with hf | hf
    · rw [if_pos rfl, if_neg fun h => hf.kind_ne h.1]
      rw [List.append_nil, Laid, Card.fileAt, serve_handshake b hf st]
      exact hst
    · obtain ⟨id, hmsg⟩ := hf.msg
      have hoff : f.offset = offset := offset_of_msg hmsg rfl
      have hstep := writeStep_eq (e := f) (by rwa [hoff]) (st.fileAt path) ps (h0.imp (fun h => hoff.trans h) hst)
      have htext : f.text = requestText id (callMsg (py "fs.write") (writeParams path offset)) part := by
        rw [Sent.text, hmsg, requestText]
      rw [if_pos rfl, if_pos ⟨hf.kind, rfl⟩]
      rw [hoff, hf.with_payload] at hstep
      obtain ⟨d, -, ⟨content, -, hcontent, hafter, -⟩ | ⟨hnone, hsame, -⟩⟩ :=
        serve_write b id ho path part f.fault st (r := b.serve f.fault f.text f.payload st) (by rw [htext, hf.with_payload])
      · rw [hcontent] at hstep
        obtain ⟨p, hp, hpc⟩ := Option.map_eq_some_iff.1 hstep.symm
        rw [hp]
        intro _
        rw [hafter, ← hpc]
      · rw [hnone hw] at hstep
        rw [Option.map_eq_none_iff.1 hstep.symm, hsame, List.append_nil]
        exact hst

theorem laid_after (hw : b.writes path) (ho : offset < 2 ^ 63) : ∀ (l : List (Sent CardFault)) (st : Card)
    (ps : List (Piece UInt8)), (∀ f ∈ l, WriteFrame cfg path offset part f) → Laid path st ps → (offset = 0 ∨ ps ≠ []) →
    Laid path (agentAfter b.serve l st) (ps ++ pieces l)
  | [], st, ps, _, hst, _ => by
    rw [pieces, List.filterMap_nil, List.append_nil]
    exact hst
  | f :: l, st, ps, hl, hst, h0 => by
    rw [← List.singleton_append (l := l), agentAfter_append, pieces_append, ← List.append_assoc]
    refine laid_after hw ho l _ _ (fun g hg => hl g (List.mem_cons_of_mem f hg)) ?_ (h0.imp_right fun h => ?_)
    · exact laid_step hw ho (hl f List.mem_cons_self) hst h0
    · exact List.append_ne_nil_of_left_ne_nil h _

/-- What holds of a call holds of the session's. -/
theorem callNext_of_call {cmd : PyStr} {payload : Bytes} {params : PyDict} {s : Session} {Q : PyDict × Bytes → Session → Prop}
    {E : Raised → Session → Prop} (h : Ends (call cfg hmacHex b.serve cmd payload params (scripts s.turn)) s.world
      (fun r w => Q r ⟨w, s.turn + 1⟩) (fun e w => E e ⟨w, s.turn + 1⟩)) :
    Ends (callNext cfg hmacHex b scripts cmd payload params) s Q E := by
  have hx : (callNext cfg hmacHex b scripts cmd payload params).exec s =
      (((call cfg hmacHex b.serve cmd payload params (scripts s.turn)).exec s.world).1,
        ⟨((call cfg hmacHex b.serve cmd payload params (scripts s.turn)).exec s.world).2, s.turn + 1⟩) := rfl
  rcases hc : (call cfg hmacHex b.serve cmd payload params (scripts s.turn)).exec s.world with ⟨e | r, w'⟩
  · rw [hc] at hx
    exact (Prog.ends_iff_error hx).2 (h.error hc)
  · rw [hc] at hx
    exact (Prog.ends_iff_ok hx).2 (h.ok hc)

/-- **A call of a command that leaves the console up**, from a client that has read all, returns the answer to its request. -/
theorem callNext_ends {cmd : PyStr} (hcmd : cmd ∉ fireAndForget) (payload : Bytes) (params : PyDict) {s : Session}
    (hs : AllRead s.world) :
    Ends (callNext cfg hmacHex b scripts cmd payload params) s
      (fun r s' => AllRead s'.world ∧ Succeeded b.serve cfg cmd payload params s.world s'.world r) (fun _ _ => True) :=
  callNext_of_call ((call_read hmacHex cmd payload params (scripts s.turn) hs).mono
    (fun _ _ h => ⟨h.1, h.2.resolve_right fun ⟨_, _, hgone⟩ => hcmd hgone.fires⟩) (fun _ _ _ => trivial))

/-- The log grew by frames of this command. -/
def Logged (cmd : PyStr) (s s' : Session) : Prop := ∃ new, s'.world.log = s.world.log ++ new ∧ Commands cmd new

/-- **A call logs its own command only**, however it ends. -/
theorem callNext_logged (cmd : PyStr) (payload : Bytes) (params : PyDict) (s : Session) :
    Ends (callNext cfg hmacHex b scripts cmd payload params) s (fun _ s' => Logged cmd s s') (fun _ s' => Logged cmd s s') := by
  have hlogged : ∀ w, Extends b.serve (OfCall cfg.token cmd payload params) s.world w → Logged cmd s ⟨w, s.turn + 1⟩ := by
    rintro w ⟨new, hlog, -, hnew⟩
    exact ⟨new, hlog, commands_of_call hnew⟩
  exact callNext_of_call ((call_extends cfg hmacHex b.serve cmd payload params (scripts s.turn) s.world).mono
    (fun _ w h => hlogged w h) (fun _ w h => hlogged w h))

theorem Answered.of_call {cmd : PyStr} {payload : Bytes} {params : PyDict} {w w' : World Card CardFault}
    {r : PyDict × Bytes} {pre : List (Sent CardFault)} {e : Sent CardFault}
    (h : Answered b.serve cfg cmd payload params w w' r pre e) : ∀ f ∈ pre ++ [e], OfCall cfg.token cmd payload params f := by
  intro f hf
  rcases List.mem_append.1 hf with hf | hf
  · exact (h.earlier f hf).1
  · rw [List.mem_singleton.1 hf]
    exact Or.inr ⟨h.of_kind, h.of_payload, _, h.of_msg⟩

/-- What the writing loop has done since `w` at an offset: frames that laid pieces of the data, and the file is what they
made up. -/
structure WriteProgress (b : Build) (path : PyStr) (data : Bytes) (w : World Card CardFault) (offset : Nat) (s : Session)
    (new : List (Sent CardFault)) : Prop where
  read : AllRead s.world
  log : s.world.log = w.log ++ new
  agent : s.world.agent = agentAfter b.serve new w.agent
  ofData : ∀ p ∈ pieces new, OfData data p
  laid : Laid path s.world.agent (pieces new)
  begun : offset = 0 ∨ pieces new ≠ []
  commands : Commands (py "fs.write") new

theorem offset_writeFrame {f : Sent CardFault} (hf : WriteFrame cfg path offset part f) (hk : f.kind = .command) :
    f.offset = offset ∧ f.payload = part := by
  rcases hf with hf | hf
  · exact absurd hk hf.kind_ne
  · obtain ⟨id, hmsg⟩ := hf.msg
    exact ⟨offset_of_msg hmsg rfl, hf.with_payload⟩

/-- A frame that asks to write the `k`th chunk of the data. -/
abbrev IsChunk (path : PyStr) (data : Bytes) (k : Nat) : Sent CardFault → Prop :=
  IsCommand (py "fs.write") ((data.drop (chunk * k)).take chunk) (writeParams path (chunk * k))

/-- Whatever was sent of `fs.write` was a chunk of the data, and each chunk with `K` was sent and answered. -/
structure Sends (path : PyStr) (data : Bytes) (K : Nat → Prop) (l : List (Sent CardFault)) : Prop where
  only : ∀ f ∈ l, f.kind = .command → f.command = some (.str (py "fs.write")) → ∃ k, IsChunk path data k f
  each : ∀ k, K k → ∃ f ∈ l, IsChunk path data k f ∧ f.delivered = true ∧ f.answered = true

theorem Sends.mono {data : Bytes} {K K' : Nat → Prop} {l : List (Sent CardFault)} (h : Sends path data K l)
    (hK : ∀ k, K' k → K k) : Sends path data K' l := ⟨h.only, fun k hk => h.each k (hK k hk)⟩

theorem Sends.append {data : Bytes} {K : Nat → Prop} {l l' : List (Sent CardFault)} (h : Sends path data K l)
    (h' : ∀ f ∈ l', f.kind = .command → f.command = some (.str (py "fs.write")) → ∃ k, IsChunk path data k f) :
    Sends path data K (l ++ l') := by
  refine ⟨fun f hf => (List.mem_append.1 hf).elim (h.only f) (h' f), fun k hk => ?_⟩
  obtain ⟨f, hf, hchunk⟩ := h.each k hk
  exact ⟨f, List.mem_append_left _ hf, hchunk⟩

theorem sends_nil {data : Bytes} : Sends path data (fun k => chunk * k < 0) [] :=
  ⟨fun _ hf => (nomatch hf), fun _ hk => absurd hk (Nat.not_lt_zero _)⟩

/-- Frames of another command send no chunk. -/
theorem Sends.other {data : Bytes} {K : Nat → Prop} {l l' : List (Sent CardFault)} (h : Sends path data K l) {cmd : PyStr}
    (h' : Commands cmd l') (hne : cmd ≠ py "fs.write") : Sends path data K (l ++ l') :=
  h.append fun f hf hk hc => absurd (PyJson.str.inj (Option.some.inj ((h' f hf hk).symm.trans hc))) hne

/-- A call whose frames are of a chunk, one of them answered. -/
structure SendsOne (path : PyStr) (offset : Nat) (part : Bytes) (l : List (Sent CardFault)) : Prop where
  only : ∀ f ∈ l, f.kind = .command → IsCommand (py "fs.write") part (writeParams path offset) f
  answered : ∃ f ∈ l, IsCommand (py "fs.write") part (writeParams path offset) f ∧ f.delivered = true ∧ f.answered = true

theorem Sends.one {data : Bytes} {K : Nat → Prop} {l l' : List (Sent CardFault)} (h : Sends path data K l) {k : Nat}
    (h' : SendsOne path (chunk * k) ((data.drop (chunk * k)).take chunk) l') :
    Sends path data (fun j => K j ∨ j = k) (l ++ l') := by
  have hall := h.append fun f hf hk _ => ⟨k, h'.only f hf hk⟩
  refine ⟨hall.only, fun j hj => ?_⟩
  rcases hj with hj | rfl
  · exact hall.each j hj
  · obtain ⟨f, hf, hchunk⟩ := h'.answered
    exact ⟨f, List.mem_append_right _ hf, hchunk⟩

/-- **One turn of the writing loop.** -/
theorem write_call {data : Bytes} {w : World Card CardFault} {new : List (Sent CardFault)} {s : Session}
    (ho : offset < 2 ^ 63) (h : WriteProgress b path data w offset s new) (hpart : part <+: data.drop offset) :
    Ends (callNext cfg hmacHex b scripts (py "fs.write") part (writeParams path offset)) s
      (fun _ s' => ∃ added, WriteProgress b path data w (offset + part.length) s' (new ++ added) ∧
        pieces (new ++ added) ≠ [] ∧ SendsOne path offset part added)
      (fun _ s' => ∃ new', s'.world.log = w.log ++ new' ∧ Commands (py "fs.write") new') := by
  refine ((callNext_ends (by decide) part (writeParams path offset) h.read).and
    (callNext_logged (py "fs.write") part (writeParams path offset) s)).mono (fun r s' h' => ?_) (fun e s' h' => ?_)
  rotate_left
  · obtain ⟨-, pre, hlog, hpre⟩ := h'
    exact ⟨new ++ pre, by rw [hlog, h.log, List.append_assoc], h.commands.append hpre⟩
  obtain ⟨⟨hin, ⟨pre, e, ha⟩, herr⟩, -⟩ := h'
  have hframes : ∀ f ∈ pre ++ [e], WriteFrame cfg path offset part f := ha.of_call
  have hoff : e.offset = offset := offset_of_msg ha.of_msg rfl
  obtain ⟨d, hl, ⟨content, hw, hcontent, -, -⟩ | ⟨-, -, hd⟩⟩ := serve_write b s'.world.id ho path part e.fault
    (agentAfter b.serve pre s.world.agent) (r := b.serve e.fault e.text e.payload (agentAfter b.serve pre s.world.agent))
    (by rw [Sent.text, ha.of_msg, ha.of_payload, requestText])
  · have hlaid := laid_after hw ho (pre ++ [e]) s.world.agent (pieces new) hframes h.laid h.begun
    have hnew : pieces new ++ pieces (pre ++ [e]) ≠ [] := by
      rcases h.begun with h0 | hne
      · have hstep := writeStep_eq (e := e) (by rwa [hoff])
          ((agentAfter b.serve pre s.world.agent).fileAt path) (pieces new) (Or.inl (hoff.trans h0))
        rw [hoff, ha.of_payload, hcontent] at hstep
        obtain ⟨p, hp, -⟩ := Option.map_eq_some_iff.1 hstep.symm
        have he : pieces [e] = [p] := by
          rw [pieces, List.filterMap_cons, if_pos ⟨ha.of_kind, ha.replied.delivered⟩, hp]
          rfl
        rw [pieces_append pre, he]
        simp
      · exact List.append_ne_nil_of_left_ne_nil hne _
    rw [← pieces_append, ← ha.agent] at hlaid
    rw [← pieces_append] at hnew
    have hone : SendsOne path offset part (pre ++ [e]) :=
      ⟨fun f hf hk => (hframes f hf).resolve_left fun hh => hh.kind_ne hk, e, by simp,
        ⟨ha.of_kind, ha.of_payload, _, ha.of_msg⟩, ha.replied.delivered, ha.replied.answered⟩
    refine ⟨pre ++ [e], ⟨hin, by rw [ha.log, h.log, List.append_assoc],
      by rw [ha.agent, h.agent, ← agentAfter_append], fun p hp => ?_, hlaid, Or.inr hnew,
      h.commands.append (commands_of_call hframes)⟩, hnew, hone⟩
    rw [pieces_append, List.mem_append] at hp
    rcases hp with hp | hp
    · exact h.ofData p hp
    · obtain ⟨f, hf, hfp⟩ := List.mem_filterMap.1 hp
      split at hfp
      · rename_i hk
        obtain ⟨hfo, hfd⟩ := offset_writeFrame (hframes f hf) hk.1
        exact piece_ofData (by rw [hfo, hfd]; exact hpart) hfp
      · cases hfp
  · have hdr := ha.replied.decodes
    rw [hl] at hdr
    cases hdr
    exact absurd herr hd

/-- The chunks of the data, and one for no data. -/
def ChunkOf (data : Bytes) (k : Nat) : Prop := k = 0 ∨ chunk * k < data.length

theorem writeLoop_ends {data : Bytes} (hdata : data.length < 2 ^ 63) {w : World Card CardFault} : ∀ (n offset : Nat)
    {s : Session} {new : List (Sent CardFault)}, data.length - offset < n → offset ≤ data.length →
    (chunk ∣ offset ∨ offset = data.length) → WriteProgress b path data w offset s new →
    Sends path data (fun k => chunk * k < offset) new →
    Ends (writeLoop cfg hmacHex b scripts path data offset) s
      (fun _ s' => ∃ new', WriteProgress b path data w data.length s' new' ∧ pieces new' ≠ [] ∧
        Sends path data (ChunkOf data) new')
      (fun _ s' => ∃ new', s'.world.log = w.log ++ new' ∧ Commands (py "fs.write") new')
  | 0, _, _, _, hn, _, _, _, _ => absurd hn (Nat.not_lt_zero _)
  | n + 1, offset, s, new, hn, hle, hdvd, h, hsent => by
    have hchunk : 0 < chunk := by decide
    rw [writeLoop]
    by_cases hgo : offset < data.length ∨ offset = 0
    · obtain ⟨k, rfl⟩ : chunk ∣ offset := by
        rcases hdvd with hdvd | rfl
        · exact hdvd
        · exact ⟨0, by omega⟩
      rw [if_pos hgo, Prog.ends_bind]
      refine (write_call (by omega) h (List.take_prefix chunk _)).mono (fun _ s1 h1 => ?_) (fun _ _ h => h)
      obtain ⟨added, h1, hne, hone⟩ := h1
      have hsent1 := hsent.one hone
      have hlen : ((data.drop (chunk * k)).take chunk).length = min chunk (data.length - chunk * k) := by
        rw [List.length_take, List.length_drop]
      by_cases hpart : (data.drop (chunk * k)).take chunk = []
      · rw [if_pos hpart, Prog.ends_pure]
        refine ⟨_, ⟨h1.read, h1.log, h1.agent, h1.ofData, h1.laid, Or.inr hne, h1.commands⟩, hne, hsent1.mono fun j hj => ?_⟩
        rw [hpart, List.length_nil] at hlen
        have hzero : chunk * k = 0 := hgo.resolve_left (by omega)
        have hk : k = 0 := (Nat.mul_eq_zero.1 hzero).resolve_left hchunk.ne'
        exact Or.inr (hk ▸ hj.resolve_right (by omega))
      · rw [if_neg hpart]
        have hpos := List.length_pos_of_ne_nil hpart
        refine writeLoop_ends hdata n _ (by omega) (by omega) ?_ h1 (hsent1.mono fun j hj => ?_)
        · by_cases hfull : chunk ≤ data.length - chunk * k
          · rw [hlen, Nat.min_eq_left hfull]
            exact Or.inl ⟨k + 1, by rw [Nat.mul_succ]⟩
          · exact Or.inr (by omega)
        · have hj : chunk * j < chunk * (k + 1) := by
            rw [Nat.mul_succ]
            omega
          exact (Nat.lt_succ_iff_lt_or_eq.1 (Nat.lt_of_mul_lt_mul_left hj)).imp_left fun h => (Nat.mul_lt_mul_left hchunk).2 h
    · rw [if_neg hgo, Prog.ends_pure]
      have hne : pieces new ≠ [] := h.begun.resolve_left fun h0 => hgo (Or.inr h0)
      refine ⟨new, ⟨h.read, h.log, h.agent, h.ofData, h.laid, Or.inr hne, h.commands⟩, hne, hsent.mono fun j hj => ?_⟩
      rcases hj with rfl | hj
      · omega
      · omega

/-- **When `write_file` returns, the file is the data exactly when the pieces that the agent laid are all of it**: what no
piece holds since the file was last emptied is zero bytes, and the last byte is held. -/
theorem clientWriteFile_iff (cfg : ClientConfig) (hmacHex : Bytes → Bytes → PyStr) (b : Build)
    (scripts : Nat → CallScript CardFault) (path : PyStr) {data : Bytes} (hdata : data.length < 2 ^ 63) {s : Session}
    (hs : AllRead s.world) :
    Ends (clientWriteFile cfg hmacHex b scripts path data) s
      (fun _ s' => ∃ new, s'.world.log = s.world.log ++ new ∧
        (s'.world.agent.fileAt path = some data ↔ Complete 0 data (pieces new)))
      (fun _ _ => True) := by
  have h0 : WriteProgress b path data s.world 0 s [] :=
    ⟨hs, (List.append_nil _).symm, rfl, fun p hp => (nomatch hp), fun h => absurd rfl h, Or.inl rfl, fun f hf => (nomatch hf)⟩
  rw [clientWriteFile, Prog.ends_bind]
  refine (writeLoop_ends hdata _ 0 (Nat.lt_succ_self _) (Nat.zero_le _) (Or.inl (Nat.dvd_zero _)) h0
    sends_nil).mono (fun _ s' h => ?_) (fun _ _ _ => trivial)
  obtain ⟨new, h, hne, -⟩ := h
  rw [Prog.ends_pure]
  refine ⟨new, h.log, ?_⟩
  rw [h.laid hne, Option.some.injEq]
  exact Pieces.assemble_eq_iff h.ofData

/-- Data of one chunk is written in one call. -/
theorem clientWriteFile_small {data : Bytes} (hne : data ≠ []) (hlen : data.length ≤ chunk) :
    clientWriteFile cfg hmacHex b scripts path data = (do
      let _ ← callNext cfg hmacHex b scripts (py "fs.write") data (writeParams path 0)
      return data.length) := by
  have hpart : (data.drop 0).take chunk = data := List.take_of_length_le hlen
  have hpos := List.length_pos_of_ne_nil hne
  rw [clientWriteFile, writeLoop, if_pos (Or.inr rfl), hpart, bind_assoc]
  congr 1
  funext r
  rw [if_neg hne, Nat.zero_add, writeLoop, if_neg (by omega), pure_bind]

end

/-- The letter A is written to an empty card. -/
def writtenRun (w : WriteFault) : Except Raised Nat × Session :=
  (clientWriteFile sampleConfig noHash sampleBuild (sampleScripts (answeredWith .none w)) samplePath [65]).exec
    (sampleSession noFiles)

theorem writtenRun_eq (w : WriteFault) : writtenRun w = (do
    let _ ← callNext sampleConfig noHash sampleBuild (sampleScripts (answeredWith .none w)) (py "fs.write") [65]
      (writeParams samplePath 0)
    return 1 : Prog Session Raised Nat).exec (sampleSession noFiles) := by
  rw [writtenRun, clientWriteFile_small (List.cons_ne_nil _ _) (by decide)]
  rfl

/-- The byte is stored. -/
theorem clientWriteFile_iff_stored : Complete 0 [65] (pieces (writtenRun (storing chunk)).2.world.log) := by
  have hout : (writtenRun (storing chunk)).1 = .ok 1 ∧
      (writtenRun (storing chunk)).2.world.agent.fileAt samplePath = some [65] := by
    rw [writtenRun_eq]
    decide +kernel
  rcases hrun : writtenRun (storing chunk) with ⟨r, s'⟩
  rw [hrun] at hout
  obtain ⟨rfl, hfile⟩ := hout
  have hlen : ([65] : Bytes).length < 2 ^ 63 := by decide
  obtain ⟨new, hlog, hiff⟩ := (clientWriteFile_iff sampleConfig noHash sampleBuild
    (sampleScripts (answeredWith .none (storing chunk))) samplePath hlen (sampleSession_allRead noFiles)).ok hrun
  have hnew : s'.world.log = new := hlog
  rw [hnew]
  exact hiff.1 hfile

/-- **A write of which nothing was stored is reported as one of the whole data.** -/
theorem short_write_reported :
    (writtenRun (storing 0)).1 = .ok 1 ∧ (writtenRun (storing 0)).2.world.agent.fileAt samplePath = some [] := by
  rw [writtenRun_eq]
  decide +kernel

/-! ## `read_file` -/

section
variable {cfg : ClientConfig} {hmacHex : Bytes → Bytes → PyStr} {b : Build} {scripts : Nat → CallScript CardFault}
  {path : PyStr} {offset : Nat}

/-- **A command that leaves the card as it is leaves the files as they are**, in all the frames of its call. -/
theorem files_after {cmd : PyStr} {payload : Bytes} {params : PyDict}
    (hcmd : ∀ id fault st, (b.serve fault (requestText id (callMsg cmd params) payload) payload st).2 = st) :
    ∀ (l : List (Sent CardFault)) (st : Card), (∀ f ∈ l, OfCall cfg.token cmd payload params f) →
      (agentAfter b.serve l st).files = st.files
  | [], _, _ => rfl
  | f :: l, st, hl => by
    rw [← List.singleton_append (l := l), agentAfter_append,
      files_after hcmd l _ fun g hg => hl g (List.mem_cons_of_mem f hg)]
    show (agentStep b.serve st f).files = st.files
    unfold agentStep
    split
    · rcases hl f List.mem_cons_self with hf | hf
      · exact serve_handshake b hf st
      · obtain ⟨id, hmsg⟩ := hf.msg
        rw [Sent.text, hmsg, hf.with_payload, ← requestText, hcmd]
    · rfl

theorem fileAt_congr {st st' : Card} (h : st'.files = st.files) (path : PyStr) : st'.fileAt path = st.fileAt path := by
  rw [Card.fileAt, Card.fileAt, h]

/-- No read error before the end of the chunk, or of the file, that a frame asks for. -/
def Sent.ReadsWhole (content : Bytes) (e : Sent CardFault) : Prop :=
  ∀ k, e.fault.read.readError = some k → min chunk (content.length - e.offset) ≤ k

/-- The chunks that the client was answered were read whole. -/
def ReadsWhole (content : Bytes) (l : List (Sent CardFault)) : Prop :=
  ∀ e ∈ l, e.kind = .command → e.answered = true → e.ReadsWhole content

/-- **A chunk is read whole, or `fread` stops before its end.** -/
theorem fread_cases (fault : ReadFault) (left : Bytes) (len : Nat) :
    ((∀ k, fault.readError = some k → min len left.length ≤ k) ∧
        ∃ mark : Bool, fread fault left len = (left.take len, mark) ∧ (mark = true → left.length < len)) ∨
      ∃ k, fault.readError = some k ∧ k < min len left.length ∧ fread fault left len = (left.take k, false) := by
  unfold fread
  cases hk : fault.readError with
  | none => exact Or.inl ⟨fun k h => (nomatch h), _, rfl, of_decide_eq_true⟩
  | some k =>
    dsimp only
    by_cases hshort : k < min len left.length
    · exact Or.inr ⟨k, rfl, hshort, if_pos (by omega)⟩
    · have hle : min len left.length ≤ k := by omega
      refine Or.inl ⟨fun j hj => by cases hj; exact hle, ?_⟩
      by_cases hstop : k < len ∧ k ≤ left.length
      · rw [if_pos hstop, List.take_of_length_le (by omega), List.take_of_length_le (by omega)]
        exact ⟨false, rfl, fun h => (nomatch h)⟩
      · rw [if_neg hstop]
        exact ⟨_, rfl, of_decide_eq_true⟩

/-- What the reading loop has at an offset: the file is as it was, and every chunk so far was read whole. -/
structure ReadProgress (path : PyStr) (content : Bytes) (log : List (Sent CardFault)) (s : Session)
    (new : List (Sent CardFault)) : Prop where
  read : AllRead s.world
  file : s.world.agent.fileAt path = some content
  log : s.world.log = log ++ new

/-- **One turn of the reading loop**: the rest of the file up to a chunk and whether that was its end, or less of it and the
end-of-file mark. -/
theorem read_call {content : Bytes} {log new : List (Sent CardFault)} {s : Session} (ho : offset < 2 ^ 63)
    (h : ReadProgress path content log s new) (hnew : ReadsWhole content new) :
    Ends (callNext cfg hmacHex b scripts (py "fs.read") [] (readParams path offset)) s
      (fun r s' => ∃ new', ReadProgress path content log s' new' ∧
        ((ReadsWhole content new' ∧ r.2 = (content.drop offset).take chunk ∧
            getTruthy r.1 "eof" = decide ((content.drop offset).length < chunk)) ∨
          (¬ReadsWhole content new' ∧ getTruthy r.1 "eof" = true ∧ r.2.length < (content.drop offset).length)))
      (fun _ _ => True) := by
  refine (callNext_ends (by decide) [] (readParams path offset) h.read).mono (fun r s' h' => ?_)
    (fun _ _ _ => trivial)
  obtain ⟨hin, ⟨pre, e, ha⟩, herr⟩ := h'
  have hcmd : ∀ id fault st, (b.serve fault (requestText id (callMsg (py "fs.read") (readParams path offset)) []) [] st).2 =
      st := fun id fault st => (serve_read b id ho path fault st rfl).1
  have hpre : (agentAfter b.serve pre s.world.agent).fileAt path = some content := by
    rw [fileAt_congr (files_after hcmd pre _ fun f hf => (ha.earlier f hf).1), h.file]
  have hfile : s'.world.agent.fileAt path = some content := by
    rw [ha.agent, fileAt_congr (files_after hcmd _ _ ha.of_call), h.file]
  have hoff : e.offset = offset := offset_of_msg ha.of_msg rfl
  refine ⟨new ++ (pre ++ [e]), ⟨hin, hfile, by rw [ha.log, h.log, List.append_assoc]⟩, ?_⟩
  have hwhole : ReadsWhole content (new ++ (pre ++ [e])) ↔ e.ReadsWhole content := by
    constructor
    · intro hall
      exact hall e (by simp) ha.of_kind ha.replied.answered
    · intro he f hf hk hans
      rcases List.mem_append.1 hf with hf | hf
      · exact hnew f hf hk hans
      · rcases List.mem_append.1 hf with hf | hf
        · rw [(ha.earlier f hf).2 hk] at hans
          cases hans
        · rw [List.mem_singleton.1 hf]
          exact he
  rw [hwhole, Sent.ReadsWhole, hoff]
  obtain ⟨-, d, hl, hd | ⟨-, content', hcontent, hblob, heof⟩⟩ := serve_read b s'.world.id ho path e.fault
    (agentAfter b.serve pre s.world.agent) (r := b.serve e.fault e.text e.payload (agentAfter b.serve pre s.world.agent))
    (by rw [Sent.text, ha.of_msg, ha.of_payload, requestText])
  · have hdr := ha.replied.decodes
    rw [hl] at hdr
    cases hdr
    exact absurd herr hd
  · rw [hpre] at hcontent
    cases hcontent
    have hdr := ha.replied.decodes
    rw [hl] at hdr
    cases hdr
    have hgot : r.2 = (fread e.fault.read (content.drop offset) chunk).1 := ha.replied.blob.trans hblob
    have hmark : getTruthy r.1 "eof" = ((fread e.fault.read (content.drop offset) chunk).2 ||
        decide ((fread e.fault.read (content.drop offset) chunk).1.length < chunk)) := by
      rw [getTruthy, heof]
      rfl
    rw [hmark, hgot, ← List.length_drop]
    rcases fread_cases e.fault.read (content.drop offset) chunk with ⟨hw, mark, hf, hend⟩ | ⟨k, hk, hlt, hf⟩
    · refine Or.inl ⟨hw, ?_⟩
      simp only [hf, List.length_take]
      refine ⟨trivial, ?_⟩
      rw [Bool.eq_iff_iff, Bool.or_eq_true, decide_eq_true_eq, decide_eq_true_eq]
      exact ⟨fun h => h.elim hend (by omega), fun h => Or.inr (by omega)⟩
    · refine Or.inr ⟨fun hw => ?_, ?_⟩
      · have := hw k hk
        omega
      · simp only [hf, List.length_take, Bool.or_eq_true, decide_eq_true_eq]
        exact ⟨Or.inr (by omega), by omega⟩

theorem readLoop_ends {content : Bytes} (hcontent : content.length < 2 ^ 63) {log : List (Sent CardFault)} :
    ∀ (fuel offset : Nat) {s : Session} {new : List (Sent CardFault)}, offset ≤ content.length →
    content.length - offset < chunk * fuel → ReadProgress path content log s new → ReadsWhole content new →
    Ends (readLoop cfg hmacHex b scripts path fuel offset (content.take offset)) s
      (fun o s' => ∃ bytes new', o = some bytes ∧ ReadProgress path content log s' new' ∧
        (bytes = content ↔ ReadsWhole content new')) (fun _ _ => True)
  | 0, _, _, _, _, hfuel, _, _ => absurd hfuel (Nat.not_lt_zero _)
  | fuel + 1, offset, s, new, hle, hfuel, h, hnew => by
    rw [readLoop, Prog.ends_bind]
    refine (read_call (by omega) h hnew).mono (fun r s' h' => ?_) (fun _ _ h => h)
    obtain ⟨new', hread, ⟨hwhole, htake, heof⟩ | ⟨hpart, heof, hlt⟩⟩ := h'
    · have hjoin : content.take offset ++ r.2 = content.take (offset + chunk) := by rw [htake, List.take_add]
      rw [hjoin]
      by_cases hend : (content.drop offset).length < chunk
      · rw [List.length_drop] at hend
        rw [if_pos (by rw [heof, List.length_drop]; exact decide_eq_true hend), Prog.ends_pure,
          List.take_of_length_le (by omega)]
        exact ⟨content, new', rfl, hread, iff_of_true rfl hwhole⟩
      · rw [List.length_drop] at hend
        have hadvance : offset + r.2.length = offset + chunk := by
          rw [htake, List.length_take, List.length_drop]
          omega
        rw [if_neg (by rw [heof, List.length_drop, decide_eq_true_eq]; exact hend), hadvance]
        exact readLoop_ends hcontent fuel (offset + chunk) (by omega) (by rw [Nat.mul_succ] at hfuel; omega) hread hwhole
    · rw [if_pos heof, Prog.ends_pure]
      refine ⟨_, new', rfl, hread, iff_of_false (fun hall => ?_) hpart⟩
      have hlen := congrArg List.length hall
      rw [List.length_append, List.length_take] at hlen
      rw [List.length_drop] at hlt
      omega

/-- **`read_file` ends within a turn more than the file has whole chunks; when it returns, it returns the file exactly when
no read error came before the end of a chunk.** -/
theorem clientReadFile_iff (cfg : ClientConfig) (hmacHex : Bytes → Bytes → PyStr) (b : Build)
    (scripts : Nat → CallScript CardFault) (path : PyStr) {content : Bytes} (hcontent : content.length < 2 ^ 63)
    {s : Session} (hs : AllRead s.world) (hfile : s.world.agent.fileAt path = some content) {fuel : Nat}
    (hfuel : content.length / chunk < fuel) :
    Ends (clientReadFile cfg hmacHex b scripts fuel path) s
      (fun o s' => ∃ bytes new, o = some bytes ∧ s'.world.log = s.world.log ++ new ∧
        s'.world.agent.fileAt path = some content ∧ (bytes = content ↔ ReadsWhole content new))
      (fun _ _ => True) := by
  have hturns : content.length - 0 < chunk * fuel := by
    rw [Nat.div_lt_iff_lt_mul (by decide)] at hfuel
    rw [Nat.mul_comm]
    omega
  have h0 : ReadProgress path content s.world.log s [] := ⟨hs, hfile, (List.append_nil _).symm⟩
  refine (readLoop_ends hcontent fuel 0 (Nat.zero_le _) hturns h0 fun e he => (nomatch he)).mono (fun o s' h => ?_)
    (fun _ _ h => h)
  obtain ⟨bytes, new, ho, hread, hiff⟩ := h
  exact ⟨bytes, new, ho, hread.log, hread.file, hiff⟩

end

/-- A card with one file of two bytes. -/
def twoBytes : Files := noFiles.put (str "sdmc:/a") [65, 66]

/-- That file is read. -/
def readRun (r : ReadFault) : Except Raised (Option Bytes) × Session :=
  (clientReadFile sampleConfig noHash sampleBuild (sampleScripts (answeredWith r (storing chunk))) 1 samplePath).exec
    (sampleSession twoBytes)

/-- It is read without an error. -/
theorem clientReadFile_iff_whole : ReadsWhole [65, 66] (readRun .none).2.world.log := by
  have hout : (readRun .none).1 = .ok (some [65, 66]) := by decide +kernel
  rcases hrun : readRun .none with ⟨r, s'⟩
  rw [hrun] at hout
  subst hout
  have hlen : ([65, 66] : Bytes).length < 2 ^ 63 := by decide
  have hfile : (sampleSession twoBytes).world.agent.fileAt samplePath = some [65, 66] := by decide +kernel
  have hturns : ([65, 66] : Bytes).length / chunk < 1 := by decide
  obtain ⟨bytes, new, ho, hlog, -, hiff⟩ := (clientReadFile_iff sampleConfig noHash sampleBuild
    (sampleScripts (answeredWith .none (storing chunk))) samplePath hlen (sampleSession_allRead twoBytes) hfile
    hturns).ok hrun
  have hnew : s'.world.log = new := hlog
  rw [hnew]
  exact hiff.1 (Option.some.inj ho).symm

/-- **A read that fails after a byte is returned as the whole file.** -/
theorem read_error_shortens : (readRun ⟨true, some 1⟩).1 = .ok (some [65]) := by decide +kernel

end Agent
end SwitchMcp

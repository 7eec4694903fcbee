import SwitchMcp.Path
/-!
# Fs — listing, reading and writing files (agent/source/handlers/fs.cpp)

The card is a map from the paths C functions are given to the files they open (`Files`).  What stdio can do wrong in one
call is a fault the handler is run with: `fopen` may fail, `fread` may stop on an error, `fwrite` may store less than it
was given.
-/
namespace SwitchMcp
namespace Agent

open Json (Value)

/-- The files of the card, by the path they are opened with. -/
abbrev Files := Bytes → Option Bytes

def Files.put (fs : Files) (p : Bytes) (content : Bytes) : Files := Function.update fs p (some content)

@[simp] theorem Files.put_self (fs : Files) (p content : Bytes) : (fs.put p content) p = some content :=
  Function.update_self p _ fs

theorem Files.put_of_ne (fs : Files) {p q : Bytes} (content : Bytes) (h : q ≠ p) : (fs.put p content) q = fs q :=
  Function.update_of_ne h _ fs

/-- Where `fseek(f, offset, SEEK_SET)` leaves a file that was just opened: a negative offset is refused. -/
def seekPos (offset : Int64) : Nat := offset.toInt.toNat

/-! ## `FsList` -/

inductive DirType
  | dir | reg | other
deriving DecidableEq

structure Stat where
  isDir : Bool
  size : Int64
  mtime : Int64

structure Dirent where
  name : Bytes
  type : DirType

def entryType (stat : Bytes → Option Stat) (t : DirType) (full : Bytes) : Bytes :=
  match t with
  | .dir => str "dir"
  | .reg => str "file"
  | .other =>
    match stat (cStr full) with
    | some st => if st.isDir then str "dir" else str "file"
    | none => str "file"

/-- The entry of one name. -/
def listEntry (stat : Bytes → Option Stat) (dev : Bytes) (de : Dirent) : Value :=
  let full := dev ++ slash :: de.name
  let e := ((Value.object []).set (str "name") (.string de.name)).set (str "type") (.string (entryType stat de.type full))
  match stat (cStr full) with
  | some st => (e.set (str "size") (.int st.size)).set (str "mtime") (.int st.mtime)
  | none => e

def isDots (name : Bytes) : Bool := decide (name = str ".") || decide (name = str "..")

/-- `FsList`; `opendir` fails where it gives `none`. -/
def fsList (saveMounted : Bool) (opendir : Bytes → Option (List Dirent)) (stat : Bytes → Option Stat) (req : Request) :
    Bool × Reply :=
  match fsListPath saveMounted req with
  | .error r => (false, r)
  | .ok p =>
    match opendir (cStr p.dev) with
    | none => (false, fail "not_found" (str "cannot open directory"))
    | some des =>
      (true, ({} : Reply).set "entries" (.array ((des.filter (fun de => !isDots de.name)).map (listEntry stat p.dev))))

/-! ## `FsRead` -/

/-- What goes wrong in one `FsRead`: the file does not open, or reading fails after `k` bytes. -/
structure ReadFault where
  openRb : Bool
  readError : Option Nat
deriving DecidableEq

def ReadFault.none : ReadFault := ⟨true, .none⟩

/-- `fread` of `len` bytes from what is left of the file: what it got, and whether it set the end-of-file mark.  An error
after `k` bytes is met when the call asks for another one. -/
def fread (fault : ReadFault) (left : Bytes) (len : Nat) : Bytes × Bool :=
  match fault.readError with
  | some k => if k < len ∧ k ≤ left.length then (left.take k, false) else (left.take len, decide (left.length < len))
  | .none => (left.take len, decide (left.length < len))

def kChunk : Nat := 1 <<< 20

/-- The length a request asks for. -/
def readLen (req : Request) : Nat :=
  let len := ((req.get "len").asInt (Int64.ofNat kChunk)).toInt
  if len < 0 ∨ kChunk < len then kChunk else len.toNat

def fsRead (saveMounted : Bool) (fault : ReadFault) (fs : Files) (req : Request) : Bool × Reply :=
  match fsReadPath saveMounted req with
  | .error r => (false, r)
  | .ok p =>
    match (if fault.openRb then fs (cStr p.dev) else none) with
    | none => (false, fail "not_found" (str "cannot open file"))
    | some content =>
      let got := fread fault (content.drop (seekPos ((req.get "offset").asInt 0))) (readLen req)
      (true, { ({} : Reply).set "eof" (.bool (got.2 || decide (got.1.length < readLen req))) with out := got.1 })

/-! ## `FsWrite` -/

/-- What goes wrong in one `FsWrite`: `fopen` fails for one of the modes, `fwrite` reports fewer bytes than it was given,
and of those it reports fewer still reach the file. -/
structure WriteFault where
  openRw : Bool
  openWb : Bool
  written : Nat
  stored : Nat
deriving DecidableEq

/-- `data` written at `pos`: bytes before it that the file does not have read as zero. -/
def overwrite (content : Bytes) (pos : Nat) (data : Bytes) : Bytes :=
  if data = [] then content
  else (content ++ List.replicate (pos - content.length) 0).take pos ++ data ++ content.drop (pos + data.length)

/-- The file `fopen` hands back: `"wb"` at offset 0, `"r+b"` elsewhere, and `"wb"` again where that fails. -/
def openForWrite (fault : WriteFault) (offset : Int64) (file : Option Bytes) : Option Bytes :=
  if offset = 0 then (if fault.openWb then some [] else none)
  else
    match (if fault.openRw then file else none) with
    | some content => some content
    | none => if fault.openWb then some [] else none

def fsWrite (fault : WriteFault) (fs : Files) (req : Request) : (Bool × Reply) × Files :=
  match fsWritePath req with
  | .error r => ((false, r), fs)
  | .ok p =>
    let offset := (req.get "offset").asInt 0
    match openForWrite fault offset (fs (cStr p.dev)) with
    | none => ((false, fail "io_error" (str "cannot open file for writing")), fs)
    | some content =>
      let written := min fault.written req.payload.length
      let data := req.payload.take (min fault.stored written)
      ((true, ({} : Reply).set "written" (.int (Int64.ofNat written))),
        fs.put (cStr p.dev) (overwrite content (seekPos offset) data))

end Agent
end SwitchMcp

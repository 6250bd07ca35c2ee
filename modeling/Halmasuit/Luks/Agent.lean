import Halmasuit.Lib.Text

/-!
# Requests for a passphrase

Model of `halmasuit-luks/src/agent.rs`: the request files that systemd leaves in its directory, what
is read of one, and the scan for them. A file is known by its name in the directory, which is bytes;
`to_string_lossy` keeps the bytes of `ask.` and makes no others of them.

`parse_ok_iff` says which files are requests: those with a line for the `Socket`.
-/

namespace Halmasuit.Luks

open Lib.Text

/-- The name of a file in the directory. -/
abbrev Name := List UInt8

/-- `AskFile`. -/
structure AskFile where
  responseSocket : List Char
  message : List Char
  echo : Bool
  deriving DecidableEq

/-- What goes wrong with a file: it is not read, or it is not a request. -/
inductive AskError where
  | io
  | invalidData (message : String)
  deriving DecidableEq

/-- The text of the error of `AskFile::parse`. -/
def missingSocket : String := "ask-password file missing required `Socket=` field"

/-! ## `AskFile::parse` -/

/-- The variables of the loop. -/
structure Fields where
  socket : Option (List Char)
  message : List Char
  echo : Bool

/-- The key and the value of a line, if it has them. -/
def keyValue (line : List Char) : Option (List Char × List Char) :=
  let line := trim line
  if line.isEmpty || line.head? == some '[' || line.head? == some '#' then none
  else (splitOnce '=' line).map fun kv => (trim kv.1, trim kv.2)

/-- One line. -/
def parseLine (f : Fields) (line : List Char) : Fields :=
  match keyValue line with
  | none => f
  | some (key, value) =>
    if key = "Socket".toList then { f with socket := some value }
    else if key = "Message".toList then { f with message := value }
    else if key = "Echo".toList then
      { f with echo := decide (value ∈ ["1".toList, "yes".toList, "true".toList]) }
    else f

/-- `AskFile::parse`. -/
def AskFile.parse (body : List Char) : Except AskError AskFile :=
  let f := (lines body).foldl parseLine ⟨none, [], false⟩
  match f.socket with
  | none => .error (.invalidData missingSocket)
  | some responseSocket => .ok ⟨responseSocket, f.message, f.echo⟩

/-- The line is for the key. -/
def HasKey (key : String) (line : List Char) : Prop :=
  ∃ value, keyValue line = some (key.toList, value)

theorem parseLine_socket (f : Fields) (line : List Char) :
    (parseLine f line).socket.isSome = true ↔
      f.socket.isSome = true ∨ HasKey "Socket" line := by
  unfold parseLine HasKey
  cases h : keyValue line with
  | none => simp
  | some kv =>
    obtain ⟨key, value⟩ := kv
    dsimp only
    by_cases hs : key = "Socket".toList
    · simp [hs]
    · have hno : ¬ ∃ value', some (key, value) = some ("Socket".toList, value') := by
        rintro ⟨value', heq⟩
        exact hs (Prod.mk.inj (Option.some.inj heq)).1
      rw [or_iff_left hno, if_neg hs]
      split_ifs <;> rfl

theorem foldl_parseLine_socket (ls : List (List Char)) (f : Fields) :
    (ls.foldl parseLine f).socket.isSome = true ↔
      f.socket.isSome = true ∨ ∃ line ∈ ls, HasKey "Socket" line := by
  induction ls generalizing f with
  | nil => simp
  | cons line ls ih =>
    rw [List.foldl_cons, ih, parseLine_socket, or_assoc]
    simp only [List.mem_cons, exists_eq_or_imp]

/-- A file is a request if one of its lines is for the `Socket`. -/
theorem parse_ok_iff (body : List Char) :
    (∃ ask, AskFile.parse body = .ok ask) ↔ ∃ line ∈ lines body, HasKey "Socket" line := by
  have h := foldl_parseLine_socket (lines body) ⟨none, [], false⟩
  simp only [Option.isSome_none, Bool.false_eq_true, false_or] at h
  rw [← h, AskFile.parse]
  cases ((lines body).foldl parseLine ⟨none, [], false⟩).socket <;> simp

/-! ## The directory -/

/-- `read_dir`, with the names of the entries that could be read. -/
inductive ReadDir where
  | notFound
  | failed
  | entries (es : List (Option Name))

/-- What the agent finds outside at one time. -/
structure World where
  /-- `/etc/initrd-release` exists. -/
  initrdRelease : Bool
  readDir : ReadDir
  /-- `read_to_string`, which fails for a file that is not UTF-8. -/
  readToString : Name → Option (List Char)
  /-- `Path::exists`. -/
  present : Name → Bool

/-- `AskFile::read`. -/
def AskFile.read (w : World) (n : Name) : Except AskError AskFile :=
  match w.readToString n with
  | none => .error .io
  | some body => AskFile.parse body

/-- The name starts with `ask.`. -/
def isAsk (n : Name) : Bool := [0x61, 0x73, 0x6b, 0x2e].isPrefixOf n

/-- The loop of `outstanding_requests`. The first entry that cannot be read ends it. -/
def collect : List (Option Name) → Option (List Name)
  | [] => some []
  | none :: _ => none
  | some n :: es => (collect es).map fun ns => if isAsk n then n :: ns else ns

/-- `outstanding_requests`. -/
def outstandingRequests (w : World) : Option (List Name) :=
  match w.readDir with
  | .notFound => some []
  | .failed => none
  | .entries es => collect es

/-- The requests of a listing. -/
def asks (es : List (Option Name)) : List Name := (es.filterMap id).filter isAsk

/-- The requests that are listed, whether or not the scan gets to them. -/
def World.listed (w : World) : List Name :=
  match w.readDir with
  | .entries es => asks es
  | _ => []

/-- Every entry of the listing was read. -/
def World.wholeListing (w : World) : Prop := ∃ es, w.readDir = .entries es ∧ none ∉ es

/-- Without an error the scan finds what is listed, and otherwise nothing. -/
theorem collect_eq (es : List (Option Name)) :
    collect es = if none ∈ es then none else some (asks es) := by
  induction es with
  | nil => rfl
  | cons e es ih =>
    cases e with
    | none => simp [collect]
    | some n =>
      rw [collect, ih]
      by_cases h : none ∈ es
      · simp [h]
      · by_cases hn : isAsk n = true <;> simp [h, asks, hn]

end Halmasuit.Luks

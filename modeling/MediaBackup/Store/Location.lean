import MediaBackup.Store.Opening
import MediaBackup.Text.Quoted
import MediaBackup.Time.Duration

/-
  Where a database is.

  A location is written as a URL: the scheme `sqlite:`, a path with percent codes or the name of the
  memory, and parameters behind a question mark.  Opening a file that is not there makes it, in a
  directory that is.
-/

namespace MediaBackup

/-- How a database is reached. -/
structure DatabaseSettings where
  url : String
  minConnections : Nat
  maxConnections : Nat
  /-- How long a connection is waited for. -/
  acquireTimeout : Duration
  /-- How long a connection that nobody uses is kept; none for ever. -/
  idleTimeout : Option Duration
  /-- How long a writer waits for another one. -/
  busyTimeout : Duration

namespace DatabaseSettings

/-- A database in a file. -/
def atPath (path : String) : DatabaseSettings :=
  ⟨"sqlite:" ++ path, 1, 5, .ofSecs 30, some (.ofSecs 600), .ofSecs 5⟩

/-- A database in memory, where a single connection keeps it alive. -/
def inMemory : DatabaseSettings := ⟨"sqlite::memory:", 1, 1, .ofSecs 30, none, .ofSecs 5⟩

end DatabaseSettings

/-- Where a database is. -/
structure Location where
  /-- The path of the file. -/
  file : String
  /-- In memory, whatever the path. -/
  isMemory : Bool
  isReadOnly : Bool
  /-- Nobody changes the file. -/
  isFixed : Bool
  /-- The module that handles files. -/
  fileModule : Option String
deriving DecidableEq, Repr

namespace Location

/-- A text without a beginning, however often it is repeated. -/
def dropBeginning (p : List Char) (s : List Char) : List Char :=
  if p ≠ [] ∧ s ≠ [] ∧ p.isPrefixOf s then dropBeginning p (s.drop p.length) else s
termination_by s.length
decreasing_by
  rename_i h
  have := List.length_pos_iff.2 h.1
  have := List.length_pos_iff.2 h.2.1
  simp only [List.length_drop]
  omega

/-- The part of a query with `+` for blanks and percent codes. -/
def queryText (s : List Char) : String :=
  Text.showBytes (Url.percentDecode (s.map fun c => if c = '+' then ' ' else c))

/-- The parameters of a query by name. -/
def parameters (s : List Char) : List (String × String) :=
  ((Text.splitAll (· == '&') s).filter (!·.isEmpty)).map fun part =>
    (queryText (part.takeWhile (· != '=')), queryText ((part.dropWhile (· != '=')).drop 1))

/-- The fault of a value that a parameter cannot have. -/
def unknownValue (name value : String) : StoreFault :=
  .badLocation ("unknown value " ++ Text.quoted value ++ " for \x60" ++ name ++ "\x60")

/-- Applies a parameter. -/
def parameter (l : Location) (name value : String) : Except StoreFault Location :=
  match name with
  | "mode" => match value with
    | "ro" => .ok { l with isReadOnly := true }
    | "rw" | "rwc" => .ok l
    | "memory" => .ok { l with isMemory := true }
    | _ => .error (unknownValue name value)
  | "cache" => if value ∈ ["private", "shared"] then .ok l else .error (unknownValue name value)
  | "immutable" => match value with
    | "true" | "1" => .ok { l with isFixed := true }
    | "false" | "0" => .ok { l with isFixed := false }
    | _ => .error (unknownValue name value)
  | "vfs" => .ok { l with fileModule := some value }
  | _ => .error (.badLocation ("unknown query parameter \x60" ++ name ++ "\x60 while parsing connection URL"))

/-- Reads a location. -/
def ofUrl (url : String) : Except StoreFault Location := do
  let text := dropBeginning "//".toList (dropBeginning "sqlite:".toList url.toList)
  let place := text.takeWhile (· != '?')
  let bytes := Url.percentDecode place
  let l : Location := ⟨Text.showBytes bytes, place = ":memory:".toList, false, false, none⟩
  match Text.firstBreak 0 bytes with
  | some b => throw (.badLocation b.message)
  | none => (parameters ((text.dropWhile (· != '?')).drop 1)).foldlM (fun l (name, value) => l.parameter name value) l

/-- How the database at a location is opened.  A location with a module, or with a file that nobody
    changes, is handed on with its path in percent codes; any other path is handed on as it is, and may say
    more by itself. -/
def opening (l : Location) : Except StoreFault Opening :=
  let o : Opening :=
    { name := Text.encode (l.file.toList.takeWhile (· != '\x00'))
      rights := if l.isReadOnly then .reading else .making
      isMemory := l.isMemory
      isFixed := l.isFixed
      fileModule := (l.fileModule.map fun name => String.ofList (name.toList.takeWhile (· != '\x00'))).getD
        Opening.systemModule }
  if l.isFixed ∨ l.fileModule.isSome then .ok o
  else if l.file.contains '\x00' then .error .zeroInPath
  else if l.file = ":memory:" ∧ l.isMemory then .ok o
  else o.ofName l.file

/-- Opens the database at a location among the files below `top`. -/
def openIn (l : Location) (top : Files.Node) : Except StoreFault OpenDatabase := do (← l.opening).openIn top

end Location

end MediaBackup

import MediaBackup.Files.Tree
import MediaBackup.Store.FirstPage
import MediaBackup.Url.Percent

/-
  How the file of a database is opened.

  A file has a name, and what may be done with it.  A name that begins with `file:` says more: behind it
  stand a path with percent codes and, after a question mark, options.  What an option gives must not be
  more than was given already.  A database without a name, or in memory, has no file, and one of the
  modules for files keeps none.

  To open a database is to look at its first page and to have changes go to a log beside it, where there can
  be one.
-/

namespace MediaBackup

open Files

/-- What may be done with a file. -/
inductive Rights where
  | nothing
  | reading
  | writing
  /-- Writing, and making the file. -/
  | making
deriving DecidableEq, Repr

/-- How much may be done. -/
def Rights.rank : Rights → Nat
  | nothing => 0
  | reading => 1
  | writing => 2
  | making => 3

/-- How a database is opened. -/
structure Opening where
  name : List UInt8
  rights : Rights
  isMemory : Bool
  /-- Nobody changes the file. -/
  isFixed : Bool
  /-- The module that handles files. -/
  fileModule : String
deriving DecidableEq, Repr

/-- An open database. -/
structure OpenDatabase where
  /-- The files after it was opened. -/
  top : Node
  /-- Nothing of it outlives its connections. -/
  isFleeting : Bool
  /-- Why tables cannot be made in it. -/
  writeFault : Option StoreFault

namespace Opening

/-! ## Names that say more -/

/-- The bytes of a text with percent codes, up to a zero. -/
def plain (s : List Char) : List UInt8 := (Url.percentDecode s).takeWhile (· != 0)

/-- The options behind the question mark: names with values, of which those without a name do not count. -/
def options (query : List Char) : List (String × String) :=
  ((Text.splitAll (· == '&') query).map fun part =>
    (Text.showBytes (plain (part.takeWhile (· != '='))),
     Text.showBytes (plain ((part.dropWhile (· != '=')).drop 1)))).filter (·.1 != "")

/-- The module of the system. -/
def systemModule : String := "unix"

/-- The modules without a log beside the file, since their locks are nothing to others. -/
def simpleModules : List String := ["unix-none", "unix-dotfile"]

/-- The module that keeps files in memory. -/
def memoryModule : String := "memdb"

/-- The modules for files that there are. -/
def modules : List String := [systemModule, "unix-excl", memoryModule] ++ simpleModules

/-- Applies an option. -/
def withOption (o : Opening) (name value : String) : Except StoreFault Opening :=
  match name with
  | "vfs" => .ok { o with fileModule := value }
  | "cache" => if value ∈ ["private", "shared"] then .ok o else .error (.unknownMode "cache" value)
  | "mode" => do
    let (rights, isMemory) ← match value with
      | "ro" => pure (Rights.reading, false)
      | "rw" => pure (.writing, false)
      | "rwc" => pure (.making, false)
      | "memory" => pure (.nothing, true)
      | _ => throw (.unknownMode "access" value)
    if !o.isMemory && o.rights.rank < rights.rank then throw (.modeNotAllowed value)
    return { o with rights := rights, isMemory := isMemory }
  | _ => .ok o

/-- An option is on: a number other than zero in its last byte, or one of three words. -/
def isOn (value : String) : Bool :=
  let digits := value.toList.takeWhile Char.isDigit
  if digits.isEmpty then ["on", "yes", "true"].contains (Text.lowerAscii value)
  else
    let n := digits.foldl (fun n c => n * 10 + (c.toNat - '0'.toNat)) 0
    decide (n < Nat.pow 2 31) && n % 256 != 0

/-- What follows the host, which can only be this one. -/
def afterHost : List Char → Except StoreFault (List Char)
  | '/' :: '/' :: r =>
    let host := r.takeWhile (· != '/')
    if host = [] ∨ host = "localhost".toList then .ok (r.drop host.length)
    else .error (.unknownHost (String.ofList host))
  | s => .ok s

/-- Reads a name behind `file:`. -/
def extended (o : Opening) (s : List Char) : Except StoreFault Opening := do
  let s := (← afterHost s).takeWhile (· != '#')
  let given := options ((s.dropWhile (· != '?')).drop 1)
  let o ← given.foldlM (fun o (name, value) => o.withOption name value) o
  return { o with
    name := plain (s.takeWhile (· != '?'))
    isFixed := ((given.find? (·.1 == "immutable")).map fun (_, value) => isOn value).getD o.isFixed }

/-- The opening that a name stands for, if it is one that says more. -/
def ofName (o : Opening) (name : String) : Except StoreFault Opening :=
  match name.toList with
  | 'f' :: 'i' :: 'l' :: 'e' :: ':' :: s => o.extended s
  | s => .ok { o with name := Text.encode s }

/-! ## Opening -/

/-- There is no file. -/
def hasNoFile (o : Opening) : Bool :=
  o.isMemory || o.name.isEmpty || o.name == ":memory:".toUTF8.toList || o.fileModule == memoryModule

/-- A log can stand beside the file. -/
def takesLog (o : Opening) : Bool := o.isFixed || !simpleModules.contains o.fileModule

/-- A log is wanted beside the file. -/
def wantsLog (o : Opening) : Bool := !o.isFixed && !simpleModules.contains o.fileModule

/-- Nothing may be written. -/
def isReadOnly (o : Opening) : Bool := o.rights == .reading

/-- Looks at what a file holds: why nothing can be written, if it can be read. -/
def look (o : Opening) (p : FirstPage) : Except StoreFault (Option StoreFault) := do
  p.check o.takesLog
  if o.wantsLog && !p.hasLog && (o.isReadOnly || p.isClosed) then throw .readOnly
  if o.isReadOnly || o.isFixed then return some .readOnly
  match p.checkRoom with
  | .ok _ => return none
  | .error e => return some e

/-- Opens a database among the files below `top`. -/
def openIn (o : Opening) (top : Node) : Except StoreFault OpenDatabase := do
  if o.fileModule ∉ modules then throw (.unknownFileModule o.fileModule)
  if o.hasNoFile then return ⟨top, true, if o.isReadOnly then some .readOnly else none⟩
  let path := (Path.ofBytes o.name).normal
  let isOpenToFiles := match top.at? path.dropLast with
    | .ok (.dir readable _) => readable
    | _ => false
  match top.at? path with
  | .ok (.file bytes) =>
    let fault ← o.look ⟨bytes⟩
    if o.wantsLog && !isOpenToFiles then throw .cannotOpen
    return ⟨top, false, fault⟩
  | .ok .other =>
    -- a device, which shows no size and keeps nothing
    let fault ← o.look ⟨[]⟩
    if o.wantsLog then throw .notKept
    return ⟨top, false, fault⟩
  | .error .missing =>
    if o.rights = .making ∧ isOpenToFiles then return ⟨top.putFile path [], false, ← o.look ⟨[]⟩⟩
    else throw .cannotOpen
  | _ => throw .cannotOpen

end Opening

end MediaBackup

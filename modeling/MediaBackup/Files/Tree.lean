import MediaBackup.Text.Bytes

/-
  A tree of files, as a file system shows it.

  Names are BYTES: a file system allows any that are neither empty nor hold a slash or a zero, and
  promises nothing about text.  A path is a list of names, read from a directory downwards.
-/

namespace MediaBackup.Files

/-- The name of an entry in its directory. -/
abbrev Name := List UInt8

/-- Names to follow one after another. -/
abbrev Path := List Name

/-- What stands under a name. -/
inductive Node where
  | file (bytes : List UInt8)
  /-- A directory; one that is not readable cannot be listed, though what is in it can be opened. -/
  | dir (readable : Bool) (entries : List (Name × Node))
  /-- Neither: a link, a pipe, a socket. -/
  | other
deriving Inhabited

/-- Why a path leads nowhere, or what it leads to cannot be read. -/
inductive FileFault where
  | missing
  | noAccess
  | notDirectory
  | isDirectory
  | nameTooLong
  | noDevice
  | alreadyThere
  | zeroInName
deriving DecidableEq, Repr

/-- The fault in the words of the system. -/
def FileFault.message : FileFault → String
  | missing => "No such file or directory (os error 2)"
  | noAccess => "Permission denied (os error 13)"
  | notDirectory => "Not a directory (os error 20)"
  | isDirectory => "Is a directory (os error 21)"
  | alreadyThere => "File exists (os error 17)"
  | nameTooLong => "File name too long (os error 36)"
  | noDevice => "No such device or address (os error 6)"
  | zeroInName => "file name contained an unexpected NUL byte"

/-! ## Paths -/

/-- The name that stands for the directory itself. -/
def here : Name := [0x2E]

/-- The name that stands for the directory above. -/
def above : Name := [0x2E, 0x2E]

/-- The names between the slashes of a text. -/
def Path.ofText (s : String) : Path := (Text.splitAll (· == '/') s.toList).map Text.encode

/-- The names between the slashes of bytes. -/
def Path.ofBytes (bs : List UInt8) : Path := Text.splitAll (· == 0x2F) bs

/-- A path without names that lead nowhere: each that leads up takes the name before it away. -/
def Path.normal (p : Path) : Path :=
  (p.foldl (fun (trail : Path) name =>
    if name = [] ∨ name = here then trail
    else if name = above then trail.drop 1
    else name :: trail) []).reverse

/-- The directory in which a path ends. -/
def Path.parent (p : Path) : Path := (p.filter fun name => name != [] && name != here).dropLast

/-! ## Changing a tree -/

namespace Node

/-- An empty directory. -/
def empty : Node := .dir true []

/-- The entries of a directory. -/
def entries? : Node → Option (List (Name × Node))
  | dir _ entries => some entries
  | _ => none

/-- What stands under a name in a directory. -/
def child? (n : Node) (name : Name) : Option Node :=
  (n.entries?.getD []).lookup name

/-- Puts a node under a name of a directory in the place of what stood there, or takes that away.
    Anything else than a directory gives way to one, but only for a node to hold. -/
def setChild (n : Node) (name : Name) (child : Option Node) : Node :=
  match n, child with
  | .dir readable entries, some c => .dir readable (entries.filter (·.1 != name) ++ [(name, c)])
  | .dir readable entries, none => .dir readable (entries.filter (·.1 != name))
  | _, some c => .dir true [(name, c)]
  | n, none => n

/-- Changes what stands at a path.  Directories on the way that are missing are made, if there is
    anything to put into them. -/
def alter (f : Option Node → Option Node) : Path → Option Node → Option Node
  | [], n => f n
  | name :: path, n =>
    match n, alter f path (n.bind (·.child? name)) with
    | none, none => none
    | n, c => some ((n.getD empty).setChild name c)

/-- Puts a node at a path. -/
def put (n : Node) (path : Path) (child : Node) : Node := (alter (fun _ => some child) path.normal (some n)).getD n

/-- Puts a file at a path. -/
def putFile (n : Node) (path : Path) (bytes : List UInt8) : Node := n.put path (.file bytes)

/-- Sees to it that there is a directory at a path. -/
def putDir (n : Node) (path : Path) : Node :=
  (alter (fun old => some (match old with | some (.dir r es) => .dir r es | _ => empty))
    path.normal (some n)).getD n

/-- Takes away what stands at a path. -/
def erase (n : Node) (path : Path) : Node :=
  (alter (fun _ => none) path.normal (some n)).getD empty

end Node

/-! ## Following a path -/

/-- The most bytes a name can have. -/
def mostInName : Nat := 255

/-- The most bytes a path can have. -/
def mostInPath : Nat := 4095

/-- Follows one name.  `trail` is the way so far, the place last reached first. -/
def follow (trail : List Node) (name : Name) : Except FileFault (List Node) :=
  match trail with
  | [] => .error .missing
  | n :: up =>
    match n.entries? with
    | none => .error .notDirectory
    | some entries =>
      if name = [] ∨ name = here then .ok trail
      else if name = above then .ok (if up.isEmpty then trail else up)
      else if mostInName < name.length then .error .nameTooLong
      else match entries.lookup name with
        | some child => .ok (child :: trail)
        | none => .error .missing

/-- The bytes of a path, its names with slashes between them. -/
def Path.size (p : Path) : Nat := p.foldl (fun n name => n + name.length + 1) 0 - 1

/-- What a path leads to. -/
def Node.at? (top : Node) (path : Path) : Except FileFault Node := do
  if path.any (·.contains 0) then throw .zeroInName
  if mostInPath < path.size then throw .nameTooLong
  match ← path.foldlM follow [top] with
  | n :: _ => return n
  | [] => throw .missing

/-- Makes the directories of a path that are missing. -/
def Node.makeDirs (top : Node) (path : Path) : Except FileFault Node :=
  (List.range path.length).foldlM (fun top n =>
    let part := path.take (n + 1)
    match top.at? part with
    | .ok (.dir _ _) => .ok top
    | .ok _ => .error (if n + 1 = path.length then .alreadyThere else .notDirectory)
    | .error .missing => .ok (top.putDir part)
    | .error e => .error e) top

end MediaBackup.Files

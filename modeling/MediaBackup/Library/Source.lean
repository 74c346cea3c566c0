import MediaBackup.Library.Walk
import MediaBackup.Upload.Transfer

/-
  A media library that is a directory.

  The id of an item is its path from the directory, the names read as text and joined by slashes.
  The other way, each part of an id between slashes is read as a path and must say ONE step, down to
  a name; so a part that is empty, one dot or two dots leads nowhere, and no id leads out of the
  directory.
-/

namespace MediaBackup.Library

open Files

/-- The most bytes that one read of a file gives. -/
def mostInRead : Nat := 2 * 1024 * 1024

/-- What the file at the path of an id holds. -/
def fileContent (p : Written) (id : String) (bytes : List UInt8) : Content where
  fileName := (p.fileName?.map Text.showBytes).getD id
  mimeType := (p.fileName?.bind mediaType?).getD anyType
  length := some bytes.length
  bytes := bytes
  most := fun _ => mostInRead
  failure := none

/-- What the directory at the path of an id holds: nothing that can be read, and nothing worth counting. -/
def dirContent (p : Written) (id : String) : Content :=
  { fileContent p id [] with length := none, failure := some (0, FileFault.isDirectory.message) }

/-- A media library, by the path of its directory. -/
structure Source where
  root : String

namespace Source

/-- The path of the directory. -/
def path (s : Source) : Written := Text.encode s.root.toList

/-- The parts of an id between its slashes. -/
def parts (id : String) : List (List Char) := Text.splitAll (· == '/') id.toList

/-- A path and behind it what a part of an id says; none unless that is a name. -/
def descend (p : Written) (part : List Char) : Option Written :=
  match Written.steps (Text.encode part) with
  | [.down name] => some (p.joined name)
  | _ => none

/-- The path of an id; none if the id leads nowhere. -/
def resolve? (s : Source) (id : String) : Option Written := (parts id).foldlM descend s.path

/-- Begins a walk through the library. -/
def enumerate (s : Source) (top : Node) : Except HostError Cursor :=
  match top.find? s.path with
  | .error e => .error (.notAvailable ("media root " ++ s.root ++ " is not readable: " ++ e.message))
  | .ok (.dir readable entries) => .ok (.start ⟨s.path, readable, entries⟩)
  | .ok _ => .error (.notAvailable ("media root " ++ s.root ++ " is not a directory"))

/-- Opens the item of an id. -/
def openItem (s : Source) (top : Node) (id : String) : Except HostError Content :=
  match s.resolve? id with
  | none => .error (.notFound ("media id " ++ id ++ " does not name a file under the library root"))
  | some path =>
    match top.find? path with
    | .ok (.file bytes) => .ok (fileContent path id bytes)
    | .ok (.dir _ _) => .ok (dirContent path id)
    | .ok .other => .error (.device FileFault.noDevice.message)
    | .error .missing => .error (.notFound ("media item " ++ id ++ " no longer exists"))
    | .error e => .error (.device e.message)

end Source

end MediaBackup.Library

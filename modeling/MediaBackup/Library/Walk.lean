import MediaBackup.Error.Host
import MediaBackup.Files.Tree
import MediaBackup.Files.Written

/-
  The walk through a directory and all below it, to the files that are media.

  Media are the files whose name ends in a dot and a known extension, whatever the case of its letters.  A dot
  that starts the name starts no extension.

  A cursor holds ONE open listing and the directories found but not yet listed, the one found last
  first.  Each call of `next` goes on to the next media file; `rest` calls it to the end.  The walk
  ends because each step takes away from what is yet to be listed: an entry, or a directory in whose
  place its entries come.
-/

/-! ## Media -/

namespace MediaBackup.Library

open Files

/-- The known extensions and their media types. -/
def mediaTypes : List (String × String) :=
  [("jpg", "image/jpeg"), ("jpeg", "image/jpeg"), ("png", "image/png"), ("gif", "image/gif"),
   ("webp", "image/webp"), ("heic", "image/heic"), ("heif", "image/heif"),
   ("dng", "image/x-adobe-dng"), ("mp4", "video/mp4"), ("m4v", "video/x-m4v"),
   ("mov", "video/quicktime"), ("3gp", "video/3gpp"), ("webm", "video/webm"),
   ("mkv", "video/x-matroska")]

/-- The type of what may be anything. -/
def anyType : String := "application/octet-stream"

/-- What follows the last dot of a name; none if there is no dot but a first byte. -/
def extension? (name : Name) : Option (List UInt8) :=
  let ext := (name.reverse.takeWhile (· != 0x2E)).reverse
  let stem := name.length - ext.length - 1
  if name = above ∨ ext.length = name.length ∨ stem = 0 then none else some ext

/-- One ASCII letter in lower case; every other byte stays. -/
def lowerByte (b : UInt8) : UInt8 := if Text.within 0x41 0x5A b then b + 0x20 else b

/-- The media type of a file by its name; none if the file is no media. -/
def mediaType? (name : Name) : Option String := do
  let ext ← extension? name
  let (_, type) ← mediaTypes.find? fun (known, _) => Text.encode known.toList == ext.map lowerByte
  return type

/-! ## The walk -/

/-- A media file as a walk tells of it. -/
structure Found where
  id : String
  /-- The name shown. -/
  name : String
  mediaType : String
  /-- How many bytes it has. -/
  size : Nat
deriving DecidableEq, Repr

/-- The id of what is at a path: the steps behind the root read as text and joined by slashes.  The
    root itself has none, and neither has what is outside it. -/
def relativeId? (root p : Written) : Option String :=
  match root.behind? p with
  | none | some [] => none
  | some steps => some ("/".intercalate (steps.map fun step => Text.showBytes step.written))

/-- What a walk tells of a file; none if the file is no media. -/
def entry? (root p : Written) (size : Nat) : Option Found := do
  let name ← p.fileName?
  let type ← mediaType? name
  let id ← relativeId? root p
  return ⟨id, Text.showBytes name, type, size⟩

/-- A directory that is yet to be listed. -/
structure Folder where
  path : Written
  readable : Bool
  entries : List (Name × Node)

/-- Why a directory cannot be listed; none if it can. -/
def Folder.fault? (f : Folder) : Option FileFault :=
  if mostInPath < f.path.length then some .nameTooLong else if f.readable then none else some .noAccess

/-- Where a walk stands. -/
structure Cursor where
  /-- Where it began. -/
  root : Written
  /-- The directory being listed. -/
  path : Written
  /-- Its entries that are not read yet. -/
  listing : List (Name × Node)
  /-- The directories that are yet to be listed. -/
  pending : List Folder

namespace Cursor

/-- How much a cursor has yet to list. -/
noncomputable def weight (c : Cursor) : Nat :=
  sizeOf c.listing + c.pending.foldr (fun f n => sizeOf f.entries + 1 + n) 0

/-- The start of a walk. -/
def start (folder : Folder) : Cursor := ⟨folder.path, folder.path, [], [folder]⟩

/-- The next media file, and where the walk stands after it; none at the end.  A directory that
    cannot be listed is passed over, unless the walk began there. -/
def next (c : Cursor) : Except HostError (Option (Found × Cursor)) :=
  match c with
  | ⟨root, path, (name, .file bytes) :: listing, pending⟩ =>
    match entry? root (path.joined name) bytes.length with
    | some found => .ok (some (found, ⟨root, path, listing, pending⟩))
    | none => next ⟨root, path, listing, pending⟩
  | ⟨root, path, (name, .dir readable entries) :: listing, pending⟩ =>
    next ⟨root, path, listing, ⟨path.joined name, readable, entries⟩ :: pending⟩
  | ⟨root, path, (_, .other) :: listing, pending⟩ => next ⟨root, path, listing, pending⟩
  | ⟨_, _, [], []⟩ => .ok none
  | ⟨root, path, [], folder :: pending⟩ =>
    match folder.fault? with
    | none => next ⟨root, folder.path, folder.entries, pending⟩
    | some fault =>
      if folder.path.steps = root.steps then .error (.device fault.message)
      else next ⟨root, path, [], pending⟩
termination_by c.weight
decreasing_by
  all_goals simp only [weight, List.foldr_cons, List.cons.sizeOf_spec, Prod.mk.sizeOf_spec,
    Node.dir.sizeOf_spec, List.nil.sizeOf_spec]
  all_goals omega

theorem weight_lt_of_next (c : Cursor) :
    ∀ f d, c.next = .ok (some (f, d)) → d.weight < c.weight := by
  fun_induction next c with
  | case1 root path name bytes listing pending found _ =>
    intro f d e
    cases e
    simp only [weight, List.cons.sizeOf_spec]
    omega
  | case2 root path name bytes listing pending h ih =>
    intro f d e
    have := ih f d e
    simp only [weight, List.cons.sizeOf_spec] at this ⊢
    omega
  | case3 root path name readable entries listing pending ih =>
    intro f d e
    have := ih f d e
    simp only [weight, List.foldr_cons, List.cons.sizeOf_spec, Prod.mk.sizeOf_spec,
      Node.dir.sizeOf_spec] at this ⊢
    omega
  | case4 root path name listing pending ih =>
    intro f d e
    have := ih f d e
    simp only [weight, List.cons.sizeOf_spec] at this ⊢
    omega
  | case5 => intro f d e; cases e
  | case6 root path folder pending h ih =>
    intro f d e
    have := ih f d e
    simp only [weight, List.foldr_cons, List.nil.sizeOf_spec] at this ⊢
    omega
  | case7 => intro f d e; cases e
  | case8 root path folder pending fault h h' ih =>
    intro f d e
    have := ih f d e
    simp only [weight, List.foldr_cons] at this ⊢
    omega

/-- All media files that are left. -/
def rest (c : Cursor) : Except HostError (List Found) :=
  match _h : c.next with
  | .error e => .error e
  | .ok none => .ok []
  | .ok (some (f, d)) =>
    match d.rest with
    | .error e => .error e
    | .ok fs => .ok (f :: fs)
termination_by c.weight
decreasing_by exact weight_lt_of_next c f d _h

end Cursor

end MediaBackup.Library

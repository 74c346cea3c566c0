import MediaBackup.Files.Tree

/-
  A path as it is written.

  A written path is bytes.  What it says are its STEPS: names to go down to, and ways that are no names.  An empty part
  says nothing, and neither does one dot, unless a path that does not start at the top starts with it.
-/

namespace MediaBackup.Files

/-- The byte between the names of a path. -/
def slash : UInt8 := 0x2F

/-- A path as it is written. -/
abbrev Written := List UInt8

/-- What a part of a written path says. -/
inductive Step where
  /-- To start at the top of all directories. -/
  | top
  /-- To stay in the directory. -/
  | stay
  /-- To go to the directory above. -/
  | up
  /-- To go to what has this name. -/
  | down (name : Name)
deriving DecidableEq, Repr

namespace Step

/-- What a part says that has others before it; none if it says nothing. -/
def ofPart? (part : Name) : Option Step :=
  if part = [] ∨ part = here then none else if part = above then some up else some (down part)

/-- What the first part says, where `alone` tells that it is the only one. -/
def ofFirst? (alone : Bool) (part : Name) : Option Step :=
  if part = [] then (if alone then none else some top) else if part = here then some stay else ofPart? part

/-- A step as it is written. -/
def written : Step → Name
  | top => [slash]
  | stay => here
  | up => above
  | down name => name

end Step

namespace Written

/-- What a path says. -/
def steps (p : Written) : List Step :=
  match Path.ofBytes p with
  | [] => []
  | first :: parts => (Step.ofFirst? parts.isEmpty first).toList ++ parts.filterMap Step.ofPart?

/-- A path and another behind it.  One that starts at the top takes the place of all before it. -/
def joined (p q : Written) : Written :=
  if q.head? = some slash then q else if p.getLast?.all (· == slash) then p ++ q else p ++ slash :: q

/-- The name in which a path ends; none if it ends otherwise. -/
def fileName? (p : Written) : Option Name :=
  match p.steps.getLast? with
  | some (.down name) => some name
  | _ => none

/-- What a path says behind what a root says; none if it starts otherwise. -/
def behind? (root p : Written) : Option (List Step) :=
  if root.steps.isPrefixOf p.steps then some (p.steps.drop root.steps.length) else none

end Written

/-- What a written path leads to. -/
def Node.find? (top : Node) (p : Written) : Except FileFault Node := top.at? (Path.ofBytes p)

end MediaBackup.Files

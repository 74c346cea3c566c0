import MediaBackup.Store.Row

/-
  The table of items, and the statements that read and change it.

  An item is written when it is first seen and changed once, when it was acknowledged; the time of
  that is never before the time of its discovery.
-/

namespace MediaBackup

/-- The rows of the table of items, no two with one id. -/
abbrev ItemTable := List ItemRow

/-- The statements on the table of items. -/
inductive ItemStatement where
  /-- Adds an item unless it is known. -/
  | insertIfAbsent (id : String) (seen : Instant)
  /-- Writes the time of acknowledgement, if none is written. -/
  | mark (id : String) (time : Instant)
  | listPending
  | exists (id : String)
  | find (id : String)
  | count
deriving DecidableEq, Repr

/-- How many items there are, and how many were not acknowledged yet. -/
structure ItemCount where
  total : Nat
  pending : Nat
deriving DecidableEq, Repr, Inhabited

/-- How many items were acknowledged. -/
def ItemCount.uploaded (c : ItemCount) : Nat := c.total - c.pending

namespace ItemStatement

/-- What a statement answers. -/
abbrev Answer : ItemStatement → Type
  | insertIfAbsent _ _ => Bool
  | mark _ _ => Nat
  | listPending => List ItemRow
  | «exists» _ => Bool
  | find _ => Option ItemRow
  | count => ItemCount

end ItemStatement

namespace ItemRow

/-- The row is the one of an item that was not acknowledged yet. -/
def isMarkable (r : ItemRow) (id : String) : Bool := r.id == id && r.uploadedAt.isNone

/-- The row with the time of acknowledgement, moved to the discovery if it is before it. -/
def marked (r : ItemRow) (time : Instant) : ItemRow :=
  { r with uploadedAt := some (time.cell.greater r.discoveredAt) }

/-- The order in which pending items are handed out. -/
def pendingBefore (a b : ItemRow) : Bool :=
  match a.discoveredAt.order b.discoveredAt with
  | .lt => true
  | .gt => false
  | .eq => Text.le a.id b.id

end ItemRow

namespace ItemTable

/-- The row of an item. -/
def row? (t : ItemTable) (id : String) : Option ItemRow := t.find? (·.id == id)

/-- The rows by id. -/
def sorted (t : ItemTable) : List ItemRow := t.mergeSort fun a b => Text.le a.id b.id

/-- Puts a row in the place of the one of its id, or adds it. -/
def put (t : ItemTable) (r : ItemRow) : ItemTable := t.filter (·.id != r.id) ++ [r]

end ItemTable

namespace ItemStatement

/-- What a statement does. -/
def run : (s : ItemStatement) → ItemTable → s.Answer × ItemTable
  | insertIfAbsent id seen, t =>
    if t.any (·.id == id) then (false, t) else (true, t ++ [⟨id, seen.cell, none⟩])
  | mark id time, t =>
    (t.countP (·.isMarkable id), t.map fun r => if r.isMarkable id then r.marked time else r)
  | listPending, t => ((t.filter (·.uploadedAt.isNone)).mergeSort ItemRow.pendingBefore, t)
  | «exists» id, t => (t.any (·.id == id), t)
  | find id, t => (ItemTable.row? t id, t)
  | count, t => (⟨t.length, t.countP (·.uploadedAt.isNone)⟩, t)

end ItemStatement

end MediaBackup

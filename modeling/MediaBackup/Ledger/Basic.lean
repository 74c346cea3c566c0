import MediaBackup.Engine.Call

/-
  The ledger of items: which were seen, and which were acknowledged.

  A scan looks through the library for items.  Each is written down as it is listed, so a listing that fails
  on the way leaves what came before.
-/

namespace MediaBackup

/-- What a scan came upon. -/
structure ScanReport where
  seen : Nat
  discovered : Nat
deriving DecidableEq, Repr, Inhabited

namespace Ledger

/-- Writes down an item; tells whether it is new. -/
def discover (id : String) (time : Instant) : Engine Bool := Engine.items (.insertIfAbsent id time)

/-- Writes down that an item was acknowledged.  The first time stays; an unknown item is left out. -/
def markUploaded (id : String) (time : Instant) : Engine Unit := do
  let changed ← Engine.items (.mark id time)
  if changed = 0 then
    let _ ← Engine.items (.exists id)

/-- The item of a row, or the error of a row that holds none. -/
def itemOf (r : ItemRow) : Except SyncError Item :=
  match r.item with
  | .ok i => .ok i
  | .error fault => .error (.corrupt r.id fault.message)

/-- The items of rows.  A row that cannot be read is left out; with `reports` it is told. -/
def readRows (reports : Bool) : List ItemRow → Engine (List Item)
  | [] => pure []
  | r :: rows => do
    match r.item with
    | .ok i => return i :: (← readRows reports rows)
    | .error fault =>
      if reports then Engine.emit (.ledgerCorrupted ("item:" ++ r.id) fault.message)
      readRows reports rows

/-- The items that were not acknowledged yet, in the order of their discovery. -/
def pending (reports : Bool) : Engine (List Item) := do
  readRows reports (← Engine.items .listPending)

/-- The item is known. -/
def contains (id : String) : Engine Bool := Engine.items (.exists id)

/-- An item, if it is known. -/
def get (id : String) : Engine (Option Item) := do
  match ← Engine.items (.find id) with
  | none => pure none
  | some r => some <$> Engine.ofExcept (itemOf r)

/-- How many items there are. -/
def stats : Engine ItemCount := Engine.items .count

/-! ## Scans -/

/-- Writes down the listed items. -/
def discoverAll : List String → ScanReport → Engine ScanReport
  | [], r => pure r
  | id :: ids, r => do
    let new ← discover id (← Engine.now)
    discoverAll ids ⟨r.seen + 1, if new then r.discovered + 1 else r.discovered⟩

/-- Lists the library and writes down every item. -/
def scan : Engine ScanReport := do
  match ← Engine.ofReply (← Engine.call .list) with
  | .error e => Engine.fail (.sourceUnavailable e.message)
  | .ok listing =>
    let report ← discoverAll listing.ids ⟨0, 0⟩
    match listing.failure with
    | some e => Engine.fail (.sourceUnavailable e.message)
    | none => pure report

end Ledger

end MediaBackup

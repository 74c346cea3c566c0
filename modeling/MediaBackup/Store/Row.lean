import MediaBackup.Job.Basic
import MediaBackup.Job.Constraints
import MediaBackup.Store.Cell

/-
  Rows of the two tables, and what they say.

  A row may hold what no job or item can be.  Reading it gives the job or item, or the FIRST thing
  that is wrong with it, column by column in a fixed order.
-/

namespace MediaBackup

/-- A row of the table of jobs. -/
structure JobRow where
  key : String
  state : String
  attempt : Cell
  nextRunAt : Cell
  constraintSpec : String
  lastError : Option String
  abandonReason : Option String
  createdAt : Cell
  updatedAt : Cell
deriving DecidableEq, Repr, Inhabited

/-- A row of the table of items. -/
structure ItemRow where
  id : String
  discoveredAt : Cell
  uploadedAt : Option Cell
deriving DecidableEq, Repr, Inhabited

/-- An item of the library. -/
structure Item where
  id : String
  discoveredAt : Instant
  uploadedAt : Option Instant
deriving DecidableEq, Repr, Inhabited

/-- The item was not acknowledged yet. -/
def Item.isPending (i : Item) : Bool := i.uploadedAt.isNone

/-- What is wrong with a row. -/
inductive RowFault where
  | key (text : String)
  | state (text : String)
  | abandonReason (text : String)
  | constraintSpec (fault : Json.Fault)
  /-- A cell that is no whole number. -/
  | wrongType (column : String) (optional : Bool) (found : String)
  /-- A whole number that stands for nothing. -/
  | outOfRange (column : String) (value : Int)
deriving DecidableEq, Repr

/-- The fault in words. -/
def RowFault.message : RowFault → String
  | key s => (SyncError.invalidKey s).message
  | state s => (SyncError.invalidState s).message
  | abandonReason s => (SyncError.invalidState ("abandon reason " ++ s)).message
  | constraintSpec fault => "constraint_spec: " ++ fault.message
  | wrongType column optional found =>
    column ++ ": error occurred while decoding column " ++ Text.quoted column ++
      ": mismatched types; Rust type `" ++ (if optional then "core::option::Option<i64>" else "i64") ++
      "` (as SQL type `INTEGER`) is not compatible with SQL type `" ++ found ++ "`"
  | outOfRange column value => column ++ " out of range: " ++ toString value

/-- A cell as a whole number. -/
def Cell.whole (column : String) (optional : Bool) : Cell → Except RowFault Int
  | int n => .ok n
  | c => .error (.wrongType column optional c.typeName)

/-- A cell as a point in time. -/
def Cell.instant (column : String) (optional : Bool) (c : Cell) : Except RowFault Instant := do
  let n ← c.whole column optional
  match Instant.ofMillis? n with
  | some t => pure t
  | none => throw (.outOfRange column n)

/-- A point in time as a cell. -/
def Instant.cell (t : Instant) : Cell := .int t.millis

namespace JobRow

/-- The job of a row. -/
def job (r : JobRow) : Except RowFault Job := do
  let key ← match JobKey.parse? r.key with
    | some k => pure k
    | none => throw (.key r.key)
  let state ← match JobState.ofStored? r.state with
    | some s => pure s
    | none => throw (.state r.state)
  let n ← r.attempt.whole "attempt" false
  if n < 0 ∨ UInt32.size ≤ n then throw (.outOfRange "attempt" n)
  let constraints ← match Constraints.ofText r.constraintSpec with
    | .ok c => pure c
    | .error fault => throw (.constraintSpec fault)
  let abandonReason ← match r.abandonReason with
    | none => pure none
    | some s => match AbandonReason.parse? s with
      | some reason => pure (some reason)
      | none => throw (.abandonReason s)
  let nextRunAt ← r.nextRunAt.instant "next_run_at" false
  let createdAt ← r.createdAt.instant "created_at" false
  let updatedAt ← r.updatedAt.instant "updated_at" false
  pure {
    key := key, state := state, attempt := n.toNat, constraints := constraints, nextRunAt := nextRunAt
    lastError := r.lastError, abandonReason := abandonReason, createdAt := createdAt, updatedAt := updatedAt }

/-- The row of a job. -/
def ofJob (j : Job) : JobRow where
  key := j.key.text
  state := j.state.name
  attempt := .int j.attempt
  nextRunAt := j.nextRunAt.cell
  constraintSpec := j.constraints.text
  lastError := j.lastError
  abandonReason := j.abandonReason.map AbandonReason.name
  createdAt := j.createdAt.cell
  updatedAt := j.updatedAt.cell

end JobRow

/-- The item of a row. -/
def ItemRow.item (r : ItemRow) : Except RowFault Item := do
  let discoveredAt ← r.discoveredAt.instant "discovered_at" false
  let uploadedAt ← match r.uploadedAt with
    | none => pure none
    | some c => some <$> c.instant "uploaded_at" true
  pure ⟨r.id, discoveredAt, uploadedAt⟩

/-- A row as the queue sees it: a job, or a key and what is wrong with its row. -/
inductive Decoded where
  | valid (job : Job)
  | corrupt (key : String) (reason : RowFault)
deriving Repr

/-- What the queue sees of a row. -/
def JobRow.decode (r : JobRow) : Decoded :=
  match r.job with
  | .ok j => .valid j
  | .error fault => .corrupt r.key fault

/-- The job, or the error of a row that holds none. -/
def Decoded.toJob : Decoded → Except SyncError Job
  | valid j => .ok j
  | corrupt key reason => .error (.corrupt key reason.message)

end MediaBackup

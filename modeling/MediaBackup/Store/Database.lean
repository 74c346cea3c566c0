import MediaBackup.Error.Store
import MediaBackup.Store.Items
import MediaBackup.Store.Jobs

/-
  The database: the two tables, each of which may be missing, and whether it is open.

  Rows can also be put in as they are, past everything that the engine makes sure of; columns then
  bend the values or refuse them.
-/

namespace MediaBackup

/-- The database. -/
structure Database where
  jobs : Option JobTable
  items : Option ItemTable
  isOpen : Bool
deriving Repr, Inhabited

namespace Database

/-- An open database with empty tables. -/
def empty : Database := ⟨some [], some [], true⟩

/-- Puts in the tables that are missing. -/
def withTables (d : Database) : Database :=
  { d with jobs := some (d.jobs.getD []), items := some (d.items.getD []) }

/-- The failure of every statement on a closed database, or of one on a missing table. -/
def reach {α : Type} (d : Database) (name : String) (table : Option α) : Except StoreFault α :=
  if !d.isOpen then .error .closed
  else match table with
    | some t => .ok t
    | none => .error (.missingTable name)

/-- Runs a statement on the table of jobs. -/
def runJobs (d : Database) (s : JobStatement) : Except StoreFault s.Answer × Database :=
  match d.reach "jobs" d.jobs with
  | .ok t => (.ok (s.run t).1, { d with jobs := some (s.run t).2 })
  | .error fault => (.error fault, d)

/-- Runs a statement on the table of items. -/
def runItems (d : Database) (s : ItemStatement) : Except StoreFault s.Answer × Database :=
  match d.reach "items" d.items with
  | .ok t => (.ok (s.run t).1, { d with items := some (s.run t).2 })
  | .error fault => (.error fault, d)

/-- Puts a row into the table of jobs, in the place of the one of its key. -/
def putJob (d : Database) (r : Except StoreFault JobRow) : Except StoreFault Database := do
  let t ← d.reach "jobs" d.jobs
  return { d with jobs := some (JobTable.put t (← r)) }

/-- Puts a row into the table of items, in the place of the one of its id. -/
def putItem (d : Database) (r : Except StoreFault ItemRow) : Except StoreFault Database := do
  let t ← d.reach "items" d.items
  return { d with items := some (ItemTable.put t (← r)) }

/-- The rows of the table of jobs by key. -/
def jobRows (d : Database) : Except StoreFault (List JobRow) :=
  JobTable.sorted <$> d.reach "jobs" d.jobs

/-- The rows of the table of items by id. -/
def itemRows (d : Database) : Except StoreFault (List ItemRow) :=
  ItemTable.sorted <$> d.reach "items" d.items

/-- Takes the table of jobs away. -/
def dropJobs (d : Database) : Except StoreFault Database := do
  let _ ← d.reach "jobs" d.jobs
  return { d with jobs := none }

/-- Takes the table of items away. -/
def dropItems (d : Database) : Except StoreFault Database := do
  let _ ← d.reach "items" d.items
  return { d with items := none }

/-- Counts an attempt at a job that nobody made. -/
def countAttempt (d : Database) (key : String) : Database :=
  let more (r : JobRow) : JobRow := { r with attempt := r.attempt.plusOne }
  { d with jobs := d.jobs.map fun t => JobTable.mapWhere t (·.key == key) more }

end Database

/-- A row of the table of jobs before its columns bend it. -/
structure RawJob where
  key : RawValue
  state : RawValue
  attempt : RawValue
  nextRunAt : RawValue
  constraintSpec : RawValue
  lastError : RawValue
  abandonReason : RawValue
  createdAt : RawValue
  updatedAt : RawValue

/-- A row of the table of items before its columns bend it. -/
structure RawItem where
  id : RawValue
  discoveredAt : RawValue
  uploadedAt : RawValue

/-- The value of a column that needs one. -/
def needed {α : Type} (table column : String) : Option α → Except StoreFault α
  | some a => .ok a
  | none => .error (.missingValue table column)

/-- The row that the columns make of a raw one.  A job without a count of attempts had none. -/
def RawJob.row (r : RawJob) : Except StoreFault JobRow := do
  let key ← needed "jobs" "key" r.key.asText
  let state ← needed "jobs" "state" r.state.asText
  let nextRunAt ← needed "jobs" "next_run_at" r.nextRunAt.asCell
  let constraintSpec ← needed "jobs" "constraint_spec" r.constraintSpec.asText
  let createdAt ← needed "jobs" "created_at" r.createdAt.asCell
  let updatedAt ← needed "jobs" "updated_at" r.updatedAt.asCell
  pure {
    key := key, state := state, attempt := r.attempt.asCell.getD (.int 0), nextRunAt := nextRunAt
    constraintSpec := constraintSpec, lastError := r.lastError.asText
    abandonReason := r.abandonReason.asText, createdAt := createdAt, updatedAt := updatedAt }

/-- The row that the columns make of a raw one. -/
def RawItem.row (r : RawItem) : Except StoreFault ItemRow := do
  let id ← needed "items" "id" r.id.asText
  let discoveredAt ← needed "items" "discovered_at" r.discoveredAt.asCell
  pure ⟨id, discoveredAt, r.uploadedAt.asCell⟩

end MediaBackup

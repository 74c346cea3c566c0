import MediaBackup.Store.Row

/-
  The table of jobs, and the statements that read and change it.

  Every statement is one atomic step on the table: a writer that read a row earlier changes it only if
  it is still the row that was read, as far as the statement compares.  `replaceIf` compares state,
  attempt and abandon reason; `updateIf` compares state and attempt.
-/

namespace MediaBackup

/-- The rows of the table of jobs, no two with one key. -/
abbrev JobTable := List JobRow

/-- What a job becomes: its other columns stay. -/
structure Change where
  state : JobState
  attempt : Nat
  nextRunAt : Instant
  lastError : Option String
  abandonReason : Option AbandonReason
  updatedAt : Instant
deriving DecidableEq, Repr, Inhabited

/-- The statements on the table of jobs. -/
inductive JobStatement where
  /-- Adds the row of a job unless its key has one. -/
  | insertIfAbsent (job : Job)
  /-- Puts `job` in the place of `observed`. -/
  | replaceIf (job observed : Job)
  /-- Changes the row of `observed`. -/
  | updateIf (observed : Job) (change : Change)
  | find (key : String)
  /-- The rows that are due at `now`, and those in no known state. -/
  | listDue (now : Instant)
  /-- Gives up a row that cannot be read. -/
  | quarantine (key reason : String) (now : Instant)
  /-- Queues the jobs whose wait is over at `now`. -/
  | promote (now : Instant)
  /-- Queues the jobs that were running. -/
  | resetRunning (now : Instant)
  | count (state : JobState)
  /-- Deletes the rows of jobs that were over before `limit`, tombstones of uploads apart. -/
  | deleteTerminal (limit : Instant)

namespace JobStatement

/-- What a statement answers. -/
abbrev Answer : JobStatement → Type
  | insertIfAbsent _ | replaceIf _ _ | updateIf _ _ => Bool
  | find _ => Option Decoded
  | listDue _ => List Decoded
  | quarantine _ _ _ => Unit
  | promote _ | resetRunning _ | count _ | deleteTerminal _ => Nat

end JobStatement

namespace JobRow

/-- The row is still the one of `observed`, as far as replacing compares. -/
def isObserved (r : JobRow) (observed : Job) : Bool :=
  r.key == observed.key.text && r.state == observed.state.name && r.attempt == .int observed.attempt &&
    r.abandonReason == observed.abandonReason.map AbandonReason.name

/-- The row is still the one of `observed`, as far as changing compares. -/
def isCurrent (r : JobRow) (observed : Job) : Bool :=
  r.key == observed.key.text && r.state == observed.state.name && r.attempt == .int observed.attempt

/-- The row after a change. -/
def apply (r : JobRow) (c : Change) : JobRow :=
  { r with
    state := c.state.name
    attempt := .int c.attempt
    nextRunAt := c.nextRunAt.cell
    lastError := c.lastError
    abandonReason := c.abandonReason.map AbandonReason.name
    updatedAt := c.updatedAt.cell }

/-- The row is due at `now`, or in no known state. -/
def isDue (r : JobRow) (now : Instant) : Bool :=
  (r.state == "queued" && r.nextRunAt.le now.cell) ||
    !(["queued", "running", "retrying", "succeeded", "abandoned"].contains r.state)

/-- The row given up for what is wrong with it. -/
def quarantined (r : JobRow) (reason : String) (now : Instant) : JobRow :=
  { r with
    state := "abandoned"
    attempt := .int 0
    nextRunAt := now.cell
    constraintSpec := "\x7b\x7d"
    lastError := some ("corrupt job row: " ++ reason)
    abandonReason := some "exhausted"
    createdAt := now.cell
    updatedAt := now.cell }

/-- The row waits for a further attempt, and its wait is over. -/
def isPromotable (r : JobRow) (now : Instant) : Bool := r.state == "retrying" && r.nextRunAt.le now.cell

/-- The row, queued. -/
def promoted (r : JobRow) (now : Instant) : JobRow := { r with state := "queued", updatedAt := now.cell }

/-- The row, queued and due at once. -/
def reset (r : JobRow) (now : Instant) : JobRow :=
  { r with state := "queued", nextRunAt := now.cell, updatedAt := now.cell }

/-- The key is one of an upload, whatever the case of its ASCII letters. -/
def looksLikeUpload (key : String) : Bool :=
  JobKey.uploadTag.toList.isPrefixOf ((key.toList).map Text.lowerAsciiChar)

/-- The row is that of a job that was over before `limit`, and no tombstone. -/
def isPrunable (r : JobRow) (limit : Instant) : Bool :=
  r.updatedAt.lt limit.cell &&
    (r.state == "succeeded" ||
      (r.state == "abandoned" && (r.abandonReason != some "permanent" || !looksLikeUpload r.key)))

/-- The order in which due rows are handed out. -/
def dueBefore (a b : JobRow) : Bool :=
  match a.nextRunAt.order b.nextRunAt with
  | .lt => true
  | .gt => false
  | .eq => Text.le a.key b.key

end JobRow

namespace JobTable

/-- The row of a key. -/
def row? (t : JobTable) (key : String) : Option JobRow := t.find? (·.key == key)

/-- Changes the rows that satisfy `p`. -/
def mapWhere (t : JobTable) (p : JobRow → Bool) (f : JobRow → JobRow) : JobTable :=
  t.map fun r => if p r then f r else r

/-- The rows by key. -/
def sorted (t : JobTable) : List JobRow := t.mergeSort fun a b => Text.le a.key b.key

/-- Puts a row in the place of the one of its key, or adds it. -/
def put (t : JobTable) (r : JobRow) : JobTable := t.filter (·.key != r.key) ++ [r]

end JobTable

namespace JobStatement

/-- What a statement does. -/
def run : (s : JobStatement) → JobTable → s.Answer × JobTable
  | insertIfAbsent job, t =>
    if t.any (·.key == job.key.text) then (false, t) else (true, t ++ [JobRow.ofJob job])
  | replaceIf job observed, t =>
    (t.any fun r => r.key == job.key.text && r.isObserved { observed with key := job.key },
      JobTable.mapWhere t (fun r => r.isObserved { observed with key := job.key }) fun _ => JobRow.ofJob job)
  | updateIf observed change, t =>
    (t.any (·.isCurrent observed), JobTable.mapWhere t (·.isCurrent observed) (·.apply change))
  | find key, t => ((JobTable.row? t key).map JobRow.decode, t)
  | listDue now, t => (((t.filter (·.isDue now)).mergeSort JobRow.dueBefore).map JobRow.decode, t)
  | quarantine key reason now, t =>
    ((), JobTable.mapWhere t (·.key == key) (·.quarantined reason now))
  | promote now, t =>
    (t.countP (·.isPromotable now), JobTable.mapWhere t (·.isPromotable now) (·.promoted now))
  | resetRunning now, t =>
    (t.countP (·.state == "running"), JobTable.mapWhere t (·.state == "running") (·.reset now))
  | count state, t => (t.countP (·.state == state.name), t)
  | deleteTerminal limit, t => (t.countP (·.isPrunable limit), t.filter fun r => !r.isPrunable limit)

end JobStatement

end MediaBackup

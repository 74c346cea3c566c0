/-
  The states of a job, and which follows which.

  A job waits (`queued`), runs, and then has succeeded, waits for another attempt (`retrying`) or is
  given up (`abandoned`).  Interrupted, retried and finished jobs can be queued again.  The state
  `failed` is known by name but no row may hold it.
-/

namespace MediaBackup

/-- Where a job stands. -/
inductive JobState where
  | queued
  | running
  | succeeded
  | failed
  | retrying
  | abandoned
deriving DecidableEq, Repr, Inhabited

namespace JobState

/-- The name of a state. -/
def name : JobState → String
  | queued => "queued"
  | running => "running"
  | succeeded => "succeeded"
  | failed => "failed"
  | retrying => "retrying"
  | abandoned => "abandoned"

/-- The state of a name. -/
def parse? : String → Option JobState
  | "queued" => some queued
  | "running" => some running
  | "succeeded" => some succeeded
  | "failed" => some failed
  | "retrying" => some retrying
  | "abandoned" => some abandoned
  | _ => none

/-- A row may hold every state but `failed`. -/
def isStorable (s : JobState) : Bool := s != failed

/-- The state that a row's text stands for. -/
def ofStored? (s : String) : Option JobState := (parse? s).filter isStorable

/-- The job will still be looked at. -/
def isActive : JobState → Bool
  | queued | running | retrying => true
  | _ => false

/-- The job is over. -/
def isTerminal : JobState → Bool
  | succeeded | abandoned => true
  | _ => false

/-- `t` may follow `s`. -/
def canBecome (s t : JobState) : Bool :=
  match s, t with
  | queued, running | queued, queued => true
  | running, succeeded | running, retrying | running, abandoned | running, queued => true
  | retrying, queued => true
  | succeeded, queued => true
  | abandoned, queued => true
  | _, _ => false

theorem parse?_name (s : JobState) : parse? s.name = some s := by
  cases s <;> rfl

end JobState

/-- Why a job was given up. -/
inductive AbandonReason where
  /-- No attempt was left. -/
  | exhausted
  /-- Another attempt would fail too. -/
  | permanent
deriving DecidableEq, Repr, Inhabited

namespace AbandonReason

/-- The name of a reason. -/
def name : AbandonReason → String
  | exhausted => "exhausted"
  | permanent => "permanent"

/-- The reason of a name. -/
def parse? : String → Option AbandonReason
  | "exhausted" => some exhausted
  | "permanent" => some permanent
  | _ => none

theorem parse?_name (r : AbandonReason) : parse? r.name = some r := by
  cases r <;> rfl

end AbandonReason

end MediaBackup

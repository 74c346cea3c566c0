import MediaBackup.Error.Host
import MediaBackup.Error.Store
import MediaBackup.Error.Setting
import MediaBackup.Job.State
import MediaBackup.Job.Key

/-
  What can go wrong in the engine, and how a failed task is named.
-/

namespace MediaBackup

/-- A change of state that was refused. -/
inductive TransitionFault where
  /-- The one state never follows the other. -/
  | notAllowed (source target : JobState)
  /-- The row was no longer the one that was run. -/
  | changedWhileRunning (source target : JobState)
  /-- Every one of `rounds` tries to queue lost to another writer. -/
  | contended (key : JobKey) (rounds : Nat)
  /-- The engine was started before. -/
  | startedTwice
  /-- In the words given. -/
  | stated (source target reason : String)
deriving DecidableEq, Repr

namespace TransitionFault

/-- What was there. -/
def source : TransitionFault → String
  | notAllowed s _ | changedWhileRunning s _ => s.name
  | contended _ _ => "unknown"
  | startedTwice => "started"
  | stated s _ _ => s

/-- What was asked for. -/
def target : TransitionFault → String
  | notAllowed _ t | changedWhileRunning _ t => t.name
  | contended _ _ => JobState.queued.name
  | startedTwice => "started"
  | stated _ t _ => t

/-- Why it was refused. -/
def reason : TransitionFault → String
  | notAllowed s t => "Cannot transition from " ++ s.name ++ " to " ++ t.name
  | changedWhileRunning _ _ => "job row changed while running"
  | contended key rounds => key.text ++ " changed concurrently " ++ toString rounds ++ " times"
  | startedTwice => "Scheduler::start may only be called once"
  | stated _ _ r => r

end TransitionFault

/-- The kinds of failure of a task. -/
inductive FailureKind where
  | sourceUnavailable
  | itemGone
  | transientNetwork
  | timeout
  | remoteRejected
  | ledgerCorruption
  | internal
deriving DecidableEq, Repr, Inhabited

namespace FailureKind

/-- The name of a kind. -/
def name : FailureKind → String
  | sourceUnavailable => "source_unavailable"
  | itemGone => "item_gone"
  | transientNetwork => "transient_network"
  | timeout => "timeout"
  | remoteRejected => "remote_rejected"
  | ledgerCorruption => "ledger_corruption"
  | internal => "internal"

/-- The kind of a name. -/
def parse? : String → Option FailureKind
  | "source_unavailable" => some sourceUnavailable
  | "item_gone" => some itemGone
  | "transient_network" => some transientNetwork
  | "timeout" => some timeout
  | "remote_rejected" => some remoteRejected
  | "ledger_corruption" => some ledgerCorruption
  | "internal" => some internal
  | _ => none

theorem parse?_name (k : FailureKind) : parse? k.name = some k := by
  cases k <;> rfl

end FailureKind

/-- An error of the engine. -/
inductive SyncError where
  | database (fault : StoreFault)
  /-- A row that cannot be read. -/
  | corrupt (key message : String)
  | sourceUnavailable (message : String)
  | invalidKey (text : String)
  | invalidState (text : String)
  | transition (fault : TransitionFault)
  | host (error : HostError)
  | timeout (secs : Nat)
  | config (fault : SettingFault)

namespace SyncError

/-- The error in a sentence. -/
def message : SyncError → String
  | database fault => "Database error: " ++ fault.message
  | corrupt key m => "Ledger corruption for " ++ key ++ ": " ++ m
  | sourceUnavailable m => "Media source unavailable: " ++ m
  | invalidKey m => "Invalid job key: " ++ m
  | invalidState m => "Invalid job state: " ++ m
  | transition fault =>
    "Invalid state transition from " ++ fault.source ++ " to " ++ fault.target ++ ": " ++ fault.reason
  | host error => "Bridge error: " ++ error.message
  | timeout secs => "Operation timed out after " ++ toString secs ++ " seconds"
  | config fault => "Configuration error: " ++ fault.message

/-- Nothing more can be done: the database is out of reach. -/
def isFatal : SyncError → Bool
  | database _ => true
  | _ => false

/-- What kind of failure a task has that ends in this error. -/
def failureKind : SyncError → FailureKind
  | corrupt _ _ => .ledgerCorruption
  | sourceUnavailable _ => .sourceUnavailable
  | host (.notFound _) => .itemGone
  | host (.timeout _) => .timeout
  | timeout _ => .timeout
  | host (.network _) => .transientNetwork
  | host _ => .sourceUnavailable
  | _ => .internal

end SyncError

/-- The text of an abandon reason read as such. -/
def AbandonReason.parse (s : String) : Except SyncError AbandonReason :=
  match AbandonReason.parse? s with
  | some r => .ok r
  | none => .error (.invalidState ("abandon reason " ++ s))

/-- A text read as the name of a state. -/
def JobState.parse (s : String) : Except SyncError JobState :=
  match JobState.parse? s with
  | some t => .ok t
  | none => .error (.invalidState s)

/-- A row's text read as a state. -/
def JobState.ofStored (s : String) : Except SyncError JobState :=
  match JobState.ofStored? s with
  | some t => .ok t
  | none => .error (.invalidState s)

/-- A text read as a key. -/
def JobKey.parse (s : String) : Except SyncError JobKey :=
  match JobKey.parse? s with
  | some k => .ok k
  | none => .error (.invalidKey s)

/-- The check that `t` may follow `s`. -/
def JobState.checkBecomes (s t : JobState) : Except SyncError Unit :=
  if s.canBecome t then .ok () else .error (.transition (.notAllowed s t))

end MediaBackup

/-
  What the engine and the service tell their listeners.
-/

namespace MediaBackup

/-- News of the engine.  Keys, states and reasons are their names. -/
inductive SyncEvent where
  | scanCompleted (seen discovered : Nat)
  | dispatchCompleted (enqueued : Nat)
  | jobStateChanged (key source target : String) (attempt : Nat)
  | uploadSucceeded (item : String)
  | jobAbandoned (key reason : String) (lastError : Option String)
  /-- A row that cannot be read was found. -/
  | ledgerCorrupted (key message : String)
deriving DecidableEq, Repr, Inhabited

/-- News of the service. -/
inductive ServiceEvent where
  | started (recoveredJobs : Nat)
  | stopped
  | fatal (message : String)
deriving DecidableEq, Repr, Inhabited

/-- News. -/
inductive Event where
  | sync (event : SyncEvent)
  | service (event : ServiceEvent)
deriving DecidableEq, Repr, Inhabited

/-- How loud an event is. -/
inductive Severity where
  | debug
  | info
  | warning
  | error
deriving DecidableEq, Repr, Inhabited

/-- The name of a severity. -/
def Severity.name : Severity → String
  | debug => "Debug"
  | info => "Info"
  | warning => "Warning"
  | error => "Error"

namespace Event

/-- The event in a few words. -/
def description : Event → String
  | sync (.scanCompleted _ _) => "Scan completed"
  | sync (.dispatchCompleted _) => "Dispatch completed"
  | sync (.jobStateChanged _ _ _ _) => "Job state changed"
  | sync (.uploadSucceeded _) => "Item uploaded"
  | sync (.jobAbandoned _ _ _) => "Job abandoned"
  | sync (.ledgerCorrupted _ _) => "Corrupt ledger row"
  | service (.started _) => "Sync service started"
  | service .stopped => "Sync service stopped"
  | service (.fatal _) => "Sync service failed"

/-- The key of the job that the event is about, empty if it is about none. -/
def job : Event → String
  | sync (.scanCompleted _ _) => "scan"
  | sync (.dispatchCompleted _) => "dispatch"
  | sync (.jobStateChanged key _ _ _) | sync (.jobAbandoned key _ _) | sync (.ledgerCorrupted key _) => key
  | sync (.uploadSucceeded item) => "upload:" ++ item
  | service _ => ""

/-- How loud the event is. -/
def severity : Event → Severity
  | sync (.ledgerCorrupted _ _) | service (.fatal _) => .error
  | sync (.jobAbandoned _ _ _) => .warning
  | sync (.jobStateChanged _ _ _ _) => .debug
  | _ => .info

end Event

end MediaBackup

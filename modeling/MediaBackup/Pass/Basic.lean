import MediaBackup.Pass.Backup
import MediaBackup.Queue.Due

/-
  A pass: every job that is due is run, as far as the network allows.

  Housekeeping runs in the main line, one job after another, before any upload.  Each upload runs
  beside the main line and holds one of a few permits until it ends.  The network is looked at once,
  and again after every wait for a permit.  At its end the main line joins all uploads.
-/

namespace MediaBackup

/-- What a pass did. -/
structure PassReport where
  /-- Jobs whose wait was over. -/
  promoted : Nat
  /-- Rows that were given up. -/
  quarantined : Nat
  /-- Jobs whose demands on the network were not met. -/
  deferred : Nat
  /-- Jobs that another writer took first. -/
  skipped : Nat
  started : Nat
  succeeded : Nat
  retrying : Nat
  abandoned : Nat
deriving DecidableEq, Repr, Inhabited

/-- Counts a job by its state after its attempt. -/
def PassReport.record (r : PassReport) : JobState → PassReport
  | .succeeded => { r with succeeded := r.succeeded + 1 }
  | .retrying => { r with retrying := r.retrying + 1 }
  | .abandoned => { r with abandoned := r.abandoned + 1 }
  | _ => r

/-- The calls of a pass. -/
inductive PassCall where
  | engine (c : Call)
  /-- Takes a permit if there is one. -/
  | tryPermit
  /-- Waits for a permit. -/
  | waitPermit
  | returnPermit
  /-- Starts an upload, which holds the permit taken last and returns it at its end. -/
  | start (job : Job)
  /-- Waits for an upload to end. -/
  | join

/-- What a call of a pass answers. -/
abbrev PassCall.Answer : PassCall → Type
  | engine c => c.Answer
  | tryPermit => Bool
  | waitPermit => Unit
  | returnPermit => Unit
  | start _ => Unit
  | join => Except Stop JobState

/-- Programs of a pass. -/
abbrev Pass (α : Type) := ExceptT Stop (Script PassCall PassCall.Answer) α

namespace Pass

/-- A script of the engine as one of a pass. -/
def ofScript {α : Type} : Script Call Call.Answer α → Script PassCall PassCall.Answer α
  | .done a => .done a
  | .ask c next => .ask (.engine c) fun x => ofScript (next x)

/-- A program of the engine in a pass. -/
def engine {α : Type} (p : Engine α) : Pass α := ExceptT.mk (ofScript p.run)

/-- Asks the pass. -/
def call (c : PassCall) : Pass c.Answer := ExceptT.lift (.question c)

/-- The network as the host sees it.  A host that fails to look is no reason to start anything. -/
def look : Engine (Option NetworkInfo) := do
  match ← Engine.call .network with
  | none => pure none
  | some (.ok info) => pure (some info)
  | some (.error _) => pure (some .unknown)

/-- What came of a claim. -/
inductive Claimed where
  | won (job : Job)
  | lost
  | fatal (error : SyncError)

/-- Claims a job; only a database out of reach is an error. -/
def tryClaim (j : Job) : Pass Claimed := do
  match ← engine (Engine.observe (Queue.claim j)) with
  | .ok (some c) => pure (.won c)
  | .ok none => pure .lost
  | .error (.failed e) => pure (if e.isFatal then .fatal e else .lost)
  | .error (.crashed words) => throw (.crashed words)

/-- Takes a permit; tells whether it had to wait for it. -/
def takePermit : Pass Bool := do
  if ← call .tryPermit then pure false
  else
    call .waitPermit
    pure true

/-- Where the main line of a pass stands. -/
structure Progress where
  report : PassReport
  /-- How many uploads it started. -/
  uploads : Nat
  /-- The first error that nothing can be done about. -/
  fatal : Option SyncError

namespace Progress

/-- One more job was deferred. -/
def deferred (p : Progress) : Progress := { p with report := { p.report with deferred := p.report.deferred + 1 } }

/-- One more job was skipped. -/
def skipped (p : Progress) : Progress := { p with report := { p.report with skipped := p.report.skipped + 1 } }

/-- One more job was started. -/
def started (p : Progress) : Progress := { p with report := { p.report with started := p.report.started + 1 } }

/-- One more upload was started. -/
def uploading (p : Progress) : Progress := { p.started with uploads := p.uploads + 1 }

/-- A job ended in a state. -/
def recorded (p : Progress) (s : JobState) : Progress := { p with report := p.report.record s }

/-- An error that nothing can be done about; the first one stays. -/
def failed (p : Progress) (e : SyncError) : Progress := { p with fatal := some (p.fatal.getD e) }

end Progress

/-- Runs the jobs in order, `seen` being the last look at the network. -/
def runJobs (b : Backup) : List Job → Option NetworkInfo → Progress → Pass Progress
  | [], _, p => pure p
  | j :: jobs, seen, p => do
    if !j.constraints.satisfiedBy seen then runJobs b jobs seen p.deferred
    else if j.key.isUpload then
      let waited ← takePermit
      let seen ← if waited then engine look else pure seen
      if waited && !j.constraints.satisfiedBy seen then
        call .returnPermit
        runJobs b jobs seen p.deferred
      else match ← tryClaim j with
        | .won c =>
          call (.start c)
          runJobs b jobs seen p.uploading
        | .lost =>
          call .returnPermit
          runJobs b jobs seen p.skipped
        | .fatal e =>
          call .returnPermit
          pure (p.failed e)
    else match ← tryClaim j with
      | .won c =>
        match ← engine (Engine.observe (b.work c)) with
        | .ok s => runJobs b jobs seen (p.started.recorded s)
        | .error (.failed e) => pure (p.started.failed e)
        | .error (.crashed words) => throw (.crashed words)
      | .lost => runJobs b jobs seen p.skipped
      | .fatal e => pure (p.failed e)

/-- Joins as many uploads as are still to be joined. -/
def joinUploads : Nat → Progress → Pass Progress
  | 0, p => pure p
  | n + 1, p => do
    match ← call .join with
    | .ok s => joinUploads n (p.recorded s)
    | .error (.failed e) => joinUploads n (p.failed e)
    | .error (.crashed _) => joinUploads n p

/-- Runs every job that is due. -/
def run (b : Backup) : Pass PassReport := do
  let promoted ← engine Queue.promote
  let due ← engine Queue.due
  let report : PassReport := { (default : PassReport) with promoted := promoted, quarantined := due.quarantined }
  if due.jobs.isEmpty then return report
  let seen ← engine look
  let p ← runJobs b due.jobs seen ⟨report, 0, none⟩
  let p ← joinUploads p.uploads p
  match p.fatal with
  | some e => throw (.failed e)
  | none => pure p.report

end Pass

namespace Backup

/-- Queues what an earlier process left running, a scan and a dispatch: how many jobs were left.  A
    process does this once. -/
def start (started : Bool) : Engine Nat := do
  if started then Engine.fail (.transition .startedTwice)
  let recovered ← Queue.recover
  let _ ← Queue.enqueue .scan
  let _ ← Queue.enqueue .dispatch
  pure recovered

end Backup

end MediaBackup

import MediaBackup.Config.Settings
import MediaBackup.Error.Setup
import MediaBackup.Pass.Crew
import MediaBackup.Time.Duration

/-
  The service at work: its timers, its start, and the loop that runs passes.

  A timer goes off first after its delay and then once every period.  It can only be set if its period
  is some time and the clock of the process reaches its first going off.

  The loop is woken by its timers and by changes of the network, and does one thing for each waking.
  An error that may pass is no reason to stop; a database out of reach is.  Whoever runs the loop may
  give up in the middle of a pass: its jobs are then left running, for the next start to find.
-/

/-! ## Timers -/

namespace MediaBackup

namespace Service

/-- A timer. -/
structure Timer where
  delay : Duration
  period : Duration
deriving DecidableEq, Repr

namespace Timer

/-- The clock of a process counts fewer seconds than this. -/
def clockEnd : Nat := Nat.pow 2 63

/-- What breaks down when the timer is set at a time of the process. -/
def breakdown? (t : Timer) (now : Duration) : Option String :=
  if clockEnd * 1000000000 ≤ now.nanos + t.delay.nanos then
    some "overflow when adding duration to instant"
  else if t.period.nanos = 0 then some "\x60period\x60 must be non-zero."
  else none

/-- The timer of passes goes off at once. -/
def due (s : Settings) : Timer := ⟨.ofSecs 0, .ofSecs s.tickInterval⟩

/-- The timer of scans waits for a whole interval first. -/
def scan (s : Settings) : Timer := ⟨.ofSecs s.scanInterval, .ofSecs s.scanInterval⟩

/-- The timer of dispatches waits for a whole interval first. -/
def dispatch (s : Settings) : Timer := ⟨.ofSecs s.dispatchInterval, .ofSecs s.dispatchInterval⟩

/-- The timers of the service in the order in which they are set. -/
def all (s : Settings) : List Timer := [due s, scan s, dispatch s]

end Timer

end Service

/-! ## The loop -/

/-- A backup and the settings it was set up with. -/
structure Service where
  backup : Backup
  settings : Settings

/-- What the service is woken for. -/
inductive Wake where
  /-- Jobs may be due. -/
  | due
  | scan
  | dispatch
deriving DecidableEq, Repr, Inhabited

namespace Wake

/-- A change of the network wakes the service if there is a connection. -/
def ofChange? (info : NetworkInfo) : Option Wake := if info.isConnected then some .due else none

/-- The wakings of a loop before any interval has passed: at once, and at changes of the network. -/
def early (changes : List NetworkInfo) : List Wake := .due :: changes.filterMap ofChange?

end Wake

namespace Service

variable {σ : Type}

/-- Tells listeners of the service. -/
def emit (e : ServiceEvent) : Engine Unit := Engine.call (.emit (.service e))

/-- Starts the backup and tells so. -/
def start (started : Bool) : Engine Nat := do
  let recovered ← Backup.start started
  emit (.started recovered)
  pure recovered

/-- Counts the jobs and the items. -/
def stats : Engine (QueueCount × ItemCount) := do
  let jobs ← Queue.stats
  let items ← Ledger.stats
  pure (jobs, items)

/-- Runs a program of the engine. -/
def ask {α : Type} (how : Crew.Conduct σ) (p : Engine α) (s : σ) : Except Stop α × σ :=
  Script.run how.answer p.run s

/-- Does what the service was woken for; none if that is given up. -/
def perform (v : Service) (how : Crew.Conduct σ) (w : Wake) (s : σ) : Option (Except Stop Unit) × σ :=
  match w with
  | .due =>
    let (r, s) := v.backup.runPass? how s
    (r.map fun r => r.map fun _ => (), s)
  | .scan =>
    let (r, s) := ask how (do let _ ← Queue.enqueue .scan) s
    (some r, s)
  | .dispatch =>
    let (r, s) := ask how (do
      let _ ← Queue.enqueue .dispatch
      let _ ← Queue.prune (.ofSecs v.settings.jobRetention)) s
    (some r, s)

/-- Ends the loop and tells so. -/
def stop (how : Crew.Conduct σ) (s : σ) : Except Stop Unit × σ := ask how (emit .stopped) s

/-- The loop over its wakings.  It ends when they end, when one is given up, and when the database is out
    of reach. -/
def loop (v : Service) (how : Crew.Conduct σ) : List Wake → σ → Except Stop Unit × σ
  | [], s => stop how s
  | w :: wakes, s =>
    match v.perform how w s with
    | (none, s) => stop how s
    | (some (.ok ()), s) => v.loop how wakes s
    | (some (.error (.failed e)), s) =>
      if e.isFatal then ask how (do emit (.fatal (ServiceError.sync e).message); Engine.fail e) s
      else v.loop how wakes s
    | (some (.error (.crashed words)), s) => (.error (.crashed words), s)

/-- What breaks down when the timers of the loop are set at a time of the process. -/
def breakdown? (v : Service) (now : Duration) : Option String :=
  (Timer.all v.settings).findSome? (·.breakdown? now)

/-- Sets up the loop at a time of the process and runs it. -/
def run (v : Service) (how : Crew.Conduct σ) (now : Duration) (wakes : List Wake) (s : σ) : Except Stop Unit × σ :=
  match v.breakdown? now with
  | some words => (.error (.crashed (some words)), s)
  | none => v.loop how wakes s

end Service

end MediaBackup

import MediaBackup.Config.Settings
import MediaBackup.Config.Setup
import MediaBackup.Service.Loop
import MediaBackup.Store.Location

/-
  Opening and launching a service.

  Its set-up and its settings are checked, then the directory of its database is made, then the database
  opened, with the tables it needs.  Then its backup is set up.  Nothing of the settings is checked any more at
  that point, so permits beyond what there can be break the launch down.
-/

namespace MediaBackup.Service

open Files

/-- Opens the database of a set-up among the files below `top`. -/
def bootstrap (setup : Setup) (settings : Settings) (top : Node) : Except ServiceError OpenDatabase := do
  setup.check.mapError .setup
  settings.check.mapError fun fault => .sync (.config fault)
  let top ← (top.makeDirs (Path.parent (.ofText setup.databasePath))).mapError fun fault =>
    .initialization ("cannot create database directory: " ++ fault.message)
  let location ← (Location.ofUrl (DatabaseSettings.atPath setup.databasePath).url).mapError ofStore
  let opened ← (location.openIn top).mapError ofStore
  match opened.writeFault with
  | some fault => throw (ofStore fault)
  | none => return opened
where
  /-- A fault of the database. -/
  ofStore (fault : StoreFault) : ServiceError := .sync (.database fault)

/-- Why a service was not launched. -/
inductive LaunchFault where
  | failed (error : ServiceError)
  /-- Something broke down, in these words. -/
  | crashed (words : String)

/-- Launches a service among the files below `top`. -/
def launch (setup : Setup) (settings : Settings) (top : Node) : Except LaunchFault (OpenDatabase × Service) := do
  let opened ← (bootstrap setup settings top).mapError .failed
  let backup := Backup.ofSettings setup.endpoint settings
  match backup.breakdown? with
  | some words => throw (.crashed words)
  | none => return (opened, ⟨backup, settings⟩)

end MediaBackup.Service

import MediaBackup.Config.Endpoint

/-
  The set-up of a backup: its database, its endpoint, and which hosts are there.
-/

namespace MediaBackup

/-- A set-up. -/
structure Setup where
  databasePath : String
  endpoint : Endpoint
  /-- The host can look at the network. -/
  hasMonitor : Bool
  /-- Looking at the network is asked for. -/
  isNetworkAware : Bool
deriving DecidableEq, Repr, Inhabited

/-- A set-up in the making. -/
structure SetupDraft where
  databasePath : Option String
  /-- The path where the host keeps databases, if it has such a place. -/
  hostPath : Option String
  endpoint : Option Endpoint
  hasMediaSource : Bool
  hasContentSource : Bool
  isNetworkAware : Bool
deriving DecidableEq, Repr, Inhabited

namespace Setup

/-- The first fault of the set-up. -/
def check (s : Setup) : Except SetupError Unit := do
  if s.databasePath.isEmpty then throw (.config .noDatabasePath)
  s.endpoint.check
  if s.isNetworkAware && !s.hasMonitor then throw (.config .monitorMissing)

/-- A host that is there, without its details. -/
def shownHost (name : String) : String := Text.quoted (name ++ " \x7b ... \x7d")

/-- The set-up in words. -/
def shown (s : Setup) : String :=
  Text.record "CoreConfig"
    [("database_path", Text.quoted s.databasePath), ("endpoint", s.endpoint.shown),
     ("media_source", shownHost "MediaSource"), ("content_source", shownHost "ContentSource"),
     ("http_client", shownHost "HttpClient"),
     ("network_monitor", if s.hasMonitor then Text.shown (shownHost "NetworkMonitor") else "None"),
     ("features", Text.record "FeatureFlags" [("enable_network_awareness", toString s.isNetworkAware)])]

end Setup

/-- The set-up of a draft, or the first thing that is missing or wrong.  The host brings a client and a monitor
    of its own. -/
def SetupDraft.build (d : SetupDraft) : Except SetupError Setup := do
  let path ← match d.databasePath.orElse fun _ => d.hostPath with
    | some path => pure path
    | none => throw (.config .databasePathMissing)
  let endpoint ← match d.endpoint with
    | some e => pure e
    | none => throw (.config .endpointMissing)
  endpoint.check
  if !d.hasMediaSource then throw (.missing .mediaSource)
  if !d.hasContentSource then throw (.missing .contentSource)
  let setup : Setup := ⟨path, endpoint, true, d.isNetworkAware⟩
  setup.check
  pure setup

end MediaBackup

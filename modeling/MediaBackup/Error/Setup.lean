import MediaBackup.Error.Setting
import MediaBackup.Error.Sync
import MediaBackup.Url.Host

/-
  What can go wrong when a backup is set up, and in the service as a whole.
-/

namespace MediaBackup

/-- Why an endpoint cannot take uploads. -/
inductive EndpointFault where
  | notUrl (fault : Url.Fault)
  | wrongScheme (scheme : String)
  /-- The URL, fit to be logged, has no host. -/
  | noHost (url : String)
  | emptyField
  | emptyToken
  /-- In the words given. -/
  | stated (message : String)
deriving DecidableEq, Repr

/-- The fault in words. -/
def EndpointFault.message : EndpointFault → String
  | notUrl fault => "URL must be absolute http(s): " ++ fault.message
  | wrongScheme scheme => "URL must be absolute http(s), got scheme '" ++ scheme ++ "'"
  | noHost url => "URL has no host: '" ++ url ++ "'"
  | emptyField => "Multipart form field cannot be empty. Use .raw_body() to send unframed bytes."
  | emptyToken => "Auth token cannot be empty when set"
  | stated m => m

/-- The hosts that a backup cannot do without. -/
inductive Capability where
  | mediaSource
  | contentSource
  | stated (name message : String)
deriving DecidableEq, Repr

/-- The name of a capability. -/
def Capability.name : Capability → String
  | mediaSource => "MediaSource"
  | contentSource => "ContentSource"
  | stated name _ => name

/-- Where a capability comes from. -/
def Capability.advice : Capability → String
  | mediaSource =>
    "MediaSource implementation is required to discover items. " ++
      "Desktop: use .media_library(DirectoryMediaSource::new(pictures_dir)). " ++
      "Mobile: inject the platform media store adapter (MediaStore/PhotoKit)."
  | contentSource =>
    "ContentSource implementation is required to read item bytes. " ++
      "Desktop: use .media_library(DirectoryMediaSource::new(pictures_dir)). " ++
      "Mobile: inject the platform content resolver adapter."
  | stated _ message => message

/-- Why logs cannot be written as asked. -/
inductive LogFault where
  /-- A level of the filter is none. -/
  | badLevel
  /-- A part of the filter cannot be read. -/
  | badDirective
  /-- What the filter asks of a value is no pattern. -/
  | badField
  /-- What the filter asks of a value needs the words of all scripts. -/
  | unknownBorder
  /-- Logs are written already. -/
  | alreadySet
  /-- In the words given. -/
  | stated (message : String)
deriving DecidableEq, Repr

/-- The fault in words. -/
def LogFault.message : LogFault → String
  | badLevel =>
    "Invalid log filter: error parsing level filter: expected one of " ++
      "\"off\", \"error\", \"warn\", \"info\", \"debug\", \"trace\", or a number 0-5"
  | badDirective => "Invalid log filter: invalid filter directive"
  | badField => "Invalid log filter: invalid field filter: error building NFA"
  | unknownBorder =>
    "Invalid log filter: invalid field filter: unsupported regex feature for DFAs: " ++
      "cannot build DFAs for regexes with Unicode word boundaries; switch to ASCII word boundaries, " ++
      "or heuristically enable Unicode word boundaries or use a different regex engine"
  | alreadySet => "Failed to initialize logging: a global default trace dispatcher has already been set"
  | stated m => m

/-- An error of setting up. -/
inductive SetupError where
  | config (fault : SettingFault)
  | endpoint (fault : EndpointFault)
  | missing (capability : Capability)
  | logging (fault : LogFault)
  | internal (message : String)

/-- The error in a sentence. -/
def SetupError.message : SetupError → String
  | config fault => "Configuration error: " ++ fault.message
  | endpoint fault => "Invalid upload endpoint: " ++ fault.message
  | missing c => "Capability missing: " ++ c.name ++ " - " ++ c.advice
  | logging fault => "Logging setup failed: " ++ fault.message
  | internal m => "Internal error: " ++ m

/-- An error of the service. -/
inductive ServiceError where
  | initialization (message : String)
  | setup (error : SetupError)
  | sync (error : SyncError)

namespace ServiceError

/-- The error in a sentence. -/
def message : ServiceError → String
  | initialization m => "Core initialization failed: " ++ m
  | setup e => "Runtime error: " ++ e.message
  | sync e => "Sync error: " ++ e.message

/-- The service cannot go on. -/
def isFatal : ServiceError → Bool
  | sync e => e.isFatal
  | _ => true

end ServiceError

end MediaBackup

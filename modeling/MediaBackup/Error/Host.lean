/-
  What can go wrong in a host: the media library, the network, the HTTP client.
-/

namespace MediaBackup

/-- A host's failure, each with the host's own words. -/
inductive HostError where
  | notAvailable (message : String)
  | notFound (message : String)
  | network (message : String)
  | timeout (message : String)
  | operationFailed (message : String)
  /-- A failure to read or write. -/
  | device (message : String)
deriving DecidableEq, Repr, Inhabited

namespace HostError

/-- The failure in a sentence. -/
def message : HostError → String
  | notAvailable m => "Bridge capability not available: " ++ m
  | notFound m => "Not found: " ++ m
  | network m => "Network error: " ++ m
  | timeout m => "Operation timed out: " ++ m
  | operationFailed m => "Bridge operation failed: " ++ m
  | device m => "IO error: " ++ m

/-- Trying again may help. -/
def isTransient : HostError → Bool
  | network _ | timeout _ => true
  | _ => false

end HostError

end MediaBackup

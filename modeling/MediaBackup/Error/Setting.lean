import MediaBackup.Decimal.Text

/-
  What can be wrong with a configuration.
-/

namespace MediaBackup

/-- A setting that cannot be used. -/
inductive SettingFault where
  | noAttempts
  /-- The first delay is zero or above the longest one. -/
  | delayOrder (base longest : Nat)
  | jitterOutside (ratio : Float)
  | noUploads
  | noChunks
  | zeroSpan (name : String)
  | noDatabasePath
  | databasePathMissing
  | endpointMissing
  | monitorMissing
  | unknownLevel (name : String)
  /-- In the words given. -/
  | stated (message : String)

namespace SettingFault

/-- The fault in words. -/
def message : SettingFault → String
  | noAttempts => "max_attempts must be at least 1"
  | delayOrder base longest =>
    "base_delay_ms (" ++ toString base ++ ") must be positive and at most max_delay_ms (" ++ toString longest ++ ")"
  | jitterOutside ratio => "jitter_ratio must be within 0.0..=1.0, got " ++ Decimal.inWords.write ratio
  | noUploads => "max_concurrent_uploads must be at least 1"
  | noChunks => "chunk_size_bytes and buffered_chunks must be positive"
  | zeroSpan name => name ++ " must be positive"
  | noDatabasePath => "Database path cannot be empty"
  | databasePathMissing => "Database path is required. Use .database_path() to set it."
  | endpointMissing => "Remote endpoint is required. Use .endpoint(RemoteEndpoint::new(url))."
  | monitorMissing =>
    "Network awareness enabled but no NetworkMonitor provided. Disable the feature or inject a NetworkMonitor implementation."
  | unknownLevel name => "Unknown log level: " ++ name
  | stated m => m

end SettingFault

end MediaBackup

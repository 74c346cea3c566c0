import MediaBackup.Job.Constraints
import MediaBackup.Job.Retry

/-
  The settings of the engine, their checks, and their JSON text.
-/

namespace MediaBackup

/-- The settings of the engine.  Spans are in seconds. -/
structure Settings where
  maxConcurrentUploads : Nat
  uploadTimeout : Nat
  chunkSize : Nat
  bufferedChunks : Nat
  tickInterval : Nat
  scanInterval : Nat
  dispatchInterval : Nat
  jobRetention : Nat
  /-- Upload only where traffic is free. -/
  wifiOnly : Bool
  uploadRetry : RetryPolicy
  housekeepingRetry : RetryPolicy

namespace RetryPolicy

/-- The fields of a policy's text, in their order. -/
def fields : List (Json.Field RetryPolicy) :=
  [⟨"max_attempts", fun _ p => do return { p with maxAttempts := ← Json.Reader.nat (UInt32.size - 1) "u32" }⟩,
   ⟨"base_delay_ms", fun _ p => do return { p with baseDelay := ← Json.Reader.nat wordMax "u64" }⟩,
   ⟨"max_delay_ms", fun _ p => do return { p with maxDelay := ← Json.Reader.nat wordMax "u64" }⟩,
   ⟨"jitter_ratio", fun _ p => do return { p with jitterRatio := ← Json.Reader.float }⟩]

/-- Reads a policy; every field must be there. -/
def read (depth : Nat) : Json.Reader RetryPolicy :=
  Json.Reader.record "struct RetryPolicy" fields false upload depth

/-- Writes a policy. -/
def text (p : RetryPolicy) : String :=
  Json.writeObject
    [("max_attempts", toString p.maxAttempts),
     ("base_delay_ms", toString p.baseDelay),
     ("max_delay_ms", toString p.maxDelay),
     ("jitter_ratio", Json.writeFloat p.jitterRatio)]

end RetryPolicy

namespace Settings

/-- The settings unless others are set. -/
def standard : Settings where
  maxConcurrentUploads := 3
  uploadTimeout := 600
  chunkSize := 64 * 1024
  bufferedChunks := 4
  tickInterval := 30
  scanInterval := 900
  dispatchInterval := 900
  jobRetention := 7 * 24 * 3600
  wifiOnly := false
  uploadRetry := .upload
  housekeepingRetry := .housekeeping

/-- The spans that must not be zero, in the order of their check. -/
def spans (s : Settings) : List (String × Nat) :=
  [("upload_timeout_secs", s.uploadTimeout), ("tick_interval_secs", s.tickInterval),
   ("scan_interval_secs", s.scanInterval), ("dispatch_interval_secs", s.dispatchInterval)]

/-- The first fault of the settings. -/
def check (s : Settings) : Except SettingFault Unit := do
  if s.maxConcurrentUploads = 0 then throw .noUploads
  if s.chunkSize = 0 ∨ s.bufferedChunks = 0 then throw .noChunks
  match s.spans.find? (·.2 = 0) with
  | some span => throw (.zeroSpan span.1)
  | none => pure ()
  s.uploadRetry.check
  s.housekeepingRetry.check

/-- What an upload demands of the network. -/
def uploadConstraints (s : Settings) : Constraints := if s.wifiOnly then .unmetered else .network

/-- The policy of a job. -/
def retryPolicy (s : Settings) (key : JobKey) : RetryPolicy :=
  if key.isUpload then s.uploadRetry else s.housekeepingRetry

/-- A field that is a 64-bit count. -/
def countField (name : String) (set : Settings → Nat → Settings) : Json.Field Settings :=
  ⟨name, fun _ s => do return set s (← Json.Reader.nat wordMax "u64")⟩

/-- The fields of the settings' text, in their order. -/
def fields : List (Json.Field Settings) :=
  [countField "max_concurrent_uploads" fun s n => { s with maxConcurrentUploads := n },
   countField "upload_timeout_secs" fun s n => { s with uploadTimeout := n },
   countField "chunk_size_bytes" fun s n => { s with chunkSize := n },
   countField "buffered_chunks" fun s n => { s with bufferedChunks := n },
   countField "tick_interval_secs" fun s n => { s with tickInterval := n },
   countField "scan_interval_secs" fun s n => { s with scanInterval := n },
   countField "dispatch_interval_secs" fun s n => { s with dispatchInterval := n },
   countField "job_retention_secs" fun s n => { s with jobRetention := n },
   ⟨"wifi_only", fun _ s => do return { s with wifiOnly := ← Json.Reader.bool }⟩,
   ⟨"upload_retry", fun depth s => do return { s with uploadRetry := ← RetryPolicy.read depth }⟩,
   ⟨"housekeeping_retry", fun depth s => do return { s with housekeepingRetry := ← RetryPolicy.read depth }⟩]

/-- Reads the settings; a field that is missing has its standard value. -/
def ofText (s : String) : Except Json.Fault Settings :=
  (Json.Reader.document "struct SyncConfig" fields standard).run s

/-- Writes the settings. -/
def text (s : Settings) : String :=
  Json.writeObject
    [("max_concurrent_uploads", toString s.maxConcurrentUploads),
     ("upload_timeout_secs", toString s.uploadTimeout),
     ("chunk_size_bytes", toString s.chunkSize),
     ("buffered_chunks", toString s.bufferedChunks),
     ("tick_interval_secs", toString s.tickInterval),
     ("scan_interval_secs", toString s.scanInterval),
     ("dispatch_interval_secs", toString s.dispatchInterval),
     ("job_retention_secs", toString s.jobRetention),
     ("wifi_only", Json.writeBool s.wifiOnly),
     ("upload_retry", s.uploadRetry.text),
     ("housekeeping_retry", s.housekeepingRetry.text)]

end Settings

end MediaBackup

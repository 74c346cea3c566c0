import MediaBackup.Config.Endpoint
import MediaBackup.Config.Settings
import MediaBackup.Upload.Request
import MediaBackup.Upload.Transfer

/-
  How uploads are sent, and how their settings are shown.
-/

namespace MediaBackup

/-- Where uploads go, and how their bodies are cut. -/
structure UploadSettings where
  endpoint : Endpoint
  chunkSize : Nat
  buffered : Nat
  /-- The span within which an attempt must end. -/
  timeout : Duration
deriving DecidableEq, Repr, Inhabited

namespace UploadSettings

/-- Uploads to a URL, cut and timed as usual. -/
def toward (url : String) : UploadSettings :=
  ⟨.ofUrl url, Settings.standard.chunkSize, Settings.standard.bufferedChunks, .ofSecs Settings.standard.uploadTimeout⟩

/-- Uploads to an endpoint, cut and timed as the settings say. -/
def ofEndpoint (e : Endpoint) (s : Settings) : UploadSettings :=
  ⟨e, s.chunkSize, s.bufferedChunks, .ofSecs s.uploadTimeout⟩

/-- Cuts bodies otherwise; no size is zero. -/
def withChunking (s : UploadSettings) (chunkSize buffered : Nat) : UploadSettings :=
  { s with chunkSize := max chunkSize 1, buffered := max buffered 1 }

/-- Sets the span within which an attempt must end. -/
def withTimeout (s : UploadSettings) (d : Duration) : UploadSettings := { s with timeout := d }

/-- The header that names the item. -/
def itemHeader : String := "X-Hold-Item-Id"

/-- The header by which a server tells a repeated upload. -/
def idempotencyHeader : String := "Idempotency-Key"

/-- The request that uploads an item. -/
def request (s : UploadSettings) (id : String) : Request :=
  let r := ((Request.post s.endpoint.url).header itemHeader id).header idempotencyHeader id
  let r := r.within s.timeout
  match s.endpoint.authToken with
  | some token => r.bearer token
  | none => r

/-- The body that uploads a content. -/
def body (s : UploadSettings) (c : Content) : Body := ⟨c, s.endpoint.formField, s.chunkSize, s.buffered⟩

end UploadSettings

/-- The settings in words, without anything that may be a secret. -/
def UploadSettings.shown (s : UploadSettings) : String :=
  Text.record "UploadConfig"
    [("endpoint", Text.quoted (Url.redactText s.endpoint.url)),
     ("auth_token", Text.quotedOption (s.endpoint.authToken.map fun _ => Log.hidden)),
     ("form_field", Text.quotedOption s.endpoint.formField), ("chunk_size", toString s.chunkSize),
     ("buffered_chunks", toString s.buffered), ("timeout", s.timeout.shown)]

end MediaBackup

import MediaBackup.Job.Basic
import MediaBackup.Ledger.Basic
import MediaBackup.Upload.Settings

/-
  One attempt to upload an item.

  An item counts as acknowledged only if the server took the request AND the client took every byte of
  the content up to its end.  Everything else is a failure: for good if the item is gone or the server
  rejects it, else for now.
-/

namespace MediaBackup.Upload

/-- What a server's refusal makes of an attempt. -/
def refusal (r : Response) : Outcome :=
  let words := "HTTP " ++ toString r.status
  if r.isServerError || r.isThrottled then .retryable ⟨.transientNetwork, words⟩
  else if r.isClientError then .permanent ⟨.remoteRejected, words⟩
  else .retryable ⟨.transientNetwork, words⟩

/-- Why an exchange that ended is no acknowledgement; none if it is one. -/
def objection? (t : Transfer) (answer : Except HostError Response) : Option Outcome :=
  match t.pump, answer with
  | .failed words, _ => some (.retryable ⟨.sourceUnavailable, words⟩)
  | _, .error (.timeout m) => some (.retryable ⟨.timeout, (HostError.timeout m).message⟩)
  | _, .error e => some (.retryable ⟨.transientNetwork, e.message⟩)
  | pump, .ok r =>
    if !r.isSuccess then some (refusal r)
    else if pump = .finished t.consumed then none
    else some (.retryable ⟨.transientNetwork, "body truncated after " ++ toString t.consumed ++ " bytes"⟩)

/-- The most slots that a channel can have, and the most permits that a set of them can have. -/
def mostSlots : Nat := Nat.pow 2 61 - 1

/-- What is said of more. -/
def tooManySlots : String :=
  "a semaphore may not have more than MAX_PERMITS permits (" ++ toString mostSlots ++ ")"

/-- The most bytes that a buffer can have. -/
def mostBytes : Nat := Nat.pow 2 63 - 1

/-- What breaks down when a body is cut in impossible ways. -/
def breakdown? (s : UploadSettings) : Option String :=
  if s.buffered = 0 then some "mpsc bounded channel requires buffer > 0"
  else if mostSlots < s.buffered then some tooManySlots
  else if mostBytes < s.chunkSize then some "capacity overflow"
  else none

/-- Sends an opened item, and writes down that it was acknowledged. -/
def send (s : UploadSettings) (id : String) (c : Content) : Engine Outcome := do
  if let some words := breakdown? s then Engine.crash (some words)
  let exchange ← Engine.call (.send (s.request id) (s.body c))
  match ← Engine.call (.await exchange) with
  | .late => pure (.retryable ⟨.timeout, "no response within " ++ s.timeout.shown⟩)
  | .crashed words => Engine.crash words
  | .ended transfer answer =>
    match objection? transfer answer with
    | some outcome => pure outcome
    | none =>
      Ledger.markUploaded id (← Engine.now)
      Engine.emit (.uploadSucceeded id)
      pure .success

/-- Uploads an item. -/
def attempt (s : UploadSettings) (id : String) : Engine Outcome := do
  match ← Engine.ofReply (← Engine.call (.openItem id)) with
  | .error (.notFound m) => pure (.permanent ⟨.itemGone, m⟩)
  | .error e => pure (.retryable ⟨.sourceUnavailable, e.message⟩)
  | .ok content => send s id content

end MediaBackup.Upload

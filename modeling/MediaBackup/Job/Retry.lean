import MediaBackup.Error.Sync
import MediaBackup.Hash.Sip
import MediaBackup.Text.Bytes
import MediaBackup.Time.Duration

/-
  How often a job is tried, and how long it waits between attempts.

  The wait doubles with every attempt up to a longest one; this is the ANCHOR.  Around the anchor lies
  a window whose half width is a share of it, cut at the longest wait, and the wait is the point of
  the window that a hash of key and attempt picks.  So many jobs that fail together do not come back
  together, and one job's wait can be computed again.

  `delayWithin` leaves open how the half width and the point are computed; `delayFor` computes both
  in floats.
-/

namespace MediaBackup

/-- The greatest 64-bit number: counts of milliseconds stop here. -/
def wordMax : Nat := UInt64.size - 1

/-- How often and in which rhythm a job is tried.  Delays are in milliseconds. -/
structure RetryPolicy where
  maxAttempts : Nat
  baseDelay : Nat
  maxDelay : Nat
  /-- The half width of the window as a share of the anchor. -/
  jitterRatio : Float

namespace RetryPolicy

/-- The policy of uploads unless another is set. -/
def upload : RetryPolicy := ⟨8, 30000, 3600000, 0.2⟩

/-- The policy of scans and dispatches unless another is set. -/
def housekeeping : RetryPolicy := ⟨3, 60000, 900000, 0.2⟩

/-- After `attempt` attempts there may be another. -/
def allowsRetry (p : RetryPolicy) (attempt : Nat) : Bool := decide (attempt < p.maxAttempts)

/-- The wait after `attempt` attempts before it is spread. -/
def anchor (p : RetryPolicy) (attempt : Nat) : Nat :=
  min (min (p.baseDelay * Nat.pow 2 (min (attempt - 1) 63)) wordMax) p.maxDelay

/-- The wait for a half width `span`, where `offset` picks a point of a window by its width. -/
def delayWithin (p : RetryPolicy) (attempt span : Nat) (offset : Nat → Nat) : Nat :=
  let anchor := p.anchor attempt
  if span = 0 then anchor
  else
    let lower := anchor - span
    let upper := min (min (anchor + span) wordMax) p.maxDelay
    lower + offset (upper - lower)

/-- A number of the window 0 to 1; a number outside moves to the nearer end. -/
def clampShare (x : Float) : Float := if x < 0.0 then 0.0 else if 1.0 < x then 1.0 else x

/-- A float cut to a whole 64-bit number. -/
def cut (x : Float) : Nat := x.toUInt64.toNat

/-- A count as a float. -/
def share (n : Nat) : Float := n.toUInt64.toFloat

/-- The half width of the window; the window is a point if the share is zero. -/
def span (p : RetryPolicy) (attempt : Nat) : Nat :=
  if p.jitterRatio == 0.0 then 0 else cut (share (p.anchor attempt) * clampShare p.jitterRatio)

/-- Where in its window an attempt of a key lies, from 0 to 1. -/
def unit (key : JobKey) (attempt : Nat) : Float :=
  let n := attempt.toUInt32
  let bytes := Text.encode key.text.toList ++
    [0xFF, n.toUInt8, (n >>> 8).toUInt8, (n >>> 16).toUInt8, (n >>> 24).toUInt8]
  (Hash.sip bytes).toFloat / share wordMax

/-- The wait in milliseconds after attempt `attempt` of `key`. -/
def delayFor (p : RetryPolicy) (key : JobKey) (attempt : Nat) : Nat :=
  p.delayWithin attempt (p.span attempt) fun width => cut (share width * unit key attempt)

/-- The first fault of a policy. -/
def check (p : RetryPolicy) : Except SettingFault Unit :=
  if p.maxAttempts = 0 then .error .noAttempts
  else if p.baseDelay = 0 ∨ p.maxDelay < p.baseDelay then .error (.delayOrder p.baseDelay p.maxDelay)
  else if 0.0 ≤ p.jitterRatio ∧ p.jitterRatio ≤ 1.0 then .ok ()
  else .error (.jitterOutside p.jitterRatio)

end RetryPolicy

end MediaBackup

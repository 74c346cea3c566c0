import MediaBackup.Time.Duration

/-
  Points in time, and a clock that moves only when told to.

  An instant counts nanoseconds from 1970-01-01 UTC.  Tables keep milliseconds, rounded down.  The
  calendar ends somewhere: instants run from `Instant.first` to `Instant.last`, and arithmetic that
  would leave this range stops at its end or is refused, as each function says.
-/

namespace MediaBackup

/-- A point in time. -/
structure Instant where
  nanos : Int
deriving DecidableEq, Repr, Inhabited

namespace Instant

/-- The first millisecond that a calendar day has. -/
def firstMillis : Int := -8334601228800000

/-- The last millisecond that a calendar day has. -/
def lastMillis : Int := 8210266876799999

/-- The first instant. -/
def first : Instant := ⟨firstMillis * 1000000⟩

/-- The last instant: the last nanosecond of the last millisecond. -/
def last : Instant := ⟨lastMillis * 1000000 + 999999⟩

/-- 1970-01-01 UTC. -/
def epoch : Instant := ⟨0⟩

/-- Milliseconds from the epoch, rounded down. -/
def millis (t : Instant) : Int := t.nanos / 1000000

/-- Seconds from the epoch, rounded down. -/
def secs (t : Instant) : Int := t.nanos / 1000000000

/-- The instant of a number of milliseconds, if it is one. -/
def ofMillis? (m : Int) : Option Instant :=
  if firstMillis ≤ m ∧ m ≤ lastMillis then some ⟨m * 1000000⟩ else none

/-- `d` later, at most the last instant. -/
def after (t : Instant) (d : Duration) : Instant := ⟨min (t.nanos + d.nanos) last.nanos⟩

/-- `d` earlier, at least the first instant. -/
def before (t : Instant) (d : Duration) : Instant := ⟨max (t.nanos - d.nanos) first.nanos⟩

/-- `d` later if there is such an instant; else `t` itself. -/
def advance (t : Instant) (d : Duration) : Instant :=
  if t.nanos + d.nanos ≤ last.nanos then ⟨t.nanos + d.nanos⟩ else t

/-- A clock started at `m` milliseconds; at the epoch if `m` is no instant. -/
def startAt (m : Int) : Instant := (ofMillis? m).getD epoch

end Instant

end MediaBackup

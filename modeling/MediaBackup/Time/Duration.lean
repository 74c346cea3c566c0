import MediaBackup.Text.Quoted

/-
  Spans of time.

  A span is a number of nanoseconds, at most 2^64 seconds short of one nanosecond; sums stop
  there.  It is shown in the largest unit that leaves a whole part, with the fraction that is left
  and no trailing zeros.
-/

namespace MediaBackup

/-- A span of time. -/
structure Duration where
  nanos : Nat
deriving DecidableEq, Repr, Inhabited

namespace Duration

/-- The longest span. -/
def longest : Duration := ⟨UInt64.size * 1000000000 - 1⟩

/-- `n` nanoseconds, at most the longest span. -/
def ofNanos (n : Nat) : Duration := ⟨min n longest.nanos⟩

/-- `n` milliseconds. -/
def ofMillis (n : Nat) : Duration := ofNanos (n * 1000000)

/-- `n` seconds. -/
def ofSecs (n : Nat) : Duration := ofNanos (n * 1000000000)

/-- The sum, at most the longest span. -/
def add (a b : Duration) : Duration := ofNanos (a.nanos + b.nanos)

/-- Whole milliseconds. -/
def millis (d : Duration) : Nat := d.nanos / 1000000

/-- The whole part before, and the fraction of `width` digits behind the point, without trailing zeros. -/
def pointed (whole fraction width : Nat) : List Char :=
  let digits := Nat.toDigits 10 fraction
  let padded := List.replicate (width - digits.length) '0' ++ digits
  let kept := (padded.reverse.dropWhile (· == '0')).reverse
  Nat.toDigits 10 whole ++ (if kept.isEmpty then [] else '.' :: kept)

/-- The span in words: `600s`, `1.5s`, `20.0001ms`, `1.5µs`, `1ns`. -/
def shown (d : Duration) : String :=
  let n := d.nanos
  let inUnit (size width : Nat) (name : String) :=
    String.ofList (pointed (n / size) (n % size) width) ++ name
  if 1000000000 ≤ n then inUnit 1000000000 9 "s"
  else if 1000000 ≤ n then inUnit 1000000 6 "ms"
  else if 1000 ≤ n then inUnit 1000 3 "µs"
  else inUnit 1 0 "ns"

end Duration

end MediaBackup

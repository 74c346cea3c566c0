import MediaBackup.Decimal.Read
import MediaBackup.Error.Setup
import MediaBackup.Log.Level
import MediaBackup.Log.Pattern.Reader
import MediaBackup.Log.Span

/-
  What a filter may ask of the fields of a span: that there is one of a name, and that its value passes a test.

  A test is written as the value itself: a truth value, a whole number or a fraction.  Any other text is a
  pattern for values that are texts.
-/

namespace MediaBackup.Log

/-- A test of a value. -/
inductive ValueTest where
  | truth (b : Bool)
  | whole (n : Int)
  /-- A number that is no whole one, or too large for one; no value of a span is such. -/
  | fraction
  | text (written : String) (pattern : Pattern)
deriving DecidableEq, Repr

namespace ValueTest

/-- A whole number of 64 bits, with a sign if it is negative. -/
def whole? (s : List Char) : Option Int :=
  match s with
  | '-' :: r => if r.isEmpty || !r.all Char.isDigit then none
    else (number? r).bind fun n => if n ≤ Nat.pow 2 63 then some (-(n : Int)) else none
  | s => (number? s).bind fun n => if n < UInt64.size then some (n : Int) else none

/-- Reads a test. -/
def parse (s : List Char) : Except LogFault ValueTest :=
  let written := String.ofList s
  if written = "true" then .ok (.truth true)
  else if written = "false" then .ok (.truth false)
  else match whole? s with
    | some n => .ok (.whole n)
    | none =>
      if (Decimal.ofText? written).isSome then .ok .fraction
      else match Pattern.ofText s with
        | .ok p => .ok (.text written p)
        | .error .notValid => .error .badField
        | .error .wordBorder => .error .unknownBorder

/-- The value passes the test. -/
def passes : ValueTest → Value → Bool
  | .whole n, .whole m => n == m
  | .text _ p, .text s => p.fits s.toList
  | _, _ => false

end ValueTest

/-- What is asked of a field. -/
structure FieldFilter where
  name : String
  test : Option ValueTest
deriving DecidableEq, Repr

namespace FieldFilter

/-- Reads what is asked: a name, and a test behind `=`.  A second `=` ends the test. -/
def parse (s : List Char) : Except LogFault FieldFilter :=
  match Text.splitAll (· == '=') s with
  | name :: test :: _ => do return ⟨String.ofList name, some (← ValueTest.parse test)⟩
  | _ => .ok ⟨String.ofList s, none⟩

/-- The span has the field, whatever its value. -/
def isIn (f : FieldFilter) (s : Span) : Bool := (s.value? f.name).isSome

/-- The span has the field, and its value passes. -/
def passes (f : FieldFilter) (s : Span) : Bool :=
  match s.value? f.name, f.test with
  | some v, some t => t.passes v
  | some _, none => true
  | none, _ => false

theorem isIn_of_passes {f : FieldFilter} {s : Span} (h : f.passes s = true) : f.isIn s = true := by
  cases hv : s.value? f.name <;> simp_all [passes, isIn]

end FieldFilter

end MediaBackup.Log

import MediaBackup.Decimal.Text
import MediaBackup.Store.Numeral

/-
  Values in the cells of a table, and how a column bends what is written to it.

  A TEXT column turns numbers into their text.  An INTEGER column turns text that is a number, and
  a float that is whole, into that number, and keeps every other float and text as it is; so a cell
  of it holds a whole number, a float, or a text.  Numbers sort before texts, and a text counts in a sum
  as the number in front of it.
-/

namespace MediaBackup

/-- A value before a column bends it. -/
inductive RawValue where
  | null
  | int (n : Int)
  | real (x : Float)
  | text (s : String)

/-- A cell of an INTEGER column. -/
inductive Cell where
  | int (n : Int)
  /-- A float that is not a whole number in the range of whole numbers. -/
  | real (negative : Bool) (x : Decimal.Binary)
  | infinite (negative : Bool)
  | text (s : String)
deriving DecidableEq, Repr, Inhabited

namespace Cell

/-- `m · 2^p` against `n · 2^q`. -/
def compareScaled (m p n q : Int) : Ordering :=
  compare (m * Nat.pow 2 (p - min p q).toNat) (n * Nat.pow 2 (q - min p q).toNat)

/-- A number as mantissa and power of two; none for a text.  Infinity stands just beyond the floats. -/
def scaled? : Cell → Option (Int × Int)
  | int n => some (n, 0)
  | real negative x => some (if negative then -(x.mantissa : Int) else x.mantissa, x.power)
  | infinite negative => some (if negative then -1 else 1, 1024)
  | text _ => none

/-- The order of cells: numbers by size, then texts by their bytes. -/
def order (a b : Cell) : Ordering :=
  match a.scaled?, b.scaled? with
  | some (m, p), some (n, q) => compareScaled m p n q
  | some _, none => .lt
  | none, some _ => .gt
  | none, none => match a, b with
    | text s, text t => compare s t
    | _, _ => .eq

/-- `a ≤ b`. -/
def le (a b : Cell) : Bool := order a b != .gt

/-- `a < b`. -/
def lt (a b : Cell) : Bool := order a b == .lt

/-- The greater of two cells, the second if they are equal. -/
def greater (a b : Cell) : Cell := if lt b a then a else b

/-- What the cell is called in an error. -/
def typeName : Cell → String
  | int _ => "INTEGER"
  | real _ _ | infinite _ => "REAL"
  | text _ => "TEXT"

/-- The least whole number. -/
def intMin : Int := -Nat.pow 2 63

/-- The greatest whole number. -/
def intMax : Int := Nat.pow 2 63 - 1

/-- A float in an INTEGER column: whole numbers strictly inside the range become whole. -/
def ofView : Decimal.FloatView → Cell
  | .zero _ => int 0
  | .finite negative x =>
    let size := x.mantissa * Nat.pow 2 x.power.toNat / Nat.pow 2 (-x.power).toNat
    let whole := decide (size * Nat.pow 2 (-x.power).toNat = x.mantissa * Nat.pow 2 x.power.toNat)
    let n : Int := if negative then -(size : Int) else size
    if whole && decide (intMin < n) && decide (n < intMax) then int n else real negative x
  | .infinite negative => infinite negative
  | .nan => int 0

/-- A float in words, `1.0`, `0.0001`, `1e-5`; infinity is `inf`. -/
def floatText (negative : Bool) (x : Option Decimal.Binary) : String :=
  let size := match x with
    | some x => Decimal.inRecord.positive (x.shortest Decimal.inRecord.tie)
    | none => ['i', 'n', 'f']
  String.ofList (if negative then '-' :: size else size)

/-- The whole number lies in the range. -/
def inRange (n : Int) : Bool := decide (intMin ≤ n) && decide (n ≤ intMax)

/-- A text in an INTEGER column. -/
def ofText (s : String) : Cell :=
  let x := Numeral.read s
  if !x.isNumber then text s
  else if !x.isFractional && inRange x.toInt then int x.toInt
  else ofView x.toFloat

/-- One more than a float. -/
def floatPlusOne : Decimal.FloatView → Decimal.FloatView
  | .zero _ => .nearest false 1 0
  | .finite negative x =>
    let p := min x.power 0
    let m : Int := x.mantissa * Nat.pow 2 (x.power - p).toNat
    let n := (if negative then -m else m) + Nat.pow 2 (-p).toNat
    .nearest (n < 0) n.natAbs p
  | other => other

/-- One more than a whole number; past the end of the range the numbers go on as floats. -/
def intPlusOne (n : Int) : Cell :=
  if n < intMax then int (n + 1) else ofView (.nearest (n < 0) (n + 1).natAbs 0)

/-- One more than the number that the cell counts as. -/
def plusOne : Cell → Cell
  | int n => intPlusOne n
  | real negative x => ofView (floatPlusOne (.finite negative x))
  | infinite negative => infinite negative
  | text s =>
    let x := Numeral.read s
    if x.countsFraction || !inRange x.toInt then ofView (floatPlusOne x.toFloat) else intPlusOne x.toInt

end Cell

namespace RawValue

/-- A float to 15 digits.  The digits behind them are cut off after the 18th or 19th; of what is left the
    16th decides alone. -/
def fifteen (x : Decimal.Binary) : Decimal.Scientific :=
  let s := (Decimal.Extended.nearest x.mantissa x.power).digits
  let extra := (Nat.toDigits 10 s.digits).length - 15
  let up := 5 ≤ s.digits / Nat.pow 10 (extra - 1) % 10
  (Decimal.Scientific.mk (s.digits / Nat.pow 10 extra + if up then 1 else 0) (s.exponent + extra)).trim 16

/-- A float as text: 15 digits, and at least one behind the point. -/
def realAsText (negative : Bool) (x : Decimal.Binary) : String :=
  let s := fifteen x
  let digits := Nat.toDigits 10 s.digits
  let first := s.exponent + digits.length - 1
  let body :=
    if -4 ≤ first ∧ first < 15 then Decimal.inColumn.place digits s.exponent
    else Decimal.inColumn.scale (if digits.length = 1 then digits ++ ['0'] else digits) first
  String.ofList ((if negative then ['-'] else []) ++ body)

/-- What a TEXT column keeps; none for no value. -/
def asText : RawValue → Option String
  | null => none
  | int n => some (toString n)
  | real f => match Decimal.view f with
    | .zero _ => some "0.0"
    | .finite negative x => some (realAsText negative x)
    | .infinite negative => some (if negative then "-Inf" else "Inf")
    | .nan => none
  | text s => some s

/-- What an INTEGER column keeps; none for no value. -/
def asCell : RawValue → Option Cell
  | null => none
  | int n => some (.int n)
  | real f => some (Cell.ofView (Decimal.view f))
  | text s => some (Cell.ofText s)

end RawValue

end MediaBackup

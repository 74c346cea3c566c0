/-
  Reading a float from text.

  A number is a sign, digits with at most one point among or around them, and an exponent; what is read
  is the float nearest to it.  Infinities and what is no number have names, in any case of letters.
-/

namespace MediaBackup.Decimal

/-- The number of a row of digits. -/
def digitsValue (ds : List Char) : Nat := ds.foldl (fun n c => n * 10 + (c.toNat - '0'.toNat)) 0

/-- A sign and what follows it; no sign is a plus. -/
def signed : List Char → Bool × List Char
  | '-' :: r => (true, r)
  | '+' :: r => (false, r)
  | r => (false, r)

/-- An exponent that takes up all of the text. -/
def exponent? (s : List Char) : Option Int :=
  let (negative, ds) := signed s
  if ds.isEmpty || !ds.all Char.isDigit then none
  else some (if negative then -(digitsValue ds : Int) else digitsValue ds)

/-- Exponents beyond this make zero or infinity of every number that is written out. -/
def exponentBound : Nat := 100000

/-- A number without its sign. -/
def unsigned? (s : List Char) : Option Float :=
  let name := String.ofList (s.map Char.toLower)
  if name = "nan" then some (0.0 / 0.0)
  else if name = "inf" ∨ name = "infinity" then some (1.0 / 0.0)
  else
    let whole := s.takeWhile Char.isDigit
    let rest := s.dropWhile Char.isDigit
    let (fraction, rest) := match rest with
      | '.' :: r => (r.takeWhile Char.isDigit, r.dropWhile Char.isDigit)
      | r => ([], r)
    let exponent := match rest with
      | [] => some 0
      | c :: r => if c = 'e' ∨ c = 'E' then exponent? r else none
    if whole.isEmpty && fraction.isEmpty then none
    else exponent.map fun e =>
      let e := max (-(exponentBound : Int)) (min e exponentBound) - fraction.length
      Float.ofScientific (digitsValue (whole ++ fraction)) (e < 0) e.natAbs

/-- The float of a text; none if the text is no number. -/
def ofText? (s : String) : Option Float :=
  let (negative, r) := signed s.toList
  (unsigned? r).map fun f => if negative then -f else f

end MediaBackup.Decimal

import MediaBackup.Decimal.Extended

/-
  Texts as numbers, the way the tables read them.

  A number stands at the front of a text: blanks, a sign, digits with at most one point, an exponent.
  Only so many digits count as fit 64 bits; those behind them shift the point at most.  What the number
  is good for depends on how it ends: a text that is a number as a whole may replace itself by it, the
  number in front of other text only counts in sums.
-/

namespace MediaBackup

/-- What was read at the front of a text. -/
structure Numeral where
  negative : Bool
  /-- The digits before the point, all of them. -/
  whole : Nat
  /-- The digits that count. -/
  significand : Nat
  /-- `significand · 10^exponent` is the number. -/
  exponent : Int
  hasDigits : Bool
  hasPoint : Bool
  hasExponent : Bool
  /-- An exponent, if one was begun, has digits. -/
  exponentIsGood : Bool
  /-- Nothing but blanks follows. -/
  isComplete : Bool
deriving Repr, DecidableEq, Inhabited

namespace Numeral

/-- Blanks around a number. -/
def isSpace (c : Char) : Bool := c == ' ' || ('\x09' ≤ c && c ≤ '\x0d')

/-- From here on no digit is added. -/
def significandLimit : Nat := (UInt64.size - 10) / 10

/-- The value of a row of digits. -/
def value (ds : List Char) : Nat := ds.foldl (fun n c => n * 10 + (c.toNat - '0'.toNat)) 0

/-- Adds digits while they count: the number, and how many were added. -/
def addDigits (n count : Nat) : List Char → Nat × Nat
  | [] => (n, count)
  | c :: r =>
    if n < significandLimit then addDigits (n * 10 + (c.toNat - '0'.toNat)) (count + 1) r else (n, count)

/-- The digits of an exponent; one that goes on past 10000 stays there. -/
def exponentValue (ds : List Char) : Nat :=
  ds.foldl (fun e c => if e < 10000 then e * 10 + (c.toNat - '0'.toNat) else 10000) 0

/-- Reads the front of a text. -/
def read (s : String) : Numeral :=
  let (negative, body) := match s.toList.dropWhile isSpace with
    | '-' :: r => (true, r)
    | '+' :: r => (false, r)
    | r => (false, r)
  let before := body.takeWhile Char.isDigit
  let rest := body.dropWhile Char.isDigit
  let (hasPoint, behind, rest) := match rest with
    | '.' :: r => (true, r.takeWhile Char.isDigit, r.dropWhile Char.isDigit)
    | r => (false, [], r)
  let (hasExponent, down, digits, rest) := match rest with
    | c :: r =>
      if c = 'e' ∨ c = 'E' then
        let (down, r) := match r with
          | '-' :: t => (true, t)
          | '+' :: t => (false, t)
          | t => (false, t)
        (true, down, r.takeWhile Char.isDigit, r.dropWhile Char.isDigit)
      else (false, false, [], c :: r)
    | [] => (false, false, [], [])
  let (n, countBefore) := addDigits 0 0 before
  let (n, countBehind) := addDigits n 0 behind
  let e : Int := if down then -(exponentValue digits : Int) else exponentValue digits
  { negative := negative
    whole := value before
    significand := n
    exponent := e + (before.length - countBefore : Nat) - countBehind
    hasDigits := !before.isEmpty || !behind.isEmpty
    hasPoint := hasPoint
    hasExponent := hasExponent
    exponentIsGood := !hasExponent || !digits.isEmpty
    isComplete := (rest.dropWhile isSpace).isEmpty }

/-- Moves zeros between significand and exponent, toward an exponent of zero. -/
def balance (n : Nat) (e : Int) : Nat → Nat × Int
  | 0 => (n, e)
  | fuel + 1 =>
    if 0 < e ∧ n < (UInt64.size - 1) / 10 then balance (n * 10) (e - 1) fuel
    else if e < 0 ∧ n % 10 = 0 then balance (n / 10) (e + 1) fuel
    else (n, e)

/-- The number as a float. -/
def toFloat (x : Numeral) : Decimal.FloatView :=
  if x.significand = 0 then .zero x.negative
  else
    let (n, e) := balance x.significand x.exponent 20
    if e = 0 then .nearest x.negative n 0
    else
      let r := (Decimal.Extended.nearest n 0).scale e
      .nearest x.negative r.mantissa r.power

/-- The digits before the point with their sign. -/
def toInt (x : Numeral) : Int := if x.negative then -(x.whole : Int) else x.whole

/-- The text is a number from its first character to its last. -/
def isNumber (x : Numeral) : Bool := x.hasDigits && x.exponentIsGood && x.isComplete

/-- The number has a point or an exponent. -/
def isFractional (x : Numeral) : Bool := x.hasPoint || x.hasExponent

/-- In a sum, the number in front of other text counts with its fraction: an exponent without digits
    takes the fraction away unless there was a point too. -/
def countsFraction (x : Numeral) : Bool :=
  x.hasDigits && x.isFractional && (x.exponentIsGood || (x.hasPoint && x.hasExponent))

end Numeral

end MediaBackup

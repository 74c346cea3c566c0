import MediaBackup.Json.Source
import MediaBackup.Text.Quoted
import MediaBackup.Decimal.Text

/-
  Words, numbers and strings of JSON.

  A number is a whole 64-bit one, a negative whole one, or a float.  Floats are read in float
  arithmetic: the digits as one whole number, as far as it fits, times or over a power of ten.
-/

namespace MediaBackup.Json

/-- A number as it was written. -/
inductive Num where
  /-- At most 2^64 - 1. -/
  | natural (n : Nat)
  /-- `-n`, at least -2^63. -/
  | negative (n : Nat)
  | float (f : Float)

/-- The number in a sentence. -/
def Num.shown : Num → String
  | natural n => "integer `" ++ toString n ++ "`"
  | negative n => "integer `-" ++ toString n ++ "`"
  | float f => "floating point `" ++ Decimal.inJson.write f ++ "`"

/-- The number as a float. -/
def Num.toFloat : Num → Float
  | natural n => n.toUInt64.toFloat
  | negative n => -(n.toUInt64.toFloat)
  | float f => f

namespace Reader

/-- The rest of a word whose first character was read. -/
def word : List Char → Reader Unit
  | [] => pure ()
  | c :: r => do
    match ← peek with
    | none => fail .endInValue
    | some d => if c = d then do skip; word r else failAhead .expectedWord

/-- Takes the digits that come next; `fuel` bounds their number. -/
def digits : Nat → Reader (List Char)
  | 0 => pure []
  | fuel + 1 => do
    match ← peek with
    | some c => if c.isDigit then do skip; return c :: (← digits fuel) else pure []
    | none => pure []

/-- All digits that come next. -/
def someDigits : Reader (List Char) := do digits (← left)

/-- Adds digits to a whole number while it fits 64 bits: the number, and how many digits were left
    over. -/
def gather (n : Nat) : List Char → Nat × Nat
  | [] => (n, 0)
  | c :: r =>
    let m := n * 10 + (c.toNat - '0'.toNat)
    if m < UInt64.size then gather m r else (n, r.length + 1)

/-- `10^n` as a float. -/
def powerOfTen (n : Nat) : Float := Float.ofScientific 1 false n

/-- `n · 10^e` for a whole number already made a float; none if it is too large.  Powers below the
    smallest one are taken in two steps. -/
def scaled (f : Float) (e : Int) : Nat → Option Float
  | 0 => some f
  | fuel + 1 =>
    if e.natAbs ≤ 308 then
      if 0 ≤ e then
        let g := f * powerOfTen e.natAbs
        if g.isInf then none else some g
      else some (f / powerOfTen e.natAbs)
    else if f == 0.0 then some f
    else if 0 ≤ e then none
    else scaled (f / powerOfTen 308) (e + 308) fuel

/-- A float from its digits, its exponent and its sign. -/
def assemble (positive : Bool) (n : Nat) (e : Int) : Reader Num :=
  match scaled n.toUInt64.toFloat e 12 with
  | none => fail .numberRange
  | some f => pure (.float (if positive then f else -f))

/-- The digits of an exponent, `e` so far, as long as it fits 32 bits with a sign; none if it does not
    fit, and then the digit that was too much is taken too.  `fuel` bounds the digits. -/
def exponentDigits (e : Nat) : Nat → Reader (Option Nat)
  | 0 => pure (some e)
  | fuel + 1 => do
    match ← peek with
    | some c =>
      if c.isDigit then
        skip
        let e := e * 10 + (c.toNat - '0'.toNat)
        if e < Nat.pow 2 31 then exponentDigits e fuel else pure none
      else pure (some e)
    | none => pure (some e)

/-- The exponent after its `e`. -/
def exponentPart (positive : Bool) (n : Nat) (start : Int) : Reader Num := do
  skip
  let up ← match ← peek with
    | some '+' => do skip; pure true
    | some '-' => do skip; pure false
    | _ => pure true
  match ← peek with
  | none => fail .endInValue
  | some c =>
    if !c.isDigit then failAhead .badNumber
    else match ← exponentDigits 0 (← left) with
      | some e => assemble positive n (start + if up then (e : Int) else -(e : Int))
      | none =>
        if n ≠ 0 ∧ up then fail .numberRange
        else
          let _ ← someDigits
          pure (.float (if positive then 0.0 else -0.0))

/-- The number goes on with an exponent or ends. -/
def maybeExponent (positive : Bool) (n : Nat) (e : Int) : Reader Num := do
  match ← peek with
  | some 'e' | some 'E' => exponentPart positive n e
  | _ => assemble positive n e

/-- The digits behind the point. -/
def fractionPart (positive : Bool) (n : Nat) (e : Int) : Reader Num := do
  skip
  let ds ← someDigits
  if ds.isEmpty then
    match ← peek with
    | some _ => failAhead .badNumber
    | none => failAhead .endInValue
  else
    let (m, rest) := gather n ds
    maybeExponent positive m (e - ((ds.length - rest : Nat) : Int))

/-- What follows the digits that a number starts with. -/
def numberEnd (positive : Bool) (ds : List Char) : Reader Num := do
  let (n, rest) := gather 0 ds
  match ← peek with
  | some '.' => fractionPart positive n rest
  | some 'e' | some 'E' => exponentPart positive n rest
  | _ =>
    if rest ≠ 0 then assemble positive n rest
    else if positive then pure (.natural n)
    else if n = 0 ∨ Nat.pow 2 63 < n then pure (.float (-(n.toUInt64.toFloat)))
    else pure (.negative n)

/-- A number; its minus sign, if any, was read. -/
def number (positive : Bool) : Reader Num := do
  match ← peek with
  | none => fail .endInValue
  | some c =>
    if !c.isDigit then failAhead .badNumber
    else
      skip
      let ds ← if c = '0' then do
          match ← peek with
          | some d => if d.isDigit then failAhead .badNumber else pure []
          | none => pure []
        else someDigits
      numberEnd positive (c :: ds)

/-- The value of a hexadecimal digit. -/
def hexValue? (c : Char) : Option Nat :=
  if c.isDigit then some (c.toNat - '0'.toNat)
  else if 'a' ≤ c ∧ c ≤ 'f' then some (c.toNat - 'a'.toNat + 10)
  else if 'A' ≤ c ∧ c ≤ 'F' then some (c.toNat - 'A'.toNat + 10)
  else none

/-- Moves to the end of the text. -/
def toEnd : Reader Unit := fun s => .ok ((), ⟨s.rest.foldl Place.past s.place, []⟩)

/-- The next four bytes as hexadecimal digits. -/
def hexFour : Reader Nat := fun s =>
  match s.rest with
  | a :: b :: c :: d :: _ =>
    match hexValue? a, hexValue? b, hexValue? c, hexValue? d with
    | some a, some b, some c, some d =>
      .ok (((a * 16 + b) * 16 + c) * 16 + d, ⟨s.place.pastBytes 4 s.rest, s.rest.drop 4⟩)
    | _, _, _, _ => failPast 4 .badEscape s
  | few =>
    if 4 ≤ (String.ofList few).utf8ByteSize then failPast 4 .badEscape s
    else (toEnd >>= fun _ => fail .endInString) s

/-- The next character of a string, left in place; the string must not end here. -/
def peekInString : Reader Char := do
  match ← peek with
  | some c => pure c
  | none => fail .endInString

/-- The character written in hexadecimal after `\u`: alone, or as a pair of surrogates. -/
def hexEscape : Reader Char := do
  let n ← hexFour
  if 0xDC00 ≤ n ∧ n ≤ 0xDFFF then fail .loneSurrogate
  else if n < 0xD800 ∨ 0xDBFF < n then pure (Char.ofNat n)
  else
    if (← peekInString) ≠ '\\' then failAhead .brokenPair
    skip
    if (← peekInString) ≠ 'u' then failAhead .brokenPair
    skip
    let m ← hexFour
    if m < 0xDC00 ∨ 0xDFFF < m then fail .loneSurrogate
    else pure (Char.ofNat (0x10000 + (n - 0xD800) * 0x400 + (m - 0xDC00)))

/-- The character that a letter after a backslash stands for. -/
def escapeLetter? : Char → Option Char
  | '"' => some '"'
  | '\\' => some '\\'
  | '/' => some '/'
  | 'b' => some '\x08'
  | 'f' => some '\x0c'
  | 'n' => some '\n'
  | 'r' => some '\r'
  | 't' => some '\t'
  | _ => none

/-- The rest of a string, its opening quote read; `fuel` bounds its length.  With `keep` off, escapes
    are checked as far as their letters and digits go, and what they stand for does not matter; a
    control character is then reported where it starts, else where it ends. -/
def stringRest (keep : Bool) : Nat → Reader (List Char)
  | 0 => fail .endInString
  | fuel + 1 => do
    match ← peek with
    | none => fail .endInString
    | some '"' => do skip; pure []
    | some '\\' => do
      skip
      let c ← peekInString
      let d ← if c = 'u' then do
          skip
          if keep then hexEscape else do let _ ← hexFour; pure ' '
        else match escapeLetter? c with
          | some d => do skip; pure d
          | none => failAhead .badEscape
      return d :: (← stringRest keep fuel)
    | some c =>
      if c.toNat < 0x20 then if keep then failAhead .controlCharacter else fail .controlCharacter
      else
        skip
        return c :: (← stringRest keep fuel)

/-- A string, its opening quote read. -/
def string : Reader String := do
  return String.ofList (← stringRest true ((← left) + 1))

/-- A string that is not looked at, its opening quote read. -/
def skipString : Reader Unit := do
  let _ ← stringRest false ((← left) + 1)

end Reader

end MediaBackup.Json

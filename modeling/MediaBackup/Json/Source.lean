/-
  A JSON text while it is read: where the reader stands, what is left, and what can be wrong.

  Places count lines from 1 and, within a line, the BYTES read so far.  A fault is placed where the
  reader stands, or one byte further when it concerns a character that was only looked at.
-/

namespace MediaBackup.Json

/-- A place in a text. -/
structure Place where
  line : Nat
  column : Nat
deriving DecidableEq, Repr, Inhabited

/-- The place after `c`. -/
def Place.past (p : Place) (c : Char) : Place :=
  if c = '\n' then ⟨p.line + 1, 0⟩ else ⟨p.line, p.column + c.utf8Size⟩

/-- The place `bytes` further in a text, which may be within a character. -/
def Place.pastBytes (p : Place) (bytes : Nat) : List Char → Place
  | [] => p
  | c :: r => if c.utf8Size ≤ bytes then (p.past c).pastBytes (bytes - c.utf8Size) r else ⟨p.line, p.column + bytes⟩

/-- The rest of a text and where it starts. -/
structure Source where
  place : Place
  rest : List Char
deriving Inhabited

/-- A text before any of it is read. -/
def Source.ofString (s : String) : Source := ⟨⟨1, 0⟩, s.toList⟩

/-- The three ways in which reading fails. -/
inductive FaultClass where
  /-- The text is not well formed. -/
  | malformed
  /-- The text is well formed so far and says something else than was asked for. -/
  | mismatch
  /-- The text ends early. -/
  | ended
deriving DecidableEq, Repr

/-- What is wrong. -/
inductive Cause where
  | endInList
  | endInObject
  | endInString
  | endInValue
  | expectedColon
  | expectedListEnd
  | expectedObjectEnd
  | expectedWord
  | expectedValue
  | badEscape
  | badNumber
  | numberRange
  | controlCharacter
  | keyNotString
  | loneSurrogate
  | brokenPair
  | trailingComma
  | trailingCharacters
  | tooDeep
  /-- What was found, and what was asked for. -/
  | wrongType (found wanted : String)
  | wrongValue (found wanted : String)
  | missingField (name : String)
  | duplicateField (name : String)
  | unknownVariant (name : String)
  | wrongLength (length : Nat) (wanted : String)
deriving DecidableEq, Repr

namespace Cause

/-- Which of the three ways it is. -/
def faultClass : Cause → FaultClass
  | endInList | endInObject | endInString | endInValue => .ended
  | wrongType _ _ | wrongValue _ _ | missingField _ | duplicateField _ | unknownVariant _
  | wrongLength _ _ => .mismatch
  | _ => .malformed

/-- The fault in words. -/
def message : Cause → String
  | endInList => "EOF while parsing a list"
  | endInObject => "EOF while parsing an object"
  | endInString => "EOF while parsing a string"
  | endInValue => "EOF while parsing a value"
  | expectedColon => "expected `:`"
  | expectedListEnd => "expected `,` or `]`"
  | expectedObjectEnd => "expected `,` or `\x7d`"
  | expectedWord => "expected ident"
  | expectedValue => "expected value"
  | badEscape => "invalid escape"
  | badNumber => "invalid number"
  | numberRange => "number out of range"
  | controlCharacter => "control character (\\u0000-\\u001F) found while parsing a string"
  | keyNotString => "key must be a string"
  | loneSurrogate => "lone leading surrogate in hex escape"
  | brokenPair => "unexpected end of hex escape"
  | trailingComma => "trailing comma"
  | trailingCharacters => "trailing characters"
  | tooDeep => "recursion limit exceeded"
  | wrongType found wanted => "invalid type: " ++ found ++ ", expected " ++ wanted
  | wrongValue found wanted => "invalid value: " ++ found ++ ", expected " ++ wanted
  | missingField name => "missing field `" ++ name ++ "`"
  | duplicateField name => "duplicate field `" ++ name ++ "`"
  | unknownVariant name => "unknown variant `" ++ name ++ "`"
  | wrongLength n wanted => "invalid length " ++ toString n ++ ", expected " ++ wanted

end Cause

/-- A fault and where it was found. -/
structure Fault where
  cause : Cause
  place : Place
deriving DecidableEq, Repr

/-- The fault in words, with its place. -/
def Fault.message (f : Fault) : String :=
  f.cause.message ++ " at line " ++ toString f.place.line ++ " column " ++ toString f.place.column

/-- Reading: a value and what is left, or the first fault. -/
abbrev Reader (α : Type) := StateT Source (Except Fault) α

namespace Source

/-- The place one byte further, if there is one. -/
def peekPlace (s : Source) : Place :=
  match s.rest with
  | [] => s.place
  | c :: _ => if c = '\n' then ⟨s.place.line + 1, 0⟩ else ⟨s.place.line, s.place.column + 1⟩

/-- Leaves out the blanks of JSON, starting at `p`. -/
def unblank (p : Place) : List Char → Source
  | [] => ⟨p, []⟩
  | c :: r =>
    if c = ' ' ∨ c = '\n' ∨ c = '\t' ∨ c = '\r' then unblank (p.past c) r else ⟨p, c :: r⟩

end Source

namespace Reader

/-- Fails where the reader stands. -/
def fail {α : Type} (cause : Cause) : Reader α := fun s => .error ⟨cause, s.place⟩

/-- Fails at the character that was looked at. -/
def failAhead {α : Type} (cause : Cause) : Reader α := fun s => .error ⟨cause, s.peekPlace⟩

/-- Fails `bytes` further, which may be within a character. -/
def failPast {α : Type} (bytes : Nat) (cause : Cause) : Reader α := fun s =>
  .error ⟨cause, s.place.pastBytes bytes s.rest⟩

/-- The next character, left in place. -/
def peek : Reader (Option Char) := fun s => .ok (s.rest.head?, s)

/-- The next character after blanks, left in place. -/
def peekPastBlank : Reader (Option Char) := fun s =>
  let t := Source.unblank s.place s.rest
  .ok (t.rest.head?, t)

/-- Takes the next character, if there is one. -/
def next : Reader (Option Char) := fun s =>
  match s.rest with
  | [] => .ok (none, s)
  | c :: r => .ok (some c, ⟨s.place.past c, r⟩)

/-- Moves past the next character. -/
def skip : Reader Unit := do
  let _ ← next

/-- How many characters are left. -/
def left : Reader Nat := fun s => .ok (s.rest.length, s)

/-- Reads a whole text. -/
def run {α : Type} (r : Reader α) (text : String) : Except Fault α :=
  (r (Source.ofString text)).map Prod.fst

end Reader

end MediaBackup.Json

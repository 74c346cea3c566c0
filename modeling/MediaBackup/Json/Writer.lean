import MediaBackup.Decimal.Text
import MediaBackup.Text.Quoted

/-
  JSON as it is written: compact, members in the order given.
-/

namespace MediaBackup.Json

/-- One character of a string.  Quotes and backslashes go behind a backslash, controls by letter or
    by number; all else stands as it is. -/
def writeChar (c : Char) : List Char :=
  match c with
  | '"' => ['\\', '"']
  | '\\' => ['\\', '\\']
  | '\x08' => ['\\', 'b']
  | '\x0c' => ['\\', 'f']
  | '\n' => ['\\', 'n']
  | '\r' => ['\\', 'r']
  | '\t' => ['\\', 't']
  | c =>
    if c.toNat < 0x20 then
      ['\\', 'u', '0', '0'] ++ (if c.toNat < 0x10 then ['0'] else []) ++ Text.hex c.toNat
    else [c]

/-- A string between its quotes. -/
def writeString (s : String) : String :=
  String.ofList ('"' :: s.toList.flatMap writeChar ++ ['"'])

/-- `true` or `false`. -/
def writeBool (b : Bool) : String := if b then "true" else "false"

/-- A float; what is no number is written `null`. -/
def writeFloat (f : Float) : String :=
  if f.isNaN || f.isInf then "null" else Decimal.inJson.write f

/-- A string or `null`. -/
def writeOption : Option String → String
  | none => "null"
  | some s => writeString s

/-- An object from its members, whose values are written already. -/
def writeObject (members : List (String × String)) : String :=
  "\x7b" ++ String.intercalate "," (members.map fun m => writeString m.1 ++ ":" ++ m.2) ++ "\x7d"

end MediaBackup.Json

import MediaBackup.Text.Visible

/-
  Quoted text, and values shown by their fields.

  `quoted` writes a text between double quotes so that every character can be told: quote and
  backslash behind a backslash, the usual controls by letter, and hidden characters by code point.
  `record` writes a value as its name and its fields in order.
-/

namespace MediaBackup.Text

/-- The hexadecimal digits of `n`, lower case, no leading zeros. -/
def hex (n : Nat) : List Char := Nat.toDigits 16 n

/-- One character of a quoted text. -/
def quoteChar (c : Char) : List Char :=
  match c with
  | '\x00' => ['\\', '0']
  | '\t' => ['\\', 't']
  | '\r' => ['\\', 'r']
  | '\n' => ['\\', 'n']
  | '"' => ['\\', '"']
  | '\\' => ['\\', '\\']
  | c =>
    if isVisible c then [c]
    else ['\\', 'u', '\x7b'] ++ hex c.toNat ++ ['\x7d']

/-- `s` between quotes. -/
def quoted (s : String) : String :=
  String.ofList ('"' :: s.toList.flatMap quoteChar ++ ['"'])

/-- A value that may be missing. -/
def shown (inner : String) : String := "Some(" ++ inner ++ ")"

/-- An optional text, quoted if present. -/
def quotedOption : Option String → String
  | none => "None"
  | some s => shown (quoted s)

/-- A value as its name and its fields: `Name \x7b a: 1, b: 2 \x7d`. -/
def record (name : String) (fields : List (String × String)) : String :=
  name ++ " \x7b " ++ String.intercalate ", " (fields.map fun f => f.1 ++ ": " ++ f.2) ++ " \x7d"

end MediaBackup.Text

import MediaBackup.Text.Bytes
import MediaBackup.Url.Label
import MediaBackup.Url.NameForm
import MediaBackup.Url.Punycode

/-
  Domain names in ASCII.

  Each character of a name first takes the form that it has in names, and the whole its normal form.  Then
  each label that has a letter beyond ASCII is written in Punycode behind `xn--`.  A label that was written
  so is read, to see that it says what no other spelling says.
-/

namespace MediaBackup.Url.Domain

/-- The ASCII characters that no name may hold. -/
def isForbidden (c : Char) : Bool :=
  c.toNat ≤ 0x20 || c.toNat == 0x7F || ['#', '%', '/', ':', '<', '>', '?', '@', '[', '\\', ']', '^', '|'].contains c

/-- What a label in Punycode starts with. -/
def codeTag : List Char := ['x', 'n', '-', '-']

/-- `c` is one of the plain characters. -/
def isAscii (c : Char) : Bool := c.toNat < 0x80

/-- The longest label that is written in Punycode. -/
def longestWritten : Nat := 1000

/-- The longest code that is read. -/
def longestRead : Nat := 2000

/-- The label of a code: it has a letter beyond ASCII, and all its characters are in the form that they
    have in names. -/
def ofCode? (code : List Char) : Option (List Char) := do
  if longestRead < code.length then none
  else
    let label ← Punycode.decode? code
    if label.all isAscii || nameFormOf label != some label || CodePoint.normalForm label != label then none
    else some label

/-- What a label means, if it may stand in a name; directions are not looked at. -/
def meaning? (label : List Char) : Option (List Char) := do
  let meant ← if codeTag.isPrefixOf label then ofCode? (label.drop codeTag.length) else some label
  if meant.any isForbidden then none
  else if meant.all isAscii || Label.isWellFormed meant then some meant
  else none

/-- A label in ASCII.  One that was written so already stays as it is. -/
def write? (label : List Char) : Option (List Char) :=
  if label.all isAscii then some label
  else if longestWritten < label.length then none
  else some (codeTag ++ Punycode.encode label)

/-- A name in ASCII, given by its bytes; none if it is no name. -/
def toAscii (bytes : List UInt8) : Option (List Char) := do
  let labels := Text.splitAll (· == '.') (CodePoint.normalForm (← nameFormOf (Text.decodeLossy bytes)))
  let meanings ← labels.mapM meaning?
  if meanings.any (·.any Label.runsBack) && !(meanings.all Label.keepsDirection) then none
  else List.intercalate ['.'] <$> labels.mapM write?

end MediaBackup.Url.Domain

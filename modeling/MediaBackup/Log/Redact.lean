import MediaBackup.Text.Bytes
import MediaBackup.Url.Parse

/-
  Values fit to be logged: what may hold a secret is hidden, and left out of URLs.
-/

namespace MediaBackup.Log

/-- What is logged in the place of a secret. -/
def hidden : String := "[REDACTED]"

/-- The words that mark the name of a secret. -/
def secretWords : List String := ["token", "password", "secret", "api_key", "authorization", "bearer"]

/-- A character in small letters, as far as these are ASCII: beyond ASCII, two letters have such a form. -/
def lowerToAscii (c : Char) : List Char :=
  if c.toNat = 0x212A then ['k']
  else if c.toNat = 0x130 then ['i', Char.ofNat 0x307]
  else [Text.lowerAsciiChar c]

/-- The name is one of a secret. -/
def isSecret (name : String) : Bool :=
  let lowered := name.toList.flatMap lowerToAscii
  secretWords.any fun w => Text.occursIn w.toList lowered

/-- A value under its name, hidden if it is a secret. -/
def redact (name value : String) : String := if isSecret name then hidden else value

/-- The last part of a path, whichever slash its system uses. -/
def lastPart (path : String) : String :=
  String.ofList (Text.afterLast (· == '\\') (Text.afterLast (· == '/') path.toList))

end MediaBackup.Log

namespace MediaBackup.Url

/-! ## URLs -/

/-- A path that stands last; blanks at the end of a bare one would not be read back. -/
def Path.atEnd : Path → Path
  | .bare s => .bare (s.reverse.dropWhile (· == ' ')).reverse
  | p => p

/-- The URL has a place for a user: a host with a name, and files have no users. -/
def takesUser (u : Url) : Bool := u.host?.isSome && u.scheme != "file"

/-- The URL without a user's name; none if it has no place for one. -/
def withoutUsername? (u : Url) : Option Url := if u.takesUser then some { u with username := [] } else none

/-- The URL without a password; none if it has no place for one. -/
def withoutPassword? (u : Url) : Option Url := if u.takesUser then some { u with password := [] } else none

/-- A path that nothing follows stands last. -/
def endingInPath (u : Url) : Url := if u.query.isNone && u.fragment.isNone then { u with path := u.path.atEnd } else u

/-- The URL without a query. -/
def withoutQuery (u : Url) : Url := { u with query := none }.endingInPath

/-- The URL without a fragment. -/
def withoutFragment (u : Url) : Url := { u with fragment := none }.endingInPath

/-- The URL without user, query and fragment; that it has no place for a user is no fault. -/
def redacted (u : Url) : Url :=
  let u := u.withoutUsername?.getD u
  let u := u.withoutPassword?.getD u
  u.withoutQuery.withoutFragment

/-- What is logged in the place of a text that is no URL. -/
def unreadable : String := "[invalid url]"

/-- A text that should be a URL, fit to be logged. -/
def redactText (s : String) : String :=
  match parse s with
  | .ok u => u.redacted.text
  | .error _ => unreadable

end MediaBackup.Url

import MediaBackup.Url.Host

/-
  URLs as records of their parts, and how they are written.
-/

namespace MediaBackup

namespace Url

/-- A path. -/
inductive Path where
  /-- Segments, each behind a slash. -/
  | rooted (segments : List (List Char))
  /-- A text that is no list of segments. -/
  | bare (text : List Char)
deriving DecidableEq, Repr, Inhabited

/-- A path in words. -/
def Path.text : Path → List Char
  | rooted segments => segments.flatMap fun s => '/' :: s
  | bare s => s

end Url

/-- A URL. -/
structure Url where
  scheme : String
  username : List Char
  /-- Empty if there is none. -/
  password : List Char
  /-- None if the URL has no place for one; a name may be empty. -/
  host : Option Url.Host
  /-- None for the one that the scheme implies. -/
  port : Option Nat
  path : Url.Path
  query : Option (List Char)
  fragment : Option (List Char)
deriving DecidableEq, Repr, Inhabited

namespace Url

/-- The port that a scheme implies. -/
def impliedPort : String → Option Nat
  | "http" | "ws" => some 80
  | "https" | "wss" => some 443
  | "ftp" => some 21
  | _ => none

/-- The well-known schemes, where a host is needed and both slashes are one. -/
def isWellKnown (scheme : String) : Bool := (impliedPort scheme).isSome || scheme == "file"

/-- The host, if there is one and it is not empty. -/
def host? (u : Url) : Option Host := u.host.filter (· != .name [])

/-- The port, or else the one that the scheme implies. -/
def knownPort (u : Url) : Option Nat := u.port.orElse fun _ => impliedPort u.scheme

/-- Name and password before a host. -/
def userInfo (u : Url) : List Char :=
  if u.username.isEmpty && u.password.isEmpty then []
  else u.username ++ (if u.password.isEmpty then [] else ':' :: u.password) ++ ['@']

/-- What stands before the path.  Without a host, a path that would look like one is set apart. -/
def authority (u : Url) : List Char :=
  match u.host with
  | some h => ['/', '/'] ++ u.userInfo ++ h.text ++
    (match u.port with
      | some p => ':' :: Nat.toDigits 10 p
      | none => [])
  | none => match u.path with
    | .rooted ([] :: _ :: _) => ['/', '.']
    | _ => []

/-- A part with its mark, if there is one. -/
def marked (mark : Char) : Option (List Char) → List Char
  | some s => mark :: s
  | none => []

/-- A URL in words. -/
def text (u : Url) : String :=
  String.ofList (u.scheme.toList ++ ':' :: u.authority ++ u.path.text ++ marked '?' u.query ++ marked '#' u.fragment)

end Url

end MediaBackup

import MediaBackup.Url.Basic

/-
  Reading URLs.

  Blanks around a text and line breaks and tabs in it do not count.  A scheme decides how the rest is read:
  the well-known ones need a host, `file` may go without, and any other scheme has a host only behind
  two slashes.
-/

namespace MediaBackup.Url

/-- The text that counts. -/
def cleaned (s : List Char) : List Char :=
  let isBlank (c : Char) : Bool := c.toNat ≤ 0x20
  let trimmed := ((s.dropWhile isBlank).reverse.dropWhile isBlank).reverse
  trimmed.filter fun c => !(['\t', '\n', '\r'].contains c)

/-- `c` may stand in a scheme. -/
def isSchemeChar (c : Char) : Bool := c.isAlphanum || c == '+' || c == '-' || c == '.'

/-- The scheme in small letters, and what follows its colon. -/
def scheme? : List Char → Option (String × List Char)
  | [] => none
  | c :: r =>
    let name := c :: r.takeWhile isSchemeChar
    if !c.isAlpha then none
    else match r.dropWhile isSchemeChar with
      | ':' :: rest => some (String.ofList (name.map Text.lowerAsciiChar), rest)
      | _ => none

/-- `c` ends the part that names a host. -/
def endsHost (wellKnown : Bool) (c : Char) : Bool := c == '/' || c == '?' || c == '#' || (wellKnown && c == '\\')

/-- `c` separates segments. -/
def isSlash (wellKnown : Bool) (c : Char) : Bool := c == '/' || (wellKnown && c == '\\')

/-! ## Paths -/

/-- The segment stands for the one before. -/
def isUp (s : List Char) : Bool :=
  ["..", "%2e.", ".%2e", "%2e%2e"].contains (String.ofList (s.map Text.lowerAsciiChar))

/-- The segment stands for nothing. -/
def isHere (s : List Char) : Bool := [".", "%2e"].contains (String.ofList (s.map Text.lowerAsciiChar))

/-- The letter of a drive: `C:` or `C|`. -/
def isDrive : List Char → Bool
  | [c, d] => c.isAlpha && (d == ':' || d == '|')
  | _ => false

/-- A segment as it stands in a path.  The drive that a file's path starts with has a colon. -/
def writeSegment (startsFile : Bool) (s : List Char) : List Char :=
  if startsFile && isDrive s then s.take 1 ++ [':'] else percentEncode inPath s

/-- Puts segments behind the ones that stand, the last one first.  The letter of a drive is never taken
    back. -/
def placeSegments (inFile : Bool) : List (List Char) → List (List Char) → List (List Char)
  | stack, [] => stack
  | stack, s :: rest =>
    let close (stack : List (List Char)) := if rest.isEmpty then [] :: stack else stack
    if isUp s then
      let kept := match stack with
        | [] => []
        | d :: lower => if isDrive d then d :: lower else lower
      placeSegments inFile (close kept) rest
    else if isHere s then placeSegments inFile (close stack) rest
    else placeSegments inFile (writeSegment (inFile && stack.isEmpty) s :: stack) rest

/-- Leading empty segments count for nothing, unless one is all there is. -/
def dropEmpty : List (List Char) → List (List Char)
  | [] :: s :: r => dropEmpty (s :: r)
  | r => r

/-- The path of a text that ends where the path does; none of the well-known schemes goes without. -/
def readPath (wellKnown : Bool) (s : List Char) : Path :=
  let body := match s with
    | c :: r => if isSlash wellKnown c then some r else some s
    | [] => if wellKnown then some [] else none
  match body with
  | none => .rooted []
  | some body => .rooted (placeSegments false [] (Text.splitAll (isSlash wellKnown) body)).reverse

/-- The segments of a path in a file. -/
def fileSegments (s : List Char) : List (List Char) := Text.splitAll (isSlash true) s

/-! ## Hosts and ports -/

/-- Name and password, if there is an `@` before the host ends, and what follows. -/
def splitUser (wellKnown : Bool) (s : List Char) : Option (List Char) × List Char :=
  let part := s.takeWhile fun c => !endsHost wellKnown c
  if part.contains '@' then
    let host := (part.reverse.takeWhile (· != '@')).reverse
    let user := part.take (part.length - host.length - 1)
    (some user, s.drop (user.length + 1))
  else (none, s)

/-- How many characters a host has; colons between brackets belong to it. -/
def hostSize (wellKnown : Bool) : Bool → List Char → Nat
  | _, [] => 0
  | inside, c :: r =>
    if endsHost wellKnown c || (c == ':' && !inside) then 0
    else 1 + hostSize wellKnown (if c == '[' then true else if c == ']' then false else inside) r

/-- The greatest port. -/
def lastPort : Nat := 65535

/-- The port behind a colon, and what follows. -/
def readPort (scheme : String) (s : List Char) : Except Fault (Option Nat × List Char) :=
  let digits := s.takeWhile Char.isDigit
  let rest := s.dropWhile Char.isDigit
  let n := (Address.digits? 10 digits).getD 0
  if lastPort < n then .error .badPort
  else match rest with
    | c :: _ =>
      if !(['/', '\\', '?', '#'].contains c) then .error .badPort
      else .ok (if digits.isEmpty || impliedPort scheme == some n then none else some n, rest)
    | [] => .ok (if digits.isEmpty || impliedPort scheme == some n then none else some n, rest)

/-- A URL that has its scheme, host and path; query and fragment are read from what follows. -/
def withRest (u : Url) (s : List Char) : Url :=
  let set := if isWellKnown u.scheme then inSpecialQuery else inQuery
  let (query, rest) := match s with
    | '?' :: r => (some (percentEncode set (r.takeWhile (· != '#'))), r.dropWhile (· != '#'))
    | r => (none, r)
  let fragment := match rest with
    | '#' :: r => some (percentEncode inFragment r)
    | _ => none
  { u with query := query, fragment := fragment }

/-- Splits where the path ends. -/
def splitPath (s : List Char) : List Char × List Char :=
  let goesOn (c : Char) : Bool := c != '?' && c != '#'
  (s.takeWhile goesOn, s.dropWhile goesOn)

/-- A URL without a user, a port, a query and a fragment. -/
def plain (scheme : String) (host : Option Host) (path : Path) : Url := ⟨scheme, [], [], host, none, path, none, none⟩

/-- The host that a text starts with, and what follows.  A host that may go without a name has no port then. -/
def hostAt (wellKnown : Bool) (s : List Char) : Except Fault (Host × List Char) := do
  let size := hostSize wellKnown false s
  let rest := s.drop size
  if wellKnown ∧ (s.take size).isEmpty then throw .emptyHost
  let host ← Host.readAs wellKnown (s.take size)
  if host = .name [] ∧ rest.head? = some ':' then throw .emptyHost
  pure (host, rest)

/-- The port behind a host, if there is one, and what follows. -/
def portAt (scheme : String) : List Char → Except Fault (Option Nat × List Char)
  | ':' :: r => readPort scheme r
  | r => .ok (none, r)

/-- Reads what follows the two slashes before a host. -/
def readHost (scheme : String) (s : List Char) : Except Fault Url := do
  let wellKnown := isWellKnown scheme
  let (user, s) := splitUser wellKnown s
  if user = some [] ∧ (s.head?.map (endsHost wellKnown)) = some true then throw .emptyHost
  let name := (user.getD []).takeWhile (· != ':')
  let password := ((user.getD []).dropWhile (· != ':')).drop 1
  let (host, rest) ← hostAt wellKnown s
  let (port, rest) ← portAt scheme rest
  if host = .name [] ∧ !(name.isEmpty ∧ password.isEmpty) then throw .emptyHost
  let (path, rest) := splitPath rest
  let u := plain scheme (some host) (readPath wellKnown path)
  pure (withRest { u with
    username := percentEncode inUserInfo name, password := percentEncode inUserInfo password, port := port } rest)

/-- What follows the slash that a text may start with. -/
def afterSlash : List Char → List Char
  | [] => []
  | c :: r => if isSlash true c then r else c :: r

/-- The host of a file, if two slashes stand before one, and the text of its segments with what follows.  The name of the
    machine itself is none.  The slash before a path belongs to the segments where slashes stand for a host that has no
    name, so that the first segment is empty then. -/
def fileHost (s : List Char) : Except Fault (Host × List Char) :=
  match s with
  | a :: b :: r =>
    if isSlash true a && isSlash true b then
      let hostText := r.takeWhile fun c => !endsHost true c
      let rest := r.drop hostText.length
      if isDrive hostText || hostText.isEmpty then .ok (.name [], r)
      else do
        let host ← Host.parse hostText
        pure (if host = .name "localhost".toList then (.name [], rest) else (host, afterSlash rest))
    else .ok (.name [], afterSlash s)
  | _ => .ok (.name [], afterSlash s)

/-- The path of a file from the text of its segments.  A drive that stands first puts the host aside. -/
def fileAt (host : Host) (s : List Char) : Host × Path :=
  let segments := (placeSegments true [] (fileSegments s)).reverse
  (if segments.head?.any isDrive then .name [] else host, .rooted (dropEmpty segments))

/-- Reads what follows the scheme of a file. -/
def readFile (s : List Char) : Except Fault Url := do
  let (host, rest) ← fileHost s
  let (path, rest) := splitPath rest
  let (host, path) := fileAt host path
  pure (withRest (plain "file" (some host) path) rest)

/-- Reads what follows a scheme. -/
def readAfter (scheme : String) (rest : List Char) : Except Fault Url :=
  if scheme = "file" then readFile rest
  else if isWellKnown scheme then readHost scheme (rest.dropWhile (isSlash true))
  else match rest with
    | '/' :: '/' :: r => readHost scheme r
    | '/' :: _ =>
      let (path, rest) := splitPath rest
      .ok (withRest (plain scheme none (readPath (isWellKnown scheme) path)) rest)
    | _ =>
      let (path, rest) := splitPath rest
      .ok (withRest (plain scheme none (.bare (percentEncode isControl path))) rest)

/-- Reads a URL. -/
def parse (s : String) : Except Fault Url :=
  match scheme? (cleaned s.toList) with
  | none => .error .relative
  | some (scheme, rest) => readAfter scheme rest

end MediaBackup.Url

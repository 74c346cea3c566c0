import MediaBackup.Url.Domain
import MediaBackup.Url.Percent

/-
  Hosts in URLs.

  Between brackets stands an address of eight pieces.  In the well-known schemes a name whose last label is
  a number is an address of four bytes, whatever the base and the number of its parts; any other
  name is a domain.  In other schemes a host is just a text.
-/

namespace MediaBackup.Url

/-- Why a text is no URL. -/
inductive Fault where
  | relative
  | emptyHost
  | badDomain
  | badCharacter
  | badPort
  | badAddress
  | badWideAddress
deriving DecidableEq, Repr

/-- The fault in words. -/
def Fault.message : Fault → String
  | relative => "relative URL without a base"
  | emptyHost => "empty host"
  | badDomain => "invalid international domain name"
  | badCharacter => "invalid domain character"
  | badPort => "invalid port number"
  | badAddress => "invalid IPv4 address"
  | badWideAddress => "invalid IPv6 address"

/-- A host. -/
inductive Host where
  /-- A domain, or the text of a host in an unknown scheme; it may be empty. -/
  | name (text : List Char)
  /-- An address of four bytes. -/
  | address (value : Nat)
  /-- An address of eight pieces of two bytes. -/
  | wideAddress (pieces : List Nat)
deriving DecidableEq, Repr, Inhabited

/-! ## Addresses of four bytes -/

namespace Address

/-- The greatest address. -/
def last : Nat := UInt32.size - 1

/-- The value of digits in a base; none if one is no digit of it. -/
def digits? (base : Nat) (s : List Char) : Option Nat :=
  s.foldl (fun acc c => do
    let n ← acc
    let d ← hexValue? c
    if d < base then some (n * base + d) else none) (some 0)

/-- A part of an address: hexadecimal behind `0x`, octal behind `0`, else decimal. -/
def part? : List Char → Option Nat
  | [] => none
  | '0' :: 'x' :: r | '0' :: 'X' :: r => digits? 16 r
  | '0' :: c :: r => digits? 8 (c :: r)
  | s => digits? 10 s

/-- The parts of a name; a last empty one does not count. -/
def parts (s : List Char) : List (List Char) :=
  let all := Text.splitAll (· == '.') s
  if all.getLast? = some [] then all.dropLast else all

/-- The name is to be read as an address. -/
def isMeant (s : List Char) : Bool :=
  match (parts s).getLast? with
  | none => false
  | some p => (!p.isEmpty && p.all Char.isDigit) || (part? p).isSome

/-- The bytes of leading parts, and the last part, which fills up what is left. -/
def assemble (fullSize : Nat) : List Nat → Option Nat
  | [] => none
  | [n] => if n < Nat.pow 256 fullSize then some n else none
  | n :: ns => do
    let rest ← assemble (fullSize - 1) ns
    if n ≤ 255 then some (n * Nat.pow 256 (fullSize - 1) + rest) else none

/-- The address that a name stands for. -/
def parse? (s : List Char) : Option Nat := do
  let ps := parts s
  if 4 < ps.length then none
  else assemble 4 (← ps.mapM part?)

/-- An address in words. -/
def text (n : Nat) : List Char :=
  List.intercalate ['.'] ([n / Nat.pow 256 3, n / Nat.pow 256 2 % 256, n / 256 % 256, n % 256].map (Nat.toDigits 10))

end Address

/-! ## Addresses of eight pieces -/

namespace WideAddress

/-- The pieces read so far, the last one first, and where the gap of zeros is. -/
structure Reading where
  pieces : List Nat
  /-- How many pieces stand before the gap. -/
  gap : Option Nat

/-- A byte in decimal, without leading zeros. -/
def byte? (s : List Char) : Option Nat :=
  match s with
  | [] => none
  | '0' :: _ :: _ => none
  | s => (Address.digits? 10 s).filter (· ≤ 255)

/-- Two pieces written as four bytes in decimal. -/
def tail? (s : List Char) : Option (Nat × Nat) :=
  match (Text.splitAll (· == '.') s).mapM byte? with
  | some [a, b, c, d] => some (a * 256 + b, c * 256 + d)
  | _ => none

/-- Reads pieces from the start of a piece. -/
def readPieces (r : Reading) (s : List Char) : Option Reading :=
  match s with
  | [] => some r
  | ':' :: rest =>
    if 8 ≤ r.pieces.length + (if r.gap.isSome then 1 else 0) ∨ r.gap.isSome then none
    else readPieces { r with gap := some r.pieces.length } rest
  | c :: cs =>
    let size := r.pieces.length + (if r.gap.isSome then 1 else 0)
    let four := (c :: cs).take 4
    let digits := four.takeWhile fun c => (hexValue? c).isSome
    let value := (Address.digits? 16 digits).getD 0
    if 8 ≤ size then none
    else match _h : (c :: cs).drop digits.length with
      | [] => if digits.isEmpty then none else some { r with pieces := value :: r.pieces }
      | '.' :: _ =>
        if digits.isEmpty ∨ 6 < size then none
        else (tail? (c :: cs)).map fun (x, y) => { r with pieces := y :: x :: r.pieces }
      | ':' :: d :: more =>
        if digits.isEmpty then none
        else readPieces { r with pieces := value :: r.pieces } (d :: more)
      | _ => none
termination_by s.length
decreasing_by
  · simp
  · have := congrArg List.length _h
    simp only [List.length_drop, List.length_cons] at this ⊢
    omega

/-- Reads an address from its start. -/
def read? : List Char → Option Reading
  | ':' :: ':' :: rest => readPieces ⟨[], some 0⟩ rest
  | ':' :: _ => none
  | [] | [_] => none
  | s => readPieces ⟨[], none⟩ s

/-- The eight pieces of a reading: zeros fill up the gap. -/
def Reading.filled? (r : Reading) : Option (List Nat) :=
  let pieces := r.pieces.reverse
  match r.gap with
  | none => if pieces.length = 8 then some pieces else none
  | some at_ =>
    if 8 < pieces.length + 1 then none
    else some (pieces.take at_ ++ List.replicate (8 - pieces.length) 0 ++ pieces.drop at_)

/-- The pieces of an address without its brackets. -/
def parse? (s : List Char) : Option (List Nat) := (read? s).bind Reading.filled?

/-- How many zeros a list starts with. -/
def zeroRun (ps : List Nat) : Nat := (ps.takeWhile (· == 0)).length

/-- Where the longest run of zeros starts, the first of several, and its length. -/
def longestRun : List Nat → Nat → Nat × Nat
  | [], _ => (0, 0)
  | p :: ps, at_ =>
    let here := zeroRun (p :: ps)
    let later := longestRun ps (at_ + 1)
    if here < later.2 then later else (at_, here)

/-- Pieces between colons. -/
def joined (ps : List Nat) : List Char := List.intercalate [':'] (ps.map (Nat.toDigits 16))

/-- An address in words, its longest run of several zeros left out. -/
def text (ps : List Nat) : List Char :=
  let (at_, size) := longestRun ps 0
  let body :=
    if size < 2 then joined ps else joined (ps.take at_) ++ [':', ':'] ++ joined (ps.drop (at_ + size))
  '[' :: body ++ [']']

end WideAddress

namespace Host

/-- What no host of an unknown scheme may hold. -/
def isForbidden (c : Char) : Bool :=
  ['\x00', '\t', '\n', '\r', ' ', '#', '/', ':', '<', '>', '?', '@', '[', '\\', ']', '^', '|'].contains c

/-- An address between brackets. -/
def bracketed (s : List Char) : Except Fault Host :=
  if s.getLast? != some ']' then .error .badWideAddress
  else match WideAddress.parse? s.dropLast with
    | some pieces => .ok (.wideAddress pieces)
    | none => .error .badWideAddress

/-- A host in a well-known scheme. -/
def parse : List Char → Except Fault Host
  | '[' :: r => bracketed r
  | s =>
    match Domain.toAscii (percentDecode s) with
    | none => .error .badDomain
    | some [] => .error .emptyHost
    | some d =>
      if Address.isMeant d then
        match Address.parse? d with
        | some n => .ok (.address n)
        | none => .error .badAddress
      else .ok (.name d)

/-- A host in an unknown scheme. -/
def parseAny : List Char → Except Fault Host
  | '[' :: r => bracketed r
  | s => if s.any isForbidden then .error .badCharacter else .ok (.name (percentEncode isControl s))

/-- A host in a scheme of either kind. -/
def readAs (wellKnown : Bool) (s : List Char) : Except Fault Host := if wellKnown then parse s else parseAny s

/-- A host in words. -/
def text : Host → List Char
  | name s => s
  | address n => Address.text n
  | wideAddress ps => WideAddress.text ps

end Host

end MediaBackup.Url

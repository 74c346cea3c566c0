/-
  Text kept in bytes.

  A `Char` list is the view of a text used throughout this library; this module holds what is
  said of the BYTES behind it: the encoding of a text, its length in bytes, the order of texts by
  their bytes, and the reading of arbitrary bytes as text, where each maximal part that is not
  valid becomes one replacement character.
-/

namespace MediaBackup.Text

/-- The bytes of one character. -/
def encodeChar (c : Char) : List UInt8 :=
  let n := c.toNat
  if n < 0x80 then [n.toUInt8]
  else if n < 0x800 then [(0xC0 + n / 0x40).toUInt8, (0x80 + n % 0x40).toUInt8]
  else if n < 0x10000 then
    [(0xE0 + n / 0x1000).toUInt8, (0x80 + n / 0x40 % 0x40).toUInt8, (0x80 + n % 0x40).toUInt8]
  else
    [(0xF0 + n / 0x40000).toUInt8, (0x80 + n / 0x1000 % 0x40).toUInt8,
     (0x80 + n / 0x40 % 0x40).toUInt8, (0x80 + n % 0x40).toUInt8]

/-- The bytes of a text. -/
def encode (s : List Char) : List UInt8 := s.flatMap encodeChar

/-- How many bytes a text takes. -/
def size (s : String) : Nat := s.utf8ByteSize

/-- The character that stands for bytes that are no text. -/
def replacement : Char := Char.ofNat 0xFFFD

/-- `lo ≤ b ≤ hi`. -/
def within (lo hi b : UInt8) : Bool := decide (lo ≤ b) && decide (b ≤ hi)

/-- `b` continues a character. -/
def isContinuation (b : UInt8) : Bool := within 0x80 0xBF b

/-- The values that the SECOND byte may take after a first byte that starts a character of
    several bytes, with how many bytes follow in all: overlong forms, surrogates and code points
    past the last one are cut off here, so a later byte only has to be a continuation. -/
def leadRange (b : UInt8) : Option (Nat × UInt8 × UInt8) :=
  if within 0xC2 0xDF b then some (1, 0x80, 0xBF)
  else if b = 0xE0 then some (2, 0xA0, 0xBF)
  else if within 0xE1 0xEC b || within 0xEE 0xEF b then some (2, 0x80, 0xBF)
  else if b = 0xED then some (2, 0x80, 0x9F)
  else if b = 0xF0 then some (3, 0x90, 0xBF)
  else if within 0xF1 0xF3 b then some (3, 0x80, 0xBF)
  else if b = 0xF4 then some (3, 0x80, 0x8F)
  else none

/-- The bytes of a character after its first one: `value` holds the bits read so far.  The second
    component is what is left; it never grows. -/
def readTail (count value : Nat) (lo hi : UInt8) : List UInt8 → Char × List UInt8
  | [] => (if count = 0 then Char.ofNat value else replacement, [])
  | b :: r =>
    if count = 0 then (Char.ofNat value, b :: r)
    else if within lo hi b then readTail (count - 1) (value * 0x40 + b.toNat % 0x40) 0x80 0xBF r
    else (replacement, b :: r)

theorem readTail_length_le (bs : List UInt8) :
    ∀ count value lo hi, (readTail count value lo hi bs).2.length ≤ bs.length := by
  induction bs with
  | nil => intros; simp [readTail]
  | cons b r ih =>
    intro count value lo hi
    simp only [readTail]
    split
    · simp
    · split
      · exact Nat.le_succ_of_le (ih _ _ _ _)
      · simp

/-- Reads bytes as text.  A byte that starts no character, and a character that breaks off, each
    give ONE replacement character; reading goes on at the byte that broke it. -/
def decodeLossy : List UInt8 → List Char
  | [] => []
  | b :: r =>
    if b < 0x80 then Char.ofNat b.toNat :: decodeLossy r
    else match leadRange b with
      | none => replacement :: decodeLossy r
      | some (count, lo, hi) =>
        let value := if count = 1 then b.toNat % 0x20 else if count = 2 then b.toNat % 0x10 else b.toNat % 0x08
        let step := readTail count value lo hi r
        step.1 :: decodeLossy step.2
termination_by bs => bs.length
decreasing_by
  · simp
  · simp
  · exact Nat.lt_succ_of_le (readTail_length_le _ _ _ _ _)

/-- Where bytes stop being text: how many before were, and how many the part that is not valid has; none
    if the bytes end within a character. -/
structure Break where
  validUpTo : Nat
  length : Option Nat
deriving DecidableEq, Repr

/-- The first break in bytes that come after `offset` valid ones. -/
def firstBreak (offset : Nat) : List UInt8 → Option Break
  | [] => none
  | b :: r =>
    if b < 0x80 then firstBreak (offset + 1) r
    else match leadRange b with
      | none => some ⟨offset, some 1⟩
      | some (count, lo, hi) =>
        let step := readTail count 0 lo hi r
        let taken := r.length - step.2.length
        if taken = count then firstBreak (offset + taken + 1) step.2
        else some ⟨offset, if step.2.isEmpty then none else some (taken + 1)⟩
termination_by bs => bs.length
decreasing_by
  · simp
  · exact Nat.lt_succ_of_le (readTail_length_le _ _ _ _ _)

/-- The break in words. -/
def Break.message (b : Break) : String :=
  match b.length with
  | some n =>
    "invalid utf-8 sequence of " ++ toString n ++ " bytes from index " ++ toString b.validUpTo
  | none => "incomplete utf-8 byte sequence from index " ++ toString b.validUpTo

/-- Bytes shown as text. -/
def showBytes (bs : List UInt8) : String := String.ofList (decodeLossy bs)

/-- A text in two at so many bytes from its start; none if that is within a character or behind the end. -/
def splitAt? : Nat → List Char → Option (List Char × List Char)
  | 0, s => some ([], s)
  | _ + 1, [] => none
  | n + 1, c :: r =>
    if c.utf8Size ≤ n + 1 then (splitAt? (n + 1 - c.utf8Size) r).map fun (a, b) => (c :: a, b) else none
termination_by _ s => s.length

theorem append_of_splitAt? (s : List Char) :
    ∀ {n : Nat} {a b : List Char}, splitAt? n s = some (a, b) → a ++ b = s := by
  induction s with
  | nil =>
    intro n a b h
    cases n <;> simp_all [splitAt?]
  | cons c r ih =>
    intro n a b h
    cases n with
    | zero => simp_all [splitAt?]
    | succ n =>
      rw [splitAt?] at h
      split at h
      · obtain ⟨p, hp, he⟩ := Option.map_eq_some_iff.1 h
        obtain ⟨rfl, rfl⟩ := Prod.mk.inj he
        exact congrArg (c :: ·) (ih hp)
      · cases h

/-- The order of texts by their bytes.  Code points and bytes sort alike, so the texts are compared
    character by character, the shorter of two that agree first. -/
def le (s t : String) : Bool := decide (s ≤ t)

/-- One ASCII letter in lower case; every other character stays. -/
def lowerAsciiChar (c : Char) : Char :=
  if 'A' ≤ c ∧ c ≤ 'Z' then Char.ofNat (c.toNat + 32) else c

/-- ASCII letters in lower case; every other character stays. -/
def lowerAscii (s : String) : String := String.ofList (s.toList.map lowerAsciiChar)

/-- `t` occurs somewhere in `s`. -/
def occursIn (t : List Char) : List Char → Bool
  | [] => t.isEmpty
  | c :: r => t.isPrefixOf (c :: r) || occursIn t r

/-- The part after the last character of `s` that satisfies `p`; all of `s` if there is none. -/
def afterLast (p : Char → Bool) (s : List Char) : List Char :=
  (s.reverse.takeWhile fun c => !p c).reverse

/-- The parts of a list between the elements that satisfy `p`; one part more than there are such
    elements, so an empty list has one empty part. -/
def splitAll {α : Type} (p : α → Bool) : List α → List (List α)
  | [] => [[]]
  | c :: r =>
    if p c then [] :: splitAll p r
    else match splitAll p r with
      | [] => [[c]]
      | part :: parts => (c :: part) :: parts

end MediaBackup.Text

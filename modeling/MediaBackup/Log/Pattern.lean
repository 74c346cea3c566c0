import MediaBackup.Log.Pattern.Letters

/-
  Patterns of texts, and what they match.

  Where a pattern may match in several ways, they have an order: the left alternative comes before the right
  one, and one repetition more before one less, unless a repetition is not greedy.  A text fits a pattern if
  the first of all ways to match from its start takes it to its end.
-/

namespace MediaBackup.Log

/-- A place between characters. -/
inductive Place where
  | start
  | finish
  | lineStart
  | lineEnd
  /-- One side is within an ASCII word, the other is not. -/
  | wordBorder
  | noWordBorder
  | wordStart
  | wordEnd
deriving DecidableEq, Repr

/-- A pattern. -/
inductive Pattern where
  | empty
  | one (letters : Letters)
  | at_ (place : Place)
  | seq (p q : Pattern)
  | either (p q : Pattern)
  /-- Left out or not; `isGreedy` if it is taken first. -/
  | maybe (p : Pattern) (isGreedy : Bool)
  /-- Any number of times; `isGreedy` if more come first. -/
  | many (p : Pattern) (isGreedy : Bool)
deriving DecidableEq, Repr

/-- A place between what was read, the last first, and what is left. -/
def Place.isBetween (read left : List Char) : Place → Bool
  | start => read.isEmpty
  | finish => left.isEmpty
  | lineStart => read.head?.all (· == '\n')
  | lineEnd => left.head?.all (· == '\n')
  | wordBorder => isWord read != isWord left
  | noWordBorder => isWord read == isWord left
  | wordStart => !isWord read && isWord left
  | wordEnd => isWord read && !isWord left
where
  /-- The nearest character is one of words. -/
  isWord (s : List Char) : Bool := s.head?.any Letters.wordLetters.holds

namespace Pattern

/-- Two lots of ways, the greedy one first. -/
def inOrder (isGreedy : Bool) (taken left : List (List Char)) : List (List Char) :=
  if isGreedy then (taken ++ left).eraseDups else (left ++ taken).eraseDups

/-- What is left after `step`, done any number of times.  A step that takes nothing is the last one. -/
def repeated (step : List Char → List (List Char)) (isGreedy : Bool) : Nat → List Char → List (List Char)
  | 0, s => [s]
  | n + 1, s =>
    inOrder isGreedy ((step s).flatMap fun r => if r.length < s.length then repeated step isGreedy n r else [r]) [s]

/-- What is left of the end `s` of a text after the pattern, in the order of the ways to match. -/
def rests (text : List Char) : Pattern → List Char → List (List Char)
  | empty, s => [s]
  | one _, [] => []
  | one l, c :: r => if l.holds c then [r] else []
  | at_ place, s => if place.isBetween (text.take (text.length - s.length)).reverse s then [s] else []
  | seq p q, s => ((p.rests text s).flatMap (q.rests text)).eraseDups
  | either p q, s => inOrder true (p.rests text s) (q.rests text s)
  | maybe p greedy, s => inOrder greedy (p.rests text s) [s]
  | many p greedy, s => repeated (p.rests text) greedy s.length s

/-- A text fits. -/
def fits (p : Pattern) (s : List Char) : Bool := (p.rests s s).head? == some []

theorem fits_empty (s : List Char) : empty.fits s = s.isEmpty := by cases s <;> rfl

theorem fits_one (l : Letters) (c : Char) : (one l).fits [c] = l.holds c := by
  unfold fits rests
  split <;> simp_all

end Pattern

end MediaBackup.Log

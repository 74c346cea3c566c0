import MediaBackup.CodePoint.Direction
import MediaBackup.CodePoint.Joining
import MediaBackup.CodePoint.NormalForm

/-
  What a label beyond ASCII may look like.

  A label does not start with a mark.  The two characters without a form that rule joining stand where
  they have an effect.  And if any label of a name runs from right to left, each of its labels must keep
  to one direction, so that it looks the same wherever it is shown.
-/

namespace MediaBackup.Url.Label

open CodePoint (Direction directionOf)

/-- The character before, in a text whose last character comes first, takes the vowel of a letter away. -/
def followsVirama : List Char → Bool
  | c :: _ => CodePoint.combiningClass c.toNat == CodePoint.viramaClass
  | [] => false

/-- Each character that rules joining stands where it may; `before` is what precedes, the last
    character first. -/
def joinersStand (before : List Char) : List Char → Bool
  | [] => true
  | c :: r =>
    let here :=
      if c = CodePoint.nonJoiner then
        followsVirama before ||
          (CodePoint.meets CodePoint.joinsAfter before && CodePoint.meets CodePoint.joinsBefore r)
      else c != CodePoint.joiner || followsVirama before
    here && joinersStand (c :: before) r

/-- A label may look like this, directions apart. -/
def isWellFormed : List Char → Bool
  | [] => true
  | c :: r => !(CodePoint.marks.contains c) && joinersStand [] (c :: r)

/-! ## Directions -/

/-- A character that makes its name one that runs from right to left. -/
def runsBack (c : Char) : Bool := directionOf c == .rightToLeft || directionOf c == .arabicNumber

/-- In a label that runs from left to right: what may stand inside, and what at the end. -/
def fitsForward (atEnd : Bool) : Direction → Bool
  | .leftToRight | .europeanNumber => true
  | .mark | .neutral => !atEnd
  | .rightToLeft | .arabicNumber => false

/-- In a label that runs from right to left: what may stand inside, and what at the end. -/
def fitsBackward (atEnd : Bool) : Direction → Bool
  | .rightToLeft | .europeanNumber | .arabicNumber => true
  | .mark | .neutral => !atEnd
  | .leftToRight => false

/-- What follows the first character of a label fits: the last character that is no mark may stand at the
    end, and those before it inside. -/
def restFits (fits : Bool → Direction → Bool) (rest : List Direction) : Bool :=
  match rest.reverse.dropWhile (· == .mark) with
  | [] => true
  | last :: inside => fits true last && inside.all (fits false)

/-- A label keeps to one direction.  Backward, it has numbers of one kind at most. -/
def keepsDirection (label : List Char) : Bool :=
  match label.map directionOf with
  | [] => true
  | .leftToRight :: r => restFits fitsForward r
  | .rightToLeft :: r =>
    restFits fitsBackward r && !(r.contains .europeanNumber && r.contains .arabicNumber)
  | _ => false

end MediaBackup.Url.Label

/-
  Classes of characters.

  A class is made of ranges, of what is outside of another class, and of two classes together.
-/

namespace MediaBackup.Log

/-- A class of characters. -/
inductive Letters where
  /-- The characters from one to another. -/
  | range (first last : Char)
  /-- The characters outside of a class. -/
  | outside (l : Letters)
  | union (l m : Letters)
  | both (l m : Letters)
  | less (l m : Letters)
  /-- The characters of one of two classes, but not of both. -/
  | differ (l m : Letters)
  | nothing
deriving DecidableEq, Repr

namespace Letters

/-- The character is in the class. -/
def holds : Letters → Char → Bool
  | range first last, c => decide (first ≤ c) && decide (c ≤ last)
  | outside l, c => !l.holds c
  | union l m, c => l.holds c || m.holds c
  | both l m, c => l.holds c && m.holds c
  | less l m, c => l.holds c && !m.holds c
  | differ l m, c => l.holds c != m.holds c
  | nothing, _ => false

/-- One character. -/
def single (c : Char) : Letters := range c c

/-- The characters of some ranges. -/
def ofRanges (rs : List (Char × Char)) : Letters := rs.foldl (fun l (first, last) => l.union (range first last)) nothing

/-- The part of a range within another, moved by a distance. -/
def shifted (first last lo hi : Char) (move : Nat → Nat) : Letters :=
  let first := if lo ≤ first then first else lo
  let last := if last ≤ hi then last else hi
  if first ≤ last then range (Char.ofNat (move first.toNat)) (Char.ofNat (move last.toNat)) else nothing

/-- The class with every ASCII letter in both its cases. -/
def anyCase : Letters → Letters
  | range first last =>
    ((range first last).union (shifted first last 'a' 'z' (· - 32))).union (shifted first last 'A' 'Z' (· + 32))
  | outside l => outside l.anyCase
  | union l m => union l.anyCase m.anyCase
  | both l m => both l.anyCase m.anyCase
  | less l m => less l.anyCase m.anyCase
  | differ l m => differ l.anyCase m.anyCase
  | nothing => nothing

/-- No character is in the class that is a byte, but no ASCII character. -/
def isAscii (l : Letters) : Bool := (List.range 0x80).all fun n => !l.holds (Char.ofNat (0x80 + n))

/-- Some character that is named or within a range is beyond ASCII. -/
def hasWide : Letters → Bool
  | range first last => 0x80 ≤ first.toNat || 0x80 ≤ last.toNat
  | outside l => l.hasWide
  | union l m | both l m | less l m | differ l m => l.hasWide || m.hasWide
  | nothing => false

/-! ## Classes with a name -/

/-- The digits of numbers. -/
def digits : Letters := range '0' '9'

/-- What ASCII words are made of. -/
def wordLetters : Letters := ofRanges [('0', '9'), ('A', 'Z'), ('_', '_'), ('a', 'z')]

/-- The blanks of ASCII. -/
def blanks : Letters := ofRanges [('\t', '\r'), (' ', ' ')]

/-- The class of a name. -/
def named? : String → Option Letters
  | "alnum" => some (ofRanges [('0', '9'), ('A', 'Z'), ('a', 'z')])
  | "alpha" => some (ofRanges [('A', 'Z'), ('a', 'z')])
  | "ascii" => some (range (Char.ofNat 0) (Char.ofNat 0x7F))
  | "blank" => some (ofRanges [('\t', '\t'), (' ', ' ')])
  | "cntrl" => some (ofRanges [(Char.ofNat 0, Char.ofNat 0x1F), (Char.ofNat 0x7F, Char.ofNat 0x7F)])
  | "digit" => some digits
  | "graph" => some (range '!' '~')
  | "lower" => some (range 'a' 'z')
  | "print" => some (range ' ' '~')
  | "punct" => some (ofRanges [('!', '/'), (':', '@'), ('[', Char.ofNat 0x60), (Char.ofNat 0x7B, '~')])
  | "space" => some blanks
  | "upper" => some (range 'A' 'Z')
  | "word" => some wordLetters
  | "xdigit" => some (ofRanges [('0', '9'), ('A', 'F'), ('a', 'f')])
  | _ => none

/-! ## Laws -/

theorem holds_single (c d : Char) : (single c).holds d = decide (c = d) := by
  rw [Bool.eq_iff_iff]
  simp only [single, holds, Bool.and_eq_true, decide_eq_true_eq]
  exact ⟨fun ⟨h, k⟩ => Char.le_antisymm h k, fun h => h ▸ ⟨Char.le_refl c, Char.le_refl c⟩⟩

/-- Both cases are more, not others. -/
theorem holds_anyCase_of_holds {first last c : Char} (h : (range first last).holds c = true) :
    (range first last).anyCase.holds c = true := by
  simp only [anyCase, holds, Bool.or_eq_true] at h ⊢
  exact .inl (.inl h)

end Letters

end MediaBackup.Log

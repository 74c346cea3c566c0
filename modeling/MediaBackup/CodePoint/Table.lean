/-
  Tables of code points.

  A property of characters is written as lines of entries: a code point or a range of them in
  hexadecimal, and behind `=` the values that belong to it, with points between them.  Entries stand in
  ascending order and do not overlap, so a search by halves finds the one that holds a code point.
-/

namespace MediaBackup.CodePoint

/-- The code points from `first` to `last` and what belongs to them. -/
structure Entry where
  first : Nat
  last : Nat
  values : List Nat
deriving Repr, DecidableEq, Inhabited

/-- The entry holds `n`. -/
def Entry.holds (e : Entry) (n : Nat) : Bool := decide (e.first ≤ n) && decide (n ≤ e.last)

/-- Entries in ascending order. -/
structure Table where
  entries : Array Entry
deriving Inhabited

namespace Table

/-! ## Reading -/

/-- The value of a hexadecimal digit. -/
def digit? (c : Char) : Option Nat :=
  if c.isDigit then some (c.toNat - '0'.toNat)
  else if 'A' ≤ c ∧ c ≤ 'F' then some (c.toNat - 'A'.toNat + 10)
  else none

/-- The entry that ends here, if there is one.  Of an entry that is being read, `start` is the start of its range,
    `range` both ends once they are known, `values` are the values read, the last one first, and `number` is the
    number that is being read. -/
def closed (start : Option Nat) (range : Option (Nat × Nat)) (values : List Nat) (number : Option Nat) : List Entry :=
  match range, number with
  | some (first, last), n => [⟨first, last, (n.toList ++ values).reverse⟩]
  | none, some n => [⟨start.getD n, n, []⟩]
  | none, none => []

/-- The entries of a line from within an entry on. -/
def entriesFrom (start : Option Nat) (range : Option (Nat × Nat)) (values : List Nat) (number : Option Nat) :
    List Char → List Entry
  | [] => closed start range values number
  | c :: s =>
    match digit? c with
    | some d => entriesFrom start range values (some (number.getD 0 * 16 + d)) s
    | none =>
      if c = '-' then entriesFrom number range values none s
      else if c = '=' then entriesFrom start (some (start.getD (number.getD 0), number.getD 0)) values none s
      else if c = '.' then entriesFrom start range (number.toList ++ values) none s
      else closed start range values number ++ entriesFrom none none [] none s

/-- The table of lines of characters. -/
def ofChars (lines : List (List Char)) : Table := ⟨(lines.flatMap (entriesFrom none none [] none)).toArray⟩

/-- The table that lines describe. -/
def ofLines (lines : List String) : Table := ofChars (lines.map String.toList)

/-! ## Searching -/

/-- How many of the entries from `lo` to `hi` start at or below `n`, with those before `lo`. -/
def countUpTo (t : Table) (n lo hi : Nat) : Nat :=
  if lo < hi then
    if (t.entries.getD ((lo + hi) / 2) default).first ≤ n then t.countUpTo n ((lo + hi) / 2 + 1) hi
    else t.countUpTo n lo ((lo + hi) / 2)
  else lo
termination_by hi - lo
decreasing_by all_goals omega

/-- The entry that holds `n`. -/
def find? (t : Table) (n : Nat) : Option Entry :=
  (t.entries[t.countUpTo n 0 t.entries.size - 1]?).filter (·.holds n)

theorem holds_of_find? {t : Table} {n : Nat} {e : Entry} (h : t.find? n = some e) : e.holds n = true := by
  simp only [find?, Option.filter_eq_some_iff] at h
  exact h.2

/-- Some entry holds the character. -/
def contains (t : Table) (c : Char) : Bool := (t.find? c.toNat).isSome

end Table

end MediaBackup.CodePoint

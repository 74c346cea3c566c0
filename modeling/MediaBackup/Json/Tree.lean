import MediaBackup.Json.Scalar

/-
  JSON values: leaving one out, and reading one as a tree.

  A value that is left out is checked for form only, at any depth and with numbers of any size.  A
  value that is kept has at most 127 levels and numbers that fit.
-/

namespace MediaBackup.Json

/-- A JSON value; members stay in order, also those of one name. -/
inductive Tree where
  | null
  | bool (b : Bool)
  | number (n : Num)
  | text (s : String)
  | list (items : List Tree)
  | object (members : List (String × Tree))

/-- How many levels a kept value may have, with those around it. -/
def depthLimit : Nat := 128

namespace Reader

/-- The digits of a number that is left out. -/
def skipNumber : Reader Unit := do
  match ← peek with
  | some '0' =>
    skip
    match ← peek with
    | some d => if d.isDigit then failAhead .badNumber else pure ()
    | none => pure ()
  | some c => if c.isDigit then do let _ ← someDigits else failAhead .badNumber
  | none => fail .badNumber
  if (← peek) = some '.' then
    skip
    if (← someDigits).isEmpty then failAhead .badNumber
  if (← peek) = some 'e' ∨ (← peek) = some 'E' then
    skip
    if (← peek) = some '+' ∨ (← peek) = some '-' then skip
    match ← peek with
    | some c => if c.isDigit then do let _ ← someDigits else failAhead .badNumber
    | none => fail .badNumber

/-- The colon after the name of a member. -/
def colon : Reader Unit := do
  match ← peekPastBlank with
  | some ':' => skip
  | some _ => failAhead .expectedColon
  | none => failAhead .endInObject

mutual

/-- Leaves out a value. -/
def skipValueFueled : Nat → Reader Unit
  | 0 => failAhead .endInValue
  | fuel + 1 => do
    match ← peekPastBlank with
    | none => failAhead .endInValue
    | some 'n' => do skip; word ['u', 'l', 'l']
    | some 't' => do skip; word ['r', 'u', 'e']
    | some 'f' => do skip; word ['a', 'l', 's', 'e']
    | some '-' => do skip; skipNumber
    | some '"' => do skip; skipString
    | some '[' => do skip; skipItems fuel true
    | some '\x7b' => do skip; skipMembers fuel true
    | some c => if c.isDigit then skipNumber else failAhead .expectedValue

/-- Leaves out the items of a list and its end; `first` tells that none was read. -/
def skipItems : Nat → Bool → Reader Unit
  | 0, _ => failAhead .endInValue
  | fuel + 1, first => do
    match ← peekPastBlank with
    | none => failAhead .endInList
    | some ']' => skip
    | some c =>
      if first then
        skipValueFueled fuel
        skipItems fuel false
      else if c = ',' then
        skip
        skipValueFueled fuel
        skipItems fuel false
      else failAhead .expectedListEnd

/-- Leaves out the members of an object and its end; `first` tells that none was read. -/
def skipMembers : Nat → Bool → Reader Unit
  | 0, _ => failAhead .endInValue
  | fuel + 1, first => do
    match ← peekPastBlank with
    | none => failAhead .endInObject
    | some '\x7d' => skip
    | some c =>
      if !first && c != ',' then failAhead .expectedObjectEnd
      else
        if !first then skip
        match ← peekPastBlank with
        | some '"' => skip
        | some _ => failAhead .keyNotString
        | none => failAhead .endInObject
        skipString
        colon
        skipValueFueled fuel
        skipMembers fuel false

end

/-- Leaves out the next value. -/
def skipValue : Reader Unit := do skipValueFueled (2 * (← left) + 2)

/-- A further member follows: its name comes next.  `first` tells that none was read. -/
def hasMember (first : Bool) : Reader Bool := do
  match ← peekPastBlank with
  | none => failAhead .endInObject
  | some '\x7d' => pure false
  | some ',' =>
    if first then failAhead .keyNotString
    else
      skip
      match ← peekPastBlank with
      | some '"' => pure true
      | some '\x7d' => failAhead .trailingComma
      | some _ => failAhead .keyNotString
      | none => failAhead .endInValue
  | some c =>
    if !first then failAhead .expectedObjectEnd
    else if c = '"' then pure true
    else failAhead .keyNotString

/-- A further item follows.  `first` tells that none was read. -/
def hasItem (first : Bool) : Reader Bool := do
  match ← peekPastBlank with
  | none => failAhead .endInList
  | some ']' => pure false
  | some ',' =>
    if first then pure true
    else
      skip
      match ← peekPastBlank with
      | some ']' => failAhead .trailingComma
      | some _ => pure true
      | none => failAhead .endInValue
  | some _ => if first then pure true else failAhead .expectedListEnd

/-- The end of an object. -/
def closeObject : Reader Unit := do
  match ← peekPastBlank with
  | some '\x7d' => skip
  | some ',' => failAhead .trailingComma
  | some _ => failAhead .trailingCharacters
  | none => failAhead .endInObject

/-- The end of a list. -/
def closeList : Reader Unit := do
  match ← peekPastBlank with
  | some ']' => skip
  | some ',' => do
    skip
    match ← peekPastBlank with
    | some ']' => failAhead .trailingComma
    | _ => failAhead .trailingCharacters
  | some _ => failAhead .trailingCharacters
  | none => failAhead .endInList

mutual

/-- Reads a value; `depth` levels may still be opened, less one. -/
def treeFueled : Nat → Nat → Reader Tree
  | 0, _ => failAhead .endInValue
  | fuel + 1, depth => do
    match ← peekPastBlank with
    | none => failAhead .endInValue
    | some 'n' => do skip; word ['u', 'l', 'l']; pure .null
    | some 't' => do skip; word ['r', 'u', 'e']; pure (.bool true)
    | some 'f' => do skip; word ['a', 'l', 's', 'e']; pure (.bool false)
    | some '-' => do skip; return .number (← number false)
    | some '"' => do skip; return .text (← string)
    | some '[' =>
      if depth ≤ 1 then failAhead .tooDeep
      else do
        skip
        let items ← treeItems fuel (depth - 1) true
        closeList
        pure (.list items)
    | some '\x7b' =>
      if depth ≤ 1 then failAhead .tooDeep
      else do
        skip
        let members ← treeMembers fuel (depth - 1) true
        closeObject
        pure (.object members)
    | some c => if c.isDigit then return .number (← number true) else failAhead .expectedValue

/-- The items of a list, up to its end. -/
def treeItems : Nat → Nat → Bool → Reader (List Tree)
  | 0, _, _ => failAhead .endInValue
  | fuel + 1, depth, first => do
    if ← hasItem first then
      let t ← treeFueled fuel depth
      return t :: (← treeItems fuel depth false)
    else pure []

/-- The members of an object, up to its end. -/
def treeMembers : Nat → Nat → Bool → Reader (List (String × Tree))
  | 0, _, _ => failAhead .endInValue
  | fuel + 1, depth, first => do
    if ← hasMember first then
      skip
      let name ← string
      colon
      let t ← treeFueled fuel depth
      return (name, t) :: (← treeMembers fuel depth false)
    else pure []

end

/-- Reads a value of at most `depth - 1` levels. -/
def tree (depth : Nat) : Reader Tree := do treeFueled (2 * (← left) + 2) depth

/-- Nothing but blanks is left. -/
def finish : Reader Unit := do
  match ← peekPastBlank with
  | none => pure ()
  | some _ => failAhead .trailingCharacters

end Reader

end MediaBackup.Json

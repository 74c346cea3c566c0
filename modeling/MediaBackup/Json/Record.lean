import MediaBackup.Json.Tree

/-
  Records in JSON.

  A record is written as an object, whose members may come in any order and among others that are
  left out, or as the list of its fields in their order.  A field that is named twice is a fault, in an
  object; a field that is missing is one unless the record has defaults.  Values are read in place,
  so the first fault in the text is the one that is reported.
-/

namespace MediaBackup.Json

/-- A field of a record: its name, and how its value is read into the record.  `depth` counts the
    levels that the value may still open, less one. -/
structure Field (σ : Type) where
  name : String
  read : (depth : Nat) → σ → Reader σ

namespace Reader

/-- Fails because the next value is not what was wanted, after reading it if it is a scalar. -/
def wrongTypeAhead {α : Type} (wanted : String) : Reader α := do
  match ← peek with
  | some 'n' => do skip; word ['u', 'l', 'l']; fail (.wrongType "null" wanted)
  | some 't' => do skip; word ['r', 'u', 'e']; fail (.wrongType "boolean `true`" wanted)
  | some 'f' => do skip; word ['a', 'l', 's', 'e']; fail (.wrongType "boolean `false`" wanted)
  | some '-' => do skip; fail (.wrongType (← number false).shown wanted)
  | some '"' => do skip; fail (.wrongType ("string " ++ Text.quoted (← string)) wanted)
  | some '[' => fail (.wrongType "sequence" wanted)
  | some '\x7b' => fail (.wrongType "map" wanted)
  | some c =>
    if c.isDigit then fail (.wrongType (← number true).shown wanted) else failAhead .expectedValue
  | none => failAhead .expectedValue

/-- `true` or `false`. -/
def bool : Reader Bool := do
  match ← peekPastBlank with
  | none => failAhead .endInValue
  | some 't' => do skip; word ['r', 'u', 'e']; pure true
  | some 'f' => do skip; word ['a', 'l', 's', 'e']; pure false
  | some _ => wrongTypeAhead "a boolean"

/-- A number of any kind, where `wanted` says which kind is wanted. -/
def anyNumber (wanted : String) : Reader Num := do
  match ← peekPastBlank with
  | none => failAhead .endInValue
  | some '-' => do skip; number false
  | some c => if c.isDigit then number true else wrongTypeAhead wanted

/-- A whole number from 0 to `most`. -/
def nat (most : Nat) (wanted : String) : Reader Nat := do
  match ← anyNumber wanted with
  | .natural n => if n ≤ most then pure n else fail (.wrongValue (Num.natural n).shown wanted)
  | .negative n => fail (.wrongValue (Num.negative n).shown wanted)
  | .float f => fail (.wrongType (Num.float f).shown wanted)

/-- A number read as a float. -/
def float : Reader Float := do
  return (← anyNumber "f64").toFloat

/-- A string of its own. -/
def quotedText (wanted : String) : Reader String := do
  match ← peekPastBlank with
  | none => failAhead .endInValue
  | some '"' => do skip; string
  | some _ => wrongTypeAhead wanted

/-- The members of an object, up to its end: the record so far and the names read, or the fault of
    the record as a whole. -/
def members {σ : Type} (fields : List (Field σ)) (depth : Nat) :
    Nat → σ → List String → Reader (Except Cause (σ × List String))
  | 0, _, _ => failAhead .endInValue
  | fuel + 1, acc, seen => do
    if ← hasMember seen.isEmpty then
      skip
      let name ← string
      match fields.find? (·.name = name) with
      | none =>
        colon
        skipValue
        members fields depth fuel acc ("" :: seen)
      | some f =>
        if seen.contains name then pure (.error (.duplicateField name))
        else
          colon
          let acc ← f.read depth acc
          members fields depth fuel acc (name :: seen)
    else pure (.ok (acc, seen))

/-- The items of a list as the fields in order, up to the last field or the end of the list: the
    record so far and how many fields were read. -/
def items {σ : Type} (depth : Nat) : List (Field σ) → σ → Nat → Reader (σ × Nat)
  | [], acc, count => pure (acc, count)
  | f :: fs, acc, count => do
    if ← hasItem (count = 0) then
      let acc ← f.read depth acc
      items depth fs acc (count + 1)
    else pure (acc, count)

/-- Takes the end of an object if it is there. -/
def maybeCloseObject : Reader Unit := do
  if (← peekPastBlank) = some '\x7d' then skip

/-- A record.  With `defaults`, fields that are missing keep their value of `start`; without, the
    first one that is missing is a fault. -/
def record {σ : Type} (wanted : String) (fields : List (Field σ)) (defaults : Bool) (start : σ)
    (depth : Nat) : Reader σ := do
  match ← peekPastBlank with
  | none => failAhead .endInValue
  | some '[' =>
    if depth ≤ 1 then failAhead .tooDeep
    else do
      skip
      let (acc, count) ← items (depth - 1) fields start 0
      if !defaults && count < fields.length then
        closeList
        fail (.wrongLength count wanted)
      else
        closeList
        pure acc
  | some '\x7b' =>
    if depth ≤ 1 then failAhead .tooDeep
    else do
      skip
      match ← members fields (depth - 1) ((← left) + 1) start [] with
      | .error cause =>
        maybeCloseObject
        fail cause
      | .ok (acc, seen) =>
        closeObject
        match if defaults then none else fields.find? (fun f => !seen.contains f.name) with
        | some f => fail (.missingField f.name)
        | none => pure acc
  | some _ => wrongTypeAhead wanted

/-- A text that holds one record and nothing else. -/
def document {σ : Type} (wanted : String) (fields : List (Field σ)) (start : σ) : Reader σ := do
  let r ← record wanted fields true start depthLimit
  finish
  pure r

end Reader

end MediaBackup.Json

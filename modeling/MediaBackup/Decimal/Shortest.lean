/-
  The shortest decimal that reads back as a given binary float.

  A finite positive float is `m · 2^q`.  The reals that round to it form an interval around it;
  its ends belong to it iff `m` is even.  For 1, 2, … 17 digits the two neighbours of the value on
  that decimal grid are tested in exact integer arithmetic: if any point of a grid lies in the
  interval then one of these two does, so the first grid with a hit has the fewest digits, and of
  two hits the nearer one is taken.  Two that are equally near are a tie.
-/

namespace MediaBackup.Decimal

/-- `digits · 10^exponent`. -/
structure Scientific where
  digits : Nat
  exponent : Int
deriving DecidableEq, Inhabited

/-- Which of two decimals is taken that are equally near. -/
inductive Tie where
  /-- The greater one. -/
  | up
  /-- The one whose last digit is even. -/
  | even
deriving DecidableEq, Repr

/-- A finite positive float `mantissa · 2^power`.  `lowest` tells that the next float below is only
    half as far away as the next one above. -/
structure Binary where
  mantissa : Nat
  power : Int
  lowest : Bool
deriving Repr, DecidableEq, Inhabited

/-- The comparison `a · 10^e ? b · 2^p`, by clearing the negative powers. -/
def comparePowers (a : Nat) (e : Int) (b : Nat) (p : Int) : Ordering :=
  compare (a * Nat.pow 10 e.toNat * Nat.pow 2 (-p).toNat) (b * Nat.pow 2 p.toNat * Nat.pow 10 (-e).toNat)

namespace Binary

/-- `d · 10^e` rounds to `x`. -/
def holds (x : Binary) (d : Nat) (e : Int) : Bool :=
  let even := x.mantissa % 2 == 0
  let below := if x.lowest then 4 * x.mantissa - 1 else 4 * x.mantissa - 2
  let low := comparePowers d e below (x.power - 2)
  let high := comparePowers d e (4 * x.mantissa + 2) (x.power - 2)
  (low == .gt || (even && low == .eq)) && (high == .lt || (even && high == .eq))

/-- The greatest `d` with `d · 10^e ≤ x`. -/
def floorAt (x : Binary) (e : Int) : Nat :=
  (x.mantissa * Nat.pow 2 x.power.toNat * Nat.pow 10 (-e).toNat) / (Nat.pow 2 (-x.power).toNat * Nat.pow 10 e.toNat)

/-- Of the neighbours `d` and `d + 1` of `x` on the grid of `10^e`, the upper one is taken. -/
def takesUpper (x : Binary) (tie : Tie) (d : Nat) (e : Int) : Bool :=
  match comparePowers (2 * d + 1) e (2 * x.mantissa) x.power with
  | .lt => true
  | .gt => false
  | .eq => tie == .up || d % 2 == 1

/-- The neighbour of `x` on the grid of `10^e` that rounds to `x`, the nearer if both do. -/
def hitAt (x : Binary) (tie : Tie) (e : Int) : Option Scientific :=
  let d := x.floorAt e
  match x.holds d e, x.holds (d + 1) e with
  | true, true => some ⟨if x.takesUpper tie d e then d + 1 else d, e⟩
  | true, false => some ⟨d, e⟩
  | false, true => some ⟨d + 1, e⟩
  | false, false => none

/-- The exponent of ten of the first digit of `x`, at most one too large. -/
def magnitude (x : Binary) : Int :=
  let bits := (Nat.log2 x.mantissa : Int) + x.power
  bits * 30103 / 100000 + 1

/-- The first grid, coarse to fine, with a point that rounds to `x`. -/
def search (x : Binary) (tie : Tie) (e : Int) : Nat → Scientific
  | 0 => ⟨x.floorAt e, e⟩
  | n + 1 => match x.hitAt tie e with
    | some s => s
    | none => search x tie (e - 1) n

end Binary

/-- Takes zeros off the end of the digits. -/
def Scientific.trim (s : Scientific) : Nat → Scientific
  | 0 => s
  | n + 1 => if s.digits % 10 = 0 ∧ s.digits ≠ 0 then trim ⟨s.digits / 10, s.exponent + 1⟩ n else s

/-- The shortest decimal of a positive float. -/
def Binary.shortest (x : Binary) (tie : Tie) : Scientific :=
  (x.search tie (x.magnitude + 1) 24).trim 24

/-- What a float is. -/
inductive FloatView where
  | nan
  | infinite (negative : Bool)
  | zero (negative : Bool)
  | finite (negative : Bool) (value : Binary)
deriving Repr, DecidableEq, Inhabited

/-- Reads sign, exponent and mantissa out of the bits of a float. -/
def view (f : Float) : FloatView :=
  let bits : Nat := f.toBits.toNat
  let negative := decide (bits / Nat.pow 2 63 = 1)
  let exponent : Nat := bits / Nat.pow 2 52 % 2048
  let fraction : Nat := bits % Nat.pow 2 52
  if exponent = 2047 then (if fraction = 0 then .infinite negative else .nan)
  else if exponent = 0 then
    (if fraction = 0 then .zero negative else .finite negative ⟨fraction, -1074, false⟩)
  else .finite negative ⟨Nat.pow 2 52 + fraction, (exponent : Int) - 1075, decide (fraction = 0 ∧ exponent ≠ 1)⟩

/-- The shortest digits of a float, with its sign, and their exponent of ten; zero if it is not finite. -/
def signedDigits (f : Float) : Int × Int :=
  match view f with
  | .finite negative x =>
    let s := x.shortest .even
    (if negative then -(s.digits : Int) else s.digits, s.exponent)
  | _ => (0, 0)

end MediaBackup.Decimal

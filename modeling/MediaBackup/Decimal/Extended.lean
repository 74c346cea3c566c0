import MediaBackup.Decimal.Shortest

/-
  Arithmetic with 64 bits.

  A number `mantissa · 2^power` keeps the first 64 bits of its mantissa; what is cut off rounds to the
  nearest, a half to even.  Powers of ten are reached by repeated multiplication, each step rounded, so
  a decimal that takes many steps may come out one unit beside the nearest float: the order of steps is
  part of the result.
-/

namespace MediaBackup.Decimal

/-- `m / 2^extra` rounded to nearest, a half to even. -/
def roundShift (m extra : Nat) : Nat :=
  let q := m / Nat.pow 2 extra
  let rest := m % Nat.pow 2 extra
  if Nat.pow 2 extra < 2 * rest ∨ (2 * rest = Nat.pow 2 extra ∧ q % 2 = 1) then q + 1 else q

/-- How many bits a number has. -/
def bitCount (m : Nat) : Nat := Nat.log2 m + 1

/-- The float nearest to `m · 2^p`; beyond the greatest float everything is infinite. -/
def FloatView.nearest (negative : Bool) (m : Nat) (p : Int) : FloatView :=
  -- floats of this size lie on multiples of `2^grid`: 53 bits, unless the least power is reached
  let grid := max ((bitCount m : Int) + p - 53) (-1074)
  let n := if p < grid then roundShift m (grid - p).toNat else m * Nat.pow 2 (p - grid).toNat
  let beyond := decide ((Nat.pow 2 53 - 1) * Nat.pow 2 971 * Nat.pow 2 (-p).toNat < m * Nat.pow 2 p.toNat)
  if n = 0 then .zero negative
  else if beyond then .infinite negative
  else if n = Nat.pow 2 53 then .finite negative ⟨Nat.pow 2 52, grid + 1, true⟩
  else .finite negative ⟨n, grid, decide (n = Nat.pow 2 52 ∧ grid ≠ -1074)⟩

/-- A positive number of 64 bits. -/
structure Extended where
  mantissa : Nat
  power : Int
deriving Repr, DecidableEq, Inhabited

namespace Extended

/-- The number nearest to `m · 2^p`. -/
def nearest (m : Nat) (p : Int) : Extended :=
  let extra := bitCount m - 64
  ⟨roundShift m extra, p + extra⟩

/-- `10^e`, rounded. -/
def powerOfTen (e : Int) : Extended :=
  if 0 ≤ e then nearest (Nat.pow 10 e.toNat) 0
  else
    -- enough bits of the quotient, and one more that tells whether the division left a rest
    let bits := 4 * e.natAbs + 70
    let q := Nat.pow 2 bits / Nat.pow 10 e.natAbs
    nearest (2 * q + 1) (-(bits : Int) - 1)

/-- The product, rounded. -/
def mul (x y : Extended) : Extended := nearest (x.mantissa * y.mantissa) (x.power + y.power)

/-- `x < y`. -/
def lt (x y : Extended) : Bool :=
  let p := min x.power y.power
  decide (x.mantissa * Nat.pow 2 (x.power - p).toNat < y.mantissa * Nat.pow 2 (y.power - p).toNat)

/-- The whole part. -/
def floor (x : Extended) : Nat := x.mantissa * Nat.pow 2 x.power.toNat / Nat.pow 2 (-x.power).toNat

/-- Multiplies `n` times. -/
def times (x factor : Extended) : Nat → Extended
  | 0 => x
  | n + 1 => times (x.mul factor) factor n

/-- Multiplies by `10^step` as long as `again` says so, at most `fuel` times, and counts in steps. -/
def climb (again : Extended → Bool) (step : Int) : Nat → Extended → Int → Extended × Int
  | 0, x, count => (x, count)
  | fuel + 1, x, count =>
    if again x then climb again step fuel (x.mul (powerOfTen step)) (count + step) else (x, count)

/-- `x · 10^e`, by hundreds, tens and ones of the exponent. -/
def scale (x : Extended) (e : Int) : Extended :=
  let sign : Int := if 0 ≤ e then 1 else -1
  let n := e.natAbs
  ((x.times (powerOfTen (sign * 100)) (n / 100)).times (powerOfTen (sign * 10)) (n % 100 / 10)).times
    (powerOfTen sign) (n % 10)

/-- The first 18 or 19 digits of a number, what follows cut off. -/
def digits (x : Extended) : Scientific :=
  let (x, e) :=
    if x.lt (powerOfTen 19) then
      let (x, e) := climb (·.lt (powerOfTen (-97))) 100 12 x 0
      let (x, e) := climb (·.lt (powerOfTen 7)) 10 12 x e
      climb (·.lt (powerOfTen 17)) 1 12 x e
    else
      let (x, e) := climb (fun y => !y.lt (powerOfTen 119)) (-100) 12 x 0
      let (x, e) := climb (fun y => !y.lt (powerOfTen 29)) (-10) 12 x e
      climb (fun y => !y.lt (powerOfTen 19)) (-1) 12 x e
  ⟨x.floor, -e⟩

end Extended

end MediaBackup.Decimal

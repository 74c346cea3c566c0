import MediaBackup.Decimal.Shortest

/-
  Decimals as text.

  One `Layout` record holds what a way of writing decides: which exponents are written with the
  point in place, whether a whole number keeps `.0`, how an exponent looks, and which of two equally
  near decimals is written.
-/

namespace MediaBackup.Decimal

/-- A way of writing floats. -/
structure Layout where
  /-- The exponents of the first digit that are written with the point in place: from, up to. -/
  positional : Option (Int × Int)
  /-- A whole number ends in `.0`. -/
  keepsPoint : Bool
  /-- A positive exponent has a `+`. -/
  plusSign : Bool
  /-- The fewest digits of an exponent. -/
  exponentWidth : Nat
  tie : Tie

/-- A number in a sentence: the point in place whatever the size, whole numbers bare. -/
def inWords : Layout := ⟨none, false, false, 1, .up⟩

/-- A number in a shown value: `1.0`, `0.0001`, `1e-5`, `1e16`. -/
def inRecord : Layout := ⟨some (-4, 15), true, false, 1, .up⟩

/-- A number in JSON: `1.0`, `0.00001`, `1e-6`, `1e+16`. -/
def inJson : Layout := ⟨some (-5, 15), true, true, 1, .even⟩

/-- A number in a TEXT column: `1.0`, `0.0001`, `1.0e-05`, `1.0e+15`. -/
def inColumn : Layout := ⟨some (-4, 14), true, true, 2, .up⟩

/-- `n` zeros. -/
def zeros (n : Nat) : List Char := List.replicate n '0'

/-- The digits with the point in place. -/
def Layout.place (l : Layout) (digits : List Char) (exponent : Int) : List Char :=
  let point := if l.keepsPoint then ['.', '0'] else []
  if exponent ≥ 0 then digits ++ zeros exponent.toNat ++ point
  else
    let fraction := (-exponent).toNat
    if fraction < digits.length then
      digits.take (digits.length - fraction) ++ '.' :: digits.drop (digits.length - fraction)
    else '0' :: '.' :: zeros (fraction - digits.length) ++ digits

/-- One digit before the point, and the exponent behind. -/
def Layout.scale (l : Layout) (digits : List Char) (first : Int) : List Char :=
  let body := match digits with
    | [] => []
    | [d] => [d]
    | d :: r => d :: '.' :: r
  let size := Nat.toDigits 10 first.natAbs
  let sign := if first < 0 then ['-'] else if l.plusSign then ['+'] else []
  body ++ 'e' :: sign ++ zeros (l.exponentWidth - size.length) ++ size

/-- A positive decimal. -/
def Layout.positive (l : Layout) (s : Scientific) : List Char :=
  let digits := Nat.toDigits 10 s.digits
  let first := s.exponent + digits.length - 1
  match l.positional with
  | none => l.place digits s.exponent
  | some (low, high) =>
    if low ≤ first ∧ first ≤ high then l.place digits s.exponent else l.scale digits first

/-- A float by its shortest digits. -/
def Layout.write (l : Layout) (f : Float) : String :=
  let signed (negative : Bool) (body : List Char) := String.ofList (if negative then '-' :: body else body)
  match view f with
  | .nan => "NaN"
  | .infinite negative => signed negative ['i', 'n', 'f']
  | .zero negative => signed negative (l.place ['0'] 0)
  | .finite negative value => signed negative (l.positive (value.shortest l.tie))

end MediaBackup.Decimal

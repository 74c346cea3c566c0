/-
  Punycode: a label with letters beyond ASCII, written in ASCII.

  The ASCII letters stand first.  Then each other code point follows, in the order of code points, as
  the distance that a counter over (code point, position) goes to reach it, in digits of base 36 whose
  weights adapt to the distances seen.
-/

namespace MediaBackup.Url.Punycode

/-- Code points end here. -/
def codeMax : Nat := 0x10FFFF

/-- Distances end here. -/
def distanceMax : Nat := UInt32.size - 1

/-- The digit of a value: letters, then digits. -/
def digitChar (d : Nat) : Char := if d < 26 then Char.ofNat (97 + d) else Char.ofNat (22 + d)

/-- The value of a digit of either case. -/
def digitValue? (c : Char) : Option Nat :=
  if 'a' ≤ c ∧ c ≤ 'z' then some (c.toNat - 97)
  else if 'A' ≤ c ∧ c ≤ 'Z' then some (c.toNat - 65)
  else if c.isDigit then some (c.toNat - 22)
  else none

/-- The threshold of the digit at weight `k`: a digit below it is the last one. -/
def threshold (k bias : Nat) : Nat := if k ≤ bias then 1 else if bias + 26 ≤ k then 26 else k - bias

theorem threshold_pos (k bias : Nat) : 1 ≤ threshold k bias := by
  unfold threshold
  split
  · exact Nat.le_refl 1
  · split <;> omega

/-- How often `delta` is divided until it is small, counted in steps of 36, and what is left. -/
def settle (delta k : Nat) : Nat × Nat := if 455 < delta then settle (delta / 35) (k + 36) else (delta, k)
termination_by delta
decreasing_by omega

/-- The bias after a distance. -/
def adapt (delta count : Nat) (first : Bool) : Nat :=
  let d := if first then delta / 700 else delta / 2
  let (d, k) := settle (d + d / count) 0
  k + 36 * d / (d + 38)

/-- The digits of a distance. -/
def encodeDistance (bias q k : Nat) : List Char :=
  let t := threshold k bias
  if q < t then [digitChar q]
  else digitChar (t + (q - t) % (36 - t)) :: encodeDistance bias ((q - t) / (36 - t)) (k + 36)
termination_by q
decreasing_by
  have := threshold_pos k bias
  have : (q - threshold k bias) / (36 - threshold k bias) ≤ q - threshold k bias := Nat.div_le_self _ _
  omega

/-- The state of encoding: the counter's distance so far, the bias, how many code points stand. -/
structure Coder where
  delta : Nat
  bias : Nat
  count : Nat

/-- Goes once through the label for code point `n`, where `plain` ASCII letters stood first. -/
def encodePass (n plain : Nat) : List Nat → Coder → List Char × Coder
  | [], c => ([], c)
  | m :: ms, c =>
    if m < n then encodePass n plain ms { c with delta := c.delta + 1 }
    else if m = n then
      let digits := encodeDistance c.bias c.delta 36
      let rest := encodePass n plain ms ⟨0, adapt c.delta (c.count + 1) (c.count == plain), c.count + 1⟩
      (digits ++ rest.1, rest.2)
    else encodePass n plain ms c

/-- Encodes the code points from `n` on. -/
def encodeFrom (codes : List Nat) (plain : Nat) : List Nat → Nat → Coder → List Char
  | [], _, _ => []
  | m :: ms, n, c =>
    let (digits, c) := encodePass m plain codes { c with delta := c.delta + (m - n) * (c.count + 1) }
    digits ++ encodeFrom codes plain ms (m + 1) { c with delta := c.delta + 1 }

/-- Each number once. -/
def distinct : List Nat → List Nat
  | a :: b :: r => if a = b then distinct (b :: r) else a :: distinct (b :: r)
  | r => r

/-- A label in ASCII. -/
def encode (label : List Char) : List Char :=
  let codes := label.map Char.toNat
  let plain := label.filter fun c => c.toNat < 0x80
  let others := distinct ((codes.filter (0x80 ≤ ·)).mergeSort)
  plain ++ (if plain.isEmpty then [] else ['-']) ++ encodeFrom codes plain.length others 0x80 ⟨0, 72, plain.length⟩

/-- Reads the digits of a distance: the distance with what was there before, and what follows. -/
def decodeDistance (bias i weight k : Nat) : List Char → Option (Nat × List Char)
  | [] => none
  | c :: r =>
    match digitValue? c with
    | none => none
    | some d =>
      let i := i + d * weight
      let t := threshold k bias
      if distanceMax < i then none
      else if d < t then some (i, r)
      else decodeDistance bias i (weight * (36 - t)) (k + 36) r

theorem decodeDistance_length_lt {bias i weight k : Nat} {s r : List Char} {n : Nat}
    (h : decodeDistance bias i weight k s = some (n, r)) : r.length < s.length := by
  induction s generalizing i weight k with
  | nil => simp [decodeDistance] at h
  | cons c s ih =>
    simp only [decodeDistance] at h
    split at h
    · simp at h
    · split at h
      · simp at h
      · split at h
        · simp only [Option.some.injEq, Prod.mk.injEq] at h
          rw [← h.2]
          exact Nat.lt_succ_self _
        · exact Nat.lt_succ_of_lt (ih h)

/-- Puts in the code points that the digits tell of. -/
def decodeFrom (label : List Nat) (n i bias : Nat) (first : Bool) (s : List Char) : Option (List Nat) :=
  if s.isEmpty then some label
  else match _h : decodeDistance bias i 1 36 s with
    | none => none
    | some (j, r) =>
      let count := label.length + 1
      let m := n + j / count
      if codeMax < m ∨ (0xD800 ≤ m ∧ m < 0xE000) then none
      else
        let at_ := j % count
        decodeFrom (label.take at_ ++ m :: label.drop at_) m (at_ + 1) (adapt (j - i) count first) false r
termination_by s.length
decreasing_by exact decodeDistance_length_lt _h

/-- The label of an ASCII text; none if it is no code. -/
def decode? (s : List Char) : Option (List Char) :=
  if s.any fun c => 0x80 ≤ c.toNat then none
  else
    let tail := (s.reverse.takeWhile (· != '-')).reverse
    let plain := s.take (s.length - tail.length - 1)
    (decodeFrom (plain.map Char.toNat) 0x80 0 72 true tail).map fun codes => codes.map Char.ofNat

end MediaBackup.Url.Punycode

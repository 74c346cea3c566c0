/-
  SipHash with one round a word and three rounds at the end, under the key of two zeros.

  The bytes are cut into words of eight, least byte first; the last word takes what is left over,
  with the length modulo 256 in its top byte.
-/

namespace MediaBackup.Hash

/-- The four words of the state. -/
structure SipState where
  v0 : UInt64
  v1 : UInt64
  v2 : UInt64
  v3 : UInt64
deriving DecidableEq, Inhabited

/-- `x` turned left by `n` bits, `0 < n < 64`. -/
def rotate (x : UInt64) (n : UInt64) : UInt64 := (x <<< n) ||| (x >>> (64 - n))

namespace SipState

/-- The state before any word, for the key of two zeros. -/
def start : SipState :=
  ⟨0x736f6d6570736575, 0x646f72616e646f6d, 0x6c7967656e657261, 0x7465646279746573⟩

/-- One round. -/
def round (s : SipState) : SipState :=
  let a := s.v0 + s.v1
  let b := rotate s.v1 13 ^^^ a
  let a' := rotate a 32
  let c := s.v2 + s.v3
  let d := rotate s.v3 16 ^^^ c
  let a'' := a' + d
  let d' := rotate d 21 ^^^ a''
  let c' := c + b
  let b' := rotate b 17 ^^^ c'
  ⟨a'', b', rotate c' 32, d'⟩

/-- Takes in one word. -/
def absorb (s : SipState) (word : UInt64) : SipState :=
  let t := round { s with v3 := s.v3 ^^^ word }
  { t with v0 := t.v0 ^^^ word }

/-- The hash of what was taken in. -/
def finish (s : SipState) : UInt64 :=
  let t := { s with v2 := s.v2 ^^^ 0xFF }.round.round.round
  t.v0 ^^^ t.v1 ^^^ t.v2 ^^^ t.v3

end SipState

/-- Bytes as one word, least byte first. -/
def word (bs : List UInt8) : UInt64 := bs.foldr (fun b acc => (acc <<< 8) ||| b.toUInt64) 0

/-- Takes in all full words, then the rest under the `length` byte. -/
def absorbAll (s : SipState) (length : Nat) : List UInt8 → SipState
  | b0 :: b1 :: b2 :: b3 :: b4 :: b5 :: b6 :: b7 :: r =>
    absorbAll (s.absorb (word [b0, b1, b2, b3, b4, b5, b6, b7])) length r
  | r => s.absorb (word r ||| (length.toUInt64 <<< 56))

/-- The hash of `bytes`. -/
def sip (bytes : List UInt8) : UInt64 := (absorbAll .start bytes.length bytes).finish

end MediaBackup.Hash

/-
  The content of an item, and the way of a body from its reader to the HTTP client.

  A reader gives the bytes in order, at each read as many as it likes but never more than there is
  room for, until they end or a read fails.  `Content.chunks` is what one reader reads to the end with
  a given room.

  A pump reads chunk after chunk and puts them into a channel that holds a few of them; the client takes
  them out.  The pump runs until the channel is full or its reader came to an end; then the client runs
  until the channel is empty or it wants no more.  So when the client has asked `k` times, the pump
  has tried to read as far as the least whole number of channels, one at least, that covers `k`.
-/

/-! ## Contents -/

namespace MediaBackup

/-- An item opened for reading. -/
structure Content where
  fileName : String
  mimeType : String
  /-- The length that the library claims. -/
  length : Option Nat
  bytes : List UInt8
  /-- The most bytes that the read at an offset gives; zero there ends the content. -/
  most : Nat → Nat
  /-- Reads stop at this offset, and the read that starts there fails in these words. -/
  failure : Option (Nat × String)

/-- What a body comes to when all of it is read. -/
structure Chunks where
  /-- The chunks in order, none of them empty. -/
  chunks : List (List UInt8)
  /-- How the read after the last chunk failed; none if the content ended there. -/
  failure : Option String
deriving DecidableEq, Repr, Inhabited

namespace Content

/-- How many bytes the read at an offset gives, where `left` bytes are left. -/
def readSize (c : Content) (room offset left : Nat) : Nat :=
  let wanted := min (min room (c.most offset)) left
  match c.failure with
  | none => wanted
  | some (stop, _) => min wanted (stop - offset)

/-- How a read at an offset fails. -/
def failureAt (c : Content) (offset : Nat) : Option String :=
  match c.failure with
  | some (stop, words) => if stop ≤ offset then some words else none
  | none => none

/-- The chunks from an offset on, where `rest` is what lies behind it. -/
def chunksFrom (c : Content) (room offset : Nat) (rest : List UInt8) : Chunks :=
  match c.failureAt offset with
  | some words => ⟨[], some words⟩
  | none =>
    let size := c.readSize room offset rest.length
    if _h : size = 0 ∨ rest = [] then ⟨[], none⟩
    else
      let behind := c.chunksFrom room (offset + size) (rest.drop size)
      { behind with chunks := rest.take size :: behind.chunks }
termination_by rest.length
decreasing_by
  have : rest.length ≠ 0 := fun e => _h (.inr (List.length_eq_zero_iff.1 e))
  have : size ≠ 0 := fun e => _h (.inl e)
  simp only [List.length_drop]
  omega

/-- The chunks of the whole content. -/
def chunks (c : Content) (room : Nat) : Chunks := c.chunksFrom room 0 c.bytes

end Content

/-! ## Transfers -/

/-- The body of an upload: the content, and how it is cut and buffered. -/
structure Body where
  content : Content
  /-- The field of the form that carries the body; without one the body stands alone. -/
  formField : Option String
  /-- The most bytes of a chunk. -/
  chunkSize : Nat
  /-- How many chunks the channel holds. -/
  buffered : Nat

/-- How a pump ended. -/
inductive PumpEnd where
  /-- The content ended, after so many bytes. -/
  | finished (total : Nat)
  /-- The client was gone before the content ended. -/
  | cutOff
  /-- A read failed. -/
  | failed (words : String)
deriving DecidableEq, Repr, Inhabited

/-- What became of a body. -/
structure Transfer where
  /-- The chunks that the client took. -/
  taken : List (List UInt8)
  /-- The failure of a read that the client came upon. -/
  failureTaken : Option String
  pump : PumpEnd
deriving DecidableEq, Repr, Inhabited

namespace Transfer

/-- How many bytes the client took. -/
def consumed (t : Transfer) : Nat := t.taken.flatten.length

/-- The room that a read has: a chunk, or a small buffer if chunks are to be empty. -/
def room (chunkSize : Nat) : Nat := if chunkSize = 0 then 64 else chunkSize

/-- How many chunks the pump can have read when the client has asked `asked` times. -/
def reach (buffered asked : Nat) : Nat := buffered * max 1 ((asked + buffered - 1) / buffered)

/-- The transfer of chunks to a client that asks `asked` times, or until the end. -/
def ofChunks (c : Chunks) (buffered : Nat) (asked : Option Nat) : Transfer :=
  let total := c.chunks.flatten.length
  let ended := match c.failure with
    | none => .finished total
    | some words => .failed words
  match asked with
  | none => ⟨c.chunks, c.failure, ended⟩
  | some k =>
    { taken := c.chunks.take k
      failureTaken := if c.chunks.length < k then c.failure else none
      pump := if c.chunks.length ≤ reach buffered k then ended else .cutOff }

/-- The transfer of a body. -/
def ofBody (b : Body) (asked : Option Nat) : Transfer :=
  ofChunks (b.content.chunks (room b.chunkSize)) b.buffered asked

end Transfer

end MediaBackup

import MediaBackup.Error.Store

/-
  What a file must hold to be a database.

  A file of at most one byte is an empty database.  Any other begins with a page whose first hundred bytes
  are a header: a line that names the format, the size of pages, versions, counts, and shares that are
  fixed.  Behind the header stands the root of the tree that lists the tables; here that is a leaf without
  entries, since a database that holds tables of others is not taken over.
-/

namespace MediaBackup

/-- A file that may be a database. -/
structure FirstPage where
  bytes : List UInt8

namespace FirstPage

/-- The byte at a place; zero behind the end. -/
def byte (p : FirstPage) (i : Nat) : Nat := (p.bytes.getD i 0).toNat

/-- The number in so many bytes from a place on, the highest first. -/
def number (p : FirstPage) (i count : Nat) : Nat := (List.range count).foldl (fun n k => n * 256 + p.byte (i + k)) 0

/-- There is nothing to read. -/
def isEmpty (p : FirstPage) : Bool := p.bytes.length ≤ 1

/-- How a database begins. -/
def opening : List UInt8 := "SQLite format 3".toUTF8.toList ++ [0]

/-- The bytes of a page.  The largest size does not fit and is written as one. -/
def pageSize (p : FirstPage) : Nat := p.byte 16 * 0x100 + p.byte 17 * 0x10000

/-- The sizes that pages can have. -/
def pageSizes : List Nat := [0x200, 0x400, 0x800, 0x1000, 0x2000, 0x4000, 0x8000, 0x10000]

/-- The bytes of a page that are not reserved. -/
def usable (p : FirstPage) : Nat := p.pageSize - p.byte 20

/-- The pages that the file has room for. -/
def filePages (p : FirstPage) : Nat := (p.bytes.length + p.pageSize - 1) / p.pageSize

/-- The pages that the header speaks of, if it was written together with their number. -/
def pages (p : FirstPage) : Nat :=
  let stated := p.number 28 4
  if stated = 0 ∨ p.number 24 4 ≠ p.number 92 4 then p.filePages else stated

/-- Changes go to a log beside the file. -/
def hasLog (p : FirstPage) : Bool := p.byte 19 == 2

/-- The version is one that may be read but not written. -/
def isClosed (p : FirstPage) : Bool := 2 < p.byte 18

/-- Sees whether the file can be read; `takesLog` if a log can stand beside it. -/
def check (p : FirstPage) (takesLog : Bool) : Except StoreFault Unit := do
  if p.isEmpty then return
  if p.bytes.take 16 ≠ opening ∨ 2 < p.byte 19 then throw .notADatabase
  if p.hasLog && !takesLog then throw .cannotOpen
  if [p.byte 21, p.byte 22, p.byte 23] ≠ [64, 32, 32] ∨ p.pageSize ∉ pageSizes then throw .notADatabase
  if p.filePages < p.pages then throw .malformed
  if p.usable < 480 then throw .notADatabase
  if 4 < p.byte 47 then throw .unknownFormat
  -- a leaf of tables without entries
  if p.byte 100 ≠ 13 ∨ p.number 103 2 ≠ 0 then throw .malformed

/-- Where the first page ends that the tables of this program still fit before, by the size of pages:
    one that is smaller makes room by moving tables to other pages. -/
def leastEnd (pageSize : Nat) : Nat := if pageSize = 0x200 then 245 else if pageSize = 0x400 then 421 else 943

/-- Sees whether tables can be added. -/
def checkRoom (p : FirstPage) : Except StoreFault Unit :=
  let written := p.number 105 2
  let stop := if written = 0 then 0x10000 else written
  if p.isEmpty then .ok ()
  else if p.isClosed then .error .readOnly
  else if p.pages < p.number 52 4 ∨ p.number 36 4 ≠ 0 ∨ p.number 101 2 ≠ 0 ∨ p.usable < p.byte 107 + stop ∨
      (stop < leastEnd p.pageSize ∧ stop ≠ p.usable) then .error .malformed
  else .ok ()

end FirstPage

end MediaBackup

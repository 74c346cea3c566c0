/-
  What can go wrong in the database as a whole.
-/

namespace MediaBackup

/-- A failure of the database. -/
inductive StoreFault where
  /-- The database was closed. -/
  | closed
  /-- A table is gone. -/
  | missingTable (name : String)
  /-- A column that needs a value got none. -/
  | missingValue (table column : String)
  /-- The file cannot be opened. -/
  | cannotOpen
  /-- The file holds something else. -/
  | notADatabase
  /-- The file is a database, but a part of it makes no sense. -/
  | malformed
  /-- The file is a database of a later format. -/
  | unknownFormat
  /-- The file keeps nothing that is written. -/
  | notKept
  /-- The file is to be read only, but it needs a write first. -/
  | readOnly
  /-- The module for files that was asked for is unknown. -/
  | unknownFileModule (name : String)
  /-- A mode of some kind that was asked for is unknown. -/
  | unknownMode (kind value : String)
  /-- The mode that was asked for gives more than may be given. -/
  | modeNotAllowed (value : String)
  /-- The file is to be on another host. -/
  | unknownHost (name : String)
  /-- The location makes no sense, in the words given. -/
  | badLocation (message : String)
  /-- The path of the file holds a zero. -/
  | zeroInPath
  /-- A check of the database failed in the words given. -/
  | unhealthy (cause : StoreFault)
  /-- The database's own words. -/
  | reported (message : String)
deriving DecidableEq, Repr, Inhabited

namespace StoreFault

/-- An answer of the database with its number. -/
def answered (code : Nat) (message : String) : String :=
  "error returned from database: (code: " ++ toString code ++ ") " ++ message

/-- The failure in words. -/
def message : StoreFault → String
  | closed => "attempted to acquire a connection on a closed pool"
  | missingTable name => answered 1 ("no such table: " ++ name)
  | missingValue table column => answered 1299 ("NOT NULL constraint failed: " ++ table ++ "." ++ column)
  | cannotOpen => answered 14 "unable to open database file"
  | notADatabase => answered 26 "file is not a database"
  | malformed => answered 11 "database disk image is malformed"
  | unknownFormat => answered 1 "unsupported file format"
  | notKept => answered 1034 "disk I/O error"
  | readOnly => answered 8 "attempt to write a readonly database"
  | unknownFileModule name => answered 1 ("no such vfs: " ++ name)
  | unknownMode kind value => answered 1 ("no such " ++ kind ++ " mode: " ++ value)
  | modeNotAllowed value => answered 3 ("access mode not allowed: " ++ value)
  | unknownHost name => answered 1 ("invalid uri authority: " ++ name)
  | badLocation m => "error with configuration: " ++ m
  | zeroInPath =>
    "error communicating with database: filename passed to SQLite must not contain nul bytes"
  | unhealthy cause => "health check failed: " ++ cause.message
  | reported m => m

end StoreFault

end MediaBackup

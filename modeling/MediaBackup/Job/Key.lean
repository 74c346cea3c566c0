/-
  The keys of jobs.

  There is one scan, one dispatch, and one upload an item, so a key says what a job does, and the
  table of jobs holds at most one job a key.
-/

namespace MediaBackup

/-- What a job does. -/
inductive JobKey where
  /-- Look through the library for items. -/
  | scan
  /-- Queue an upload for every pending item. -/
  | dispatch
  /-- Send one item. -/
  | upload (id : String)
deriving DecidableEq, Repr, Inhabited

namespace JobKey

/-- What the text of an upload's key starts with. -/
def uploadTag : String := "upload:"

/-- The text of a key. -/
def text : JobKey → String
  | scan => "scan"
  | dispatch => "dispatch"
  | upload id => uploadTag ++ id

/-- The rest of `s` after `lead`, if `s` starts with it. -/
def after? (lead : List Char) (s : List Char) : Option (List Char) :=
  if lead.isPrefixOf s then some (s.drop lead.length) else none

/-- The key of a text.  An upload needs an item, so `upload:` alone is no key. -/
def parse? (s : String) : Option JobKey :=
  if s = "scan" then some scan
  else if s = "dispatch" then some dispatch
  else match after? uploadTag.toList s.toList with
    | some (c :: r) => some (upload (String.ofList (c :: r)))
    | _ => none

/-- The key as any text gives it: `upload:` is here the upload of the item without a name. -/
def ofText (s : String) : Option JobKey :=
  if s = uploadTag then some (upload "") else parse? s

/-- The job looks after the tables and sends nothing. -/
def isHousekeeping : JobKey → Bool
  | upload _ => false
  | _ => true

/-- The job sends an item. -/
def isUpload : JobKey → Bool
  | upload _ => true
  | _ => false

/-- The item that the job sends. -/
def item? : JobKey → Option String
  | upload id => some id
  | _ => none

end JobKey

end MediaBackup

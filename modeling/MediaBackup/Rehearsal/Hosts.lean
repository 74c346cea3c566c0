import MediaBackup.Engine.Call

/-
  Hosts whose behaviour is written down beforehand.

  A rehearsal is a run of the engine against such hosts: a library whose items read as told, and a
  server that answers as told.
-/

namespace MediaBackup.Rehearsal

/-- An item of a rehearsed library. -/
structure ShelfItem where
  content : Content
  /-- The item does not open, but fails like this. -/
  openError : Option HostError
  /-- The library breaks down when the item is opened. -/
  breakdown : Option (Option String)

/-- Opens an item. -/
def ShelfItem.open_ (i : ShelfItem) : Reply Content :=
  match i.breakdown, i.openError with
  | some words, _ => .crashed words
  | none, some e => .failed e
  | none, none => .given i.content

/-- A rehearsed library: items by their id. -/
abbrev Shelf := List (String × ShelfItem)

namespace Shelf

/-- Puts an item in the place of the one of its id, or takes that one away. -/
def set (s : Shelf) (id : String) (i : Option ShelfItem) : Shelf :=
  let rest := s.filter (·.1 != id)
  match i with
  | some i => rest ++ [(id, i)]
  | none => rest

/-- Opens the item of an id. -/
def openItem (s : Shelf) (id : String) : Reply Content :=
  match s.find? (·.1 == id) with
  | some (_, i) => i.open_
  | none => .failed (.notFound (id ++ " deleted"))

/-- The ids in order. -/
def ids (s : Shelf) : List String := (s.map Prod.fst).mergeSort Text.le

end Shelf

/-- How a rehearsed library is listed. -/
structure ListingPlan where
  /-- The items that are listed, in this order, instead of all. -/
  ids : Option (List String)
  /-- The listing fails at once. -/
  error : Option HostError
  /-- The listing fails after the last item. -/
  lateError : Option HostError
  /-- The library breaks down when it is listed. -/
  breakdown : Option (Option String)
deriving Inhabited

/-- Lists a library. -/
def ListingPlan.list (p : ListingPlan) (s : Shelf) : Reply Listing :=
  match p.breakdown, p.error with
  | some words, _ => .crashed words
  | none, some e => .failed e
  | none, none => .given ⟨p.ids.getD s.ids, p.lateError⟩

/-- What a server does with one request. -/
structure ReplyPlan where
  response : Response
  /-- The client fails like this instead of answering. -/
  error : Option HostError
  /-- How many chunks the client takes; none for all. -/
  asked : Option Nat
  /-- The client answers although a read of the body failed. -/
  ignoresFailure : Bool
  /-- The milliseconds until the client answers. -/
  delay : Nat
  /-- The client never answers. -/
  hangs : Bool
  /-- The client breaks down. -/
  breakdown : Option (Option String)
  /-- Before the body is taken, so much time passes, -/
  advance : Option Duration
  /-- the network becomes this, -/
  network : Option (Except HostError NetworkInfo)
  /-- and someone counts an attempt at this job. -/
  tamper : Option String

/-- A server that says yes. -/
def ReplyPlan.yes : ReplyPlan := ⟨⟨200, []⟩, none, none, false, 0, false, none, none, none, none⟩

/-- What the client answers. -/
def ReplyPlan.answer (p : ReplyPlan) (t : Transfer) : Except HostError Response :=
  match if p.ignoresFailure then none else t.failureTaken, p.error with
  | some words, _ => .error (.device words)
  | none, some e => .error e
  | none, none => .ok p.response

/-- The replies of a server, for each item one after another. -/
abbrev ServerPlan := List (String × List ReplyPlan)

namespace ServerPlan

/-- The name under which stands what is answered when an item has no reply of its own left.  That
    reply is never used up, whatever it is asked for. -/
def fallback : String := "*"

/-- The reply to a request for an item, and the replies that are left. -/
def next (s : ServerPlan) (item : String) : ReplyPlan × ServerPlan :=
  match s.find? (·.1 == item) with
  | some (_, p :: ps) => (p, if item == fallback then s else s.map fun e => if e.1 == item then (e.1, ps) else e)
  | _ => match s.find? (·.1 == fallback) with
    | some (_, p :: _) => (p, s)
    | _ => (.yes, s)

end ServerPlan

end MediaBackup.Rehearsal

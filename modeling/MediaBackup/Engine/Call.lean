import MediaBackup.Engine.Script
import MediaBackup.Error.Sync
import MediaBackup.Event.Basic
import MediaBackup.Network.Info
import MediaBackup.Store.Items
import MediaBackup.Store.Jobs
import MediaBackup.Upload.Request
import MediaBackup.Upload.Transfer

/-
  What the engine asks of the world around it.

  The two tables answer statements, the clock tells the time, listeners are told events, and the hosts
  list the library, open items, exchange requests and look at the network.  An `Engine` program is a
  script of these calls that may stop early: with an error, or because a host broke down under it.
-/

namespace MediaBackup

/-- What a host does when it is asked. -/
inductive Reply (α : Type) where
  | given (a : α)
  | failed (error : HostError)
  /-- The host broke down, in these words or in none. -/
  | crashed (words : Option String)
deriving Repr

/-- What listing the library comes to: the items in order, and how the listing failed after them. -/
structure Listing where
  ids : List String
  failure : Option HostError
deriving Repr, Inhabited

/-- What an exchange comes to. -/
inductive Exchange where
  /-- The client answered in time, and this became of the body. -/
  | ended (transfer : Transfer) (answer : Except HostError Response)
  /-- The client did not answer in time. -/
  | late
  /-- The client broke down. -/
  | crashed (words : Option String)

/-- The calls of the engine. -/
inductive Call where
  | jobs (statement : JobStatement)
  | items (statement : ItemStatement)
  | now
  | emit (event : Event)
  /-- Looks at the network. -/
  | network
  /-- Lists the library. -/
  | list
  /-- Opens an item. -/
  | openItem (id : String)
  /-- Starts an exchange, which gets a number. -/
  | send (request : Request) (body : Body)
  /-- Waits for the end of an exchange. -/
  | await (exchange : Nat)

/-- What a call answers.  A world without a look at the network answers `none` to that. -/
abbrev Call.Answer : Call → Type
  | jobs s => Except StoreFault s.Answer
  | items s => Except StoreFault s.Answer
  | now => Instant
  | emit _ => Unit
  | network => Option (Except HostError NetworkInfo)
  | list => Reply Listing
  | openItem _ => Reply Content
  | send _ _ => Nat
  | await _ => Exchange

/-- Why a program stops early. -/
inductive Stop where
  | failed (error : SyncError)
  /-- Something broke down, in these words or in none. -/
  | crashed (words : Option String)

/-- Programs of the engine. -/
abbrev Engine (α : Type) := ExceptT Stop (Script Call Call.Answer) α

namespace Engine

/-- Asks the world. -/
def call (c : Call) : Engine c.Answer := ExceptT.lift (.question c)

/-- Stops with an error. -/
def fail {α : Type} (e : SyncError) : Engine α := throw (.failed e)

/-- Stops because something broke down. -/
def crash {α : Type} (words : Option String) : Engine α := throw (.crashed words)

/-- A value, or the error in its place. -/
def ofExcept {α : Type} : Except SyncError α → Engine α
  | .ok a => pure a
  | .error e => fail e

/-- An answer of the database, or its failure. -/
def ofStore {α : Type} : Except StoreFault α → Engine α
  | .ok a => pure a
  | .error fault => fail (.database fault)

/-- Runs a statement on the table of jobs. -/
def jobs (s : JobStatement) : Engine s.Answer := do ofStore (← call (.jobs s))

/-- Runs a statement on the table of items. -/
def items (s : ItemStatement) : Engine s.Answer := do ofStore (← call (.items s))

/-- The time. -/
def now : Engine Instant := call .now

/-- Tells listeners of the engine. -/
def emit (e : SyncEvent) : Engine Unit := call (.emit (.sync e))

/-- A host's answer; if it broke down the program stops. -/
def ofReply {α : Type} : Reply α → Engine (Except HostError α)
  | .given a => pure (.ok a)
  | .failed e => pure (.error e)
  | .crashed words => crash words

/-- How a program ends, where stopping early is a value. -/
def observe {α : Type} (p : Engine α) : Engine (Except Stop α) := ExceptT.lift p.run

end Engine

end MediaBackup

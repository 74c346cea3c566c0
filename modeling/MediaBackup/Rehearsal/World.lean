import MediaBackup.Rehearsal.Hosts
import MediaBackup.Store.Database
import MediaBackup.Upload.Settings

/-
  A rehearsed world: it answers every call of the engine, and keeps what was told and sent.
-/

namespace MediaBackup.Rehearsal

/-- A request as the server saw it. -/
structure Received where
  request : Request
  body : Body
  transfer : Transfer

/-- The item that a request is for. -/
def Received.item (r : Received) : String :=
  ((r.request.headers.find? (·.1 == UploadSettings.itemHeader)).map Prod.snd).getD ""

/-- An exchange that is under way. -/
structure InFlight where
  number : Nat
  /-- When it ends, in milliseconds of the world. -/
  endsAt : Nat
  result : Exchange

/-- How many of the next writes are to lose against another writer. -/
structure Losses where
  inserts : Nat
  replaces : Nat
  updates : Nat
deriving DecidableEq, Repr, Inhabited

/-- A rehearsed world. -/
structure World where
  database : Database
  clock : Instant
  /-- What the host sees of the network; none if it cannot look. -/
  network : Option (Except HostError NetworkInfo)
  shelf : Shelf
  listing : ListingPlan
  server : ServerPlan
  losses : Losses
  /-- The events told so far. -/
  events : List Event
  /-- The requests received so far. -/
  received : List Received
  inFlight : List InFlight
  /-- The most exchanges that were under way at once. -/
  peak : Nat
  /-- How many exchanges were started. -/
  exchanges : Nat
  /-- The milliseconds that exchanges took so far. -/
  elapsed : Nat

/-- What a write that is to lose answers, and the losses that are left. -/
def Losses.take (l : Losses) : (s : JobStatement) → Option (s.Answer × Losses)
  | .insertIfAbsent _ => if l.inserts = 0 then none else some (false, { l with inserts := l.inserts - 1 })
  | .replaceIf _ _ => if l.replaces = 0 then none else some (false, { l with replaces := l.replaces - 1 })
  | .updateIf _ _ => if l.updates = 0 then none else some (false, { l with updates := l.updates - 1 })
  | _ => none

namespace World

/-- A statement on the table of jobs, unless it is to lose. -/
def answerJobs (w : World) (s : JobStatement) : Except StoreFault s.Answer × World :=
  match w.losses.take s with
  | some (x, losses) => (.ok x, { w with losses := losses })
  | none => ((w.database.runJobs s).1, { w with database := (w.database.runJobs s).2 })

/-- A statement on the table of items. -/
def answerItems (w : World) (s : ItemStatement) : Except StoreFault s.Answer × World :=
  ((w.database.runItems s).1, { w with database := (w.database.runItems s).2 })

/-- The network becomes another, for a host that can look at it. -/
def withNetwork (w : World) (n : Except HostError NetworkInfo) : World :=
  { w with network := w.network.map fun _ => n }

/-- What a reply changes before the body is taken. -/
def disturb (w : World) (p : ReplyPlan) : World :=
  let w := (p.network.map w.withNetwork).getD w
  { w with
    clock := (p.advance.map w.clock.advance).getD w.clock
    database := (p.tamper.map w.database.countAttempt).getD w.database }

/-- Starts an exchange: the client takes the body, and its answer comes later. -/
def answerSend (w : World) (request : Request) (body : Body) : Nat × World :=
  let transfer (p : ReplyPlan) := Transfer.ofBody body p.asked
  let item := (Received.mk request body ⟨[], none, .cutOff⟩).item
  let (p, server) := w.server.next item
  let w := { w with server := server }.disturb p
  let t := transfer p
  let deadline := (request.timeout.map Duration.millis).getD p.delay
  let isLate := p.hangs || (p.delay != 0 && deadline ≤ p.delay)
  let result := if isLate then .late
    else match p.breakdown with
      | some words => .crashed words
      | none => .ended t (p.answer t)
  let flight : InFlight := ⟨w.exchanges, w.elapsed + (if isLate then deadline else p.delay), result⟩
  (w.exchanges,
    { w with
      received := w.received ++ [⟨request, body, t⟩]
      inFlight := w.inFlight ++ [flight]
      peak := max w.peak (w.inFlight.length + 1)
      exchanges := w.exchanges + 1 })

/-- Ends an exchange. -/
def answerAwait (w : World) (number : Nat) : Exchange × World :=
  match w.inFlight.find? (·.number == number) with
  | some f =>
    (f.result, { w with
      inFlight := w.inFlight.filter (·.number != number)
      elapsed := max w.elapsed f.endsAt })
  | none => (.crashed none, w)

/-- Answers a call. -/
def answer : (c : Call) → World → c.Answer × World
  | .jobs s, w => w.answerJobs s
  | .items s, w => w.answerItems s
  | .now, w => (w.clock, w)
  | .emit e, w => ((), { w with events := w.events ++ [e] })
  | .network, w => (w.network, w)
  | .list, w => (w.listing.list w.shelf, w)
  | .openItem id, w => (w.shelf.openItem id, w)
  | .send request body, w => w.answerSend request body
  | .await number, w => w.answerAwait number

/-- How long a call has to wait. -/
def delay : Call → World → Nat
  | .await number, w => ((w.inFlight.find? (·.number == number)).map fun f => f.endsAt - w.elapsed).getD 0
  | _, _ => 0

/-- The row of a job is that of a running one. -/
def isRunning (w : World) (key : String) : Bool :=
  (w.database.jobs.getD []).any fun r => r.key == key && r.state == JobState.running.name

/-- Runs a program of the engine. -/
def run {α : Type} (w : World) (p : Engine α) : Except Stop α × World := Script.run answer p.run w

end World

end MediaBackup.Rehearsal

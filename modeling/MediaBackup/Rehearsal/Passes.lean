import MediaBackup.Event.Bus
import MediaBackup.Pass.Crew
import MediaBackup.Queue.Due
import MediaBackup.Rehearsal.World
import MediaBackup.Service.Loop

/-
  Passes in a rehearsed world, and what they left to tell.
-/

namespace MediaBackup.Rehearsal.World

/-- How passes are run in this world: to their end, unless they are given up once a job is running. -/
def conduct (until? : Option String) : Crew.Conduct World where
  answer := answer
  delay := delay
  givesUp := fun w => match until? with
    | some key => w.isRunning key
    | none => false

/-- Runs a pass. -/
def runPass (b : Backup) (w : World) : Except Stop PassReport × World :=
  let (r, w) := b.runPass? (conduct none) w
  (r.getD (.error (.crashed none)), w)

/-- Runs passes until the queue is idle, at most `n`, letting time pass between them. -/
def runUntilIdle (b : Backup) (step : Duration) : Nat → World → Except Stop (List PassReport) × World
  | 0, w => (.ok [], w)
  | n + 1, w =>
    match w.runPass b with
    | (.error e, w) => (.error e, w)
    | (.ok report, w) =>
      match w.run Queue.stats with
      | (.error e, w) => (.error e, w)
      | (.ok count, w) =>
        if count.isIdle then (.ok [report], w)
        else
          let (rest, w) := runUntilIdle b step n { w with clock := w.clock.advance step }
          (rest.map (report :: ·), w)

/-- Runs the loop of a service before any interval has passed.  Exchanges that are given up with the loop
    are cut off. -/
def runLoop (v : Service) (until? : Option String) (wakes : List Wake) (w : World) : Except Stop Unit × World :=
  let (r, w) := v.run (conduct until?) (.ofSecs 0) wakes w
  (r, { w with inFlight := [] })

/-- What a listener heard, of the events of which so many are kept, and what was sent; and the world without
    it.  Uploads that run side by side finish in no order of their own; for them events and requests are put in
    the order of their jobs. -/
def told (w : World) (slots : Nat) (sideBySide : Bool) : List MediaBackup.Received × List Received × World :=
  let byJob {α : Type} (key : α → String) (l : List α) : List α :=
    if sideBySide then l.mergeSort fun a b => Text.le (key a) (key b) else l
  let job (h : MediaBackup.Received) : String := match h with
    | .event e => e.job
    | _ => ""
  (byJob job (EventBus.heard slots w.events), byJob Received.item w.received, { w with events := [], received := [] })

end MediaBackup.Rehearsal.World

import MediaBackup.Network.Info
import MediaBackup.Time.Duration

/-
  A look at the network by trying to reach one place.

  A probe tells only whether the place was reached in time; traffic is taken to be free.  Asking keeps
  what the last probe found for a while.  A watcher probes again and again, and reports only what
  differs from its last report.
-/

namespace MediaBackup.Network

/-- What a probe shows. -/
def ofProbe (reached : Bool) : NetworkInfo :=
  if reached then ⟨.connected, some .other, false⟩ else ⟨.disconnected, none, false⟩

/-- A place to probe, asked now and then. -/
structure Monitor where
  /-- How long an answer is kept. -/
  keep : Duration
  /-- When the last probe for an answer was made, and what it showed. -/
  kept : Option (Duration × NetworkInfo)
deriving DecidableEq, Repr, Inhabited

namespace Monitor

/-- Keeps an answer for ten seconds. -/
def standard : Monitor := ⟨.ofSecs 10, none⟩

/-- The answer at a time since the start, where a probe would show `reached`: the kept one while it is
    fresh, else that of a probe. -/
def ask (m : Monitor) (now : Duration) (reached : Bool) : NetworkInfo × Monitor :=
  let probed := (ofProbe reached, { m with kept := some (now, ofProbe reached) })
  match m.kept with
  | some (at_, info) => if now.nanos - at_.nanos < m.keep.nanos then (info, m) else probed
  | none => probed

/-- Whether traffic costs: never, and nothing is probed to tell. -/
def isMetered (_ : Monitor) : Bool := false

end Monitor

/-- A watcher of the network, by its last report. -/
structure Watcher where
  last : Option NetworkStatus
deriving DecidableEq, Repr, Inhabited

namespace Watcher

/-- Has not reported anything. -/
def fresh : Watcher := ⟨none⟩

/-- What one probe gives it to report. -/
def probe (w : Watcher) (reached : Bool) : Option (NetworkInfo × Watcher) :=
  let info := ofProbe reached
  if w.last = some info.status then none else some (info, ⟨some info.status⟩)

/-- Its next report, where the probes show what the list says, with the probes that are left; none if
    it has nothing to report before they end. -/
def next (w : Watcher) : List Bool → Option (NetworkInfo × Watcher × List Bool)
  | [] => none
  | reached :: probes =>
    match w.probe reached with
    | some (info, w) => some (info, w, probes)
    | none => w.next probes

end Watcher

end MediaBackup.Network

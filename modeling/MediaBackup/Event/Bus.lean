import MediaBackup.Event.Basic

/-
  A bus that hands every event to every subscriber, and keeps the latest ones for the slow.

  Events are numbered.  A subscriber is the number of the event it reads next; a new one starts at the
  next event.  The bus keeps as many events as its capacity, rounded up to a power of two.  A
  subscriber whose next event is no longer kept is told ONCE how many it missed, and goes on with the
  oldest event that is kept.
-/

namespace MediaBackup

/-- A bus and its subscribers. -/
structure EventBus where
  /-- How many events are kept. -/
  slots : Nat
  /-- The kept events, oldest first. -/
  kept : List Event
  /-- The number of the next event. -/
  count : Nat
  /-- Every subscriber's next event; none for one that left. -/
  subscribers : Array (Option Nat)
deriving Inhabited

/-- What a subscriber gets. -/
inductive Received where
  | event (e : Event)
  | nothing
  /-- So many events were missed. -/
  | lagged (missed : Nat)
deriving Repr, Inhabited

namespace EventBus

/-- The least power of two that is at least `n`, found within `fuel` doublings of `p`. -/
def roundUp (n : Nat) : Nat → Nat → Nat
  | 0, p => p
  | fuel + 1, p => if n ≤ p then p else roundUp n fuel (2 * p)

/-- The capacity of a bus unless another is asked for. -/
def standardCapacity : Nat := 256

/-- A bus for at least `capacity` events. -/
def create (capacity : Nat) : EventBus := ⟨roundUp capacity capacity 1, [], 0, #[]⟩

/-- How many subscribers there are. -/
def population (b : EventBus) : Nat := (b.subscribers.filter Option.isSome).size

/-- A new subscriber, and its index. -/
def subscribe (b : EventBus) : Nat × EventBus :=
  (b.subscribers.size, { b with subscribers := b.subscribers.push (some b.count) })

/-- The subscriber leaves. -/
def leave (b : EventBus) (i : Nat) : EventBus := { b with subscribers := b.subscribers.setIfInBounds i none }

/-- Hands out an event.  With no subscriber it is not kept. -/
def emit (b : EventBus) (e : Event) : EventBus :=
  if b.population = 0 then b
  else
    let kept := b.kept ++ [e]
    { b with kept := kept.drop (kept.length - b.slots), count := b.count + 1 }

/-- The number of the oldest kept event. -/
def oldest (b : EventBus) : Nat := b.count - b.kept.length

/-- The next event of a subscriber; none for one that left. -/
def receive (b : EventBus) (i : Nat) : Option (Received × EventBus) :=
  match b.subscribers[i]? with
  | some (some at_) =>
    let move (n : Nat) : EventBus := { b with subscribers := b.subscribers.setIfInBounds i (some n) }
    if at_ < b.oldest then some (.lagged (b.oldest - at_), move b.oldest)
    else match b.kept[at_ - b.oldest]? with
      | some e => some (.event e, move (at_ + 1))
      | none => some (.nothing, b)
  | _ => none

/-- What a subscriber hears that listens only after events were handed out, of which so many are kept. -/
def heard (slots : Nat) (events : List Event) : List Received :=
  let missed := events.length - slots
  (if missed = 0 then [] else [.lagged missed]) ++ (events.drop missed).map .event

theorem heard_of_length_le {slots : Nat} {events : List Event} (h : events.length ≤ slots) :
    heard slots events = events.map .event := by
  simp [heard, Nat.sub_eq_zero_of_le h]

/-- The bus in words. -/
def shown (b : EventBus) : String := "EventBus \x7b subscribers: " ++ toString b.population ++ " \x7d"

end EventBus

end MediaBackup

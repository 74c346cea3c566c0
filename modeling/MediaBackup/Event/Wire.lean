import MediaBackup.Event.Basic
import MediaBackup.Json.Record
import MediaBackup.Json.Writer

/-
  Events as JSON.

  An event is an object of two members: `type` names the part of the program, and `payload` is an
  object whose member `event` names the event and stands before the event's own members.  Reading
  takes members in any order; either object may also be a list of its values, the name first.
-/

namespace MediaBackup.Event

open Json (Tree Num Cause Reader)

/-- The two parts of the program that speak. -/
inductive Origin where
  | sync
  | service
deriving DecidableEq, Repr

/-- The origin of a name. -/
def Origin.parse? : String → Option Origin
  | "Sync" => some sync
  | "Service" => some service
  | _ => none

/-- The name that an event's own name is a member of. -/
def tagName : String := "event"

/-- The member of an event that says where it comes from. -/
def originName : String := "type"

/-- The member of an event that says what it is. -/
def payloadName : String := "payload"

/-- The text of an event. -/
def text (e : Event) : String :=
  let wrap (origin name : String) (members : List (String × String)) :=
    Json.writeObject
      [(originName, Json.writeString origin),
       (payloadName, Json.writeObject ((tagName, Json.writeString name) :: members))]
  match e with
  | sync (.scanCompleted seen discovered) =>
    wrap "Sync" "ScanCompleted" [("seen", toString seen), ("discovered", toString discovered)]
  | sync (.dispatchCompleted enqueued) =>
    wrap "Sync" "DispatchCompleted" [("enqueued", toString enqueued)]
  | sync (.jobStateChanged key source target attempt) =>
    wrap "Sync" "JobStateChanged"
      [("job_key", Json.writeString key), ("from", Json.writeString source),
       ("to", Json.writeString target), ("attempt", toString attempt)]
  | sync (.uploadSucceeded item) =>
    wrap "Sync" "UploadSucceeded" [("item_id", Json.writeString item)]
  | sync (.jobAbandoned key reason lastError) =>
    wrap "Sync" "JobAbandoned"
      [("job_key", Json.writeString key), ("reason", Json.writeString reason),
       ("last_error", Json.writeOption lastError)]
  | sync (.ledgerCorrupted key message) =>
    wrap "Sync" "LedgerCorrupted" [("job_key", Json.writeString key), ("message", Json.writeString message)]
  | service (.started recovered) =>
    wrap "Service" "Started" [("recovered_jobs", toString recovered)]
  | service .stopped => wrap "Service" "Stopped" []
  | service (.fatal message) => wrap "Service" "Fatal" [("message", Json.writeString message)]

/-- What a payload says: the event's name, and its values by name or in order. -/
inductive Body where
  | named (members : List (String × Tree))
  | ordered (values : List Tree)

/-- Reading of a payload's values. -/
abbrev Decoder := Except Cause

/-- The value of a field: by name, where a second one of that name is a fault, or by its position. -/
def Body.value? (b : Body) (name : String) (position : Nat) : Decoder (Option Tree) :=
  match b with
  | named members =>
    match members.filter (·.1 = name) with
    | [] => .ok none
    | [m] => .ok (some m.2)
    | _ => .error (.duplicateField name)
  | ordered values =>
    match values[position]? with
    | some t => .ok (some t)
    | none => .error (.wrongLength position "an event")

/-- The value of a field that must be there. -/
def Body.value (b : Body) (name : String) (position : Nat) : Decoder Tree := do
  match ← b.value? name position with
  | some t => pure t
  | none => .error (.missingField name)

/-- What a value is, in a sentence. -/
def found : Tree → String
  | .null => "null"
  | .bool b => "boolean `" ++ Json.writeBool b ++ "`"
  | .number n => n.shown
  | .text s => "string " ++ Text.quoted s
  | .list _ => "sequence"
  | .object _ => "map"

/-- A value as a count of at most `most`. -/
def asCount (most : Nat) : Tree → Decoder Nat
  | .number (.natural n) =>
    if n ≤ most then .ok n else .error (.wrongValue (Num.natural n).shown "a count")
  | .number (.negative n) => .error (.wrongValue (Num.negative n).shown "a count")
  | t => .error (.wrongType (found t) "a count")

/-- A value as a text. -/
def asText : Tree → Decoder String
  | .text s => .ok s
  | t => .error (.wrongType (found t) "a string")

/-- A value as a text that may be missing. -/
def asOption : Option Tree → Decoder (Option String)
  | none | some .null => .ok none
  | some t => some <$> asText t

/-- A list of values must not be longer than the fields. -/
def Body.checkLength (b : Body) (fields : Nat) : Decoder Unit :=
  match b with
  | named _ => .ok ()
  | ordered values =>
    if fields < values.length then .error (.wrongLength values.length "an event") else .ok ()

/-- The greatest count of an attempt. -/
def attemptMax : Nat := UInt32.size - 1

/-- The greatest count. -/
def countMax : Nat := UInt64.size - 1

/-- The names of the engine's events, in the order of their numbers. -/
def syncNames : List String :=
  ["ScanCompleted", "DispatchCompleted", "JobStateChanged", "UploadSucceeded", "JobAbandoned",
   "LedgerCorrupted"]

/-- The names of the service's events, in the order of their numbers. -/
def serviceNames : List String := ["Started", "Stopped", "Fatal"]

/-- An event of the engine by its name and values. -/
def decodeSync (name : String) (b : Body) : Decoder SyncEvent := do
  match name with
  | "ScanCompleted" =>
    let seen ← asCount countMax (← b.value "seen" 0)
    let discovered ← asCount countMax (← b.value "discovered" 1)
    b.checkLength 2
    pure (.scanCompleted seen discovered)
  | "DispatchCompleted" =>
    let enqueued ← asCount countMax (← b.value "enqueued" 0)
    b.checkLength 1
    pure (.dispatchCompleted enqueued)
  | "JobStateChanged" =>
    let key ← asText (← b.value "job_key" 0)
    let source ← asText (← b.value "from" 1)
    let target ← asText (← b.value "to" 2)
    let attempt ← asCount attemptMax (← b.value "attempt" 3)
    b.checkLength 4
    pure (.jobStateChanged key source target attempt)
  | "UploadSucceeded" =>
    let item ← asText (← b.value "item_id" 0)
    b.checkLength 1
    pure (.uploadSucceeded item)
  | "JobAbandoned" =>
    let key ← asText (← b.value "job_key" 0)
    let reason ← asText (← b.value "reason" 1)
    let lastError ← asOption (← b.value? "last_error" 2)
    b.checkLength 3
    pure (.jobAbandoned key reason lastError)
  | "LedgerCorrupted" =>
    let key ← asText (← b.value "job_key" 0)
    let message ← asText (← b.value "message" 1)
    b.checkLength 2
    pure (.ledgerCorrupted key message)
  | other => .error (.unknownVariant other)

/-- An event of the service by its name and values. -/
def decodeService (name : String) (b : Body) : Decoder ServiceEvent := do
  match name with
  | "Started" =>
    let recovered ← asCount countMax (← b.value "recovered_jobs" 0)
    b.checkLength 1
    pure (.started recovered)
  | "Stopped" =>
    b.checkLength 0
    pure .stopped
  | "Fatal" =>
    let message ← asText (← b.value "message" 0)
    b.checkLength 1
    pure (.fatal message)
  | other => .error (.unknownVariant other)

/-- An event by its origin, name and values. -/
def decodeBody (origin : Origin) (name : String) (b : Body) : Decoder Event :=
  match origin with
  | .sync => Event.sync <$> decodeSync name b
  | .service => Event.service <$> decodeService name b

/-- The names of an origin's events, in the order of their numbers. -/
def Origin.names : Origin → List String
  | sync => syncNames
  | service => serviceNames

/-- A name as text, which must be one of `names`; a number stands for the name at its place. -/
def asName (names : List String) : Tree → Decoder String
  | .text s => if names.contains s then .ok s else .error (.unknownVariant s)
  | .number (.natural n) =>
    match names[n]? with
    | some s => .ok s
    | none => .error (.wrongValue (Num.natural n).shown "a variant")
  | t => .error (.wrongType (found t) "a variant")

/-- The event of a payload that was read before its origin was known. -/
def ofTree (origin : Origin) : Tree → Decoder Event
  | .object members =>
    match members.filter (·.1 = tagName) with
    | [] => .error (.missingField tagName)
    | [m] => do
      let name ← asName origin.names m.2
      decodeBody origin name (.named (members.filter (·.1 ≠ tagName)))
    | _ => .error (.duplicateField tagName)
  | .list [] => .error (.missingField tagName)
  | .list (t :: values) => do
    let name ← asName origin.names t
    decodeBody origin name (.ordered values)
  | t => .error (.wrongType (found t) "an event")

/-- The name of an event or an origin, in place. -/
def readName (wanted : String) (names : List String) : Reader String := do
  let s ← Json.Reader.quotedText wanted
  if names.contains s then pure s else Json.Reader.fail (.unknownVariant s)

/-- The members of a payload, up to its end: the event's name once it was read, and all others. -/
def payloadMembers (names : List String) (depth : Nat) :
    Nat → Bool → Option String → List (String × Tree) →
    Reader (Except Cause (Option String × List (String × Tree)))
  | 0, _, _, _ => Json.Reader.failAhead .endInValue
  | fuel + 1, first, name, acc => do
    if ← Json.Reader.hasMember first then
      Json.Reader.skip
      let member ← Json.Reader.string
      if member = tagName then
        match name with
        | some _ => pure (.error (.duplicateField tagName))
        | none =>
          Json.Reader.colon
          let n ← readName "variant identifier" names
          payloadMembers names depth fuel false (some n) acc
      else
        Json.Reader.colon
        let t ← Json.Reader.tree depth
        payloadMembers names depth fuel false name ((member, t) :: acc)
    else pure (.ok (name, acc.reverse))

/-- The items of a payload after the first, up to its end. -/
def payloadItems (depth : Nat) : Nat → List Tree → Reader (List Tree)
  | 0, _ => Json.Reader.failAhead .endInValue
  | fuel + 1, acc => do
    if ← Json.Reader.hasItem false then
      let t ← Json.Reader.tree depth
      payloadItems depth fuel (t :: acc)
    else pure acc.reverse

/-- Fails if the values do not make an event. -/
def settle {α : Type} : Decoder α → Reader α
  | .ok a => pure a
  | .error cause => Json.Reader.fail cause

/-- The payload of an event whose origin is known, in place. -/
def readPayload (origin : Origin) (depth : Nat) : Reader Event := do
  let names := origin.names
  match ← Json.Reader.peekPastBlank with
  | none => Json.Reader.failAhead .endInValue
  | some '\x7b' =>
    if depth ≤ 1 then Json.Reader.failAhead .tooDeep
    else
      Json.Reader.skip
      match ← payloadMembers names (depth - 1) ((← Json.Reader.left) + 1) true none [] with
      | .error cause =>
        Json.Reader.maybeCloseObject
        Json.Reader.fail cause
      | .ok (name, members) =>
        Json.Reader.closeObject
        match name with
        | none => Json.Reader.fail (.missingField tagName)
        | some n => settle (decodeBody origin n (.named members))
  | some '[' =>
    if depth ≤ 1 then Json.Reader.failAhead .tooDeep
    else
      Json.Reader.skip
      if ← Json.Reader.hasItem true then
        let n ← readName "variant identifier" names
        let values ← payloadItems (depth - 1) ((← Json.Reader.left) + 1) []
        Json.Reader.closeList
        settle (decodeBody origin n (.ordered values))
      else
        Json.Reader.closeList
        Json.Reader.fail (.missingField tagName)
  | some _ => do
    let t ← Json.Reader.tree depth
    settle (ofTree origin t)

/-- The next member of an event that matters, others left out: its name is read, its colon not. -/
def nextMember : Nat → Bool → Reader (Option String)
  | 0, _ => Json.Reader.failAhead .endInValue
  | fuel + 1, first => do
    if ← Json.Reader.hasMember first then
      Json.Reader.skip
      let member ← Json.Reader.string
      if member = originName ∨ member = payloadName then pure (some member)
      else
        Json.Reader.colon
        Json.Reader.skipValue
        nextMember fuel false
    else pure none

/-- The next member that matters. -/
def relevantMember (first : Bool) : Reader (Option String) := do
  nextMember ((← Json.Reader.left) + 1) first

/-- The origin of an event, in place. -/
def readOrigin : Reader Origin := do
  let s ← readName "variant identifier" ["Sync", "Service"]
  match Origin.parse? s with
  | some o => pure o
  | none => Json.Reader.fail (.unknownVariant s)

/-- A fault of the event as a whole: reported past its end. -/
def failOutside {α : Type} (cause : Cause) : Reader α := do
  Json.Reader.maybeCloseObject
  Json.Reader.fail cause

/-- No member that matters may follow. -/
def lastMembers (e : Event) : Reader Event := do
  match ← relevantMember false with
  | none => pure e
  | some name => failOutside (.duplicateField name)

/-- The members of an event: origin first or payload first, and nothing twice. -/
def readMembers (depth : Nat) : Reader Event := do
  match ← relevantMember true with
  | none => failOutside (.missingField originName)
  | some first =>
    Json.Reader.colon
    if first = originName then
      let origin ← readOrigin
      match ← relevantMember false with
      | none => failOutside (.missingField payloadName)
      | some second =>
        if second = originName then failOutside (.duplicateField originName)
        else
          Json.Reader.colon
          lastMembers (← readPayload origin depth)
    else
      let payload ← Json.Reader.tree depth
      match ← relevantMember false with
      | none => failOutside (.missingField originName)
      | some second =>
        if second = payloadName then failOutside (.duplicateField payloadName)
        else
          Json.Reader.colon
          let origin ← readOrigin
          lastMembers (← settle (ofTree origin payload))

/-- An event, in place. -/
def read (depth : Nat) : Reader Event := do
  match ← Json.Reader.peekPastBlank with
  | none => Json.Reader.failAhead .endInValue
  | some '\x7b' =>
    Json.Reader.skip
    let e ← readMembers (depth - 1)
    Json.Reader.closeObject
    pure e
  | some '[' =>
    Json.Reader.skip
    if ← Json.Reader.hasItem true then
      let origin ← readOrigin
      if ← Json.Reader.hasItem false then
        let e ← readPayload origin (depth - 1)
        Json.Reader.closeList
        pure e
      else
        Json.Reader.closeList
        Json.Reader.fail (.wrongLength 1 "an event")
    else
      Json.Reader.closeList
      Json.Reader.fail (.wrongLength 0 "an event")
  | some _ => Json.Reader.wrongTypeAhead "an event"

/-- Reads a text that holds one event and nothing else. -/
def ofText (s : String) : Except Json.Fault Event :=
  Json.Reader.run (do let e ← read Json.depthLimit; Json.Reader.finish; pure e) s

end MediaBackup.Event

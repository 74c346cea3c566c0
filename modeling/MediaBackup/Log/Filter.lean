import MediaBackup.Log.Directive

/-
  Filters of logs.

  A filter is a list of directives between commas.  A directive that names no span and asks for no value
  decides wherever a target is logged under: of several that are about it the narrowest decides, and where
  there is none nothing passes.  A directive with a span or a field lets spans that it is about pass, and as
  long as such a span with such values is entered, everything of its level passes within.

  Where logs are set up, a filter decides which lines are written.
-/

namespace MediaBackup.Log

/-- A filter: its directives, in the order they were written. -/
abbrev Filter := List Directive

namespace Filter

/-- Reads a filter. -/
def parse (s : String) : Except LogFault Filter :=
  ((Text.splitAll (· == ',') s.toList).filter fun part => !part.isEmpty).mapM Directive.parse

/-- Adds a directive, in the place of one that stands for the same. -/
def add (ds : List Directive) (d : Directive) : List Directive := ds.filter (!d.replaces ·) ++ [d]

/-- The directives about spans. -/
def spanwise (f : Filter) : List Directive := (f.filter (·.isScoped)).foldl add []

/-- The directives that hold everywhere, those about spans last. -/
def general (f : Filter) : List Directive :=
  (f.filter (!·.isScoped) ++ f.filter fun d => d.isScoped && d.isGeneral).foldl add []

/-- The widest limit of a directive. -/
def ceiling (f : Filter) : Limit := if f.any (·.hasTest) then some .trace else Limit.widest (f.map (·.limit))

/-- The directive that decides about a target, if the fields of the line are not known. -/
def decider? (f : Filter) (target : String) (isMeant : Directive → Bool) : Option Directive :=
  (f.general.filter fun d => d.covers target && isMeant d).foldl (fun best d =>
    match best with
    | none => some d
    | some b => if d.isBefore b then some d else some b) none

/-- What passes under a target outside of all spans. -/
def passes (f : Filter) (target : String) (level : LogLevel) : Bool :=
  f.ceiling.passes level && (f.decider? target fun _ => true).any (·.limit.passes level)

/-- Something passes within spans of these limits. -/
def passesWithin (f : Filter) (scope : List Limit) (level : LogLevel) : Bool :=
  (Limit.widest ((f.filter (·.isScoped)).map (·.limit))).passes level && scope.any (·.passes level)

/-- The limit that a span sets on what is within; none if no directive is about it. -/
def limitOf? (f : Filter) (s : Span) : Option Limit :=
  let ds := f.spanwise.filter (·.isAbout s)
  if ds.isEmpty then none else some (Limit.widest ((ds.filter (·.holdsIn s)).map (·.limit)))

/-- Enters a span within the limits of others; none if it does not pass. -/
def enter? (f : Filter) (scope : List Limit) (s : Span) : Option (List Limit) :=
  if !f.ceiling.passes s.level then none
  else match f.limitOf? s with
    | some l => some (l :: scope)
    | none => if f.passes s.target s.level || f.passesWithin scope s.level then some scope else none

/-- Enters spans, the outermost first: those that pass, and the limits they set. -/
def enterAll (f : Filter) (spans : List Span) : List Span × List Limit :=
  spans.foldl (fun (entered, scope) s =>
    match f.enter? scope s with
    | some scope => (entered ++ [s], scope)
    | none => (entered, scope)) ([], [])

/-- A line with fields of these names passes within limits. -/
def passesLine (f : Filter) (scope : List Limit) (target : String) (level : LogLevel) (fields : List String) : Bool :=
  f.ceiling.passes level &&
    ((f.decider? target fun d => d.field.all fun x => fields.contains x.name).any (·.limit.passes level) ||
      f.passesWithin scope level)

/-- The names under which this program logs. -/
def ownTargets : List String := ["hold_workspace", "bridge_desktop", "core_runtime", "core_sync", "core_service"]

/-- The names under which noisy neighbours log. -/
def noisyTargets : List String := ["h2", "hyper", "reqwest", "sqlx"]

/-- The filter unless another is set: this program from a level on, its neighbours from warnings on. -/
def standard (level : LogLevel) : Filter :=
  ownTargets.map (fun t => ⟨some t, none, none, some level⟩) ++
    noisyTargets.map fun t => ⟨some t, none, none, some .warn⟩

end Filter

/-! ## Lines -/

/-- How lines are written. -/
inductive Format where
  | pretty
  | json
  | compact
deriving DecidableEq, Repr, Inhabited

/-- How logs are set up. -/
structure Settings where
  format : Format
  level : LogLevel
  /-- A filter in words, instead of the standard one. -/
  filter : Option String
  showsSpans : Bool
  showsTarget : Bool
  showsThread : Bool

/-- The filter of the settings. -/
def Settings.setUp (s : Settings) : Except SetupError Filter :=
  match s.filter with
  | none => .ok (.standard s.level)
  | some words => (Filter.parse words).mapError .logging

/-- A line as it is written. -/
structure Line where
  level : LogLevel
  /-- The name under which it was logged, if it is shown. -/
  target : Option String
  /-- The spans around it that passed, the outermost first, if they are shown. -/
  spans : List Span
  hasThread : Bool
deriving Repr

/-- The line of an event with fields of these names within spans, if it passes. -/
def Settings.line? (s : Settings) (f : Filter) (level : LogLevel) (target : String) (fields : List String)
    (spans : List Span) : Option Line :=
  let (entered, scope) := f.enterAll spans
  if f.passesLine scope target level fields then
    some {
      level := level
      target := if s.showsTarget then some target else none
      spans := if s.showsSpans then entered else []
      hasThread := s.showsThread }
  else none

end MediaBackup.Log

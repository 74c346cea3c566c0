import MediaBackup.CodePoint.Class
import MediaBackup.Log.Field

/-
  The parts of a filter.

  A directive is a level for all, or a target with or without a level, and between brackets a span and a
  field of it: `target[span{field=value}]=level`.  A target stands for every name that starts with its
  text.  Without a level everything passes.

  Blanks around a directive do not count when its marks are looked for, but the texts between the marks are cut
  out of the whole directive at the same distance from its start, so blanks at the start move them.
-/

namespace MediaBackup.Log

/-- A part of a filter. -/
structure Directive where
  /-- What names start with; none for all names. -/
  target : Option String
  /-- The name of a span; none for all spans. -/
  span : Option String
  field : Option FieldFilter
  limit : Limit
deriving DecidableEq, Repr

namespace Directive

/-! ## Reading -/

/-- The text without blanks around it. -/
def trimmed (s : List Char) : List Char :=
  ((s.dropWhile CodePoint.isBlank).reverse.dropWhile CodePoint.isBlank).reverse

/-- `c` may start a target. -/
def startsTarget (c : Char) : Bool := c == '-' || c == ':' || c == '_' || CodePoint.isWordCharacter c

/-- The text from one place to another, both in bytes from its start.  A place within a character cannot be
    cut at. -/
def cut (s : List Char) (start stop : Nat) : Except LogFault (List Char) :=
  match (Text.splitAt? start s).bind fun (_, r) => Text.splitAt? (stop - start) r with
  | some (part, _) => .ok part
  | none => .error .badDirective

/-- How many bytes characters take. -/
def width (s : List Char) : Nat := (String.ofList s).utf8ByteSize

/-- The level from a place on; none written lets everything pass. -/
def readLimit (s : List Char) (start : Nat) : Except LogFault Limit := do
  let name ← cut s start (width s)
  if name.isEmpty then return some .trace
  match Limit.ofText? name with
  | some l => return l
  | none => throw .badLevel

/-- Reads what comes behind the bracket of a span, which starts at a place. -/
def readEnd (s : List Char) (start : Nat) (rest : List Char) (target span : Option String) (field : Option FieldFilter) :
    Except LogFault Directive :=
  match rest with
  | [] => .ok ⟨target, span, field, some .trace⟩
  | '=' :: _ => do return ⟨target, span, field, ← readLimit s (start + 1)⟩
  | _ => .error .badDirective

/-- Reads a field, which starts at a place. -/
def readField (s : List Char) (start : Nat) (rest : List Char) (target span : Option String) :
    Except LogFault Directive := do
  let found := rest.takeWhile (· != '\x7d')
  let stop := start + width found
  match rest.drop found.length with
  | [] => throw .badDirective
  | _ :: r =>
    let words ← cut s start stop
    if words.isEmpty then throw .badDirective
    let field ← FieldFilter.parse words
    match r with
    | ']' :: r => readEnd s (stop + 2) r target span (some field)
    | _ => throw .badDirective

/-- Reads a span, whose name starts at a place. -/
def readSpan (s : List Char) (start : Nat) (rest : List Char) (target : Option String) : Except LogFault Directive := do
  let found := rest.takeWhile fun c => c != ']' && c != '\x7b'
  let stop := start + width found
  match rest.drop found.length with
  | [] => throw .badDirective
  | mark :: r =>
    let name := String.ofList (← cut s start stop)
    if mark = ']' then readEnd s (stop + 1) r target (some name) none
    else readField s (stop + 1) r target (if name.isEmpty then none else some name)

/-- Reads a directive. -/
def parse (s : List Char) : Except LogFault Directive :=
  match trimmed s with
  | [] => .error .badDirective
  | '[' :: r => readSpan s 1 r none
  | c :: r =>
    if !startsTarget c then .error .badDirective
    else do
      let found := (c :: r).takeWhile fun c => c != '=' && c != '['
      let stop := width found
      match (c :: r).drop found.length with
      | [] => match Limit.ofText? s with
        | some l => return ⟨none, none, none, l⟩
        | none => return ⟨some (String.ofList s), none, none, some .trace⟩
      | mark :: r =>
        let target := some (String.ofList (← cut s 0 stop))
        if mark = '=' then return ⟨target, none, none, ← readLimit s (stop + 1)⟩
        else readSpan s (stop + 1) r target

/-! ## Meaning -/

/-- The directive is about spans: what it lets pass depends on the spans around. -/
def isScoped (d : Directive) : Bool := d.span.isSome || d.field.isSome

/-- The directive asks for a value. -/
def hasTest (d : Directive) : Bool := d.field.any fun f => f.test.isSome

/-- The directive holds wherever a line is logged: it names no span and asks for no value. -/
def isGeneral (d : Directive) : Bool := d.span.isNone && !d.hasTest

/-- The directive is about a target. -/
def covers (d : Directive) (target : String) : Bool := d.target.all fun t => t.toList.isPrefixOf target.toList

/-- The directive is about a span, whatever its values. -/
def isAbout (d : Directive) (s : Span) : Bool :=
  d.covers s.target && d.span.all (· == s.name) && d.field.all (·.isIn s)

/-- The directive is about a span with its values. -/
def holdsIn (d : Directive) (s : Span) : Bool := d.isAbout s && d.field.all (·.passes s)

/-- The directives stand for the same lines and spans. -/
def replaces (d e : Directive) : Bool := d.target == e.target && d.span == e.span && d.field == e.field

/-- Of two that cover one target, `d` is asked before `e`: the longer target first, then the one with a
    field, of two fields the one with the later name. -/
def isBefore (d e : Directive) : Bool :=
  let reach (d : Directive) : Nat := (d.target.map fun t => Text.size t + 1).getD 0
  let name (d : Directive) : Option String := d.field.map (·.name)
  if reach d = reach e then
    match name d, name e with
    | some x, some y => decide (y < x)
    | some _, none => true
    | none, _ => false
  else decide (reach e < reach d)

end Directive

end MediaBackup.Log

import MediaBackup.CodePoint.Class
import MediaBackup.Log.Pattern

/-
  How patterns are written.

  A pattern is written as characters and classes of them in brackets, one after the other, with bars between
  alternatives, groups in parentheses, and marks for what may be left out or repeated, which a question
  mark behind them makes not greedy.  A group may begin with flags, which hold up to its end.

  The classes of letters of all scripts are not known, nor their cases: a pattern that needs them is not
  valid, and without them a class may hold ASCII characters only.  Nor are repetitions by number known, since
  a filter ends at the brace that they would end with.
-/

namespace MediaBackup.Log

/-- Why a text is no pattern. -/
inductive PatternFault where
  | notValid
  /-- It asks for the border of a word of any script. -/
  | wordBorder
deriving DecidableEq, Repr

namespace Pattern

/-! ## Flags -/

/-- How what follows is read. -/
structure Style where
  /-- Letters stand for both their cases. -/
  anyCase : Bool
  /-- Places at the ends of lines count. -/
  byLine : Bool
  /-- The point stands for the end of a line as well. -/
  pointIsAll : Bool
  /-- Marks are greedy with the question mark and not without it. -/
  swapsGreed : Bool
  /-- All scripts are meant, not ASCII alone. -/
  allScripts : Bool
  /-- Blanks do not count, and a hash begins a comment. -/
  skipsBlanks : Bool

/-- No flag is set. -/
def Style.plain : Style := ⟨false, false, false, false, true, false⟩

/-- Sets a flag. -/
def Style.set? (s : Style) (flag : Char) (value : Bool) : Option Style :=
  match flag with
  | 'i' => some { s with anyCase := value }
  | 'm' => some { s with byLine := value }
  | 's' => some { s with pointIsAll := value }
  | 'U' => some { s with swapsGreed := value }
  | 'u' => some { s with allScripts := value }
  | 'x' => some { s with skipsBlanks := value }
  | _ => none

/-- Sets flags, those behind a stroke off.  A flag stands once, and behind the stroke stands one. -/
def Style.setAll? (s : Style) (flags : List Char) : Option Style :=
  let on := flags.takeWhile (· != '-')
  let off := flags.drop (on.length + 1)
  if !flags.Nodup || flags.getLast? == some '-' then none
  else do off.foldlM (fun s f => s.set? f false) (← on.foldlM (fun s f => s.set? f true) s)

/-! ## Signs -/

/-- The pieces that patterns are written in. -/
inductive Sign where
  | part (p : Pattern)
  /-- The border of a word of any script. -/
  | border
  /-- Flags for the rest of a group: nothing that could be repeated. -/
  | flags
  | opened
  | closed
  | bar
  | maybe (isGreedy : Bool)
  | many (isGreedy : Bool)
  /-- Once or more. -/
  | several (isGreedy : Bool)
deriving DecidableEq, Repr

/-- The value of hexadecimal digits. -/
def hex? (ds : List Char) : Option Nat :=
  ds.foldl (fun n c => do
    let n ← n
    if c.isDigit then some (n * 16 + (c.toNat - '0'.toNat))
    else if 'a' ≤ c ∧ c ≤ 'f' then some (n * 16 + (c.toNat - 'a'.toNat + 10))
    else if 'A' ≤ c ∧ c ≤ 'F' then some (n * 16 + (c.toNat - 'A'.toNat + 10))
    else none) (some 0)

/-- The character of so many hexadecimal digits, and what follows them. -/
def coded? (count : Nat) (s : List Char) : Option (Char × List Char) := do
  let digits := s.take count
  let n ← if digits.length = count then hex? digits else none
  if h : n.isValidChar then some (Char.ofNatAux n h, s.drop count) else none

/-- The character behind a backslash, and what follows it. -/
def escaped? : List Char → Option (Char × List Char)
  | 'a' :: r => some (Char.ofNat 0x07, r)
  | 'f' :: r => some (Char.ofNat 0x0C, r)
  | 'v' :: r => some (Char.ofNat 0x0B, r)
  | 'n' :: r => some ('\n', r)
  | 'r' :: r => some ('\r', r)
  | 't' :: r => some ('\t', r)
  | 'x' :: r => coded? 2 r
  | 'u' :: r => coded? 4 r
  | 'U' :: r => coded? 8 r
  | c :: r => if c.toNat < 0x80 && !c.isAlphanum && c != '<' && c != '>' then some (c, r) else none
  | [] => none

/-- The class behind a backslash that stands for letters of a kind: only those of ASCII are known. -/
def kind? (style : Style) (c : Char) : Option Letters :=
  if style.allScripts then none
  else match c with
    | 'd' => some Letters.digits
    | 's' => some Letters.blanks
    | 'w' => some Letters.wordLetters
    | 'D' => some (.outside Letters.digits)
    | 'S' => some (.outside Letters.blanks)
    | 'W' => some (.outside Letters.wordLetters)
    | _ => none

/-- What counts of a text, if blanks do not. -/
def skipped (style : Style) (s : List Char) : List Char :=
  if style.skipsBlanks then go s.length s else s
where
  /-- Blanks and comments are left out; the number bounds how many there are. -/
  go : Nat → List Char → List Char
    | 0, s => s
    | _, [] => []
    | n + 1, c :: r =>
      if CodePoint.isBlank c then go n r
      else if c = '#' then go n ((r.dropWhile (· != '\n')).drop 1)
      else c :: r

/-- One item of a class, and what follows it: a character, or a kind. -/
def item? (style : Style) : List Char → Option ((Char ⊕ Letters) × List Char)
  | '\\' :: c :: r =>
    match kind? style c with
    | some l => some (.inr l, r)
    | none => (escaped? (c :: r)).map fun (c, r) => (.inl c, r)
  | ['\\'] => none
  | c :: r => some (.inl c, r)
  | [] => none

/-- How two classes are joined. -/
def joined : Option (Letters × (Letters → Letters → Letters)) → Letters → Letters
  | none, l => l
  | some (k, op), l => op k l

/-- The start of a class behind its bracket: whether it is turned around, the strokes, or the closing bracket,
    that come first and stand for themselves, and what follows. -/
def opening (style : Style) (s : List Char) : Bool × Letters × List Char :=
  let s := skipped style s
  let isTurned := s.head? == some '^'
  let s := skipped style (if isTurned then s.tail else s)
  let strokes := s.takeWhile (· == '-')
  let s := skipped style (s.drop strokes.length)
  match strokes, s with
  | [], ']' :: r => (isTurned, .single ']', r)
  | [], s => (isTurned, .nothing, s)
  | _, s => (isTurned, .single '-', s)

/-- The rest of a class, up to its bracket: with what is joined to it, and what it holds so far.  The number
    bounds how many items there are. -/
def body? (style : Style) : Nat → Option (Letters × (Letters → Letters → Letters)) → Letters → List Char →
    Option (Letters × List Char)
  | 0, _, _, _ => none
  | n + 1, left, known, s =>
    match skipped style s with
    | ']' :: r => some (joined left known, r)
    | '&' :: '&' :: r => body? style n (some (joined left known, .both)) .nothing r
    | '-' :: '-' :: r => body? style n (some (joined left known, .less)) .nothing r
    | '~' :: '~' :: r => body? style n (some (joined left known, .differ)) .nothing r
    | '[' :: r =>
      match name? r with
      | some (l, r) => body? style n left (known.union l) r
      | none => do
        let (isTurned, inner, r) := opening style r
        let (l, r) ← body? style n none inner r
        body? style n left (known.union (if isTurned then .outside l else l)) r
    | s => do
      let (first, r) ← item? style s
      let r := skipped style r
      match r with
      | '-' :: t =>
        match skipped style t with
        | ']' :: _ | '-' :: _ => body? style n left (known.union (alone first)) r
        | t => do
          let (last, t) ← item? style t
          match first, last with
          | .inl a, .inl b => if a ≤ b then body? style n left (known.union (.range a b)) t else none
          | _, _ => none
      | r => body? style n left (known.union (alone first)) r
where
  /-- An item by itself. -/
  alone : Char ⊕ Letters → Letters
    | .inl c => .single c
    | .inr l => l
  /-- A class by its name between colons. -/
  name? (s : List Char) : Option (Letters × List Char) := do
    let s ← match s with
      | ':' :: s => some s
      | _ => none
    let isTurned := s.head? == some '^'
    let s := if isTurned then s.tail else s
    let name := s.takeWhile (· != ':')
    let l ← Letters.named? (String.ofList name)
    match s.drop name.length with
    | ':' :: ']' :: r => some (if isTurned then .outside l else l, r)
    | _ => none

/-- The pattern of a class: letters in both cases are known for ASCII only, and so is a class if not all
    scripts are meant. -/
def ofLetters? (style : Style) (l : Letters) : Option Pattern :=
  if style.allScripts then if style.anyCase && l != .nothing then none else some (one l)
  else
    let l := if style.anyCase then l.anyCase else l
    if l.isAscii && !l.hasWide then some (one l) else none

/-- The pattern of a character. -/
def ofChar? (style : Style) (c : Char) : Option Pattern :=
  if style.anyCase then
    if style.allScripts then none else some (one (Letters.single c).anyCase)
  else some (one (.single c))

/-- The pattern of the point. -/
def point? (style : Style) : Option Pattern :=
  let l : Letters := if style.pointIsAll then .nothing else .single '\n'
  if style.allScripts then some (one (.outside l)) else none

/-- What a place is that depends on lines. -/
def edge (style : Style) (byLine whole : Place) : Sign := .part (at_ (if style.byLine then byLine else whole))

/-- The sign of the border of a word. -/
def border (style : Style) (p : Place) : Sign := if style.allScripts then .border else .part (at_ p)

/-- The name of a group up to its bracket, with what follows. -/
def groupName? (s : List Char) : Option (List Char × List Char) :=
  let name := s.takeWhile (· != '>')
  let isFit (c : Char) : Bool := c == '_' || CodePoint.isWordCharacter c
  match name, s.drop name.length with
  | c :: n, '>' :: r =>
    if isFit c && !c.isDigit && n.all fun c => isFit c || c == '.' || c == '[' || c == ']' then some (name, r) else none
  | _, _ => none

/-- A mark of repetition that a question mark may follow, and what follows both. -/
def greed (style : Style) (s : List Char) : Bool × List Char :=
  match skipped style s with
  | '?' :: r => (style.swapsGreed, r)
  | r => (!style.swapsGreed, r)

/-- The signs of a text, in a style, with the styles of the groups around and the names of groups before.  The
    number bounds how many signs there are. -/
def signs? : Nat → Style → List Style → List (List Char) → List Char → Option (List Sign)
  | 0, _, _, _, _ => none
  | n + 1, style, outer, names, s =>
    let go (sign : Sign) (r : List Char) : Option (List Sign) := (signs? n style outer names r).map (sign :: ·)
    match skipped style s with
    | [] => some []
    | '\\' :: 'A' :: r => go (.part (at_ .start)) r
    | '\\' :: 'z' :: r => go (.part (at_ .finish)) r
    | '\\' :: 'b' :: r => go (border style .wordBorder) r
    | '\\' :: 'B' :: r => go (border style .noWordBorder) r
    | '\\' :: '<' :: r => go (border style .wordStart) r
    | '\\' :: '>' :: r => go (border style .wordEnd) r
    | '\\' :: r => do
      match ← item? style ('\\' :: r) with
      | (.inl c, r) => go (.part (← ofChar? style c)) r
      | (.inr l, r) => go (.part (← ofLetters? style l)) r
    | '[' :: r => do
      let (isTurned, inner, t) := opening style r
      let (l, t) ← body? style (r.length + 1) none inner t
      go (.part (← ofLetters? style (if isTurned then .outside l else l))) t
    | '(' :: r => do
      match skipped style r with
      | '?' :: 'P' :: '<' :: t | '?' :: '<' :: t => do
        let (name, t) ← groupName? t
        if names.contains name then none
        else (signs? n style (style :: outer) (name :: names) t).map (Sign.opened :: ·)
      | '?' :: t => do
        let flags := t.takeWhile fun c => c != ':' && c != ')'
        let inner ← style.setAll? flags
        match t.drop flags.length with
        | ':' :: t => (signs? n inner (style :: outer) names t).map (Sign.opened :: ·)
        | ')' :: t => if flags.isEmpty then none else (signs? n inner outer names t).map (Sign.flags :: ·)
        | _ => none
      | t => (signs? n style (style :: outer) names t).map (Sign.opened :: ·)
    | ')' :: r =>
      match outer with
      | [] => none
      | style :: outer => (signs? n style outer names r).map (Sign.closed :: ·)
    | '|' :: r => go .bar r
    | '?' :: r => go (.maybe (greed style r).1) (greed style r).2
    | '*' :: r => go (.many (greed style r).1) (greed style r).2
    | '+' :: r => go (.several (greed style r).1) (greed style r).2
    | '.' :: r => do go (.part (← point? style)) r
    | '^' :: r => go (edge style .lineStart .start) r
    | '$' :: r => go (edge style .lineEnd .finish) r
    | '\x7b' :: _ => none
    | c :: r => do go (.part (← ofChar? style c)) r

/-! ## Groups -/

/-- A group that is being read: the alternatives before, and the parts of the one that is read, the last
    one first; none for flags. -/
structure Group where
  before : Option Pattern
  parts : List (Option Pattern)

/-- The pattern of parts, the last one first. -/
def ofParts : List Pattern → Pattern
  | [] => empty
  | [p] => p
  | q :: ps => seq (ofParts ps) q

namespace Group

/-- The pattern of a group. -/
def pattern (g : Group) : Pattern :=
  match g.before with
  | none => ofParts (g.parts.filterMap id)
  | some p => either p (ofParts (g.parts.filterMap id))

/-- A group without parts. -/
def empty : Group := ⟨none, []⟩

/-- A group with one part more. -/
def add (g : Group) (p : Option Pattern) : Group := { g with parts := p :: g.parts }

/-- The last part of a group, changed; there must be one. -/
def change? (g : Group) (f : Pattern → Pattern) : Option Group :=
  match g.parts with
  | some p :: ps => some { g with parts := some (f p) :: ps }
  | _ => none

end Group

/-- The pattern of signs, for the group that is read and those around it. -/
def ofSigns? : List Sign → Group → List Group → Option Pattern
  | [], g, [] => some g.pattern
  | [], _, _ :: _ => none
  | .part p :: r, g, outer => ofSigns? r (g.add (some p)) outer
  | .border :: r, g, outer => ofSigns? r (g.add (some Pattern.empty)) outer
  | .flags :: r, g, outer => ofSigns? r (g.add none) outer
  | .opened :: r, g, outer => ofSigns? r .empty (g :: outer)
  | .closed :: _, _, [] => none
  | .closed :: r, g, o :: outer => ofSigns? r (o.add (some g.pattern)) outer
  | .bar :: r, g, outer => ofSigns? r ⟨some g.pattern, []⟩ outer
  | .maybe b :: r, g, outer => (g.change? (maybe · b)).bind fun g => ofSigns? r g outer
  | .many b :: r, g, outer => (g.change? (many · b)).bind fun g => ofSigns? r g outer
  | .several b :: r, g, outer => (g.change? fun p => seq p (many p b)).bind fun g => ofSigns? r g outer

/-- The pattern of a text. -/
def ofText (s : List Char) : Except PatternFault Pattern :=
  match (signs? (s.length + 1) .plain [] [] s).bind fun signs => (ofSigns? signs .empty []).map fun p => (signs, p) with
  | none => .error .notValid
  | some (signs, p) => if signs.contains .border then .error .wordBorder else .ok p

end Pattern

end MediaBackup.Log

import MediaBackup.Event.Wire
import MediaBackup.Proofs.Json.Reading

/-
  Events there and back.

  What is written of an event are its parts: the origin, the name, and the members with their values (`parts`).  The text is
  these parts between two objects, whatever event they are of (`text_eq`), and the reader takes them back out of it
  (`read_reads`); only then does it matter which event it is (`decodeBody_parts`).  The crux is the loop over the members of
  the payload, which takes each as the value it was written for.
-/

namespace MediaBackup.Event

open Json (Tree Reads IsOf memberText tailText)

/-- The counts of an event are in the range that their fields have. -/
def Fits : Event → Prop
  | sync (.scanCompleted seen discovered) => seen ≤ countMax ∧ discovered ≤ countMax
  | sync (.dispatchCompleted enqueued) => enqueued ≤ countMax
  | sync (.jobStateChanged _ _ _ attempt) => attempt ≤ attemptMax
  | service (.started recovered) => recovered ≤ countMax
  | _ => True

/-! ## The parts of an event -/

/-- A member of a payload. -/
structure Member where
  name : String
  /-- The value as it is written. -/
  text : String
  value : Tree

namespace Member

/-- A count. -/
def count (name : String) (n : Nat) : Member := ⟨name, toString n, .number (.natural n)⟩

/-- A text. -/
def string (name s : String) : Member := ⟨name, Json.writeString s, .text s⟩

/-- A text that may be missing. -/
def option (name : String) (s : Option String) : Member := ⟨name, Json.writeOption s, s.elim .null .text⟩

/-- The member as it is written. -/
def written (m : Member) : String × String := (m.name, m.text)

/-- The member as it is read. -/
def read (m : Member) : String × Tree := (m.name, m.value)

/-- The member can be told from the event's name, and its value from what is written. -/
structure IsProper (m : Member) : Prop where
  name : m.name ≠ tagName
  value : IsOf m.text m.value

end Member

/-- The name of an origin. -/
def Origin.text : Origin → String
  | sync => "Sync"
  | service => "Service"

/-- What is written of an event. -/
structure Parts where
  origin : Origin
  name : String
  members : List Member

/-- The parts of an event. -/
def parts : Event → Parts
  | sync (.scanCompleted seen discovered) =>
    ⟨.sync, "ScanCompleted", [.count "seen" seen, .count "discovered" discovered]⟩
  | sync (.dispatchCompleted enqueued) => ⟨.sync, "DispatchCompleted", [.count "enqueued" enqueued]⟩
  | sync (.jobStateChanged key source target attempt) =>
    ⟨.sync, "JobStateChanged",
      [.string "job_key" key, .string "from" source, .string "to" target, .count "attempt" attempt]⟩
  | sync (.uploadSucceeded item) => ⟨.sync, "UploadSucceeded", [.string "item_id" item]⟩
  | sync (.jobAbandoned key reason lastError) =>
    ⟨.sync, "JobAbandoned", [.string "job_key" key, .string "reason" reason, .option "last_error" lastError]⟩
  | sync (.ledgerCorrupted key message) =>
    ⟨.sync, "LedgerCorrupted", [.string "job_key" key, .string "message" message]⟩
  | service (.started recovered) => ⟨.service, "Started", [.count "recovered_jobs" recovered]⟩
  | service .stopped => ⟨.service, "Stopped", []⟩
  | service (.fatal message) => ⟨.service, "Fatal", [.string "message" message]⟩

/-- The payload of parts as it is written. -/
def Parts.payload (p : Parts) : String :=
  Json.writeObject ((tagName, Json.writeString p.name) :: p.members.map Member.written)

/-- The text of an event is that of its parts. -/
theorem text_eq (e : Event) : e.text = Json.writeObject
    [(originName, Json.writeString e.parts.origin.text), (payloadName, e.parts.payload)] := by
  cases e with
  | sync event => cases event <;> rfl
  | service event => cases event <;> rfl

theorem asCount_natural {most n : Nat} (h : n ≤ most) : asCount most (.number (.natural n)) = .ok n := if_pos h

/-- The parts make the event. -/
theorem decodeBody_parts {e : Event} (h : e.Fits) :
    decodeBody e.parts.origin e.parts.name (.named (e.parts.members.map Member.read)) = .ok e := by
  cases e with
  | sync event =>
    cases event with
    | scanCompleted seen discovered =>
      show sync <$> (do
        let seen ← asCount countMax (.number (.natural seen))
        let discovered ← asCount countMax (.number (.natural discovered))
        pure (.scanCompleted seen discovered)) = _
      rw [asCount_natural h.1, asCount_natural h.2]
      rfl
    | dispatchCompleted enqueued =>
      show sync <$> (do
        let enqueued ← asCount countMax (.number (.natural enqueued))
        pure (.dispatchCompleted enqueued)) = _
      rw [asCount_natural h]
      rfl
    | jobStateChanged key source target attempt =>
      show sync <$> (do
        let attempt ← asCount attemptMax (.number (.natural attempt))
        pure (.jobStateChanged key source target attempt)) = _
      rw [asCount_natural h]
      rfl
    | uploadSucceeded item => rfl
    | jobAbandoned key reason lastError => cases lastError <;> rfl
    | ledgerCorrupted key message => rfl
  | service event =>
    cases event with
    | started recovered =>
      show service <$> (do
        let recovered ← asCount countMax (.number (.natural recovered))
        pure (.started recovered)) = _
      rw [asCount_natural h]
      rfl
    | stopped => rfl
    | fatal message => rfl

/-- The name of an event is one of its origin's. -/
theorem name_mem_names (e : Event) : e.parts.name ∈ e.parts.origin.names := by
  cases e with
  | sync event => cases event <;> simp [parts, Origin.names, syncNames]
  | service event => cases event <;> simp [parts, Origin.names, serviceNames]

/-- Each member of an event is told from the event's name, and its value is read from what is written of it. -/
theorem isProper_of_mem_members {e : Event} (h : e.Fits) : ∀ m ∈ e.parts.members, m.IsProper := by
  have hcount : ∀ key n, key ≠ tagName → n ≤ countMax → (Member.count key n).IsProper := fun key n hkey hn =>
    ⟨hkey, Json.isOf_toString (Nat.lt_of_le_of_lt hn (by decide))⟩
  have hstring : ∀ key s, key ≠ tagName → (Member.string key s).IsProper := fun key s hkey =>
    ⟨hkey, Json.isOf_writeString s⟩
  have hoption : ∀ key s, key ≠ tagName → (Member.option key s).IsProper := fun key s hkey =>
    ⟨hkey, Json.isOf_writeOption s⟩
  cases e with
  | sync event =>
    cases event with
    | scanCompleted seen discovered =>
      simpa [parts] using ⟨hcount _ _ (by decide) h.1, hcount _ _ (by decide) h.2⟩
    | dispatchCompleted enqueued => simpa [parts] using hcount _ _ (by decide) h
    | jobStateChanged key source target attempt =>
      have hattempt : attempt ≤ countMax := Nat.le_trans h (by decide)
      simpa [parts] using ⟨hstring _ _ (by decide), hstring _ _ (by decide), hstring _ _ (by decide),
        hcount _ _ (by decide) hattempt⟩
    | uploadSucceeded item => simpa [parts] using hstring _ _ (by decide)
    | jobAbandoned key reason lastError =>
      simpa [parts] using ⟨hstring _ _ (by decide), hstring _ _ (by decide), hoption _ _ (by decide)⟩
    | ledgerCorrupted key message =>
      simpa [parts] using ⟨hstring _ _ (by decide), hstring _ _ (by decide)⟩
  | service event =>
    cases event with
    | started recovered => simpa [parts] using hcount _ _ (by decide) h
    | stopped => simp [parts]
    | fatal message => simpa [parts] using hstring _ _ (by decide)

/-! ## Reading -/

variable {names : List String} {name : String} {depth fuel : Nat} {t : List Char}

/-- The members of a payload behind its name are read one after another, each as its value. -/
theorem payloadMembers_reads (ms : List Member) (h : ∀ m ∈ ms, m.IsProper) (acc : List (String × Tree))
    (hfuel : ms.length < fuel) (t : List Char) :
    Reads (payloadMembers names depth fuel false (some name) acc) (tailText (ms.map Member.written) t)
      (.ok (some name, acc.reverse ++ ms.map Member.read)) ('\x7d' :: t) := by
  induction ms generalizing fuel acc with
  | nil =>
    cases fuel with
    | zero => exact absurd hfuel (Nat.not_lt_zero _)
    | succ fuel =>
      rw [List.map_nil, List.map_nil, List.append_nil]
      exact (Json.hasMember_last false t).bind (Reads.pure _ _)
  | cons m ms ih =>
    cases fuel with
    | zero => exact absurd hfuel (Nat.not_lt_zero _)
    | succ fuel =>
      obtain ⟨hm, hms⟩ := List.forall_mem_cons.1 h
      have hrest := ih hms (m.read :: acc) (Nat.lt_of_succ_lt_succ hfuel)
      rw [List.reverse_cons, List.append_assoc] at hrest
      rw [List.map_cons, Json.tailText_cons]
      refine (Json.hasMember_next _).bind ((Reads.skip _ _).bind ((Json.string_memberText _ _).bind ?_))
      rw [if_neg (show ¬ m.written.1 = tagName from hm.name)]
      exact (Json.colon_reads _).bind ((hm.value depth _ (Json.ends_tailText _ t)).bind hrest)

theorem readName_reads (wanted : String) {s : String} (h : s ∈ names) (t : List Char) :
    Reads (readName wanted names) ((Json.writeString s).toList ++ t) s t := by
  refine (Json.quotedText_reads wanted s t).bind ?_
  rw [if_pos (List.contains_iff_mem.2 h)]
  exact Reads.pure s t

theorem readOrigin_reads (origin : Origin) (t : List Char) :
    Reads readOrigin ((Json.writeString origin.text).toList ++ t) origin t := by
  cases origin with
  | sync => exact (readName_reads _ (by decide) t).bind (Reads.pure _ _)
  | service => exact (readName_reads _ (by decide) t).bind (Reads.pure _ _)

/-- The payload of an event is read back. -/
theorem readPayload_reads {e : Event} (h : e.Fits) (hdepth : 1 < depth) (t : List Char) :
    Reads (readPayload e.parts.origin depth) (e.parts.payload.toList ++ t) e t := by
  rw [Parts.payload, Json.toList_writeObject]
  refine (Reads.peekPastBlank (by decide) _).bind ?_
  rw [if_neg (Nat.not_le.2 hdepth)]
  refine (Reads.skip _ _).bind ((Reads.left _).bind ?_)
  refine Reads.bind (a := .ok (some e.parts.name, e.parts.members.map Member.read)) (u := '\x7d' :: t) ?_ ?_
  · refine (Json.hasMember_first _).bind ((Reads.skip _ _).bind ((Json.string_memberText _ _).bind ?_))
    rw [if_pos rfl]
    refine (Json.colon_reads _).bind ((readName_reads _ (name_mem_names e) _).bind ?_)
    refine payloadMembers_reads e.parts.members (isProper_of_mem_members h) [] ?_ t
    have hlength := Json.length_lt_tailText (e.parts.members.map Member.written) t
    rw [List.length_map] at hlength
    simp only [List.length_cons, List.length_append]
    omega
  · refine (Json.closeObject_reads t).bind ?_
    dsimp only
    rw [decodeBody_parts h]
    exact Reads.pure e t

/-- The name of a member that matters is read. -/
theorem relevantMember_reads {first : Bool} {u : List Char} (m : String × String)
    (hname : m.1 = originName ∨ m.1 = payloadName)
    (hfirst : Reads (Json.Reader.hasMember first) u true ('"' :: (memberText m ++ t))) :
    Reads (relevantMember first) u (some m.1) (':' :: (m.2.toList ++ t)) := by
  refine (Reads.left _).bind (hfirst.bind ((Reads.skip _ _).bind ((Json.string_memberText _ _).bind ?_)))
  rw [if_pos hname]
  exact Reads.pure _ _

theorem relevantMember_last (t : List Char) : Reads (relevantMember false) ('\x7d' :: t) none ('\x7d' :: t) :=
  (Reads.left _).bind ((Json.hasMember_last false t).bind (Reads.pure _ _))

/-- An event is read back. -/
theorem read_reads {e : Event} (h : e.Fits) (hdepth : 2 < depth) (t : List Char) :
    Reads (read depth) (e.text.toList ++ t) e t := by
  rw [text_eq, Json.toList_writeObject, Json.tailText_cons]
  refine (Reads.peekPastBlank (by decide) _).bind ((Reads.skip _ _).bind ?_)
  refine Reads.bind (a := e) (u := '\x7d' :: t) ?_ ((Json.closeObject_reads t).bind (Reads.pure e t))
  refine (relevantMember_reads _ (.inl rfl) (Json.hasMember_first _)).bind ?_
  dsimp only
  refine (Json.colon_reads _).bind ?_
  rw [if_pos rfl]
  refine (readOrigin_reads e.parts.origin _).bind ?_
  refine (relevantMember_reads _ (.inr rfl) (Json.hasMember_next _)).bind ?_
  dsimp only
  rw [if_neg (by decide)]
  refine (Json.colon_reads _).bind ((readPayload_reads h (by omega) _).bind ?_)
  exact (relevantMember_last t).bind (Reads.pure e _)

/-- And nothing follows it. -/
theorem ofText_of_fits {e : Event} (h : e.Fits) : ofText e.text = .ok e := by
  have hevent : Reads (read Json.depthLimit) (e.text.toList ++ []) e [] := read_reads h (by decide) []
  rw [List.append_nil] at hevent
  exact Json.run_of_reads (hevent.bind (Json.finish_reads.bind (Reads.pure e _)))

/-- **Events there and back.**  An event is read back from its text as it was, whatever is in its texts, and no other event
    has that text. -/
theorem text_round_trips (e : Event) (h : e.Fits) :
    ofText e.text = .ok e ∧ ∀ e' : Event, e'.Fits → e'.text = e.text → e' = e := by
  refine ⟨ofText_of_fits h, ?_⟩
  intro e' h' htext
  have he := ofText_of_fits h'
  rw [htext, ofText_of_fits h] at he
  exact (Except.ok.inj he).symm

/-! ## An event that is hard to write -/

/-- A job is given up whose key has a quote, a backslash, a line's end, a control and a face in it. -/
def awkward : Event := sync (.jobAbandoned "upload:\"\\\n\x01😀" "permanent" (some ""))

theorem text_round_trips_awkward : awkward.Fits ∧ ofText awkward.text = .ok awkward :=
  ⟨trivial, (text_round_trips awkward trivial).1⟩

end MediaBackup.Event

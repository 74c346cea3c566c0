import MediaBackup.Proofs.Engine.Protocol
import MediaBackup.Proofs.Life.Scene

/-
  A world in which nothing fails.

  It answers as every scene does, but the database is in reach, the clock does not go back, the network has a
  connection whose traffic is free, the library lists the same items whenever it is asked and opens each of them, and
  the client takes every body to its end and is answered with success.

  A program that is run alone in such a world is followed by the scene itself: `alone` is the protocol whose onlooker
  is the scene.  Its rules say what a call does to the scene, so a program without a loop is computed rather than
  reasoned about.
-/

namespace MediaBackup

/-- There is a connection, and its traffic is free. -/
def NetworkInfo.IsFree (n : NetworkInfo) : Prop := n.isConnected = true ∧ n.isMetered = false

/-- Under a free network, or where nobody looks, every demand is met. -/
theorem Constraints.satisfiedBy_of_isFree (c : Constraints) {seen : Option NetworkInfo}
    (h : ∀ info, seen = some info → info.IsFree) : c.satisfiedBy seen = true := by
  cases seen with
  | none => rfl
  | some info =>
    obtain ⟨hconnected, hmetered⟩ := h info rfl
    unfold satisfiedBy
    simp only [hconnected, hmetered, Bool.not_true, Bool.and_false, Bool.false_eq_true,
      if_false, Bool.not_false]

/-- Where no read of the content fails, its chunks go to the end. -/
theorem Content.chunksFrom_failure {c : Content} (h : c.failure = none) (room offset : Nat)
    (rest : List UInt8) :
    (c.chunksFrom room offset rest).failure = none := by
  have hat : ∀ offset, c.failureAt offset = none := by
    intro offset
    unfold failureAt
    rw [h]
  induction rest using WellFounded.induction (measure List.length).wf generalizing offset with
  | _ rest ih =>
  unfold chunksFrom
  rw [hat]
  dsimp only
  split
  · rfl
  · rename_i hsize
    refine ih (rest.drop (c.readSize room offset rest.length)) ?_ _
    have hs : c.readSize room offset rest.length ≠ 0 := fun e => hsize (.inl e)
    have hr : 0 < rest.length := List.length_pos_iff.2 fun e => hsize (.inr e)
    show (rest.drop _).length < rest.length
    rw [List.length_drop]
    omega

/-- A client that takes the whole body of such a content and is answered with success acknowledges it. -/
theorem Exchange.acknowledges_of_whole {body : Body} (h : body.content.failure = none) {r : Response}
    (hr : r.isSuccess = true) : Exchange.Acknowledges body (.ended (.ofBody body none) (.ok r)) :=
  ⟨hr, rfl, Content.chunksFrom_failure h _ 0 _⟩

namespace Scene

/-- The answers of a world in which nothing fails, whose library lists `ids`. -/
def Friendly (ids : List String) (s : Scene) : (c : Call) → c.Answer → Prop
  | .jobs _, .ok _ => True
  | .jobs _, .error _ => False
  | .items _, .ok _ => True
  | .items _, .error _ => False
  | .now, t => s.clock.nanos ≤ t.nanos
  | .emit _, _ => True
  | .network, x => x = none ∨ ∃ info, x = some (.ok info) ∧ info.IsFree
  | .list, x => x = .given ⟨ids, none⟩
  | .openItem _, x => ∃ c, x = .given c ∧ c.failure = none
  | .send _ _, _ => True
  | .await n, x => ∀ request body, s.sent[n]? = some (request, body) →
      ∃ r : Response, x = .ended (.ofBody body none) (.ok r) ∧ r.isSuccess = true

/-- What such a world may answer, and what it is then. -/
def Kindly (ids : List String) : Ways Scene := fun s c x t => s.Answers c x t ∧ s.Friendly ids c x

variable {ids : List String} {s t : Scene}

/-- Such a world answers every call, if its clock is not past the calendar. -/
theorem exists_kindly (ids : List String) (h : s.clock.IsDate) (c : Call) : ∃ x t, Kindly ids s c x t := by
  cases c with
  | jobs st => exact ⟨.ok _, _, ⟨rfl, rfl⟩, trivial⟩
  | items st => exact ⟨.ok _, _, ⟨rfl, rfl⟩, trivial⟩
  | now => exact ⟨s.clock, _, ⟨h, rfl⟩, Int.le_refl _⟩
  | emit e => exact ⟨(), _, rfl, trivial⟩
  | network => exact ⟨none, _, rfl, .inl rfl⟩
  | list => exact ⟨.given ⟨ids, none⟩, _, rfl, rfl⟩
  | openItem id => exact ⟨.given ⟨"", "", none, [], fun _ => 0, none⟩, _, rfl, _, rfl, rfl⟩
  | send request body => exact ⟨s.sent.length, _, ⟨rfl, rfl⟩, trivial⟩
  | await n =>
    cases hn : s.sent[n]? with
    | none =>
      refine ⟨.late, s, ?_, fun _ _ h => absurd (hn.symm.trans h) (Option.some_ne_none _).symm⟩
      show s.Exchanges n .late s
      unfold Exchanges
      rw [hn]
    | some e =>
      obtain ⟨request, body⟩ := e
      let r : Response := ⟨200, []⟩
      let x : Exchange := .ended (.ofBody body none) (.ok r)
      have hform : ∀ transfer answer, x = .ended transfer answer → ∃ asked, transfer = .ofBody body asked :=
        fun _ _ he => ⟨none, (Exchange.ended.inj he).1.symm⟩
      have hfriendly : s.Friendly ids (.await n) x := by
        rintro request' body' he
        rw [hn] at he
        obtain ⟨rfl, rfl⟩ := Prod.mk.inj (Option.some.inj he)
        exact ⟨r, rfl, rfl⟩
      have hexchange : ∃ t, s.Exchanges n x t := by
        unfold Exchanges
        rw [hn]
        by_cases ha : x.Acknowledges body
        · exact ⟨_, hform, .inl ⟨ha, rfl⟩⟩
        · exact ⟨_, hform, .inr ⟨ha, rfl⟩⟩
      obtain ⟨t, ht⟩ := hexchange
      exact ⟨x, t, ht, hfriendly⟩

/-- The clock of such a world goes on, and stays in the calendar. -/
theorem Kindly.clock {c : Call} {x : c.Answer} (h : Kindly ids s c x t) (hs : s.clock.IsDate) :
    t.clock.IsDate ∧ s.clock.nanos ≤ t.clock.nanos := by
  obtain ⟨ha, hf⟩ := h
  have hsame : t.clock = s.clock → t.clock.IsDate ∧ s.clock.nanos ≤ t.clock.nanos := by
    intro e
    rw [e]
    exact ⟨hs, Int.le_refl _⟩
  cases c with
  | jobs st =>
    cases x with
    | ok x => exact hsame (ha.2 ▸ rfl)
    | error fault => exact hf.elim
  | items st =>
    cases x with
    | ok x => exact hsame (ha.2 ▸ rfl)
    | error fault => exact hf.elim
  | now =>
    obtain ⟨hdate, rfl⟩ := ha
    exact ⟨hdate, hf⟩
  | emit e => exact hsame (congrArg Scene.clock ha)
  | network => exact hsame (congrArg Scene.clock ha)
  | list =>
    obtain rfl := hf
    obtain rfl : t = { s with reported := ids ++ s.reported } := ha
    exact hsame rfl
  | openItem id => exact hsame (congrArg Scene.clock ha)
  | send request body => exact hsame (ha.2 ▸ rfl)
  | await n =>
    change s.Exchanges n x t at ha
    unfold Exchanges at ha
    split at ha
    · rcases ha.2 with ⟨_, rfl⟩ | ⟨_, rfl⟩
      · exact hsame rfl
      · exact hsame rfl
    · exact hsame (congrArg Scene.clock ha)

end Scene

/-! ## Programs that are run alone -/

/-- The protocol of a program that is run alone in a world: it may ask everything. -/
def Protocol.alone {σ : Type} (W : Ways σ) : Protocol Call Call.Answer σ where
  may _ _ := True
  answers s c x t := W s c x t

namespace Scene

open Script

variable {ids : List String} {s : Scene} {bad : Stop → Scene → Prop}

/-- The protocol of a program that is run alone in a world in which nothing fails. -/
abbrev alone (ids : List String) : Protocol Call Call.Answer Scene := Protocol.alone (Kindly ids)

theorem meets_now {good : Instant → Scene → Prop} :
    Meets (alone ids) good bad Engine.now s ↔
      ∀ t : Instant, t.IsDate → s.clock.nanos ≤ t.nanos → good t { s with clock := t } := by
  rw [Engine.meets_now]
  constructor
  · rintro ⟨_, h⟩ t hdate hle
    exact h t _ ⟨⟨hdate, rfl⟩, hle⟩
  · intro h
    refine ⟨trivial, ?_⟩
    rintro t _ ⟨⟨hdate, rfl⟩, hle⟩
    exact h t hdate hle

theorem meets_jobs {st : JobStatement} {good : st.Answer → Scene → Prop} :
    Meets (alone ids) good bad (Engine.jobs st) s ↔
      good (st.run s.jobs).1 { s with jobs := (st.run s.jobs).2 } := by
  rw [Engine.meets_jobs]
  constructor
  · rintro ⟨_, h, _⟩
    exact h _ _ ⟨⟨rfl, rfl⟩, trivial⟩
  · intro h
    refine ⟨trivial, ?_, ?_⟩
    · rintro _ _ ⟨⟨rfl, rfl⟩, _⟩
      exact h
    · rintro fault t ⟨_, hf⟩
      exact hf.elim

theorem meets_items {st : ItemStatement} {good : st.Answer → Scene → Prop} :
    Meets (alone ids) good bad (Engine.items st) s ↔
      good (st.run s.items).1 { s with items := (st.run s.items).2 } := by
  rw [Engine.meets_items]
  constructor
  · rintro ⟨_, h, _⟩
    exact h _ _ ⟨⟨rfl, rfl⟩, trivial⟩
  · intro h
    refine ⟨trivial, ?_, ?_⟩
    · rintro _ _ ⟨⟨rfl, rfl⟩, _⟩
      exact h
    · rintro fault t ⟨_, hf⟩
      exact hf.elim

theorem meets_emit {e : SyncEvent} {good : Unit → Scene → Prop} :
    Meets (alone ids) good bad (Engine.emit e) s ↔ good () s := by
  rw [Engine.meets_emit]
  constructor
  · rintro ⟨_, h⟩
    exact h () s ⟨rfl, trivial⟩
  · intro h
    refine ⟨trivial, ?_⟩
    rintro _ t ⟨ht, _⟩
    obtain rfl : t = s := ht
    exact h

theorem meets_list {good : Call.list.Answer → Scene → Prop} :
    Meets (alone ids) good bad (Engine.call .list) s ↔
      good (.given ⟨ids, none⟩) { s with reported := ids ++ s.reported } := by
  rw [Engine.meets_call]
  constructor
  · rintro ⟨_, h⟩
    exact h _ _ ⟨rfl, rfl⟩
  · intro h
    refine ⟨trivial, ?_⟩
    rintro _ t ⟨ht, rfl⟩
    obtain rfl : t = { s with reported := ids ++ s.reported } := ht
    exact h

end Scene

end MediaBackup

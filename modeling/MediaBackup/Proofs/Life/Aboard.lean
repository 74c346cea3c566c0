import MediaBackup.Proofs.Life.Basic
import MediaBackup.Proofs.Life.MainLine

/-
  A pass under way in a scene.

  `Aboard` puts the main line and its uploads together: the upload in the hand of the main line stands beside those
  that were started, the items that were found pending are pending still, and as long as an acknowledgement is lost
  some upload or result is there to tell the main line of it.  `Life.guide` shows that every step of the crew
  preserves it, so a pass that ends well leaves the scene ashore, and one that does not costs one interruption.
-/

namespace MediaBackup

/-- A pass under way. -/
structure Aboard (u : UploadSettings) (interrupted : Nat) (s : Scene) (m : Line) (ls : List Leg)
    (ended : List (Except Stop JobState)) (lost : List String) : Prop where
  afloat : Afloat u interrupted s (ls ++ m.hand.toList) lost
  /-- During the housekeeping no upload is under way. -/
  upkeep : m.upkeep.isSome = true → ls = [] ∧ m.hand = none ∧ lost = []
  pends : ∀ id, m.Pends id → s.items.Knows id ∧ ¬ s.items.Uploaded id
  opened : m.opened = ls.length + ended.length
  fatal : ∀ r ∈ ended, ∀ e, r = .error e → e.IsFatal
  sunk : lost ≠ [] → m.sunk = true ∨ (∃ r ∈ ended, ∃ e, r = .error e) ∨ ∃ l ∈ ls, l.stand = .lost

namespace Aboard

variable {u : UploadSettings} {interrupted : Nat} {s t : Scene} {m : Line} {ls ks : List Leg} {l : Leg}
  {ended : List (Except Stop JobState)} {lost : List String}

/-- The scene went on, and the main line stands where it stood. -/
theorem onward (h : Aboard u interrupted s m ls ended lost)
    (ha : Afloat u interrupted t (ls ++ m.hand.toList) lost)
    (hi : ∀ id, s.items.Knows id ∧ ¬ s.items.Uploaded id → t.items.Knows id ∧ ¬ t.items.Uploaded id) :
    Aboard u interrupted t m ls ended lost :=
  { h with afloat := ha, pends := fun id hp => hi id (h.pends id hp) }

/-- A statement on the table of jobs. -/
theorem jobs (h : Aboard u interrupted s m ls ended lost) {st : JobStatement}
    {x : Except StoreFault st.Answer}
    (hm : m.May (.engine (.jobs st))) (hx : s.Answers (.jobs st) x t) :
    Aboard u interrupted t (m.next (.engine (.jobs st)) x) ls ended lost := by
  obtain ⟨hproper, hspares | hrequests | ⟨hclaims, hhand⟩⟩ := hm
  · have hnext : m.next (.engine (.jobs st)) x = m := by
      cases st with
      | updateIf j change => cases x <;> exact Line.updated_of_isHousekeeping hspares change _
      | _ => rfl
    rw [hnext]
    have hrun : Aboard u interrupted { s with jobs := (st.run s.jobs).2 } m ls ended lost :=
      h.onward (h.afloat.spares (JobTable.isSound_run h.afloat.sound hproper)
        (JobTable.spares_run h.afloat.sound.keyed hspares)) fun _ hp => hp
    cases x with
    | ok x =>
      obtain ⟨_, rfl⟩ := hx
      exact hrun
    | error fault =>
      rcases hx with rfl | rfl
      · exact h
      · exact hrun
  · have hnext : m.next (.engine (.jobs st)) x = m := by
      cases st with
      | updateIf j change => exact hrequests.elim
      | _ => rfl
    rw [hnext]
    obtain ⟨pending, hpending⟩ : ∃ pending, m.upkeep = some pending := by
      cases st with
      | insertIfAbsent job =>
        obtain ⟨_, _, _, pending, hp, _⟩ := hrequests
        exact ⟨pending, hp⟩
      | replaceIf job observed =>
        obtain ⟨_, _, _, pending, hp, _⟩ := hrequests
        exact ⟨pending, hp⟩
      | _ => exact hrequests.elim
    obtain ⟨rfl, hhand, rfl⟩ := h.upkeep (by rw [hpending]; rfl)
    have hrequests' : st.Requests fun id => s.items.Knows id ∧ ¬ s.items.Uploaded id := by
      cases st with
      | insertIfAbsent job =>
        obtain ⟨hq, id, hk, hp⟩ := hrequests
        exact ⟨hq, id, hk, h.pends id hp⟩
      | replaceIf job observed =>
        obtain ⟨hq, id, hk, hp⟩ := hrequests
        exact ⟨hq, id, hk, h.pends id hp⟩
      | _ => exact hrequests.elim
    have hafloat := h.afloat
    rw [hhand] at hafloat
    have hrun : Aboard u interrupted { s with jobs := (st.run s.jobs).2 } m [] ended [] := by
      refine h.onward ?_ fun _ hp => hp
      rw [hhand]
      exact (hafloat.ashore.request hproper hrequests').afloat
    cases x with
    | ok x =>
      obtain ⟨_, rfl⟩ := hx
      exact hrun
    | error fault =>
      rcases hx with rfl | rfl
      · exact h
      · exact hrun
  · cases st with
    | updateIf j change =>
      obtain ⟨⟨id, hkey, hid⟩, hj, hq, hrunning⟩ := hclaims
      have hnext : ∀ won, m.updated j change won =
          { m with upkeep := none, hand := if won then some ⟨id, j.claimed change, .idle⟩ else none } := by
        intro won
        unfold Line.updated
        rw [hkey]
      have hafloat : Afloat u interrupted s ls lost := by
        have hall := h.afloat
        rw [hhand] at hall
        exact List.append_nil ls ▸ hall
      -- a claim that was not won leaves the uploads as they are
      have hlost : ∀ t' : Scene, t'.items = s.items → Afloat u interrupted t' ls lost →
          Aboard u interrupted t' (m.updated j change false) ls ended lost := by
        intro t' hi ha
        rw [hnext]
        refine { h with afloat := ?_, upkeep := fun hn => (nomatch hn), pends := ?_ }
        · exact (List.append_nil ls).symm ▸ ha
        · rintro id ⟨_, hn, _⟩
          exact nomatch hn
      cases x with
      | ok won =>
        obtain ⟨hwon, rfl⟩ := hx
        cases won with
        | false => exact hlost _ rfl (hafloat.claim hkey hq hproper hrunning)
        | true =>
          show Aboard u interrupted _ (m.updated j change true) ls ended lost
          rw [hnext]
          refine { h with afloat := ?_, upkeep := fun hn => (nomatch hn), pends := ?_ }
          · exact hafloat.board hkey hid hj hq hproper hrunning hwon.symm
          · rintro id ⟨_, hn, _⟩
            exact nomatch hn
      | error fault =>
        rcases hx with rfl | rfl
        · exact hlost _ rfl hafloat
        · exact hlost _ rfl (hafloat.claim hkey hq hproper hrunning)
    | _ => exact hclaims.elim

/-- A statement on the table of items. -/
theorem items (h : Aboard u interrupted s m ls ended lost) {st : ItemStatement}
    {x : Except StoreFault st.Answer}
    (hm : m.May (.engine (.items st))) (hx : s.Answers (.items st) x t) :
    Aboard u interrupted t (m.next (.engine (.items st)) x) ls ended lost := by
  obtain ⟨_, rfl | ⟨id, seen, rfl⟩⟩ := hm
  · cases x with
    | error fault =>
      rcases hx with rfl | rfl
      · exact h
      · exact h
    | ok rows =>
      obtain ⟨rfl, rfl⟩ := hx
      refine { h with upkeep := fun hn => h.upkeep ?_, pends := ?_ }
      · replace hn : (m.upkeep.map _).isSome = true := hn
        rw [Option.isSome_map] at hn
        exact hn
      · rintro id ⟨pending, hp, hid⟩
        obtain ⟨_, _, rfl⟩ := Option.map_eq_some_iff.1 hp
        obtain ⟨r, hr, rfl⟩ := List.mem_map.1 hid
        rw [show (ItemStatement.listPending.run s.items).1 =
          (s.items.filter (·.uploadedAt.isNone)).mergeSort ItemRow.pendingBefore from rfl,
            List.mem_mergeSort] at hr
        obtain ⟨hr, hn⟩ := List.mem_filter.1 hr
        have hrow := ItemTable.row?_of_mem h.afloat.keyed hr
        refine ⟨⟨r, hrow⟩, ?_⟩
        rintro ⟨r', hr', hu⟩
        obtain rfl := Option.some.inj (hrow.symm.trans hr')
        rw [Option.isNone_iff_eq_none.1 hn] at hu
        exact nomatch hu
  · have hrun :
      Aboard u interrupted
        { s with items := ((ItemStatement.insertIfAbsent id seen).run s.items).2 } m ls ended
        lost := by
      refine h.onward (h.afloat.items fun _ _ e => (nomatch e)) ?_
      rintro id' ⟨hk, hu⟩
      refine ⟨hk.run _, fun hu' => ?_⟩
      rcases ItemTable.uploaded_of_run hu' with hu' | ⟨_, e⟩
      · exact hu hu'
      · exact nomatch e
    cases x with
    | ok new =>
      obtain ⟨_, rfl⟩ := hx
      exact hrun
    | error fault =>
      rcases hx with rfl | rfl
      · exact h
      · exact hrun

/-- A call of the main line. -/
theorem engine (h : Aboard u interrupted s m ls ended lost) {c : Call} {x : c.Answer}
    (hm : m.May (.engine c))
    (hx : s.Answers c x t) : Aboard u interrupted t (m.next (.engine c) x) ls ended lost := by
  cases c with
  | jobs st => exact h.jobs hm hx
  | items st => exact h.items hm hx
  | now =>
    obtain ⟨_, rfl⟩ := hx
    exact h.onward (h.afloat.same rfl rfl (fun _ _ he => he) rfl) fun _ hp => hp
  | emit e =>
    obtain rfl : t = s := hx
    exact h
  | network =>
    obtain rfl : t = s := hx
    exact h
  | list =>
    cases x with
    | given l =>
      obtain rfl : t = { s with reported := l.ids ++ s.reported } := hx
      exact h.onward (h.afloat.same rfl rfl (fun _ _ he => he) rfl) fun _ hp => hp
    | failed e =>
      obtain rfl : t = s := hx
      exact h
    | crashed words =>
      obtain rfl : t = s := hx
      exact h
  | openItem id => exact hm.elim
  | send request body => exact hm.elim
  | await n => exact hm.elim

/-- The upload in the hand of the main line is started. -/
theorem start (h : Aboard u interrupted s m ls ended lost) (hl : m.hand = some l) :
    Aboard u interrupted s { m with hand := none, opened := m.opened + 1 } (ls ++ [l]) ended lost := by
  have hnone : m.upkeep = none := by
    cases hu : m.upkeep with
    | none => rfl
    | some pending =>
      have := (h.upkeep (by rw [hu]; rfl)).2.1
      rw [hl] at this
      exact nomatch this
  have hafloat := h.afloat
  rw [hl] at hafloat
  refine { h with afloat := ?_, upkeep := fun hn => ?_, opened := ?_, sunk := fun hn => ?_ }
  · exact (List.append_nil (ls ++ [l])).symm ▸ hafloat
  · rw [show m.upkeep = none from hnone] at hn
    exact nomatch hn
  · show m.opened + 1 = _
    rw [h.opened, List.length_append, List.length_singleton]
    omega
  · refine (h.sunk hn).imp id (Or.imp id ?_)
    rintro ⟨k, hk, hs⟩
    exact ⟨k, List.mem_append_left _ hk, hs⟩

/-- The main line joins an upload. -/
theorem join {r : Except Stop JobState} (h : Aboard u interrupted s m ls (r :: ended) lost) :
    Aboard u interrupted s (m.next .join r) ls ended lost := by
  have hopened : m.opened - 1 = ls.length + ended.length := by
    rw [h.opened, List.length_cons]
    omega
  have hfatal : ∀ q ∈ ended, ∀ e, q = .error e → e.IsFatal :=
    fun q hq => h.fatal q (List.mem_cons_of_mem _ hq)
  cases r with
  | ok state =>
    refine { h with opened := hopened, fatal := hfatal, sunk := fun hn => (h.sunk hn).imp id (Or.imp ?_ id) }
    rintro ⟨q, hq, e, he⟩
    rcases List.mem_cons.1 hq with rfl | hq
    · exact nomatch he
    · exact ⟨q, hq, e, he⟩
  | error e => exact { h with opened := hopened, fatal := hfatal, sunk := fun _ => .inl rfl }

/-- An upload is answered. -/
theorem call (h : Aboard u interrupted s m (ls ++ l :: ks) ended lost) {c : Call} {x : c.Answer}
    (hm : Leg.May u False l c) (hx : s.Answers c x t) :
    ∃ l', Leg.Goes False l c x l' ∧ ∃ lost', Aboard u interrupted t m (ls ++ l' :: ks) ended lost' := by
  have hafloat := h.afloat
  rw [List.append_assoc, List.cons_append] at hafloat
  obtain ⟨l', hgoes, lost', hafloat', hlost⟩ := hafloat.called hm hx
  have hnone : m.upkeep.isSome = true → False := by
    intro hn
    have := (h.upkeep hn).1
    exact List.append_ne_nil_of_right_ne_nil ls (List.cons_ne_nil l ks) this
  refine ⟨l', hgoes, lost', ?_, fun hn => (hnone hn).elim, ?_, ?_, h.fatal, fun hn => ?_⟩
  · rw [List.append_assoc, List.cons_append]
    exact hafloat'
  · rintro id ⟨pending, hp, _⟩
    exact (hnone (by rw [hp]; rfl)).elim
  · rw [h.opened]
    simp only [List.length_append, List.length_cons]
  · rcases hlost with hl | ⟨rfl, hl⟩
    · exact .inr (.inr ⟨l', List.mem_append_right _ List.mem_cons_self, hl⟩)
    · refine (h.sunk hn).imp id (Or.imp id ?_)
      rintro ⟨k, hk, hs⟩
      rcases Afloat.mem_append_cons hk with hk | rfl
      · exact ⟨k, Afloat.mem_append_cons_of_mem hk, hs⟩
      · exact absurd hs hl

/-- An upload that is over leaves its result. -/
theorem leave (h : Aboard u interrupted s m (ls ++ l :: ks) ended lost) {r : Except Stop JobState}
    (hr : Leg.Ends False r l) : Aboard u interrupted s m (ls ++ ks) (ended ++ [r]) lost := by
  have hover : ¬ l.IsOpen := by
    rintro ⟨hc, hl⟩
    rcases hr with ⟨hs, _⟩ | ⟨hs, _⟩
    · exact hc hs
    · exact hl hs
  have hafloat := h.afloat
  rw [List.append_assoc, List.cons_append] at hafloat
  refine ⟨?_, fun hn => ?_, h.pends, ?_, fun q hq => ?_, fun hn => ?_⟩
  · rw [List.append_assoc]
    exact hafloat.leave hover
  · exact absurd (h.upkeep hn).1 (List.append_ne_nil_of_right_ne_nil ls (List.cons_ne_nil l ks))
  · rw [h.opened]
    simp only [List.length_append, List.length_cons, List.length_nil]
    omega
  · rcases List.mem_append.1 hq with hq | hq
    · exact h.fatal q hq
    · obtain rfl := List.mem_singleton.1 hq
      rcases hr with ⟨_, _, he⟩ | ⟨_, e, rfl, he⟩
      · exact he
      · exact fun e' h' => Except.error.inj h' ▸ he
  · rcases h.sunk hn with hs | ⟨q, hq, he⟩ | ⟨k, hk, hs⟩
    · exact .inl hs
    · exact .inr (.inl ⟨q, List.mem_append_left _ hq, he⟩)
    · rcases Afloat.mem_append_cons hk with hk | rfl
      · exact .inr (.inr ⟨k, hk, hs⟩)
      · refine .inr (.inl ⟨r, List.mem_append_right _ List.mem_cons_self, ?_⟩)
        rcases hr with ⟨hc, _⟩ | ⟨_, e, he, _⟩
        · exact nomatch hs.symm.trans hc
        · exact ⟨e, he⟩

end Aboard

/-- Every step of a pass keeps its crew aboard. -/
def Life.guide (b : Backup) (interrupted : Nat) : Guide b Scene.Answers Line Leg where
  main := Line.duty
  upload := Leg.legs b.uploads False
  ends := Leg.Ends False
  inv s m ls ended _ := ∃ lost, Aboard b.uploads interrupted s m ls ended lost
  engine := by
    rintro s m ls ended free e x t ⟨lost, h⟩ hm hx
    exact ⟨_, ⟨⟨s.jobs, t.jobs, h.afloat.sound, hx.workers⟩, rfl⟩, lost, h.engine hm hx⟩
  refused h _ := ⟨_, ⟨trivial, rfl⟩, h⟩
  granted h _ := ⟨_, ⟨trivial, rfl⟩, h⟩
  waited h _ := ⟨_, ⟨trivial, rfl⟩, h⟩
  returned h _ := ⟨_, ⟨trivial, rfl⟩, h⟩
  started := by
    rintro s m ls ended free j ⟨lost, h⟩ ⟨id, hid⟩
    have hl : (Leg.mk id j .idle).Stands b.uploads s :=
      h.afloat.stands _ (List.mem_append_right _ (by rw [hid]; exact List.mem_cons_self))
    exact ⟨_, _, ⟨trivial, rfl⟩, Backup.work_keeps hl.key hl.isProper hl.running rfl False.elim,
      lost, h.start hid⟩
  joined := by
    rintro s m ls r ended free ⟨lost, h⟩ _
    exact ⟨_, ⟨h.fatal r List.mem_cons_self, rfl⟩, lost, h.join⟩
  called := by
    rintro s m ls l ks ended free e x t ⟨lost, h⟩ hm hx
    obtain ⟨l', hgoes, lost', h'⟩ := h.call hm hx
    exact ⟨l', hgoes, lost', h'⟩
  left := by
    rintro s m ls l ks ended free r ⟨lost, h⟩ hr
    exact ⟨lost, h.leave hr⟩

end MediaBackup

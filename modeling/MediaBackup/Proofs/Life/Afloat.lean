import MediaBackup.Proofs.Life.Balance
import MediaBackup.Proofs.Upload.Leg

/-
  Uploads under way in a scene.

  `Leg.Stands` says what the scene has for an upload at each of its stands: its row runs and is the one that was
  claimed, its exchange is the one that was sent, its acknowledgement was counted, its item is marked.  `Afloat`
  says that all uploads stand, that no two open ones are of one item, and that every item is in balance, where
  an acknowledgement in hand gives credit and so does one that was LOST to the database.

  An answer to one upload changes only what belongs to its item.  `Afloat.turn` reduces such a step to that item.
-/

namespace MediaBackup

namespace Leg

/-- The verdict on the upload is still to come. -/
def IsOpen (l : Leg) : Prop := l.stand ≠ .closed ∧ l.stand ≠ .lost

/-- The upload has an acknowledgement in hand. -/
def HasCredit (l : Leg) : Prop := l.stand = .acked ∨ l.stand = .marked

theorem HasCredit.isOpen {l : Leg} (h : l.HasCredit) : l.IsOpen := by
  unfold IsOpen
  rcases h with h | h
  · rw [h]
    exact ⟨fun e => (nomatch e), fun e => (nomatch e)⟩
  · rw [h]
    exact ⟨fun e => (nomatch e), fun e => (nomatch e)⟩

theorem not_hasCredit_of_idle {l : Leg} (h : l.stand = .idle) : ¬ l.HasCredit := by
  rintro (e | e)
  · exact nomatch h.symm.trans e
  · exact nomatch h.symm.trans e

theorem isOpen_of_idle {l : Leg} (h : l.stand = .idle) : l.IsOpen :=
  ⟨fun e => (nomatch h.symm.trans e), fun e => (nomatch h.symm.trans e)⟩

theorem not_hasCredit_of_waiting {l : Leg} {n : Nat} {body : Body} (h : l.stand = .waiting n body) :
    ¬ l.HasCredit := by
  rintro (e | e)
  · exact nomatch h.symm.trans e
  · exact nomatch h.symm.trans e

theorem isOpen_of_waiting {l : Leg} {n : Nat} {body : Body} (h : l.stand = .waiting n body) : l.IsOpen :=
  ⟨fun e => (nomatch h.symm.trans e), fun e => (nomatch h.symm.trans e)⟩

/-- What stands in a scene for an upload under way. -/
structure Stands (u : UploadSettings) (s : Scene) (l : Leg) : Prop where
  key : l.job.key = .upload l.id
  named : l.id ≠ ""
  isProper : l.job.IsProper
  running : l.job.state = .running
  row : l.IsOpen → ∃ r, s.jobs.upload? l.id = some r ∧ r.isCurrent l.job = true
  waiting : ∀ n body, l.stand = .waiting n body → s.sent[n]? = some (u.request l.id, body)
  acked : l.stand = .acked → 0 < s.count l.id
  marked : l.stand = .marked → s.items.Uploaded l.id

namespace Stands

variable {u : UploadSettings} {s t : Scene} {l : Leg}

/-- The row of an open upload runs. -/
theorem running_row (h : l.Stands u s) (ho : l.IsOpen) :
    ∃ r, s.jobs.upload? l.id = some r ∧ r.isCurrent l.job = true ∧ r.state = JobState.running.name := by
  obtain ⟨r, hr, hc⟩ := h.row ho
  exact ⟨r, hr, hc, h.running ▸ (JobRow.isCurrent_iff.1 hc).2.1⟩

/-- The upload of an item still stands where the scene only went on for that item. -/
theorem onward (h : l.Stands u s)
    (hrow : l.IsOpen → ∀ r, s.jobs.upload? l.id = some r → r.state = JobState.running.name →
      t.jobs.upload? l.id = some r)
    (hsent : ∀ (n : Nat) e, s.sent[n]? = some e → t.sent[n]? = some e)
    (hcount : l.IsOpen → s.count l.id ≤ t.count l.id)
    (hup : l.IsOpen → s.items.Uploaded l.id → t.items.Uploaded l.id) : l.Stands u t where
  key := h.key
  named := h.named
  isProper := h.isProper
  running := h.running
  row ho := by
    obtain ⟨r, hr, hc, hs⟩ := h.running_row ho
    exact ⟨r, hrow ho r hr hs, hc⟩
  waiting n body hw := hsent n _ (h.waiting n body hw)
  acked ha := Nat.lt_of_lt_of_le (h.acked ha) (hcount (HasCredit.isOpen (.inl ha)))
  marked hm := hup (HasCredit.isOpen (.inr hm)) (h.marked hm)

/-- An upload that is over needs nothing of the scene. -/
theorem ended (h : l.Stands u s) {st : Stand} (hst : st = .closed ∨ st = .lost) (t : Scene) :
    (l.move st).Stands u t where
  key := h.key
  named := h.named
  isProper := h.isProper
  running := h.running
  row ho := hst.elim (fun e => absurd e ho.1) fun e => absurd e ho.2
  waiting _ _ hw := by
    rcases hst with rfl | rfl
    · exact nomatch hw
    · exact nomatch hw
  acked ha := by
    rcases hst with rfl | rfl
    · exact nomatch ha
    · exact nomatch ha
  marked hm := by
    rcases hst with rfl | rfl
    · exact nomatch hm
    · exact nomatch hm

end Stands

end Leg

/-- The uploads under way, and the items whose acknowledgement was lost to the database. -/
structure Afloat (u : UploadSettings) (interrupted : Nat) (s : Scene) (legs : List Leg)
    (lost : List String) : Prop where
  sound : s.jobs.IsSound
  keyed : s.items.Keyed
  stands : ∀ l ∈ legs, l.Stands u s
  apart : legs.Pairwise fun l k => l.IsOpen → k.IsOpen → l.id ≠ k.id
  safe : ∀ l ∈ legs, l.IsOpen → l.id ∉ lost
  /-- A lost item is not sent again as long as nobody recovers its job. -/
  still : ∀ id ∈ lost, id ≠ "" ∧ ∀ r, s.jobs.upload? id = some r → ¬ r.Waits
  balance : ∀ id, s.Balanced interrupted (id ∈ lost ∨ ∃ l ∈ legs, l.id = id ∧ l.HasCredit) id

namespace Afloat

variable {u : UploadSettings} {interrupted : Nat} {s t : Scene} {legs ls ks : List Leg} {l l' : Leg}
  {lost lost' : List String}

/-- The clock, the reports and further exchanges do not matter. -/
theorem same (h : Afloat u interrupted s legs lost) (hj : t.jobs = s.jobs) (hi : t.items = s.items)
    (hs : ∀ (n : Nat) e, s.sent[n]? = some e → t.sent[n]? = some e) (ha : t.acknowledged = s.acknowledged) :
    Afloat u interrupted t legs lost := by
  have hcount : ∀ id, t.count id = s.count id := fun id => congrArg (List.count id) ha
  refine ⟨hj ▸ h.sound, hi ▸ h.keyed, fun l hl => ?_, h.apart, h.safe, ?_, fun id => ?_⟩
  · refine (h.stands l hl).onward ?_ hs (fun _ => Nat.le_of_eq (hcount _).symm) (fun _ hu => hi ▸ hu)
    intro _ r hr _
    rw [hj]
    exact hr
  · rw [hj]
    exact h.still
  · refine (h.balance id).same ?_ ?_ (hcount id)
    · rw [hj]
    · rw [hi]

/-- Uploads under way are spared by statements that spare uploads. -/
theorem spares (h : Afloat u interrupted s legs lost) {jobs : JobTable} (hs : jobs.IsSound)
    (hj : s.jobs.Spares jobs) :
    Afloat u interrupted { s with jobs := jobs } legs lost where
  sound := hs
  keyed := h.keyed
  stands l hl :=
    have hl := h.stands l hl
    hl.onward (fun _ => (hj.spared l.id hl.named).kept) (fun _ _ he => he) (fun _ => Nat.le_refl _)
      fun _ hu => hu
  apart := h.apart
  safe := h.safe
  still id hid := ⟨(h.still id hid).1, (hj.spared id (h.still id hid).1).still (h.still id hid).2⟩
  balance id := (h.balance id).tame (hj.tame id)

/-- So they are by statements on the items that mark only what was acknowledged. -/
theorem items (h : Afloat u interrupted s legs lost) {st : ItemStatement}
    (hm : ∀ id time, st = .mark id time → 0 < s.count id) :
    Afloat u interrupted { s with items := (st.run s.items).2 } legs lost where
  sound := h.sound
  keyed := ItemTable.keyed_run h.keyed st
  stands l hl := (h.stands l hl).onward (fun _ _ hr _ => hr) (fun _ _ he => he)
    (fun _ => Nat.le_refl _) fun _ hu => hu.run st
  apart := h.apart
  safe := h.safe
  still := h.still
  balance id := (h.balance id).items (hm id)

/-! ## A step of one upload -/

/-- Beside an open upload there is no other open one of its item. -/
theorem ne_of_isOpen (h : Afloat u interrupted s (ls ++ l :: ks) lost) (ho : l.IsOpen) :
    ∀ k ∈ ls ++ ks, k.IsOpen → k.id ≠ l.id := by
  obtain ⟨_, hcons, hls⟩ := List.pairwise_append.1 h.apart
  intro k hk hko
  rcases List.mem_append.1 hk with hk | hk
  · exact hls k hk l List.mem_cons_self hko ho
  · exact ((List.pairwise_cons.1 hcons).1 k hk ho hko).symm

/-- The credit of the item of an open upload is its own. -/
theorem credit_iff (h : Afloat u interrupted s (ls ++ l :: ks) lost) (ho : l.IsOpen) :
    (l.id ∈ lost ∨ ∃ k ∈ ls ++ l :: ks, k.id = l.id ∧ k.HasCredit) ↔ l.HasCredit := by
  have hmem : l ∈ ls ++ l :: ks := List.mem_append_right _ List.mem_cons_self
  constructor
  · rintro (hlost | ⟨k, hk, hid, hc⟩)
    · exact absurd hlost (h.safe l hmem ho)
    · rcases List.mem_append.1 hk with hk | hk
      · exact absurd hid (h.ne_of_isOpen ho k (List.mem_append_left _ hk) hc.isOpen)
      · rcases List.mem_cons.1 hk with rfl | hk
        · exact hc
        · exact absurd hid (h.ne_of_isOpen ho k (List.mem_append_right _ hk) hc.isOpen)
  · exact fun hc => .inr ⟨l, hmem, rfl, hc⟩

theorem mem_append_cons {k : Leg} (hk : k ∈ ls ++ l' :: ks) : k ∈ ls ++ ks ∨ k = l' := by
  rcases List.mem_append.1 hk with hk | hk
  · exact .inl (List.mem_append_left _ hk)
  · rcases List.mem_cons.1 hk with rfl | hk
    · exact .inr rfl
    · exact .inl (List.mem_append_right _ hk)

theorem mem_append_cons_of_mem {k : Leg} (hk : k ∈ ls ++ ks) : k ∈ ls ++ l :: ks := by
  rcases List.mem_append.1 hk with hk | hk
  · exact List.mem_append_left _ hk
  · exact List.mem_append_right _ (List.mem_cons_of_mem _ hk)

/-- What a step of one upload leaves to show: everything else is about other items, which it leaves alone. -/
theorem turn (h : Afloat u interrupted s (ls ++ l :: ks) lost) (ho : l.IsOpen) (hid : l'.id = l.id)
    (hsound : t.jobs.IsSound) (hkeyed : t.items.Keyed)
    (hsame : ∀ id, id ≠ l.id → t.jobs.upload? id = s.jobs.upload? id ∧ t.items.row? id = s.items.row? id ∧
      t.count id = s.count id)
    (hsent : ∀ (n : Nat) e, s.sent[n]? = some e → t.sent[n]? = some e)
    (hstands : l'.Stands u t) (hsub : ∀ id ∈ lost, id ∈ lost')
    (hlost : ∀ id ∈ lost', id ∈ lost ∨
      (id = l.id ∧ ¬ l'.IsOpen ∧ ∀ r, t.jobs.upload? l.id = some r → ¬ r.Waits))
    (hbalance : s.Balanced interrupted l.HasCredit l.id →
      t.Balanced interrupted (l.id ∈ lost' ∨ l'.HasCredit) l.id) :
    Afloat u interrupted t (ls ++ l' :: ks) lost' := by
  have hmem : l ∈ ls ++ l :: ks := List.mem_append_right _ List.mem_cons_self
  have hnot : l.id ∉ lost := h.safe l hmem ho
  have hne := h.ne_of_isOpen ho
  refine ⟨hsound, hkeyed, fun k hk => ?_, ?_, fun k hk hko => ?_, fun id hid' => ?_, fun id => ?_⟩
  · rcases mem_append_cons hk with hk | rfl
    · have hk' := h.stands k (mem_append_cons_of_mem hk)
      refine hk'.onward (fun hko r hr _ => ?_) hsent (fun hko => ?_) fun hko hu => ?_
      · rw [(hsame k.id (hne k hk hko)).1]
        exact hr
      · exact Nat.le_of_eq (hsame k.id (hne k hk hko)).2.2.symm
      · unfold ItemTable.Uploaded
        rw [(hsame k.id (hne k hk hko)).2.1]
        exact hu
    · exact hstands
  · obtain ⟨hls, hcons, hcross⟩ := List.pairwise_append.1 h.apart
    refine List.pairwise_append.2
      ⟨hls, List.pairwise_cons.2 ⟨fun k hk _ hko => ?_, (List.pairwise_cons.1 hcons).2⟩, ?_⟩
    · rw [hid]
      exact (hne k (List.mem_append_right _ hk) hko).symm
    · intro k hk k' hk' hko hko'
      rcases List.mem_cons.1 hk' with rfl | hk'
      · rw [hid]
        exact hne k (List.mem_append_left _ hk) hko
      · exact hcross k hk k' (List.mem_cons_of_mem _ hk') hko hko'
  · intro hin
    rcases mem_append_cons hk with hk | rfl
    · rcases hlost _ hin with hin | ⟨he, _⟩
      · exact h.safe k (mem_append_cons_of_mem hk) hko hin
      · exact hne k hk hko he
    · rcases hlost _ hin with hin | ⟨_, hc, _⟩
      · exact hnot (hid ▸ hin)
      · exact hc hko
  · rcases hlost id hid' with hin | ⟨rfl, _, hw⟩
    · have hidne : id ≠ l.id := fun e => hnot (e ▸ hin)
      rw [(hsame id hidne).1]
      exact h.still id hin
    · exact ⟨(h.stands l hmem).named, hw⟩
  · by_cases hidl : id = l.id
    · subst hidl
      refine (hbalance ((h.balance l.id).mono (h.credit_iff ho).1)).mono ?_
      rintro (hin | hc)
      · exact .inl hin
      · exact .inr ⟨l', List.mem_append_right _ List.mem_cons_self, hid, hc⟩
    · obtain ⟨hj, hi, ha⟩ := hsame id hidl
      refine ((h.balance id).mono ?_).same hj hi ha
      rintro (hin | ⟨k, hk, hkid, hc⟩)
      · exact .inl (hsub id hin)
      · rcases mem_append_cons hk with hk | rfl
        · exact .inr ⟨k, mem_append_cons_of_mem hk, hkid, hc⟩
        · exact absurd hkid.symm hidl

/-- An open upload goes on to another stand, and no credit is lost. -/
theorem shift (h : Afloat u interrupted s (ls ++ l :: ks) lost) (ho : l.IsOpen) {st : Stand}
    (hst : (l.move st).Stands u s) (hc : l.HasCredit → (l.move st).HasCredit) :
    Afloat u interrupted s (ls ++ l.move st :: ks) lost :=
  h.turn ho rfl h.sound h.keyed (fun _ _ => ⟨rfl, rfl, rfl⟩) (fun _ _ he => he) hst (fun _ hi => hi)
    (fun _ hi => .inl hi)
    fun hb => hb.mono fun hl => .inr (hc hl)

/-- The database fails an open upload. -/
theorem lose (h : Afloat u interrupted s (ls ++ l :: ks) lost) (ho : l.IsOpen) :
    Afloat u interrupted s (ls ++ l.move .lost :: ks) (l.id :: lost) := by
  have hl : l.Stands u s := h.stands l (List.mem_append_right _ List.mem_cons_self)
  refine h.turn ho rfl h.sound h.keyed (fun _ _ => ⟨rfl, rfl, rfl⟩) (fun _ _ he => he)
    (hl.ended (.inr rfl) s)
    (fun _ hi => List.mem_cons_of_mem _ hi) ?_ fun hb => hb.mono fun _ => .inl List.mem_cons_self
  intro id hi
  rcases List.mem_cons.1 hi with rfl | hi
  · refine .inr ⟨rfl, fun hc => hc.2 rfl, fun r hr => ?_⟩
    obtain ⟨r', hr', _, hrun⟩ := hl.running_row ho
    obtain rfl := Option.some.inj (hr.symm.trans hr')
    exact JobRow.not_waits_of_running hrun
  · exact .inl hi

/-- A verdict on an open upload: the job of a marked item has succeeded, that of another one waits again or is
    given up. -/
theorem balanced_of_verdict (h : l.Stands u s) (ho : l.IsOpen) (hkeyed : s.jobs.Keyed) {change : Change}
    (hchange : (l.stand = .marked ∧ change.state = .succeeded) ∨
      (l.stand = .idle ∧ (change.state = .retrying ∨ change.state = .abandoned)))
    (hb : s.Balanced interrupted l.HasCredit l.id) :
    ({ s with jobs := ((JobStatement.updateIf l.job change).run s.jobs).2 } : Scene).Balanced
      interrupted False l.id := by
  obtain ⟨r, hr, hc, hrun⟩ := h.running_row ho
  have hrow := JobTable.upload?_updateIf hkeyed hr hc change
  refine hb.setRow (hb.known r hr) ?_ ?_
  · intro r' hr' hs'
    rw [hrow] at hr'
    obtain rfl := Option.some.inj hr'
    obtain ⟨hm, _⟩ | ⟨_, hst⟩ := hchange
    · exact h.marked hm
    · replace hs' : change.state.name = JobState.succeeded.name := hs'
      rcases hst with hst | hst
      · rw [hst] at hs'
        exact absurd hs' (by decide)
      · rw [hst] at hs'
        exact absurd hs' (by decide)
  · intro _ hn
    obtain ⟨hm, hst⟩ | ⟨hidle, _⟩ := hchange
    · refine absurd ⟨h.marked hm, fun r' hr' => ?_⟩ hn
      obtain rfl := Option.some.inj (hrow.symm.trans hr')
      exact .inl (congrArg JobState.name hst)
    · refine ⟨?_, fun hs => JobRow.not_isOver_of_running hrun (hs.2 r hr)⟩
      rintro (e | e)
      · rw [hidle] at e
        exact nomatch e
      · rw [hidle] at e
        exact nomatch e

/-- A verdict is written. -/
theorem verdict (h : Afloat u interrupted s (ls ++ l :: ks) lost) (ho : l.IsOpen) {change : Change}
    (hproper : change.IsProper)
    (hchange : (l.stand = .marked ∧ change.state = .succeeded) ∨
      (l.stand = .idle ∧ (change.state = .retrying ∨ change.state = .abandoned))) :
    Afloat u interrupted { s with jobs := ((JobStatement.updateIf l.job change).run s.jobs).2 }
      (ls ++ l.move .closed :: ks) lost := by
  have hl : l.Stands u s := h.stands l (List.mem_append_right _ List.mem_cons_self)
  refine h.turn ho rfl (JobTable.isSound_run h.sound hproper) h.keyed ?_ (fun _ _ he => he)
    (hl.ended (.inl rfl) _)
    (fun _ hi => hi) (fun _ hi => .inl hi) fun hb =>
    (balanced_of_verdict hl ho h.sound.keyed hchange hb).mono False.elim
  exact fun id hne => ⟨JobTable.upload?_updateIf_of_ne h.sound.keyed hl.key hne change, rfl, rfl⟩

/-- A success is written, but the database does not say so. -/
theorem verdict_lost (h : Afloat u interrupted s (ls ++ l :: ks) lost)
    (hm : l.stand = .marked) {change : Change}
    (hproper : change.IsProper) (hs : change.state = .succeeded) :
    Afloat u interrupted { s with jobs := ((JobStatement.updateIf l.job change).run s.jobs).2 }
      (ls ++ l.move .lost :: ks) (l.id :: lost) := by
  have hl : l.Stands u s := h.stands l (List.mem_append_right _ List.mem_cons_self)
  have ho : l.IsOpen := Leg.HasCredit.isOpen (.inr hm)
  refine h.turn ho rfl (JobTable.isSound_run h.sound hproper) h.keyed ?_ (fun _ _ he => he)
    (hl.ended (.inr rfl) _)
    (fun _ hi => List.mem_cons_of_mem _ hi) ?_ fun hb =>
      (balanced_of_verdict hl ho h.sound.keyed (.inl ⟨hm, hs⟩) hb).mono False.elim
  · exact fun id hne => ⟨JobTable.upload?_updateIf_of_ne h.sound.keyed hl.key hne change, rfl, rfl⟩
  · intro id hi
    rcases List.mem_cons.1 hi with rfl | hi
    · refine .inr ⟨rfl, fun hc => hc.2 rfl, fun r hr => ?_⟩
      obtain ⟨r', hr', hc⟩ := hl.row ho
      obtain rfl := Option.some.inj ((JobTable.upload?_updateIf h.sound.keyed hr' hc change).symm.trans hr)
      exact JobRow.IsOver.not_waits (.inl (congrArg JobState.name hs))
    · exact .inl hi

/-- What the answer to a call of an upload preserves, call by call. -/
theorem called (h : Afloat u interrupted s (ls ++ l :: ks) lost) {e : Call} {x : e.Answer}
    (hm : Leg.May u False l e) (hx : s.Answers e x t) :
    ∃ l', Leg.Goes False l e x l' ∧ ∃ lost', Afloat u interrupted t (ls ++ l' :: ks) lost' ∧
      (l'.stand = .lost ∨ (lost' = lost ∧ l.stand ≠ .lost)) := by
  have hl : l.Stands u s := h.stands l (List.mem_append_right _ List.mem_cons_self)
  have hstay : l.stand = .lost ∨ (lost = lost ∧ l.stand ≠ .lost) :=
    (Classical.em (l.stand = .lost)).imp id fun hne => ⟨rfl, hne⟩
  cases e with
  | network => exact hm.elim
  | list => exact hm.elim
  | now =>
    obtain ⟨hdate, rfl⟩ := hx
    exact ⟨l, ⟨hdate, rfl⟩, lost, h.same rfl rfl (fun _ _ he => he) rfl, hstay⟩
  | emit event =>
    obtain rfl : t = s := hx
    exact ⟨l, rfl, lost, h, hstay⟩
  | openItem id =>
    obtain rfl : t = s := hx
    exact ⟨l, ⟨rfl, fun hf => hf.elim⟩, lost, h, hstay⟩
  | send request body =>
    obtain ⟨rfl, rfl⟩ := hx
    obtain ⟨hidle, rfl, _, _⟩ := hm
    have ho : l.IsOpen := Leg.isOpen_of_idle hidle
    have hsent := h.same (t := { s with sent := s.sent ++ [(u.request l.id, body)] }) rfl rfl
      (fun n e he => by rw [List.getElem?_append_left (List.getElem?_eq_some_iff.1 he).1]; exact he) rfl
    refine ⟨l.move (.waiting s.sent.length body), rfl, lost, hsent.shift ho ?_ ?_, .inr ⟨rfl, ho.2⟩⟩
    · have hl' := hsent.stands l (List.mem_append_right _ List.mem_cons_self)
      refine { hl' with
        row := fun _ => hl'.row ho, waiting := ?_, acked := fun e => (nomatch e), marked :=
          fun e => (nomatch e) }
      intro n b hw
      obtain ⟨rfl, rfl⟩ := Stand.waiting.inj hw
      exact List.getElem?_concat_length
    · exact fun hc => absurd hc (Leg.not_hasCredit_of_idle hidle)
  | await n =>
    obtain ⟨body, hw⟩ := hm
    have ho : l.IsOpen := Leg.isOpen_of_waiting hw
    have hno : ¬ l.HasCredit := Leg.not_hasCredit_of_waiting hw
    replace hx : s.Exchanges n x t := hx
    unfold Scene.Exchanges at hx
    rw [hl.waiting n body hw] at hx
    obtain ⟨hform, ⟨hack, rfl⟩ | ⟨hack, rfl⟩⟩ := hx
    · refine ⟨l.move .acked, ⟨n, body, hw, hform, .inl ⟨hack, rfl⟩⟩, lost, ?_, .inr ⟨rfl, ho.2⟩⟩
      rw [UploadSettings.item_request]
      refine h.turn ho rfl h.sound h.keyed (fun id hne => ⟨rfl, rfl, List.count_cons_of_ne (Ne.symm hne)⟩)
        (fun _ _ he => he) ?_ (fun _ hi => hi) (fun _ hi => .inl hi) fun hb => ?_
      · refine { hl with
          row := fun _ => hl.row ho, waiting := fun _ _ e => (nomatch e), acked :=
            fun _ => ?_, marked := fun e => (nomatch e) }
        exact List.count_pos_iff.2 List.mem_cons_self
      · refine hb.acknowledge hno (fun hs => ?_) (.inr (.inl rfl))
        obtain ⟨r, hr, _, hrun⟩ := hl.running_row ho
        exact JobRow.not_isOver_of_running hrun (hs.2 r hr)
    · refine ⟨l.move .idle, ⟨n, body, hw, hform, .inr ⟨hack, fun hf => hf, rfl⟩⟩, lost, ?_,
        .inr ⟨rfl, ho.2⟩⟩
      refine h.shift ho ?_ fun hc => absurd hc hno
      exact { hl with
        row := fun _ => hl.row ho, waiting := fun _ _ e => (nomatch e), acked := fun e => (nomatch e)
        marked := fun e => (nomatch e) }
  | items st =>
    cases st with
    | insertIfAbsent id seen => exact hm.elim
    | listPending => exact hm.elim
    | find id => exact hm.elim
    | count => exact hm.elim
    | mark id time =>
      obtain ⟨hacked, rfl⟩ := hm
      have ho : l.IsOpen := Leg.HasCredit.isOpen (.inl hacked)
      have hmark :
        Afloat u interrupted { s with items := ((ItemStatement.mark l.id time).run s.items).2 }
          (ls ++ l :: ks) lost :=
        h.items fun id time' e => (ItemStatement.mark.inj e).1 ▸ hl.acked hacked
      cases x with
      | ok changed =>
        obtain ⟨_, rfl⟩ := hx
        refine ⟨l.move .marked, rfl, lost, hmark.shift ho ?_ fun _ => .inr rfl, .inr ⟨rfl, ho.2⟩⟩
        refine { hl with
          row := fun _ => hl.row ho, waiting := fun _ _ e => (nomatch e), acked :=
            fun e => (nomatch e), marked := fun _ => ?_ }
        obtain ⟨r, hr, _⟩ := hl.row ho
        exact ItemTable.uploaded_run_mark ((h.balance l.id).known r hr) time
      | error fault =>
        refine ⟨l.move .lost, ⟨fun hf => hf, rfl⟩, l.id :: lost, ?_, .inl rfl⟩
        rcases hx with rfl | rfl
        · exact h.lose ho
        · exact hmark.lose ho
    | «exists» id =>
      have ho : l.IsOpen := Leg.HasCredit.isOpen (.inr hm)
      cases x with
      | ok found =>
        obtain ⟨_, rfl⟩ := hx
        exact ⟨l, rfl, lost, h, hstay⟩
      | error fault =>
        refine ⟨l.move .lost, ⟨fun hf => hf, rfl⟩, l.id :: lost, ?_, .inl rfl⟩
        rcases hx with rfl | rfl
        · exact h.lose ho
        · exact h.lose ho
  | jobs st =>
    cases st with
    | updateIf j change =>
      obtain ⟨rfl, hproper, hchange⟩ := hm
      replace hchange : (l.stand = .marked ∧ change.state = .succeeded) ∨
          (l.stand = .idle ∧ (change.state = .retrying ∨ change.state = .abandoned)) :=
        hchange.imp id fun hc => ⟨hc.1, hc.2.2⟩
      have ho : l.IsOpen := hchange.elim (fun hc => Leg.HasCredit.isOpen (.inr hc.1)) fun hc =>
        Leg.isOpen_of_idle hc.1
      cases x with
      | ok b =>
        obtain ⟨_, rfl⟩ := hx
        exact ⟨l.move .closed, ⟨fun hf => hf.elim, rfl⟩, lost, h.verdict ho hproper hchange,
          .inr ⟨rfl, ho.2⟩⟩
      | error fault =>
        rcases hchange with ⟨hmarked, hs⟩ | ⟨hidle, hs⟩
        · refine ⟨l.move .lost, ⟨fun hf => hf, .inl ⟨hmarked, rfl⟩⟩, l.id :: lost, ?_, .inl rfl⟩
          rcases hx with rfl | rfl
          · exact h.lose ho
          · exact h.verdict_lost hmarked hproper hs
        · refine ⟨l.move .closed, ⟨fun hf => hf, .inr ⟨hidle, rfl⟩⟩, lost, ?_, .inr ⟨rfl, ho.2⟩⟩
          rcases hx with rfl | rfl
          · exact h.shift ho (hl.ended (.inl rfl) _) fun hc => absurd hc (Leg.not_hasCredit_of_idle hidle)
          · exact h.verdict ho hproper (.inr ⟨hidle, hs⟩)
    | _ => exact hm.elim

end Afloat

end MediaBackup

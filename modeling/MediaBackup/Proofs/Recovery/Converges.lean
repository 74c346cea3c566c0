import MediaBackup.Proofs.Recovery.MainLine

/-
  A backup recovers from whatever an earlier process left.

  The start queues a scan and a dispatch, so three passes are to come; each pass comes to its end without an error and
  leaves one less (`comes_of_holds`).  After the third every item is uploaded, or its upload was given up for good.
-/

namespace MediaBackup

namespace Scene

open Script Workers

variable {ids : List String} {s t : Scene}

/-- In a world in which nothing fails what is known stays known. -/
theorem Kindly.knows {c : Call} {x : c.Answer} (h : Kindly ids s c x t) {id : String}
    (hk : s.items.Knows id) :
    t.items.Knows id := by
  obtain ⟨ha, hf⟩ := h
  have hsame : t.items = s.items → t.items.Knows id := fun e => e ▸ hk
  cases c with
  | jobs st =>
    cases x with
    | ok x => exact hsame (ha.2 ▸ rfl)
    | error fault => exact hf.elim
  | items st =>
    cases x with
    | ok x =>
      obtain ⟨_, rfl⟩ := ha
      exact hk.run st
    | error fault => exact hf.elim
  | now => exact hsame (ha.2 ▸ rfl)
  | emit e => exact hsame (congrArg Scene.items ha)
  | network => exact hsame (congrArg Scene.items ha)
  | list =>
    obtain rfl := hf
    obtain rfl : t = { s with reported := ids ++ s.reported } := ha
    exact hk
  | openItem id => exact hsame (congrArg Scene.items ha)
  | send request body => exact hsame (ha.2 ▸ rfl)
  | await n =>
    change s.Exchanges n x t at ha
    unfold Exchanges at ha
    split at ha
    · rcases ha.2 with ⟨_, rfl⟩ | ⟨_, rfl⟩
      · exact hk
      · exact hk
    · exact hsame (congrArg Scene.items ha)

/-! ## The start -/

theorem Readable.fit (h : s.Readable) : s.Fit where
  jobs := by
    refine JobTable.legible_of_says h.jobs fun r hr => ?_
    obtain ⟨j, hj⟩ := h.jobRows r hr
    exact ⟨j, JobRow.job_eq_ok_iff.1 hj⟩
  items := h.items
  readable _ r hr _ := h.itemRows r (ItemTable.mem_of_row? hr)
  named id hk := by
    obtain ⟨r, hr⟩ := hk
    exact ItemTable.id_of_row? hr ▸ h.named r (ItemTable.mem_of_row? hr)
  clock := h.clock

/-- No job runs. -/
def Idle (s : Scene) : Prop := ∀ k r, s.jobs.at? k = some r → r.state ≠ JobState.running.name

/-- A request for housekeeping where no job runs puts a fresh row. -/
theorem meets_enqueue_housekeeping (h : s.Fit) (hidle : s.Idle) {q : JobRequest}
    (hq : q.key.isHousekeeping = true)
    {good : Enqueued → Scene → Prop}
    (hdone : ∀ outcome t, Writes q.key (JobRow.ofJob (Job.fresh q t.clock)) s t → t.Idle → good outcome t) :
    Meets (alone ids) good never (Queue.enqueue q) s := by
  refine meets_enqueue h (fun he => ?_) ?_ ?_
  · rw [he] at hq
    exact nomatch hq
  · intro t row j _ _ hrow hj hcovers
    obtain ⟨j', hj', hkey⟩ := h.jobs.says_at hrow
    obtain rfl := hj.job_unique hj'
    rcases hj.of_covers hcovers with hrun | ⟨hu, _⟩
    · exact absurd hrun (hidle _ row hrow)
    · rw [isUpload_eq_not, hkey, hq] at hu
      exact nomatch hu
  · intro outcome t hw _
    refine hdone outcome t hw fun k r hr => ?_
    rcases hw.at?_cases hr with ⟨_, rfl⟩ | ⟨_, hr⟩
    · show JobState.queued.name ≠ JobState.running.name
      decide
    · exact hidle k r hr

/-- What a start leaves: no job runs, and a scan and a dispatch are queued as fresh ones. -/
structure Started (s : Scene) : Prop where
  fit : s.Fit
  idle : s.Idle
  queued : ∀ k, k.isHousekeeping = true →
    ∃ r, s.jobs.at? k = some r ∧ r.state = JobState.queued.name ∧ r.attempt = .int 0

/-- A start comes to its end without an error. -/
theorem meets_start (h : s.Fit) :
    Meets (alone ids) (fun _ t => Started t) never (Backup.start false) s := by
  unfold Backup.start
  rw [if_neg (by decide), meets_bind]
  refine meets_recover h fun _ t hl ht hrows => ?_
  have hidle : t.Idle := by
    intro k r hr
    rw [hrows] at hr
    obtain ⟨q, _, rfl⟩ := Option.map_eq_some_iff.1 hr
    split
    · show "queued" ≠ JobState.running.name
      decide
    · rename_i hno
      exact fun he => hno (beq_iff_eq.2 he)
  have hfit := h.later hl ht
  rw [meets_bind]
  refine meets_enqueue_housekeeping hfit hidle rfl fun _ u hw hidle' => ?_
  rw [meets_bind]
  refine meets_enqueue_housekeeping (hw.fit hfit) hidle' rfl fun _ v hw' hidle'' => ?_
  refine meets_pure.2 ⟨hw'.fit (hw.fit hfit), hidle'', fun k hk => ?_⟩
  cases k with
  | scan => exact ⟨_, (hw'.sets.others .scan JobKey.noConfusion).trans hw.sets.own, rfl, rfl⟩
  | dispatch => exact ⟨_, hw'.sets.own, rfl, rfl⟩
  | upload id => exact nomatch hk

/-- Once every job is due, three passes are to come. -/
theorem Started.rested (h : s.Started) {clock : Instant} (hdate : clock.IsDate)
    (hle : s.clock.nanos ≤ clock.nanos)
    (hdue : ∀ r ∈ s.jobs, r.nextRunAt.le clock.cell = true) : Rested ids 3 { s with clock := clock } where
  fit := h.fit.later ⟨rfl, hle, hdate⟩ h.fit.jobs
  timely := by
    intro k r hr _
    obtain ⟨j, hj, _⟩ := h.fit.jobs.says_at hr
    obtain ⟨m, hm, _⟩ := hj.nextRunAt
    have := hdue r (JobTable.mem_of_row? hr)
    rw [hm] at this
    exact ⟨m, hm, Cell.le_int.1 this⟩
  idle := h.idle
  fresh := by
    intro k r hk hr _
    obtain ⟨q, hq, hqueued⟩ := h.queued k hk
    obtain rfl := Option.some.inj (hr.symm.trans hq)
    exact hqueued
  first _ := by
    obtain ⟨r, hr, hs, _⟩ := h.queued .scan rfl
    obtain ⟨q, hq, hs', _⟩ := h.queued .dispatch rfl
    exact ⟨⟨r, hr, .inl hs⟩, q, hq, .inl hs'⟩
  second hn := absurd hn (by decide)
  third hn := absurd hn (by decide)
  last hn := absurd hn (by decide)

/-- There is a time at which every job is due. -/
theorem Started.exists_due (h : s.Started) : ∃ clock : Instant, clock.IsDate ∧ s.clock.nanos ≤ clock.nanos ∧
    ∀ r ∈ s.jobs, r.nextRunAt.le clock.cell = true := by
  refine ⟨.last, by decide, h.fit.clock.2, fun r hr => ?_⟩
  obtain ⟨j, hj, _⟩ := h.fit.jobs.says hr
  rw [hj.nextRunAt.eq_cell]
  exact Cell.le_int.2 (Instant.millis_mono hj.nextRunAt.isDate.2)

end Scene

namespace Recovery

open Script Scene

variable {b : Backup} {ids : List String} {n left : Nat} {s : Scene}

theorem comes_of_keeps {post : Except Stop Nat → Scene → Prop}
    {rest : Script Call Call.Answer (Except Stop Nat)}
    (h : rest.Keeps (alone ids) post s) (hs : s.clock.IsDate) :
    Comes (Step b ids) (fun r => ∃ result t, r = ⟨t, .starting (.done result)⟩ ∧ post result t)
      ⟨s, .starting rest⟩ := by
  induction rest generalizing s with
  | done result => exact .here ⟨result, s, rfl, h⟩
  | ask c next ih =>
    refine .goes ?_ fun r hr => ?_
    · obtain ⟨x, t, hx⟩ := exists_kindly ids hs c
      exact ⟨_, .startCall hx⟩
    · cases hr with
      | startCall hx => exact ih _ (h.2 _ _ hx) (hx.clock hs).1

/-! ## The passes -/

/-- A pass that is at its end without an error. -/
def Ended (ids : List String) (n left : Nat) (r : Recovery) : Prop :=
  ∃ (c : Crew (Except Stop PassReport)) (report : PassReport) (t : Scene),
    r = ⟨t, .passing c left⟩ ∧ c.main = .done (.ok report) ∧ c.uploads = [] ∧ Rested ids n t

variable {hpermits : 0 < b.permits} {hsettings : Upload.breakdown? b.uploads = none}
  {c : Crew (Except Stop PassReport)}

/-- A crew at its end has delivered what it had to. -/
theorem ended_of_holds (h : (guide b ids hpermits hsettings).Holds (Helm.Ends ids (n + 1)) c s) (hn : n ≤ 2)
    {r : Except Stop PassReport} (hr : c.main = .done r) : Ended ids n left ⟨s, .passing c left⟩ := by
  obtain ⟨m, row, hmain, hrow, _, hinv⟩ := h
  rw [hr] at hmain
  obtain ⟨report, uploads, p, rfl, hjoins⟩ := hmain
  have hstage := hjoins.stage
  refine ⟨c, report, s, rfl, hr, ?_⟩
  cases m with
  | alone s' =>
    obtain ⟨rfl, _, hls, _, _⟩ := hinv
    obtain ⟨_, hlooks⟩ := hstage
    refine ⟨by rw [hrow, List.map_eq_nil_iff.1 hls]; rfl, ?_⟩
    refine (Arrived.refl hlooks.tidy.fit).rested hlooks (fun _ hj => absurd hj List.not_mem_nil)
      (fun id hid => ?_) hn
    exact absurd (hlooks.agenda.listed id hid) List.not_mem_nil
  | uploading u =>
    have hu : Underway b.permits u s (row.map Prod.snd) c.ended c.free := hinv
    obtain ⟨_, hhand, hopened, ⟨all, hlooks, hall, _⟩, _, _, hlisted⟩ := hstage
    have hlen := hu.opened
    rw [hopened] at hlen
    have hls : row.map Prod.snd = [] := List.eq_nil_of_length_eq_zero (by omega)
    have hin : u.inHand = [] := by
      unfold Uploading.inHand
      rw [hhand]
      rfl
    have harrived : Arrived u.frozen u.taken s := by
      refine ⟨hu.fit, hu.le, hu.known, hu.uploaded, hu.others, fun id hid => hu.delivered id hid ?_⟩
      rw [hin, hls]
      exact List.not_mem_nil
    refine ⟨by rw [hrow, List.map_eq_nil_iff.1 hls]; rfl, harrived.rested hlooks hall (fun id hid => ?_) hn⟩
    rcases hlisted id hid with hmem | ⟨_, hj, _⟩
    · exact hmem
    · exact absurd hj List.not_mem_nil

/-- A crew that keeps to the guide comes to its end. -/
theorem comes_of_holds (h : (guide b ids hpermits hsettings).Holds (Helm.Ends ids (n + 1)) c s)
    (hn : n ≤ 2) :
    Comes (Step b ids) (Ended ids n left) ⟨s, .passing c left⟩ := by
  induction c using Crew.follows_wf.induction generalizing s with
  | _ c ih =>
  rcases exists_goes h with ⟨r, hr⟩ | ⟨d, t, hgoes⟩
  · exact .here (ended_of_holds h hn hr)
  · by_cases hdone : ∃ r, c.main = .done r
    · obtain ⟨r, hr⟩ := hdone
      exact .here (ended_of_holds h hn hr)
    · refine .goes ⟨_, .passGoes hgoes⟩ fun r hr => ?_
      cases hr with
      | passGoes hg =>
        obtain ⟨_, _, hfollows, _, _⟩ := id hg
        exact ih _ hfollows (Guide.holds_of_goes h hg)
      | passEnd hmain => exact absurd ⟨_, hmain⟩ hdone
      | lastEnd hmain => exact absurd ⟨_, hmain⟩ hdone

/-- A pass comes to its end without an error, and leaves one pass less. -/
theorem comes_of_rested (hpermits : 0 < b.permits) (hsettings : Upload.breakdown? b.uploads = none)
    (hids : ∀ id ∈ ids, id ≠ "") (h : Rested ids (n + 1) s) (hn : n ≤ 2) :
    Comes (Step b ids) (Ended ids n left) ⟨s, .passing (fresh b) left⟩ := by
  have hholds : (guide b ids hpermits hsettings).Holds (Helm.Ends ids (n + 1)) (fresh b) s :=
    ⟨.alone s, [], Helm.run_keeps b hids hn h, rfl, fun _ hp => absurd hp List.not_mem_nil, rfl,
      h.fit.clock, rfl, rfl, rfl⟩
  exact comes_of_holds hholds hn

/-- A crew that is at its end and has no uploads does not go on. -/
theorem not_goes {c d : Crew (Except Stop PassReport)} {t : Scene} {r : Except Stop PassReport}
    (hr : c.main = .done r)
    (hc : c.uploads = []) : ¬ Crew.Goes b (Kindly ids) c s d t := by
  intro hg
  obtain ⟨main, us, ended, free⟩ := c
  obtain rfl : main = .done r := hr
  obtain rfl : us = [] := hc
  generalize hus : ([] : List Crew.UploadLine) = us at hg
  cases Crew.moves_of_goes hg with
  | called => exact absurd hus.symm (List.append_ne_nil_of_right_ne_nil _ (List.cons_ne_nil _ _))
  | left => exact absurd hus.symm (List.append_ne_nil_of_right_ne_nil _ (List.cons_ne_nil _ _))

/-- After a pass comes the next one. -/
theorem comes_next {P : Recovery → Prop} {r : Recovery} (h : Ended ids n (left + 1) r)
    (hnext : ∀ t, Rested ids n t → Comes (Step b ids) P ⟨t, .passing (fresh b) left⟩) :
    Comes (Step b ids) P r := by
  obtain ⟨c, report, t, rfl, hmain, hups, hrested⟩ := h
  refine .goes ⟨_, .passEnd hmain⟩ fun r hr => ?_
  cases hr with
  | passGoes hg => exact absurd hg (not_goes hmain hups)
  | passEnd _ => exact hnext t hrested

/-- Nothing follows the last pass. -/
theorem comes_last {r : Recovery} (h : Ended ids 0 0 r) :
    Comes (Step b ids) (fun r => r.stage = .ended ∧ Rested ids 0 r.scene) r := by
  obtain ⟨c, report, t, rfl, hmain, hups, hrested⟩ := h
  refine .goes ⟨_, .lastEnd hmain⟩ fun r hr => ?_
  cases hr with
  | passGoes hg => exact absurd hg (not_goes hmain hups)
  | lastEnd _ => exact .here ⟨rfl, hrested⟩

/-- What was known before a step is known after it. -/
theorem Step.knows {r r' : Recovery} (h : Step b ids r r') {id : String} (hk : r.scene.items.Knows id) :
    r'.scene.items.Knows id := by
  cases h with
  | startCall hx => exact hx.knows hk
  | started _ _ _ => exact hk
  | passGoes hg =>
    cases Crew.moves_of_goes hg with
    | engine hx => exact hx.knows hk
    | called hx => exact hx.knows hk
    | _ => exact hk
  | passEnd _ => exact hk
  | lastEnd _ => exact hk

/-- **A backup recovers.**  From every database whose rows can be read, a start and three passes, run in a world in which
    nothing fails, come to their end without an error whatever the order of their calls; and then every item that is
    known or that the library lists is uploaded, except where its upload was given up for good. -/
theorem converges (hpermits : 0 < b.permits) (hsettings : Upload.breakdown? b.uploads = none)
    (hids : ∀ id ∈ ids, id ≠ "") (h : s.Readable) : Comes (Step b ids) (Done ids s) (begun s) := by
  have hended : Comes (Step b ids) (fun r => r.stage = .ended ∧ Rested ids 0 r.scene) (begun s) := by
    refine (comes_of_keeps (meets_start h.fit) h.clock).trans fun r hr => ?_
    obtain ⟨result, t, rfl, hresult⟩ := hr
    cases result with
    | error e => exact hresult.elim
    | ok recovered =>
    have hstarted : t.Started := hresult
    obtain ⟨clock, hdate, hle, hdue⟩ := hstarted.exists_due
    refine .goes ⟨_, .started hdate hle hdue⟩ fun r hr => ?_
    cases hr with
    | started hdate hle hdue =>
      -- three passes, each of which leaves one less
      refine (comes_of_rested hpermits hsettings hids (hstarted.rested hdate hle hdue)
        (by decide)).trans fun r hr => ?_
      refine comes_next hr fun t hrested => ?_
      refine (comes_of_rested hpermits hsettings hids hrested (by decide)).trans fun r hr => ?_
      refine comes_next hr fun t hrested => ?_
      exact (comes_of_rested hpermits hsettings hids hrested (by decide)).trans fun r hr => comes_last hr
  have hknown := hended.preserved (I := fun r => ∀ id, s.items.Knows id → r.scene.items.Knows id)
    (fun _ _ hI hstep id hk => hstep.knows (hI id hk)) fun _ hk => hk
  refine hknown.trans fun r hr => .here ?_
  obtain ⟨⟨hstage, hrested⟩, hmono⟩ := hr
  refine ⟨hstage, fun id hid => hrested.last rfl id ?_⟩
  rcases hid with hk | hk | hlisted
  · exact hmono id hk
  · exact hk
  · exact (hrested.second (by decide)).1 id hlisted

/-- A crash left an upload that runs; meanwhile there is another item. -/
theorem converges_after_crash :
    ∃ (row : JobRow) (item : ItemRow), row.key = "upload:a" ∧ row.state = "running" ∧ item.id = "a" ∧
      item.uploadedAt = none ∧
      Comes (Step ⟨.standard, .toward "https://host/items", .unmetered, 2⟩ ["b"])
        (Done ["b"] ⟨[row], [item], .epoch, [], [], []⟩) (begun ⟨[row], [item], .epoch, [], [], []⟩) := by
  let running : Job := { Job.fresh (.upload "a" .unmetered) .epoch with state := .running, attempt := 1 }
  let row := JobRow.ofJob running
  let item : ItemRow := ⟨"a", Instant.epoch.cell, none⟩
  have hdate : Instant.epoch.IsDate := by decide
  have hrow : ∃ j, row.job = .ok j :=
    ⟨_, JobRow.job_eq_ok_iff.2
      (JobRow.ofJob_says ⟨JobState.noConfusion, by decide, hdate, hdate, hdate⟩ (by decide))⟩
  have hitem : item.item = .ok ⟨"a", .epoch, none⟩ := rfl
  have hreadable : Scene.Readable ⟨[row], [item], .epoch, [], [], []⟩ :=
    { jobs := List.pairwise_singleton _ _
      items := List.pairwise_singleton _ _
      jobRows := fun r hr => List.mem_singleton.1 hr ▸ hrow
      itemRows := fun r hr => List.mem_singleton.1 hr ▸ ⟨_, hitem⟩
      named := fun r hr => List.mem_singleton.1 hr ▸ by decide
      clock := hdate }
  exact ⟨row, item, rfl, rfl, rfl, rfl, converges (by decide) rfl (by decide) hreadable⟩

end Recovery

end MediaBackup

import MediaBackup.Proofs.Pass.Looks
import MediaBackup.Proofs.Pass.Turns
import MediaBackup.Proofs.Queue.Dispatching
import MediaBackup.Proofs.Recovery.Basic

/-
  Which jobs a pass lets through.

  A pass runs beside nobody else, its uploads beside its main line, and the world answers as it likes.  What the main
  line may do is its gate, and an upload changes only the row of a job that runs.  So at every moment the rows of the
  jobs that were listed and not tried are as they were listed (`Kept`): one step preserves it, by the main line
  (`Kept.goes`) or by an upload (`Kept.beside`), and so a whole run does (`Run.steady`).

  The exception is a dispatch.  A scan of the same pass may request one, and a request takes the place of a dispatch
  that waits, be it deferred or not (`deferred_dispatch_replaced`).
-/

namespace MediaBackup

namespace Gating

open Script

/-! ## Statements that spare a job -/

/-- The statement passes over the row of a job that waits under the key. -/
def Spares (key : String) : JobStatement → Prop
  | .updateIf j _ => j.state = .queued → j.key.text ≠ key
  | .quarantine k _ _ => k ≠ key
  | .replaceIf job observed => observed.state = .queued → job.key.text ≠ key
  | _ => True

theorem row?_run_of_spares {t : JobTable} (hk : t.Keyed) {st : JobStatement} {key : String} (h : Spares key st)
    {row : JobRow} (hrow : t.row? key = some row) (hqueued : row.state = "queued") :
    (st.run t).2.row? key = some row := by
  have hname : ∀ s : JobState, row.state = s.name → s = .queued :=
    fun s hs => JobState.name_injective (hs.symm.trans hqueued)
  have hkey : row.key = key := JobTable.key_of_row? hrow
  rw [JobTable.row?_run hk, hrow]
  cases st with
  | insertIfAbsent job => rfl
  | find _ | listDue _ | count _ => rfl
  | replaceIf job observed =>
    refine congrArg some (if_neg fun hobserved => ?_)
    obtain ⟨hsame, hstate, -⟩ := JobRow.isObserved_iff.mp hobserved
    exact h (hname _ hstate) (hsame.symm.trans hkey)
  | updateIf observed change =>
    refine congrArg some (if_neg fun hcurrent => ?_)
    obtain ⟨hsame, hstate, -⟩ := JobRow.isCurrent_iff.mp hcurrent
    exact h (hname _ hstate) (hsame.symm.trans hkey)
  | quarantine k reason now => exact congrArg some (if_neg fun hsame => h ((eq_of_beq hsame).symm.trans hkey))
  | promote now =>
    refine congrArg some (if_neg fun hpromotable => ?_)
    exact absurd (hqueued.symm.trans (JobRow.isPromotable_iff.mp hpromotable).1) (by decide)
  | resetRunning now =>
    exact congrArg some (if_neg fun hrunning => absurd (hqueued.symm.trans (eq_of_beq hrunning)) (by decide))
  | deleteTerminal limit =>
    show (some row).filter (fun r => !r.isPrunable limit) = some row
    refine Option.filter_some_pos ?_
    rw [Bool.not_eq_true']
    refine Bool.eq_false_iff.mpr fun hprunable => ?_
    rcases JobRow.isOver_of_isPrunable hprunable with hover | hover <;>
      exact absurd (hqueued.symm.trans hover) (by decide)

section Rows

variable {past : List Deed} {s t : Scene} {j : Job}

/-- What keeps the row of a job that waits keeps it spared. -/
theorem Kept.isSpared_of_row? (h : Kept past s) (hj : j ∈ listed past) (hnot : ¬Tried past j)
    (hsame : ∀ row, s.jobs.row? j.key.text = some row → row.state = "queued" → t.jobs.row? j.key.text = some row) :
    IsSpared past t j := by
  obtain ⟨row, hrow, hqueued, -⟩ := h.holds hj hnot
  have heq : t.jobs.row? j.key.text = s.jobs.row? j.key.text := (hsame row hrow hqueued).trans hrow.symm
  rcases h.spared j hj hnot with hlisted | ⟨hkey, hscanned, now, hdate, hfresh⟩
  · exact .inl (heq.trans hlisted)
  · exact .inr ⟨hkey, hscanned, now, hdate, heq.trans hfresh⟩

/-- No two listed jobs have one key. -/
theorem Kept.eq_of_text_eq {i : Job} (h : Kept past s) (hi : i ∈ listed past) (hj : j ∈ listed past)
    (hkey : i.key.text = j.key.text) : i = j := by
  obtain ⟨-, row, hrow, hsaid⟩ := h.said i hi
  obtain ⟨-, row', hrow', hsaid'⟩ := h.said j hj
  rw [hkey, hrow'] at hrow
  obtain rfl := Option.some.inj hrow
  have heq := (JobRow.decode_eq_valid_iff.mpr hsaid).symm.trans (JobRow.decode_eq_valid_iff.mpr hsaid')
  exact Decoded.valid.inj heq

/-- What the main line may run spares every job that was listed and is not tried, but that a scan may put a fresh
    dispatch in the place of one. -/
theorem Kept.spares_or (h : Kept past s) {st : JobStatement} (hmay : MayRun past st) (hj : j ∈ listed past)
    (hnot : ¬Tried past j) (hclaim : ∀ change, st = .updateIf j change → change.state ≠ .running) :
    Spares j.key.text st ∨ j.key = .dispatch ∧ Scanned past ∧
      ∃ now observed, now.IsDate ∧ st = .replaceIf (.fresh .dispatch now) observed := by
  cases st with
  | updateIf i change =>
    refine .inl fun hqueued hkey => ?_
    replace hmay : if change.state = .running then IsLet past i else i.state = .running := hmay
    split at hmay
    · rename_i hrunning
      obtain rfl := h.eq_of_text_eq hmay.1 hj hkey
      exact hclaim change rfl hrunning
    · exact JobState.noConfusion (hqueued.symm.trans hmay)
  | quarantine key words now => exact .inl fun hkey => hmay j hj hnot hkey.symm
  | replaceIf job observed =>
    rcases hmay with hother | ⟨hscanned, now, hdate, rfl⟩
    · exact .inl fun hqueued => absurd hqueued hother
    · by_cases hkey : JobKey.dispatch.text = j.key.text
      · exact .inr ⟨(JobKey.text_injective hkey).symm, hscanned, now, observed, hdate, rfl⟩
      · exact .inl fun _ => hkey
  | _ => exact .inl trivial

/-- What the main line runs keeps the rows spared. -/
theorem Kept.isSpared_of_mayRun (h : Kept past s) {st : JobStatement} (hmay : MayRun past st) (hj : j ∈ listed past)
    (hnot : ¬Tried past j) (hclaim : ∀ change, st = .updateIf j change → change.state ≠ .running)
    (ht : t.jobs = (st.run s.jobs).2) : IsSpared past t j := by
  rcases h.spares_or hmay hj hnot hclaim with hspares | ⟨hkey, hscanned, now, observed, hdate, rfl⟩
  · exact h.isSpared_of_row? hj hnot fun row hrow hqueued => ht ▸ row?_run_of_spares h.keyed hspares hrow hqueued
  · -- the row is that of the dispatch that was observed, or it stays
    obtain ⟨row, hrow, -⟩ := h.holds hj hnot
    have heffect := JobTable.row?_run h.keyed (.replaceIf (.fresh .dispatch now) observed) j.key.text
    rw [hrow, ← ht] at heffect
    by_cases hobserved : row.isObserved { observed with key := .dispatch } = true
    · exact .inr ⟨hkey, hscanned, now, hdate, heffect.trans (congrArg some (if_pos hobserved))⟩
    · refine h.isSpared_of_row? hj hnot fun row' hrow' _ => ?_
      obtain rfl := Option.some.inj (hrow.symm.trans hrow')
      exact heffect.trans (congrArg some (if_neg hobserved))

/-- What is spared stays so while no jobs are listed. -/
theorem IsSpared.extend {past' : List Deed} {p : Job → Prop} (h : IsSpared past s j) (hext : Extends p past past') :
    IsSpared past' s j := by
  rcases h with hlisted | ⟨hkey, hscanned, hfresh⟩
  · exact .inl (hext.table.symm ▸ hlisted)
  · exact .inr ⟨hkey, hext.scanned hscanned, hfresh⟩

/-- Only the tables of jobs count. -/
theorem IsSpared.of_jobs_eq (h : IsSpared past s j) (ht : t.jobs = s.jobs) : IsSpared past t j := by
  unfold IsSpared
  rwa [ht]

end Rows

/-! ## One step -/

section Steps

variable {past : List Deed} {s t : Scene}

/-- Before the first call nothing is listed. -/
theorem Kept.start (h : s.jobs.Keyed) : Kept [] s where
  keyed := h
  said _ hj := absurd hj List.not_mem_nil
  spared _ hj := absurd hj List.not_mem_nil

/-- What is listed is kept, for now. -/
theorem Kept.list {now : Instant} {rows : List Decoded} (hk : s.jobs.Keyed)
    (hrows : rows = ((JobStatement.listDue now).run s.jobs).1) (ht : t.jobs = s.jobs) :
    Kept (⟨.engine (.jobs (.listDue now)), .ok rows, s, t⟩ :: past) t where
  keyed := ht ▸ hk
  said j hj := by
    have hvalid : .valid j ∈ rows := mem_validJobs.mp ((arrange_perm _).mem_iff.mp hj)
    exact says_of_listDue hk (hrows ▸ hvalid)
  spared j _ _ := .inl (congrArg (JobTable.row? · j.key.text) ht)

/-- A call of the main line keeps the rows of all jobs that were listed and not tried. -/
theorem Kept.goes {e : PassCall} {x : e.Answer} (h : Kept past s) (hmay : May past e) (hx : Happens e x s t) :
    Kept (⟨e, x, s, t⟩ :: past) t := by
  rcases Deed.sparesList_or ⟨e, x, s, t⟩ with hlist | ⟨now, rows, s, t, heq⟩
  · have hext : Extends (fun j => Deed.Claims j ⟨e, x, s, t⟩) past (⟨e, x, s, t⟩ :: past) := .cons hlist fun _ hj => hj
    have hnot : ∀ j, ¬Tried (⟨e, x, s, t⟩ :: past) j → ¬Tried past j := fun j hj htried => hj (htried.cons _)
    cases e with
    | engine c =>
      refine ⟨Workers.keyed_of_answers h.keyed (Scene.Answers.workers hx), hext.listed.symm ▸ hext.table.symm ▸ h.said,
        fun j hj htried => ?_⟩
      rw [hext.listed] at hj
      refine IsSpared.extend ?_ hext
      rcases (Scene.Answers.workers hx).table_eq with ht | ⟨st, rfl, ht⟩
      · exact (h.spared j hj (hnot j htried)).of_jobs_eq ht
      · refine h.isSpared_of_mayRun hmay hj (hnot j htried) ?_ ht
        rintro change rfl hrunning
        exact htried ⟨_, .head _, rfl, hrunning⟩
    | _ =>
      obtain rfl : t = s := hx
      refine ⟨h.keyed, hext.listed.symm ▸ hext.table.symm ▸ h.said, fun j hj htried => ?_⟩
      exact (h.spared j (hext.listed ▸ hj) (hnot j htried)).extend hext
  · cases heq
    exact .list h.keyed hx.1 (congrArg Scene.jobs hx.2)

/-- What an upload may ask: of the table of jobs it may change the row of a job that runs. -/
def uploading : Protocol Call Call.Answer Unit where
  may _ c := match c with
    | .jobs (.updateIf j _) => j.state = .running
    | .jobs _ => False
    | _ => True
  answers _ c x _ := ∃ s t : Scene, s.Answers c x t

/-- A call of an upload keeps them too. -/
theorem Kept.beside {c : Call} {x : c.Answer} (h : Kept past s) (hmay : uploading.may () c) (hx : s.Answers c x t) :
    Kept past t := by
  refine ⟨Workers.keyed_of_answers h.keyed hx.workers, h.said, fun j hj hnot => ?_⟩
  rcases hx.workers.table_eq with ht | ⟨st, rfl, ht⟩
  · exact (h.spared j hj hnot).of_jobs_eq ht
  · refine h.isSpared_of_row? hj hnot fun row hrow hqueued => ht ▸ row?_run_of_spares h.keyed ?_ hrow hqueued
    cases st with
    | updateIf i change => exact fun hqueued => JobState.noConfusion (hqueued.symm.trans hmay)
    | _ => exact hmay.elim

/-- The work at an upload that runs asks no more. -/
theorem work_keeps (b : Backup) {c : Job} (hc : c.state = .running) (hkey : c.key.isUpload = true) :
    (b.work c).run.Keeps uploading (fun _ _ => True) () := by
  have hsilent : uploading.Silent fun _ _ => True := by
    refine ⟨fun _ _ _ _ _ => trivial, fun _ => trivial, ?_, fun _ _ => trivial, fun _ _ _ _ => trivial⟩
    rintro _ x _ ⟨s, t, hdate, -⟩
    exact ⟨hdate, trivial⟩
  have hminor : Engine.Minor uploading fun _ => True := by
    refine ⟨fun c hc _ _ => Engine.meets_call.mpr ⟨?_, fun _ _ _ => trivial⟩, fun _ x _ _ h => (hsilent.now _ x _ h).1⟩
    cases c with
    | jobs st => exact hc.elim
    | _ => trivial
  have hwork : Engine.Preserves uploading (fun _ => True) (b.work c) := by
    refine hminor.work b c (fun r hr => ?_) fun outcome _ _ => ?_
    · cases hk : c.key with
      | upload id => exact (hk ▸ hr : JobKey.Requests (.upload id) r).elim
      | _ => rw [hk] at hkey; exact nomatch hkey
    · exact Queue.meets_complete hsilent (fun _ _ _ _ => trivial) fun change _ _ _ _ _ _ =>
        ⟨hc, fun _ _ _ _ => trivial, fun _ _ => trivial, fun _ _ _ => trivial⟩
  exact Keeps.mono (fun _ _ _ => trivial) (hwork () trivial)

end Steps

/-! ## Runs -/

/-- The runs of a pass that begins in a scene, told by the deeds of its main line, newest first.  The main line goes on
    as one that asks nothing else would, and its uploads go on as they would beside one that is at its end. -/
inductive Run (b : Backup) (start : Scene) : List Deed → Crew (Except Stop PassReport) → Scene → Prop where
  | fresh : Run b start [] (Recovery.fresh b) start
  | goes {past : List Deed} {e : PassCall} {next : e.Answer → Crew.MainLine (Except Stop PassReport)} {x : e.Answer}
      {us us' : List Crew.UploadLine} {ended ended' : List (Except Stop JobState)} {free free' : Nat} {s t : Scene}
      (h : Run b start past ⟨.ask e next, us, ended, free⟩ s)
      (hm : Crew.Moves b Scene.Answers ⟨.ask e .done, us, ended, free⟩ s ⟨.done x, us', ended', free'⟩ t) :
    Run b start (⟨e, x, s, t⟩ :: past) ⟨next x, us', ended', free'⟩ t
  | beside {past : List Deed} {main : Crew.MainLine (Except Stop PassReport)} {us us' : List Crew.UploadLine}
      {ended ended' : List (Except Stop JobState)} {free free' : Nat} {s t : Scene}
      (h : Run b start past ⟨main, us, ended, free⟩ s)
      (hm : Crew.Moves b Scene.Answers ⟨.done (), us, ended, free⟩ s ⟨.done (), us', ended', free'⟩ t) :
    Run b start past ⟨main, us', ended', free'⟩ t

section Runs

variable {b : Backup} {start : Scene} {past : List Deed} {c d : Crew (Except Stop PassReport)} {s t : Scene}

/-- Every step of the crew goes on with a run. -/
theorem Run.exists_of_goes (h : Run b start past c s) (hg : Crew.Goes b Scene.Answers c s d t) :
    ∃ past', Run b start past' d t := by
  obtain ⟨main, us, ended, free⟩ := c
  obtain ⟨main', us', ended', free'⟩ := d
  rcases (Crew.moves_of_goes hg).main_or_beside with ⟨e, next, x, rfl, rfl, hm⟩ | ⟨rfl, hm⟩
  · exact ⟨_, h.goes hm⟩
  · exact ⟨_, h.beside hm⟩

/-- The last call waited for a permit. -/
def HasWaited : List Deed → Prop
  | [] => False
  | d :: _ => d.call.IsWait

/-- The deed was one that the main line may do, and a look at the network if the one before was a wait. -/
structure Deed.Follows (d : Deed) (earlier : List Deed) : Prop where
  may : May earlier d.call
  looks : HasWaited earlier → d.call = .engine .network

/-- A moment of a run in which the main line keeps to its gate, and the uploads to what they may ask. -/
structure Steady (past : List Deed) (c : Crew (Except Stop PassReport)) (s : Scene) : Prop where
  kept : Kept past s
  main : c.main.Keeps gate Ends past
  prompt : c.main.Keeps Pass.prompt (fun _ _ => True) (HasWaited past)
  uploads : ∀ u ∈ c.uploads, u.Keeps uploading (fun _ _ => True) ()
  deeds : Each Deed.Follows past

theorem Run.steady (h : Run b start past c s) (hs : start.jobs.Keyed) : Steady past c s := by
  induction h with
  | fresh => exact ⟨.start hs, run_keeps b, Pass.run_keeps_prompt b, fun _ hu => absurd hu List.not_mem_nil, trivial⟩
  | @goes past e next x us us' ended ended' free free' s t _ hm ih =>
    obtain ⟨hkept, ⟨hmay, hmain⟩, ⟨hlooks, hprompt⟩, huploads, hdeeds⟩ := ih
    have hon : ∀ {row : List Crew.UploadLine}, Happens e x s t → (∀ u ∈ row, u.Keeps uploading (fun _ _ => True) ()) →
        Steady (⟨e, x, s, t⟩ :: past) ⟨next x, row, ended', free'⟩ t := fun hx hrow =>
      ⟨hkept.goes hmay hx, hmain x _ ⟨s, t, hkept, hx, rfl⟩, hprompt x _ rfl, hrow, ⟨hmay, hlooks⟩, hdeeds⟩
    -- only a start adds to the uploads
    cases hm with
    | engine hx => exact hon hx huploads
    | started =>
      refine hon rfl fun u hu => ?_
      rcases List.mem_append.mp hu with hu | hu
      · exact huploads u hu
      · exact List.mem_singleton.mp hu ▸ work_keeps b hmay.1 hmay.2.1
    | _ => exact hon rfl huploads
  | beside _ hm ih =>
    obtain ⟨hkept, hmain, hprompt, huploads, hdeeds⟩ := ih
    cases hm with
    | called hx =>
      obtain ⟨hmay, hnext⟩ := huploads _ (List.mem_append_right _ (.head _))
      refine ⟨hkept.beside hmay hx, hmain, hprompt, fun u hu => ?_, hdeeds⟩
      rcases List.mem_append.mp hu with hu | hu
      · exact huploads u (List.mem_append_left _ hu)
      · rcases List.mem_cons.mp hu with rfl | hu
        · exact hnext _ () ⟨_, _, hx⟩
        · exact huploads u (List.mem_append_right _ (.tail _ hu))
    | left =>
      refine ⟨hkept, hmain, hprompt, fun u hu => huploads u ?_, hdeeds⟩
      rcases List.mem_append.mp hu with hu | hu
      · exact List.mem_append_left _ hu
      · exact List.mem_append_right _ (.tail _ hu)

theorem isLet_of_claims {earlier : List Deed} {d : Deed} {j : Job} (hmay : May earlier d.call) (h : d.Claims j) :
    IsLet earlier j := by
  unfold Deed.Claims at h
  split at h
  · rename_i i change x s t
    obtain ⟨rfl, hrunning⟩ := h
    replace hmay : if change.state = .running then IsLet earlier i else i.state = .running := hmay
    rwa [if_pos hrunning] at hmay
  · exact h.elim

/-- **Gating.**  Whatever the network is, and whenever an upload ends, a pass tries to claim a job only if it listed the
    job and what its last look answered meets the job's demands, and it starts only an upload that it tried to claim;
    after a wait for a permit it looks again before anything else.  The row of a job that was listed and not tried is
    as it was listed, or that of a fresh dispatch if a scan was tried.  A pass that ends counts as deferred, once each,
    just the listed jobs that it did not try, and their demands were not met when their turns came. -/
theorem Run.keeps_gate (hs : start.jobs.Keyed) (h : Run b start past c s) :
    (∀ later d earlier, past = later ++ d :: earlier →
      (∀ j, d.Claims j → IsLet earlier j) ∧
      (∀ c, d.call = .start c → ∃ j, j.key = c.key ∧ Tried earlier j) ∧
      (HasWaited earlier → d.call = .engine .network)) ∧
    (∀ j ∈ listed past, ¬Tried past j → IsSpared past s j) ∧
    ∀ report, c.main = .done (.ok report) → Counts past report.deferred := by
  obtain ⟨hkept, hmain, -, -, hdeeds⟩ := h.steady hs
  refine ⟨?_, hkept.spared, fun report hend => ?_⟩
  · rintro later d earlier rfl
    obtain ⟨hmay, hlooks⟩ := hdeeds.of_split
    refine ⟨fun j hj => isLet_of_claims hmay hj, fun c hc => ?_, hlooks⟩
    rw [hc] at hmay
    exact hmay.2.2
  · rw [hend] at hmain
    exact hmain report rfl

/-! A run is built call by call. -/

theorem Run.call {e : Call} {next : e.Answer → Crew.MainLine (Except Stop PassReport)} {us : List Crew.UploadLine}
    {ended : List (Except Stop JobState)} {free : Nat}
    (h : Run b start past ⟨.ask (.engine e) next, us, ended, free⟩ s) (x : e.Answer) (t : Scene)
    (hx : s.Answers e x t) :
    Run b start (⟨.engine e, x, s, t⟩ :: past) ⟨next x, us, ended, free⟩ t := h.goes (.engine hx)

end Runs

/-! ## A dispatch that waits, and a scan -/

/-- A dispatch that demands the network. -/
def waitingDispatch : Job := { Job.fresh .dispatch .epoch with constraints := .network }

/-- The scan that the start of a backup requests. -/
def waitingScan : Job := .fresh .scan .epoch

/-- The scan in its first attempt. -/
def startedScan : Job := { waitingScan with state := .running, attempt := 1 }

/-- The scan after its first attempt succeeded. -/
def endedScan : Job := { startedScan with state := .succeeded }

/-- A scene where the two are the jobs. -/
def sceneOf (dispatch scan : Job) (items : ItemTable) (reported : List String) : Scene :=
  ⟨[.ofJob dispatch, .ofJob scan], items, .epoch, [], [], reported⟩

theorem decode_waitingDispatch : (JobRow.ofJob waitingDispatch).decode = .valid waitingDispatch :=
  JobRow.decode_eq_valid_iff.mpr (JobRow.ofJob_says ⟨JobState.noConfusion, by decide, by decide, by decide, by decide⟩
    (by decide))

theorem decode_waitingScan : (JobRow.ofJob waitingScan).decode = .valid waitingScan :=
  JobRow.decode_eq_valid_iff.mpr (JobRow.ofJob_says ⟨JobState.noConfusion, by decide, by decide, by decide, by decide⟩
    (by decide))

/-- Both are due, the dispatch first. -/
theorem run_listDue_sceneOf : ((JobStatement.listDue .epoch).run [.ofJob waitingDispatch, .ofJob waitingScan]).1 =
    [.valid waitingDispatch, .valid waitingScan] := by
  have hdue : [JobRow.ofJob waitingDispatch, .ofJob waitingScan].filter (·.isDue .epoch) =
      [.ofJob waitingDispatch, .ofJob waitingScan] := by decide
  have hsorted : [JobRow.ofJob waitingDispatch, .ofJob waitingScan].mergeSort JobRow.dueBefore =
      [.ofJob waitingDispatch, .ofJob waitingScan] := List.mergeSort_of_pairwise (by decide)
  show ((List.filter _ _).mergeSort _).map _ = _
  rw [hdue, hsorted, List.map_cons, List.map_cons, decode_waitingDispatch, decode_waitingScan]
  rfl

theorem sceneOf_keyed : (sceneOf waitingDispatch waitingScan [] []).jobs.Keyed :=
  List.pairwise_pair.mpr (by decide)

/-- The pass over both, where nobody can tell what the network is: the dispatch is deferred, and the scan discovers an
    item and requests a dispatch. -/
theorem exists_replaced : ∃ past c s, Run Dispatching.photos (sceneOf waitingDispatch waitingScan [] []) past c s ∧
    c.main = .done (.ok ⟨0, 0, 1, 0, 1, 1, 0, 0⟩) ∧ listed past = [waitingDispatch, waitingScan] ∧
    Tried past waitingScan ∧ s.jobs = [.ofJob (.fresh .dispatch .epoch), .ofJob endedScan] := by
  have hdate : Instant.epoch.IsDate := by decide
  have h₀ : Run Dispatching.photos (sceneOf waitingDispatch waitingScan [] []) [] _ _ := .fresh
  have h₁ := (h₀.call (e := .now) Instant.epoch _ ⟨hdate, rfl⟩).call (e := .jobs (.promote .epoch)) (.ok 0)
    (sceneOf waitingDispatch waitingScan [] []) ⟨rfl, rfl⟩
  have h₂ := (h₁.call (e := .now) Instant.epoch _ ⟨hdate, rfl⟩).call (e := .jobs (.listDue .epoch))
    (.ok [.valid waitingDispatch, .valid waitingScan]) (sceneOf waitingDispatch waitingScan [] [])
    ⟨run_listDue_sceneOf.symm, rfl⟩
  have h₃ := h₂.call (e := .network) (some (.error (.network "offline")))
    (sceneOf waitingDispatch waitingScan [] []) rfl
  have h₄ := ((h₃.call (e := .now) Instant.epoch _ ⟨hdate, rfl⟩).call
    (e := .jobs (.updateIf waitingScan (waitingScan.claimChange .epoch))) (.ok true)
    (sceneOf waitingDispatch startedScan [] []) ⟨rfl, rfl⟩).call () _ rfl
  -- the scan is claimed, and worked at
  have h₅ := ((h₄.call (e := .list) (.given ⟨["a"], none⟩) (sceneOf waitingDispatch startedScan [] ["a"]) rfl).call
    (e := .now) Instant.epoch _ ⟨hdate, rfl⟩).call (e := .items (.insertIfAbsent "a" .epoch)) (.ok true)
    (sceneOf waitingDispatch startedScan [Dispatching.pendingItem] ["a"]) ⟨rfl, rfl⟩
  have h₆ := ((h₅.call () _ rfl).call (e := .now) Instant.epoch _ ⟨hdate, rfl⟩).call
    (e := .jobs (.find "dispatch")) (.ok (some (.valid waitingDispatch)))
    (sceneOf waitingDispatch startedScan [Dispatching.pendingItem] ["a"])
    ⟨(congrArg some decode_waitingDispatch).symm, rfl⟩
  have h₇ := (h₆.call (e := .jobs (.replaceIf (.fresh .dispatch .epoch) waitingDispatch)) (.ok true)
    (sceneOf (.fresh .dispatch .epoch) startedScan [Dispatching.pendingItem] ["a"]) ⟨rfl, rfl⟩).call () _ rfl
  let change : Change := ⟨.succeeded, 1, .epoch, none, none, .epoch⟩
  have h₈ := ((h₇.call (e := .now) Instant.epoch _ ⟨hdate, rfl⟩).call (e := .jobs (.updateIf startedScan change))
    (.ok true) (sceneOf (.fresh .dispatch .epoch) endedScan [Dispatching.pendingItem] ["a"]) ⟨rfl, rfl⟩).call () _ rfl
  refine ⟨_, _, _, h₈, rfl, rfl, ⟨_, List.mem_of_getElem? (i := 12) rfl, rfl, rfl⟩, rfl⟩

/-- The pass tried the scan, which demands nothing, and deferred the dispatch. -/
theorem Run.keeps_gate_waiting_dispatch : (sceneOf waitingDispatch waitingScan [] []).jobs.Keyed ∧ ∃ past c s,
    Run Dispatching.photos (sceneOf waitingDispatch waitingScan [] []) past c s ∧
    (∃ earlier, IsLet earlier waitingScan) ∧ Counts past 1 ∧
    ∀ j ∈ listed past, ¬Tried past j → IsSpared past s j := by
  obtain ⟨past, c, s, hrun, hend, -, ⟨d, hd, hclaims⟩, -⟩ := exists_replaced
  obtain ⟨hdeeds, hspared, hcounts⟩ := hrun.keeps_gate sceneOf_keyed
  obtain ⟨later, earlier, hpast⟩ := List.append_of_mem hd
  exact ⟨sceneOf_keyed, past, c, s, hrun, ⟨earlier, (hdeeds later d earlier hpast).1 _ hclaims⟩, hcounts _ hend,
    hspared⟩

/-- A deferred job does not always keep its row: a dispatch is deferred, and in its place there is a fresh one that
    demands nothing. -/
theorem deferred_dispatch_replaced : ∃ past c s report j,
    Run Dispatching.photos (sceneOf waitingDispatch waitingScan [] []) past c s ∧ c.main = .done (.ok report) ∧
    report.deferred = 1 ∧ j ∈ listed past ∧ Failed (listed past) past j ∧
    s.jobs.at? j.key ≠ (sceneOf waitingDispatch waitingScan [] []).jobs.at? j.key := by
  obtain ⟨past, c, s, hrun, hend, hlisted, hscan, hjobs⟩ := exists_replaced
  have hmain := (hrun.steady sceneOf_keyed).main
  rw [hend] at hmain
  obtain ⟨deferred, hturned, hlength⟩ : Counts past 1 := hmain _ rfl
  obtain ⟨j, rfl⟩ := List.length_eq_one_iff.mp hlength
  obtain ⟨hj, hnot⟩ := (hturned.mem j).mp (.head _)
  obtain rfl : j = waitingDispatch := by
    rw [hlisted] at hj
    rcases List.mem_cons.mp hj with rfl | hj
    · rfl
    · exact absurd (List.mem_singleton.mp hj ▸ hscan) hnot
  refine ⟨past, c, s, _, waitingDispatch, hrun, hend, rfl, hj, hturned.failed _ (.head _), ?_⟩
  rw [hjobs]
  decide

end Gating

end MediaBackup

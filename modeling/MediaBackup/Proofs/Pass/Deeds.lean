import MediaBackup.Proofs.Life.Basic
import MediaBackup.Proofs.Pass.Crew
import MediaBackup.Proofs.Pass.Rules
import MediaBackup.Proofs.Pass.Working
import MediaBackup.Proofs.Workers.Conduct

/-
  What the main line of a pass did so far.

  A DEED is an answered call of the main line with the scenes before and after it.  The deeds of a pass, newest first,
  show what the main line went by: the jobs that were listed as due (`listed`), what the last look at the network
  answered, unless a permit was waited for since (`sight`), and the jobs that it tried to claim (`Tried`).

  The protocol `gate` says in these terms what the main line may do to the table of jobs.  It tries to claim only what
  was listed and what the last look allows; else it leaves alone the row of every job that was listed and not tried,
  but that a scan may put a fresh dispatch in the place of one.
-/

namespace MediaBackup

/-- What a look at the network answered meets the demands.  Where nobody can look every demand is met, and a look that
    failed meets those of nobody who needs the network. -/
def Constraints.MetBy (c : Constraints) : Call.network.Answer → Prop
  | .none => True
  | some (.error _) => c.requiresNetwork = false ∧ c.requiresUnmetered = false
  | some (.ok info) => (c.requiresNetwork = true ∨ c.requiresUnmetered = true → info.status = .connected) ∧
      (c.requiresUnmetered = true → info.isMetered = false)

/-- What a pass makes of the answer of a look. -/
def Pass.taken : Call.network.Answer → Option NetworkInfo
  | none => none
  | some (.ok info) => some info
  | some (.error _) => some .unknown

theorem Constraints.satisfiedBy_taken_iff {c : Constraints} {x : Call.network.Answer} :
    c.satisfiedBy (Pass.taken x) = true ↔ c.MetBy x := by
  obtain ⟨network, unmetered⟩ := c
  match x with
  | .none => exact ⟨fun _ => trivial, fun _ => rfl⟩
  | some (.error e) =>
    cases network <;> cases unmetered <;>
      simp [Pass.taken, MetBy, satisfiedBy, NetworkInfo.unknown, NetworkInfo.isConnected]
  | some (.ok ⟨status, kind, metered⟩) =>
    cases network <;> cases unmetered <;> cases status <;> cases metered <;>
      simp [Pass.taken, MetBy, satisfiedBy, NetworkInfo.isConnected]

namespace Gating

open Script

/-! ## Deeds -/

/-- A deed of the main line: one of its calls was answered, which made one scene of the other. -/
structure Deed where
  call : PassCall
  answer : call.Answer
  before : Scene
  after : Scene

namespace Deed

/-- The deed tried to claim a job. -/
def Claims (j : Job) : Deed → Prop
  | ⟨.engine (.jobs (.updateIf i change)), _, _, _⟩ => i = j ∧ change.state = .running
  | _ => False

/-- The deed listed no jobs. -/
def SparesList : Deed → Prop
  | ⟨.engine (.jobs (.listDue _)), .ok _, _, _⟩ => False
  | _ => True

/-- The deed neither looked at the network nor waited for a permit. -/
def SparesSight : Deed → Prop
  | ⟨.engine .network, _, _, _⟩ | ⟨.waitPermit, _, _, _⟩ => False
  | _ => True

end Deed

/-- The jobs of the rows that hold one. -/
def validJobs (rows : List Decoded) : List Job :=
  rows.filterMap fun
    | .valid j => some j
    | .corrupt _ _ => none

/-- The jobs that were listed as due, in the order in which the pass goes through them. -/
def listed : List Deed → List Job
  | [] => []
  | ⟨.engine (.jobs (.listDue _)), .ok rows, _, _⟩ :: _ => (DueJobs.arrange ⟨validJobs rows, 0⟩).jobs
  | _ :: past => listed past

/-- The table of which they were listed. -/
def tableListed : List Deed → JobTable
  | [] => []
  | ⟨.engine (.jobs (.listDue _)), .ok _, s, _⟩ :: _ => s.jobs
  | _ :: past => tableListed past

/-- What the last look at the network answered; none if there was no look, or a permit was waited for since. -/
def sight : List Deed → Option Call.network.Answer
  | [] => none
  | ⟨.engine .network, x, _, _⟩ :: _ => some x
  | ⟨.waitPermit, _, _, _⟩ :: _ => none
  | _ :: past => sight past

/-- The main line tried to claim the job. -/
def Tried (past : List Deed) (j : Job) : Prop := ∃ d ∈ past, d.Claims j

/-- The main line tried to claim a scan. -/
def Scanned (past : List Deed) : Prop := ∃ j, j.key = .scan ∧ Tried past j

section Deeds

variable {past : List Deed} {d : Deed}

/-- A deed that listed jobs is an answered list of what was due. -/
theorem Deed.sparesList_or (d : Deed) :
    d.SparesList ∨ ∃ now rows s t, d = ⟨.engine (.jobs (.listDue now)), .ok rows, s, t⟩ := by
  obtain ⟨c, x, s, t⟩ := d
  cases c with
  | engine c =>
    cases c with
    | jobs st =>
      cases st with
      | listDue now =>
        cases x with
        | ok rows => exact .inr ⟨now, rows, s, t, rfl⟩
        | error fault => exact .inl trivial
      | _ => exact .inl trivial
    | _ => exact .inl trivial
  | _ => exact .inl trivial

/-- Without a list what was listed stays. -/
theorem listed_cons (h : d.SparesList) :
    listed (d :: past) = listed past ∧ tableListed (d :: past) = tableListed past := by
  obtain ⟨c, x, s, t⟩ := d
  cases c with
  | engine c =>
    cases c with
    | jobs st =>
      cases st with
      | listDue now =>
        cases x with
        | ok rows => exact h.elim
        | error fault => exact ⟨rfl, rfl⟩
      | _ => exact ⟨rfl, rfl⟩
    | _ => exact ⟨rfl, rfl⟩
  | _ => exact ⟨rfl, rfl⟩

theorem sight_cons (h : d.SparesSight) : sight (d :: past) = sight past := by
  obtain ⟨c, x, s, t⟩ := d
  cases c with
  | engine c =>
    cases c with
    | network => exact h.elim
    | _ => rfl
  | waitPermit => exact h.elim
  | _ => rfl

theorem Tried.cons {j : Job} (h : Tried past j) (d : Deed) : Tried (d :: past) j := by
  obtain ⟨e, he, hclaims⟩ := h
  exact ⟨e, .tail _ he, hclaims⟩

end Deeds

/-! ## One past after another -/

/-- From one past to the other no jobs were listed, and at most these were tried. -/
structure Extends (p : Job → Prop) (past past' : List Deed) : Prop where
  more : ∃ more, past' = more ++ past ∧ ∀ d ∈ more, ∀ j, d.Claims j → p j
  listed : listed past' = listed past
  table : tableListed past' = tableListed past

/-- Nor did the main line look at the network or wait for a permit. -/
structure Quiet (p : Job → Prop) (past past' : List Deed) : Prop extends Extends p past past' where
  sight : sight past' = sight past

namespace Extends

variable {p q : Job → Prop} {past past' past'' : List Deed} {d : Deed} {j : Job}

theorem refl (past : List Deed) : Extends p past past := ⟨⟨[], rfl, fun _ hd => nomatch hd⟩, rfl, rfl⟩

theorem trans (h : Extends p past past') (h' : Extends p past' past'') : Extends p past past'' := by
  obtain ⟨⟨more, rfl, hmore⟩, hlisted, htable⟩ := h
  obtain ⟨⟨more', rfl, hmore'⟩, hlisted', htable'⟩ := h'
  refine ⟨⟨more' ++ more, (List.append_assoc ..).symm, fun d hd => ?_⟩, hlisted'.trans hlisted, htable'.trans htable⟩
  exact (List.mem_append.mp hd).elim (hmore' d) (hmore d)

theorem mono (h : Extends p past past') (hpq : ∀ j, p j → q j) : Extends q past past' := by
  obtain ⟨⟨more, heq, hmore⟩, hlisted, htable⟩ := h
  exact ⟨⟨more, heq, fun d hd j hj => hpq j (hmore d hd j hj)⟩, hlisted, htable⟩

theorem cons (hlist : d.SparesList) (hclaims : ∀ j, d.Claims j → p j) : Extends p past (d :: past) := by
  refine ⟨⟨[d], rfl, fun e he => ?_⟩, (listed_cons hlist).1, (listed_cons hlist).2⟩
  rwa [List.mem_singleton.mp he]

/-- What was tried is tried still. -/
theorem tried (h : Extends p past past') (hj : Tried past j) : Tried past' j := by
  obtain ⟨⟨more, rfl, -⟩, -, -⟩ := h
  obtain ⟨d, hd, hclaims⟩ := hj
  exact ⟨d, List.mem_append_right _ hd, hclaims⟩

/-- What is tried had been, or is one of those that were tried meanwhile. -/
theorem tried_or (h : Extends p past past') (hj : Tried past' j) : Tried past j ∨ p j := by
  obtain ⟨⟨more, rfl, hmore⟩, -, -⟩ := h
  obtain ⟨d, hd, hclaims⟩ := hj
  rcases List.mem_append.mp hd with hd | hd
  · exact .inr (hmore d hd j hclaims)
  · exact .inl ⟨d, hd, hclaims⟩

theorem scanned (h : Extends p past past') (hs : Scanned past) : Scanned past' := by
  obtain ⟨j, hj, htried⟩ := hs
  exact ⟨j, hj, h.tried htried⟩

end Extends

namespace Quiet

variable {p q : Job → Prop} {past past' past'' : List Deed} {d : Deed}

theorem refl (past : List Deed) : Quiet p past past := ⟨.refl past, rfl⟩

theorem trans (h : Quiet p past past') (h' : Quiet p past' past'') : Quiet p past past'' :=
  ⟨h.toExtends.trans h'.toExtends, h'.sight.trans h.sight⟩

theorem mono (h : Quiet p past past') (hpq : ∀ j, p j → q j) : Quiet q past past' := ⟨h.toExtends.mono hpq, h.sight⟩

theorem cons (hlist : d.SparesList) (hsight : d.SparesSight) (hclaims : ∀ j, d.Claims j → p j) :
    Quiet p past (d :: past) := ⟨.cons hlist hclaims, sight_cons hsight⟩

end Quiet

/-- From one past to the other nothing was tried. -/
abbrev Idle : List Deed → List Deed → Prop := Quiet fun _ => False

/-! ## The gate -/

/-- The job was listed and waits in the queue, and the last look at the network meets its demands. -/
def IsLet (past : List Deed) (j : Job) : Prop :=
  j ∈ listed past ∧ j.state = .queued ∧ ∃ x, sight past = some x ∧ j.constraints.MetBy x

/-- What the main line may run on the table of jobs. -/
def MayRun (past : List Deed) : JobStatement → Prop
  | .updateIf j change => if change.state = .running then IsLet past j else j.state = .running
  | .quarantine key _ _ => ∀ j ∈ listed past, ¬Tried past j → j.key.text ≠ key
  | .replaceIf job observed => observed.state ≠ .queued ∨
      Scanned past ∧ ∃ now : Instant, now.IsDate ∧ job = .fresh .dispatch now
  | _ => True

/-- What the main line may do. -/
def May (past : List Deed) : PassCall → Prop
  | .engine (.jobs st) => MayRun past st
  | .start c => c.state = .running ∧ c.key.isUpload = true ∧ ∃ j, j.key = c.key ∧ Tried past j
  | _ => True

/-- The row of the job is as it was when the job was listed, or a scan put a fresh dispatch in its place. -/
def IsSpared (past : List Deed) (s : Scene) (j : Job) : Prop :=
  s.jobs.row? j.key.text = (tableListed past).row? j.key.text ∨
    j.key = .dispatch ∧ Scanned past ∧
      ∃ now : Instant, now.IsDate ∧ s.jobs.row? j.key.text = some (.ofJob (.fresh .dispatch now))

/-- The table has the rows of all jobs that were listed and not tried. -/
structure Kept (past : List Deed) (s : Scene) : Prop where
  keyed : s.jobs.Keyed
  said : ∀ j ∈ listed past, j.state = .queued ∧ ∃ row, (tableListed past).row? j.key.text = some row ∧ row.Says j
  spared : ∀ j ∈ listed past, ¬Tried past j → IsSpared past s j

/-- How a call of the main line may be answered. -/
def Happens : (c : PassCall) → c.Answer → Scene → Scene → Prop
  | .engine c, x, s, t => s.Answers c x t
  | _, _, s, t => t = s

/-- The protocol of main lines.  The uploads beside it may have gone on between two calls. -/
def gate : Protocol PassCall PassCall.Answer (List Deed) where
  may := May
  answers past c x past' := ∃ s t : Scene, Kept past s ∧ Happens c x s t ∧ past' = ⟨c, x, s, t⟩ :: past

section Rules

variable {past past' past₀ : List Deed} {bad : Stop → List Deed → Prop}

/-- A row of a listed job that was not tried holds a job that waits in the queue. -/
theorem Kept.holds {s : Scene} (h : Kept past s) {j : Job} (hj : j ∈ listed past) (hnot : ¬Tried past j) :
    ∃ row, s.jobs.row? j.key.text = some row ∧ row.state = "queued" ∧ ∃ i, row.Says i := by
  obtain ⟨hqueued, row, hrow, hsaid⟩ := h.said j hj
  rcases h.spared j hj hnot with hsame | ⟨hkey, -, now, hdate, hfresh⟩
  · exact ⟨row, hsame.trans hrow, hsaid.state.trans (congrArg JobState.name hqueued), j, hsaid⟩
  · have hproper : JobKey.dispatch.IsProper := hkey ▸ hsaid.isProper
    exact ⟨_, hfresh, rfl, _, JobRow.ofJob_says (Job.fresh_isProper _ hdate) hproper⟩

theorem gate_silent : gate.engine.Silent Idle where
  trans _ _ _ := Quiet.trans
  mayNow _ := trivial
  now := by
    rintro past x _ ⟨s, t, -, ⟨hdate, -⟩, rfl⟩
    exact ⟨hdate, .cons trivial trivial fun _ hj => hj⟩
  mayEmit _ _ := trivial
  emit := by
    rintro past e _ ⟨s, t, -, -, rfl⟩
    exact .cons trivial trivial fun _ hj => hj

/-- Minor calls try nothing. -/
theorem gate_minor (past₀ : List Deed) : Engine.Minor gate.engine (Idle past₀) where
  call c hc past hpast := by
    refine Engine.meets_call.mpr ⟨?_, ?_⟩
    · cases c with
      | jobs _ => exact hc.elim
      | _ => trivial
    · rintro x _ ⟨s, t, -, -, rfl⟩
      refine hpast.trans ?_
      cases c with
      | jobs _ | network => exact hc.elim
      | _ => exact .cons trivial trivial fun _ hj => hj
  date past x past' _ h := (gate_silent.now past x past' h).1

/-- Requests try nothing.  An upload gives way only if it is over; a dispatch may be requested by a scan. -/
theorem preserves_enqueue {r : JobRequest} (hr : r.key.isUpload = true ∨ r = .dispatch ∧ Scanned past₀) :
    Engine.Preserves gate.engine (Idle past₀) (Queue.enqueue r) := by
  intro past hpast
  have hconduct := @Workers.Operation.keeps_conduct 0 [] .standard (.enqueue r) rfl
  -- the acts of the operation found corrupt no row of a job that was listed and not tried
  refine Keeps.weaken (fun acts past => Idle past₀ past ∧ ∀ a ∈ acts, ∀ key reason, a.FindsCorrupt key reason →
    ∀ j ∈ listed past₀, ¬Tried past₀ j → j.key.text ≠ key) ?_ ?_ ?_
    ⟨hpast, fun _ ha => absurd ha List.not_mem_nil⟩ hconduct
  · rintro acts past c ⟨hidle, hfound⟩ hmay
    have hnot : ∀ j, ¬Tried past j → ¬Tried past₀ j := fun j hj htried => hj (hidle.tried htried)
    cases c with
    | jobs st =>
      cases st with
      | find key => trivial
      | insertIfAbsent job => trivial
      | replaceIf job observed =>
        obtain ⟨⟨now, hnow, rfl⟩, hkey, hreplaceable⟩ := hmay
        rcases hr with hupload | ⟨rfl, hscanned⟩
        · refine .inl fun hqueued => ?_
          simp [Job.isReplaceable, hqueued, hkey, hupload] at hreplaceable
        · exact .inr ⟨hidle.scanned hscanned, now, hnow.1, rfl⟩
      | quarantine key words now =>
        obtain ⟨⟨since, read, earlier, reason, rfl, hread, -⟩, -⟩ := hmay
        intro j hj htried
        rw [hidle.listed] at hj
        exact hfound read (by simp) key reason hread j hj (hnot j htried)
      | _ => exact hmay.elim
    | now => trivial
    | emit e => trivial
    | _ => exact hmay.elim
  · rintro acts past c x _ ⟨hidle, hfound⟩ hmay ⟨s, t, hkept, hanswers, rfl⟩
    have hx : Workers.Answers s.jobs c x t.jobs := Scene.Answers.workers hanswers
    refine ⟨_, ⟨s.jobs, t.jobs, hkept.keyed, hx, rfl⟩, hidle.trans ?_, ?_⟩
    · cases c with
      | jobs st =>
        cases st with
        | listDue now => exact hmay.elim
        | updateIf j change => exact hmay.elim
        | _ => exact .cons trivial trivial fun _ hj => hj
      | now => exact .cons trivial trivial fun _ hj => hj
      | emit e => exact .cons trivial trivial fun _ hj => hj
      | _ => exact hmay.elim
    · intro a ha key reason hcorrupt j hj hnot
      rcases List.mem_cons.mp ha with rfl | ha
      · -- the row that was found is none of such a job, which could be read
        rintro rfl
        obtain ⟨row, hrow, hdecode⟩ := Workers.exists_corrupt_of_findsCorrupt hkept.keyed hx hcorrupt
        have hsame : t.jobs = s.jobs := by
          cases c with
          | jobs st =>
            cases st with
            | find key =>
              cases x with
              | ok found => exact hx.2
              | error fault => exact hcorrupt.elim
            | listDue now => exact hmay.elim
            | _ => exact hcorrupt.elim
          | _ => exact hcorrupt.elim
        have hin : j ∈ listed past := hidle.listed.symm ▸ hj
        have hstill : ¬Tried past j := fun htried => hnot ((hidle.tried_or htried).resolve_right id)
        obtain ⟨row', hrow', -, i, hsaid⟩ := hkept.holds hin hstill
        rw [hsame, hrow'] at hrow
        obtain rfl := Option.some.inj hrow
        rw [JobRow.decode_eq_valid_iff.mpr hsaid] at hdecode
        exact nomatch hdecode
      · exact hfound a ha key reason hcorrupt j hj hnot
  · rintro (e | a) _ _ ⟨hidle, -⟩ _ <;> exact hidle

/-- Completing a job that runs tries nothing. -/
theorem preserves_complete {rules : RetryRules} {c : Job} (hc : c.state = .running) (o : Outcome) :
    Engine.Preserves gate.engine (Idle past₀) (Queue.complete rules c o) := by
  intro past hpast
  refine Queue.meets_complete gate_silent (fun hnot => absurd hc hnot) ?_
  intro change past₁ _ _ _ hgives hnow
  have hends : change.state ≠ .running := hgives.isResult.ne_running
  have hwritten : ∀ (x : Except StoreFault Bool) past₂, gate.engine.answers past₁ (.jobs (.updateIf c change)) x past₂ →
      Idle past₀ past₂ := by
    rintro x _ ⟨s, t, -, -, rfl⟩
    exact (hpast.trans hnow).trans (.cons trivial trivial fun j hj => hends hj.2)
  refine ⟨?_, ?_, ?_, ?_⟩
  · show if change.state = .running then IsLet past₁ c else c.state = .running
    rwa [if_neg hends]
  · intro past₂ h₂ past₃ h₃
    exact (hwritten _ _ h₂).trans h₃
  · exact fun past₂ h₂ => hwritten _ _ h₂
  · exact fun fault past₂ h₂ => hwritten _ _ h₂

/-- Working at a job of housekeeping tries nothing. -/
theorem preserves_work {b : Backup} {c : Job} (hc : c.state = .running) (hscan : c.key = .scan → Scanned past₀) :
    Engine.Preserves gate.engine (Idle past₀) (b.work c) := by
  refine (gate_minor past₀).work b c (fun r hr => ?_) (preserves_complete hc)
  cases hk : c.key with
  | scan =>
    rw [hk] at hr
    exact preserves_enqueue (.inr ⟨hr, hscan hk⟩)
  | dispatch =>
    rw [hk] at hr
    exact preserves_enqueue (.inl hr)
  | upload id =>
    rw [hk] at hr
    exact hr.elim

/-- A job that is let is tried, and nothing else is.  The copy that a claim won is a running one of the job. -/
theorem meets_tryClaim {j : Job} (hlet : IsLet past j) :
    Meets gate (fun r past' => Quiet (· = j) past past' ∧ Tried past' j ∧
      ∀ c, r = .won c → c.state = .running ∧ c.key = j.key) (fun _ _ => True) (Pass.tryClaim j) past := by
  have hclaim : Meets gate.engine
      (fun o past' => Quiet (· = j) past past' ∧ Tried past' j ∧ ∀ c, o = some c → c.state = .running ∧ c.key = j.key)
      (fun _ past' => Quiet (· = j) past past' ∧ Tried past' j) (Queue.claim j) past := by
    refine Queue.meets_claim_clocked gate_silent (fun hnot => absurd hlet.2.1 hnot) ?_
    intro _ now past₁ h₁
    have hnow : Idle past past₁ := (gate_silent.now _ _ _ h₁).2
    have htried : ∀ (x : Except StoreFault Bool) past₂,
        gate.engine.answers past₁ (.jobs (.updateIf j (j.claimChange now))) x past₂ →
        Quiet (· = j) past past₂ ∧ Tried past₂ j := by
      rintro x _ ⟨s, t, -, -, rfl⟩
      refine ⟨(hnow.mono fun _ h => h.elim).trans (.cons trivial trivial fun i hi => hi.1.symm), _, .head _, rfl, rfl⟩
    refine ⟨?_, ?_, ?_, ?_⟩
    · show if (j.claimChange now).state = .running then IsLet past₁ j else j.state = .running
      rw [if_pos (show (j.claimChange now).state = .running from rfl)]
      obtain ⟨hin, hqueued, x, hx, hmet⟩ := hlet
      exact ⟨hnow.listed.symm ▸ hin, hqueued, x, hnow.sight.trans hx, hmet⟩
    · intro past₂ h₂ past₃ h₃
      obtain ⟨hquiet, hj⟩ := htried _ _ h₂
      refine ⟨hquiet.trans (h₃.mono fun _ h => h.elim), h₃.tried hj, ?_⟩
      rintro c hc
      obtain rfl := Option.some.inj hc
      exact ⟨rfl, rfl⟩
    · intro past₂ h₂
      obtain ⟨hquiet, hj⟩ := htried _ _ h₂
      exact ⟨hquiet, hj, fun _ hc => nomatch hc⟩
    · exact fun fault past₂ h₂ => htried _ _ h₂
  refine Pass.meets_tryClaim hclaim ?_ ?_ ?_ ?_ ?_
  · rintro c past' ⟨hquiet, hj, hc⟩
    refine ⟨hquiet, hj, fun d hd => ?_⟩
    obtain rfl := Pass.Claimed.won.inj hd
    exact hc c rfl
  · rintro past' ⟨hquiet, hj, -⟩
    exact ⟨hquiet, hj, fun _ hd => nomatch hd⟩
  · rintro e past' ⟨hquiet, hj⟩ _
    exact ⟨hquiet, hj, fun _ hd => nomatch hd⟩
  · rintro e past' ⟨hquiet, hj⟩ _
    exact ⟨hquiet, hj, fun _ hd => nomatch hd⟩
  · exact fun _ _ _ => trivial

/-! ## What is listed -/

theorem mem_validJobs {rows : List Decoded} {j : Job} : j ∈ validJobs rows ↔ .valid j ∈ rows := by
  unfold validJobs
  rw [List.mem_filterMap]
  constructor
  · rintro ⟨d, hd, hj⟩
    cases d with
    | valid i => exact Option.some.inj hj ▸ hd
    | corrupt key reason => exact nomatch hj
  · exact fun hj => ⟨_, hj, rfl⟩

theorem arrange_perm (d : DueJobs) : d.arrange.jobs.Perm d.jobs := List.filter_append_perm _ d.jobs

/-- The statement that lists what is due sees the rows whose time has come. -/
theorem exists_row_of_listDue {t : JobTable} {now : Instant} {d : Decoded}
    (h : d ∈ ((JobStatement.listDue now).run t).1) : ∃ row ∈ t, row.isDue now = true ∧ row.decode = d := by
  obtain ⟨row, hrow, hdecode⟩ := List.mem_map.mp h
  obtain ⟨hin, hdue⟩ := List.mem_filter.mp (List.mem_mergeSort.mp hrow)
  exact ⟨row, hin, hdue, hdecode⟩

/-- A job that is listed as due waits in the queue, and the table has its row. -/
theorem says_of_listDue {t : JobTable} (hk : t.Keyed) {now : Instant} {j : Job}
    (h : .valid j ∈ ((JobStatement.listDue now).run t).1) :
    j.state = .queued ∧ ∃ row, t.row? j.key.text = some row ∧ row.Says j := by
  obtain ⟨row, hin, hdue, hdecode⟩ := exists_row_of_listDue h
  have hsaid := JobRow.decode_eq_valid_iff.mp hdecode
  refine ⟨?_, row, hsaid.key ▸ JobTable.row?_of_mem hk hin, hsaid⟩
  unfold JobRow.isDue at hdue
  rw [hsaid.state] at hdue
  cases hs : j.state with
  | queued => rfl
  | failed => exact absurd hs hsaid.isStorable
  | _ =>
    rw [hs] at hdue
    simp [JobState.name] at hdue

/-- It has another key than every row that holds no job. -/
theorem ne_of_listDue {t : JobTable} (hk : t.Keyed) {now : Instant} {j : Job} {key : String} {reason : RowFault}
    (hj : .valid j ∈ ((JobStatement.listDue now).run t).1)
    (hc : .corrupt key reason ∈ ((JobStatement.listDue now).run t).1) : j.key.text ≠ key := by
  rintro rfl
  obtain ⟨-, row, hrow, hsaid⟩ := says_of_listDue hk hj
  obtain ⟨found, hin, -, hdecode⟩ := exists_row_of_listDue hc
  have hat := JobTable.row?_of_mem hk hin
  rw [← JobRow.key_of_decode hdecode, hrow] at hat
  obtain rfl := Option.some.inj hat
  rw [JobRow.decode_eq_valid_iff.mpr hsaid] at hdecode
  exact nomatch hdecode

/-- No two jobs that are listed have one key. -/
theorem nodup_keys_of_listDue {t : JobTable} (hk : t.Keyed) (now : Instant) :
    ((validJobs ((JobStatement.listDue now).run t).1).map Job.key).Nodup := by
  have hkeys : (((t.filter (·.isDue now)).mergeSort JobRow.dueBefore).map JobRow.key).Nodup :=
    JobTable.keyed_sorted hk _ _
  suffices hsub : ((validJobs ((JobStatement.listDue now).run t).1).map (·.key.text)).Sublist
      (((t.filter (·.isDue now)).mergeSort JobRow.dueBefore).map JobRow.key) from
    List.pairwise_map.mpr ((List.pairwise_map.mp (hkeys.sublist hsub)).imp fun hne e => hne (congrArg JobKey.text e))
  show ((validJobs (((t.filter (·.isDue now)).mergeSort JobRow.dueBefore).map JobRow.decode)).map _).Sublist _
  generalize (t.filter (·.isDue now)).mergeSort JobRow.dueBefore = rows
  induction rows with
  | nil => exact List.Sublist.refl _
  | cons row rows ih =>
    cases hd : row.decode with
    | valid j =>
      rw [List.map_cons, List.map_cons, hd, (JobRow.decode_eq_valid_iff.mp hd).key]
      exact ih.cons_cons _
    | corrupt key reason =>
      rw [List.map_cons, List.map_cons, hd]
      exact ih.cons _

/-- No job is listed twice. -/
theorem nodup_of_listDue {t : JobTable} (hk : t.Keyed) (now : Instant) :
    (validJobs ((JobStatement.listDue now).run t).1).Nodup :=
  (List.pairwise_map.mp (nodup_keys_of_listDue hk now)).imp fun hne e => hne (congrArg Job.key e)

/-- What was listed: jobs that wait in the queue, none of them twice. -/
structure Listing (past : List Deed) : Prop where
  nodup : (listed past).Nodup
  queued : ∀ j ∈ listed past, j.state = .queued

/-- Sifting tries nothing, and gives up no row of a job that was listed. -/
theorem meets_sift {rows : List Decoded} (d : DueJobs)
    (h : ∀ key reason, .corrupt key reason ∈ rows → ∀ j ∈ listed past, j.key.text ≠ key) :
    Meets gate.engine (fun d' past' => d'.jobs = d.jobs ++ validJobs rows ∧ Idle past past') (fun _ _ => True)
      (Queue.sift rows d) past := by
  induction rows generalizing d past with
  | nil => exact ⟨(List.append_nil _).symm, .refl past⟩
  | cons row rows ih =>
    cases row with
    | valid j =>
      refine Meets.mono (fun d' past' hd => ?_) (fun _ _ _ => trivial)
        (ih { d with jobs := d.jobs ++ [j] } fun key reason hmem => h key reason (.tail _ hmem))
      exact ⟨hd.1.trans (List.append_assoc ..), hd.2⟩
    | corrupt key reason =>
      unfold Queue.sift Queue.quarantine
      rw [meets_bind, meets_bind, Engine.meets_now]
      refine ⟨trivial, fun now past₁ h₁ => ?_⟩
      have hnow : Idle past past₁ := (gate_silent.now _ _ _ h₁).2
      rw [meets_bind]
      refine Engine.meets_jobs.mpr ⟨fun j hj _ => h key reason (.head _) j (hnow.listed ▸ hj), ?_, fun _ _ _ => trivial⟩
      rintro _ _ ⟨s, t, -, -, rfl⟩
      rw [Engine.meets_emit]
      refine ⟨trivial, fun _ past₃ h₃ => ?_⟩
      have hwritten : Idle past₁ (⟨.engine (.jobs (.quarantine key reason.message now)), .ok (), s, t⟩ :: past₁) :=
        .cons trivial trivial fun _ hj => hj
      have hgiven : Idle past past₃ := (hnow.trans hwritten).trans (gate_silent.emit _ _ _ h₃)
      refine Meets.mono (fun d' past' hd => ⟨hd.1, hgiven.trans hd.2⟩) (fun _ _ _ => trivial)
        (ih { d with quarantined := d.quarantined + 1 } fun key' reason' hmem j hj => ?_)
      exact h key' reason' (.tail _ hmem) j (hgiven.listed ▸ hj)

/-- The jobs that are due are those that were listed. -/
theorem meets_due (h : ∀ j, ¬Tried past j) :
    Meets gate.engine (fun d past' => listed past' = d.jobs ∧ Listing past' ∧ ∀ j, ¬Tried past' j) (fun _ _ => True)
      Queue.due past := by
  unfold Queue.due
  rw [meets_bind, Engine.meets_now]
  refine ⟨trivial, fun now past₁ h₁ => ?_⟩
  have hnow : Idle past past₁ := (gate_silent.now _ _ _ h₁).2
  rw [meets_bind, Engine.meets_jobs]
  refine ⟨trivial, ?_, fun _ _ _ => trivial⟩
  rintro rows _ ⟨s, t, hkept, ⟨hrows, -⟩, rfl⟩
  rw [meets_map]
  have hmem : ∀ j, j ∈ (DueJobs.arrange ⟨validJobs rows, 0⟩).jobs ↔ .valid j ∈ rows :=
    fun j => (arrange_perm _).mem_iff.trans mem_validJobs
  refine Meets.mono ?_ (fun _ _ _ => trivial) (meets_sift ⟨[], 0⟩ ?_)
  · rintro d past' ⟨hjobs, hidle⟩
    have hlisted : listed past' = (DueJobs.arrange ⟨validJobs rows, 0⟩).jobs := hidle.listed
    refine ⟨?_, ⟨?_, fun j hj => ?_⟩, fun j hj => ?_⟩
    · rw [hlisted]
      show _ = d.jobs.filter _ ++ d.jobs.filter _
      rw [hjobs]
      rfl
    · rw [hlisted, (arrange_perm _).nodup_iff]
      exact hrows ▸ nodup_of_listDue hkept.keyed now
    · rw [hlisted, hmem, hrows] at hj
      exact (says_of_listDue hkept.keyed hj).1
    · obtain ⟨e, he, hclaims⟩ := (hidle.tried_or hj).resolve_right id
      rcases List.mem_cons.mp he with rfl | he
      · exact hclaims
      · exact h j ((hnow.tried_or ⟨e, he, hclaims⟩).resolve_right id)
  · intro key reason hcorrupt j hj
    have hvalid := (hmem j).mp hj
    rw [hrows] at hvalid hcorrupt
    exact ne_of_listDue hkept.keyed hvalid hcorrupt

end Rules

end Gating

end MediaBackup

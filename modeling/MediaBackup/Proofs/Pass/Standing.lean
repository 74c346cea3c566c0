import MediaBackup.Proofs.Pass.Chronicle
import MediaBackup.Proofs.Pass.Deeds
import MediaBackup.Proofs.Pass.Working
import MediaBackup.Proofs.Recovery.Rows

/-
  How the jobs of a pass stand.

  From the past of a pass one reads which jobs were listed and wait for their turn (`waiting`), and which were claimed
  and not completed (`underway`).  The table bears this out (`Standing`): the row of a job that waits is as it was
  listed, unless a scan put a fresh dispatch in its place; the row of a job under way runs; and a job that was claimed
  and is not under way any more has been SETTLED, that is its outcome was written by its policy, and it does not run.

  Each kind of step has one lemma: a step that is no matter of jobs (`Standing.quiet`), a write to a row that neither
  waits nor runs (`Standing.rewrite`), a claim and a completion.
-/

namespace MediaBackup

/-! ## What the past tells -/

/-- What an entry does to the jobs of a pass. -/
inductive Turn where
  | lists (jobs : List Job)
  /-- A job was claimed, and this is the copy. -/
  | grants (copy : Job)
  /-- The job of the copy was completed. -/
  | closes (copy : Job)
  | nothing

/-- What an entry does to the jobs of a pass. -/
def Entry.turn : Entry → Turn
  | ⟨.jobs (.listDue _), .ok rows, _, _⟩ => .lists (Gating.validJobs rows)
  | ⟨.jobs (.updateIf j change), .ok true, _, _⟩ =>
    if change.state = .running then .grants (j.claimed change) else .closes j
  | _ => .nothing

/-- The entry is a claim that was granted: a row was made to run, and this is the copy of its job. -/
def Entry.Grants (c : Job) (e : Entry) : Prop :=
  ∃ j change before after, e = ⟨.jobs (.updateIf j change), .ok true, before, after⟩ ∧ change.state = .running ∧
    c = j.claimed change

/-- The jobs that were listed and not claimed. -/
def waiting : List Entry → List Job
  | [] => []
  | e :: past => match e.turn with
    | .lists jobs => jobs
    | .grants c => (waiting past).filter (·.key ≠ c.key)
    | _ => waiting past

/-- The copies of the jobs that were claimed and not completed. -/
def underway : List Entry → List Job
  | [] => []
  | e :: past => match e.turn with
    | .grants c => c :: underway past
    | .closes c => (underway past).erase c
    | _ => underway past

/-- A scan under way put a fresh dispatch in the place of the job. -/
def Replaced (past : List Entry) (j : Job) : Prop :=
  ∃ later now before after earlier,
    past = later ++ ⟨.jobs (.replaceIf (.fresh .dispatch now) j), .ok true, before, after⟩ :: earlier ∧
    ∃ c ∈ underway earlier, c.key = .scan

/-- The job waits in the queue, and the table has its row, or that of a dispatch that replaced it. -/
def Chronicle.Waits (w : Chronicle) (j : Job) : Prop :=
  j.state = .queued ∧ ∃ row, w.jobs.row? j.key.text = some row ∧
    (row.Says j ∨ j.key = .dispatch ∧ Replaced w.past j ∧ ∃ now : Instant, now.IsDate ∧
      row = .ofJob (.fresh .dispatch now))

/-- Since the job was claimed its outcome was written, and the job succeeded, waits for another attempt or was given
    up: `o` is what the work at it was led to by entries of that time, and the verdict on it is that of the policy of
    its kind at the time that the clock showed then. -/
def Settled (b : Backup) (c : Job) (since : List Entry) : Prop :=
  ∃ later between o now v told t t' u u',
    since = later ++ ⟨.jobs (.updateIf c (v.change c now)), .ok true, u, u'⟩ :: between ∧
    (b.outcome c).LedTo told o ∧ (⟨.now, now, t, t'⟩ :: told).Sublist between ∧
    v = Verdict.of (b.retry.policy c.key) c now o ∧ v.state.IsResult

/-- From the one to the other the table stayed, and nothing became of any job. -/
def Chronicle.Quietly (w v : Chronicle) : Prop :=
  v.jobs = w.jobs ∧ ∃ more, v.past = more ++ w.past ∧ ∀ d ∈ more, d.turn = .nothing

/-- The table bears out what the past tells. -/
structure Standing (b : Backup) (w : Chronicle) : Prop where
  keyed : w.jobs.Keyed
  nodup : ((underway w.past).map Job.key).Nodup
  apart : ∀ j ∈ waiting w.past, ∀ c ∈ underway w.past, j.key ≠ c.key
  waits : ∀ j ∈ waiting w.past, w.Waits j
  runs : ∀ c ∈ underway w.past, c.state = .running ∧
    ∃ row, w.jobs.row? c.key.text = some row ∧ row.isCurrent c = true
  granted : ∀ later e earlier c, w.past = later ++ e :: earlier → e.Grants c → c ∈ underway w.past ∨
    Settled b c later ∧ (∀ j ∈ waiting w.past, j.key ≠ c.key) ∧
      ∀ row, w.jobs.row? c.key.text = some row → row.state ≠ JobState.running.name

section Past

variable {past later earlier : List Entry} {d e : Entry} {c j : Job} {b : Backup} {w : Chronicle}

theorem Entry.Grants.turn (h : e.Grants c) : e.turn = .grants c := by
  obtain ⟨j, change, before, after, rfl, hrunning, rfl⟩ := h
  exact if_pos hrunning

/-- A claim that is granted is an entry of its own kind. -/
theorem Entry.turn_claim {now : Instant} {t u : JobTable} :
    (⟨.jobs (.updateIf j (j.claimChange now)), .ok true, t, u⟩ : Entry).turn =
      .grants (j.claimed (j.claimChange now)) :=
  Entry.Grants.turn ⟨j, _, t, u, rfl, rfl, rfl⟩

/-- So is a completion. -/
theorem Entry.turn_complete {change : Change} {t u : JobTable} (h : change.state ≠ .running) :
    (⟨.jobs (.updateIf c change), .ok true, t, u⟩ : Entry).turn = .closes c := if_neg h

theorem Entry.not_grants (h : e.turn = .nothing) (c : Job) : ¬e.Grants c :=
  fun hgrants => nomatch h.symm.trans hgrants.turn

theorem waiting_cons (h : e.turn = .nothing) : waiting (e :: past) = waiting past := by
  rw [waiting, h]

theorem underway_cons (h : e.turn = .nothing) : underway (e :: past) = underway past := by
  rw [underway, h]

theorem waiting_grants (h : e.turn = .grants c) : waiting (e :: past) = (waiting past).filter (·.key ≠ c.key) := by
  rw [waiting, h]

theorem underway_grants (h : e.turn = .grants c) : underway (e :: past) = c :: underway past := by
  rw [underway, h]

theorem waiting_closes (h : e.turn = .closes c) : waiting (e :: past) = waiting past := by
  rw [waiting, h]

theorem underway_closes (h : e.turn = .closes c) : underway (e :: past) = (underway past).erase c := by
  rw [underway, h]

theorem waiting_append (h : ∀ d ∈ later, d.turn = .nothing) : waiting (later ++ past) = waiting past := by
  induction later with
  | nil => rfl
  | cons e later ih => exact (waiting_cons (h e (.head _))).trans (ih fun d hd => h d (.tail _ hd))

theorem underway_append (h : ∀ d ∈ later, d.turn = .nothing) : underway (later ++ past) = underway past := by
  induction later with
  | nil => rfl
  | cons e later ih => exact (underway_cons (h e (.head _))).trans (ih fun d hd => h d (.tail _ hd))

/-- Without a list and a claim no job waits or is under way. -/
theorem waiting_of_nothing (h : ∀ d ∈ past, d.turn = .nothing) : waiting past = [] := by
  rw [← List.append_nil past, waiting_append h]
  rfl

theorem underway_of_nothing (h : ∀ d ∈ past, d.turn = .nothing) : underway past = [] := by
  rw [← List.append_nil past, underway_append h]
  rfl

/-- An entry of the past is the last one or an earlier one. -/
theorem split_cons (h : e :: past = later ++ d :: earlier) :
    (later = [] ∧ d = e) ∨ ∃ rest, later = e :: rest ∧ past = rest ++ d :: earlier := by
  cases later with
  | nil => exact .inl ⟨rfl, (List.cons.inj h).1.symm⟩
  | cons a rest =>
    obtain ⟨rfl, hrest⟩ := List.cons.inj h
    exact .inr ⟨rest, rfl, hrest⟩

/-- An entry that later ones are not was there before them. -/
theorem split_append {more : List Entry} (hd : d ∉ more) (h : more ++ past = later ++ d :: earlier) :
    ∃ rest, later = more ++ rest ∧ past = rest ++ d :: earlier := by
  induction more generalizing later with
  | nil => exact ⟨later, rfl, h⟩
  | cons e more ih =>
    rcases split_cons h with ⟨-, rfl⟩ | ⟨rest, rfl, hrest⟩
    · exact absurd (.head _) hd
    · obtain ⟨rest', rfl, hpast⟩ := ih (fun hin => hd (.tail _ hin)) hrest
      exact ⟨rest', rfl, hpast⟩

theorem Replaced.append (h : Replaced past j) (more : List Entry) : Replaced (more ++ past) j := by
  obtain ⟨later, now, before, after, earlier, rfl, hscan⟩ := h
  exact ⟨more ++ later, now, before, after, earlier, (List.append_assoc ..).symm, hscan⟩

theorem Settled.cons {since : List Entry} (h : Settled b c since) (e : Entry) : Settled b c (e :: since) := by
  obtain ⟨later, between, o, now, v, told, t, t', u, u', rfl, h⟩ := h
  exact ⟨e :: later, between, o, now, v, told, t, t', u, u', rfl, h⟩

/-- A job goes on waiting while its row stays. -/
theorem Chronicle.Waits.of_row? {v : Chronicle} (h : w.Waits j) (hpast : ∃ more, v.past = more ++ w.past)
    (hrow : v.jobs.row? j.key.text = w.jobs.row? j.key.text) : v.Waits j := by
  obtain ⟨hqueued, row, hfound, hsaid⟩ := h
  refine ⟨hqueued, row, hrow.trans hfound, hsaid.imp_right fun ⟨hkey, hreplaced, hfresh⟩ => ⟨hkey, ?_, hfresh⟩⟩
  obtain ⟨more, hmore⟩ := hpast
  exact hmore ▸ hreplaced.append more

/-- The row of a job that waits can be read, and does not run. -/
theorem Chronicle.Waits.exists_job (h : w.Waits j) :
    ∃ row i, w.jobs.row? j.key.text = some row ∧ row.Says i ∧ i.key = j.key ∧ i.state = .queued := by
  obtain ⟨hqueued, row, hrow, hsaid | ⟨hkey, -, now, hdate, rfl⟩⟩ := h
  · exact ⟨row, j, hrow, hsaid, rfl, hqueued⟩
  · exact ⟨_, _, hrow, JobRow.ofJob_says (Job.fresh_isProper _ hdate) (by decide : JobKey.dispatch.IsProper), hkey.symm,
      rfl⟩

/-- A claim of a job that waits is granted, unless a scan replaced it and it was tried before. -/
theorem Chronicle.Waits.current_or (h : w.Waits j) :
    (∃ row, w.jobs.row? j.key.text = some row ∧ row.isCurrent j = true) ∨
    (∃ row, w.jobs.row? j.key.text = some row ∧ row.isCurrent j = false) ∧ j.key = .dispatch ∧ j.attempt ≠ 0 ∧
      Replaced w.past j := by
  obtain ⟨hqueued, row, hrow, hsaid | ⟨hkey, hreplaced, now, -, rfl⟩⟩ := h
  · exact .inl ⟨row, hrow, hsaid.isCurrent⟩
  · by_cases hattempt : j.attempt = 0
    · refine .inl ⟨_, hrow, JobRow.isCurrent_iff.mpr ⟨congrArg JobKey.text hkey.symm, ?_, ?_⟩⟩
      · exact congrArg JobState.name hqueued.symm
      · rw [hattempt]
        rfl
    · refine .inr ⟨⟨_, hrow, eq_false_of_ne_true fun hcurrent => hattempt ?_⟩, hkey, hattempt, hreplaced⟩
      have hcount : Cell.int ((0 : Nat) : Int) = .int j.attempt := (JobRow.isCurrent_iff.mp hcurrent).2.2
      exact (Int.ofNat.inj (Cell.int.inj hcount)).symm

end Past

/-! ## What a step preserves -/

namespace Standing

variable {b : Backup} {w : Chronicle} {c j : Job} {after : JobTable}

/-- Where no job was listed or claimed there is none. -/
theorem of_nothing (h : w.jobs.Keyed) (hpast : ∀ d ∈ w.past, d.turn = .nothing) : Standing b w := by
  have hwaiting := waiting_of_nothing hpast
  have hunderway := underway_of_nothing hpast
  refine ⟨h, hunderway ▸ .nil, fun j hj => ?_, fun j hj => ?_, fun c hc => ?_, fun later d earlier c heq hgrants => ?_⟩
  · exact absurd (hwaiting ▸ hj) List.not_mem_nil
  · exact absurd (hwaiting ▸ hj) List.not_mem_nil
  · exact absurd (hunderway ▸ hc) List.not_mem_nil
  · exact absurd hgrants (Entry.not_grants (hpast d (heq ▸ List.mem_append_right _ (.head _))) c)

/-- A row that holds no job is that of no job that waits. -/
theorem ne_of_corrupt (h : Standing b w) {key k : String} {row : JobRow} {reason : RowFault}
    (hrow : w.jobs.row? key = some row) (hcorrupt : row.decode = .corrupt k reason) :
    ∀ j ∈ waiting w.past, j.key.text ≠ key := by
  rintro j hj rfl
  obtain ⟨found, i, hfound, hsaid, -⟩ := (h.waits j hj).exists_job
  obtain rfl := Option.some.inj (hfound.symm.trans hrow)
  exact nomatch (JobRow.decode_eq_valid_iff.mpr hsaid).symm.trans hcorrupt

/-- A step that changes no job's place, where the rows of jobs stay and no row begins to run. -/
theorem frame {e : Entry} (h : Standing b w) (hturn : e.turn = .nothing) (hkeyed : after.Keyed)
    (hwaits : ∀ j ∈ waiting w.past, (Chronicle.mk after (e :: w.past)).Waits j)
    (hruns : ∀ i ∈ underway w.past, after.row? i.key.text = w.jobs.row? i.key.text)
    (hidle : ∀ key row, after.row? key = some row → row.state = JobState.running.name → w.jobs.row? key = some row) :
    Standing b ⟨after, e :: w.past⟩ := by
  have hwaiting : waiting (e :: w.past) = waiting w.past := waiting_cons hturn
  have hunderway : underway (e :: w.past) = underway w.past := underway_cons hturn
  refine ⟨hkeyed, hunderway ▸ h.nodup, hwaiting ▸ hunderway ▸ h.apart, hwaiting ▸ hwaits, fun i hi => ?_, ?_⟩
  · rw [hunderway] at hi
    obtain ⟨hrunning, row, hrow, hcurrent⟩ := h.runs i hi
    exact ⟨hrunning, row, (hruns i hi).trans hrow, hcurrent⟩
  · intro later d earlier i heq hgrants
    rw [hwaiting, hunderway]
    rcases split_cons heq with ⟨-, rfl⟩ | ⟨rest, rfl, hpast⟩
    · exact absurd hgrants (Entry.not_grants hturn i)
    · refine (h.granted rest d earlier i hpast hgrants).imp_right fun ⟨hsettled, hapart, hstopped⟩ => ?_
      refine ⟨hsettled.cons _, hapart, fun row hrow hrunning => ?_⟩
      exact hstopped row (hidle _ row hrow hrunning) hrunning

/-- An entry that leaves the table, and is no listing. -/
theorem quiet {e : Entry} (h : Standing b w) (hturn : e.turn = .nothing) : Standing b ⟨w.jobs, e :: w.past⟩ :=
  h.frame hturn h.keyed (fun j hj => (h.waits j hj).of_row? ⟨[_], rfl⟩ rfl) (fun _ _ => rfl) fun _ _ hrow _ => hrow

/-- Any number of them. -/
theorem quietly {v : Chronicle} (h : Standing b w) (hv : w.Quietly v) : Standing b v := by
  obtain ⟨jobs, past⟩ := v
  obtain ⟨rfl, more, rfl, hmore⟩ := hv
  induction more with
  | nil => exact h
  | cons e more ih => exact (ih fun d hd => hmore d (.tail _ hd)).quiet (hmore e (.head _))

/-- A write to the row of one key. -/
theorem rewrite (h : Standing b w) {st : JobStatement} {y : Except StoreFault st.Answer} {key : String}
    (hst : st.target? = some key) (hturn : (⟨.jobs st, y, w.jobs, (st.run w.jobs).2⟩ : Entry).turn = .nothing)
    (hwaits : ∀ j ∈ waiting w.past, j.key.text = key → (w.write (.jobs st) y (st.run w.jobs).2).Waits j)
    (hruns : ∀ i ∈ underway w.past, i.key.text ≠ key)
    (hidle : ∀ row, (st.run w.jobs).2.row? key = some row → row.state ≠ JobState.running.name) :
    Standing b (w.write (.jobs st) y (st.run w.jobs).2) := by
  have hother : ∀ other, other ≠ key → (st.run w.jobs).2.row? other = w.jobs.row? other :=
    fun other hne => JobTable.row?_run_of_target h.keyed hst hne
  refine h.frame hturn (JobTable.keyed_run h.keyed st) (fun j hj => ?_) (fun i hi => hother _ (hruns i hi)) ?_
  · by_cases hkey : j.key.text = key
    · exact hwaits j hj hkey
    · exact (h.waits j hj).of_row? ⟨[_], rfl⟩ (hother _ hkey)
  · intro other row hrow hrunning
    by_cases hkey : other = key
    · exact absurd hrunning (hidle row (hkey ▸ hrow))
    · exact (hother other hkey).symm.trans hrow

/-- The jobs that are due are listed, before any job was claimed. -/
theorem list (h : Standing b w) (hnone : underway w.past = []) (hnot : ∀ d ∈ w.past, ∀ i, ¬d.Grants i) (now : Instant) :
    Standing b (w.write (.jobs (.listDue now)) (.ok ((JobStatement.listDue now).run w.jobs).1) w.jobs) where
  keyed := h.keyed
  nodup := h.nodup
  apart _ _ i hi := absurd (hnone ▸ hi : i ∈ []) List.not_mem_nil
  waits j hj := by
    obtain ⟨hqueued, row, hrow, hsaid⟩ := Gating.says_of_listDue h.keyed (Gating.mem_validJobs.mp hj)
    exact ⟨hqueued, row, hrow, .inl hsaid⟩
  runs i hi := absurd (hnone ▸ hi : i ∈ []) List.not_mem_nil
  granted later d earlier i heq hgrants := by
    rcases split_cons heq with ⟨-, rfl⟩ | ⟨rest, rfl, hpast⟩
    · exact nomatch hgrants.turn
    · exact absurd hgrants (hnot d (hpast ▸ List.mem_append_right _ (.head _)) i)

/-- A claim of a job that waits and whose row is current. -/
theorem claim (h : Standing b w) (hj : j ∈ waiting w.past) {row : JobRow} (hrow : w.jobs.row? j.key.text = some row)
    (hcurrent : row.isCurrent j = true) (now : Instant) :
    Standing b (w.write (.jobs (.updateIf j (j.claimChange now))) (.ok true)
      ((JobStatement.updateIf j (j.claimChange now)).run w.jobs).2) := by
  obtain ⟨hown, hother⟩ := JobTable.sets_updateIf h.keyed hrow hcurrent (j.claimChange now)
  have hapart : ∀ i ∈ underway w.past, i.key ≠ j.key := fun i hi heq => h.apart j hj i hi heq.symm
  have hmem : ∀ {i}, i ∈ (waiting w.past).filter (·.key ≠ j.key) → i ∈ waiting w.past ∧ i.key ≠ j.key :=
    fun hi => ⟨(List.mem_filter.mp hi).1, of_decide_eq_true (List.mem_filter.mp hi).2⟩
  refine ⟨JobTable.keyed_run h.keyed _, List.nodup_cons.mpr ⟨?_, h.nodup⟩, fun i hi d hd => ?_, fun i hi => ?_,
    fun d hd => ?_, fun later d earlier i heq hgrants => ?_⟩
  · intro hin
    obtain ⟨i, hi, hkey⟩ := List.mem_map.mp hin
    exact hapart i hi hkey
  · rcases List.mem_cons.mp hd with rfl | hd
    · exact (hmem hi).2
    · exact h.apart i (hmem hi).1 d hd
  · exact (h.waits i (hmem hi).1).of_row? ⟨[_], rfl⟩ (hother i.key (hmem hi).2)
  · rcases List.mem_cons.mp hd with rfl | hd
    · exact ⟨rfl, _, hown, JobRow.isCurrent_iff.mpr ⟨(JobRow.isCurrent_iff.mp hcurrent).1, rfl, rfl⟩⟩
    · obtain ⟨hrunning, r, hr, hrcurrent⟩ := h.runs d hd
      exact ⟨hrunning, r, (hother d.key (hapart d hd)).trans hr, hrcurrent⟩
  · rcases split_cons heq with ⟨-, rfl⟩ | ⟨rest, rfl, hpast⟩
    · exact .inl (Turn.grants.inj hgrants.turn ▸ .head _)
    · rcases h.granted rest d earlier i hpast hgrants with hin | ⟨hsettled, hnot, hstopped⟩
      · exact .inl (.tail _ hin)
      · refine .inr ⟨hsettled.cons _, fun k hk => hnot k (hmem hk).1, fun r hr => ?_⟩
        exact hstopped r ((hother i.key (hnot j hj).symm).symm.trans hr)

/-- The completion of a job under way, where the work at it was led to its outcome since it was claimed. -/
theorem settle (h : Standing b w) (hc : c ∈ underway w.past) {o : Outcome} {now : Instant} {v : Verdict}
    {told : List Entry} {t t' : JobTable} (hv : v = Verdict.of (b.retry.policy c.key) c now o)
    (hled : (b.outcome c).LedTo told o)
    (hsince : ∀ later d earlier, w.past = later ++ d :: earlier → d.Grants c →
      (⟨.now, now, t, t'⟩ :: told : List Entry).Sublist later) :
    Standing b (w.write (.jobs (.updateIf c (v.change c now))) (.ok true)
      ((JobStatement.updateIf c (v.change c now)).run w.jobs).2) := by
  have hresult : v.state.IsResult := hv ▸ (Verdict.gives_of (b.retry.policy c.key) c now o).isResult
  generalize hchange : v.change c now = change
  have hstate : change.state.IsResult := hchange ▸ hresult
  obtain ⟨-, row, hrow, hcurrent⟩ := h.runs c hc
  obtain ⟨hown, hother⟩ := JobTable.sets_updateIf h.keyed hrow hcurrent change
  have hstopped : ∀ r, ((JobStatement.updateIf c change).run w.jobs).2.row? c.key.text = some r →
      r.state ≠ JobState.running.name := by
    intro r hr hrunning
    obtain rfl := Option.some.inj (hown.symm.trans hr)
    exact hstate.ne_running (JobState.name_injective hrunning)
  -- no other job under way has the key
  have hperm := (List.perm_cons_erase hc).map Job.key
  obtain ⟨halone, hnodup⟩ := List.nodup_cons.mp (hperm.nodup_iff.mp h.nodup)
  have hturn : (⟨.jobs (.updateIf c change), .ok true, w.jobs, ((JobStatement.updateIf c change).run w.jobs).2⟩ :
      Entry).turn = .closes c := Entry.turn_complete hstate.ne_running
  have hwaiting : waiting (w.write (.jobs (.updateIf c change)) (.ok true)
      ((JobStatement.updateIf c change).run w.jobs).2).past = waiting w.past := waiting_closes hturn
  have hunderway : underway (w.write (.jobs (.updateIf c change)) (.ok true)
      ((JobStatement.updateIf c change).run w.jobs).2).past = (underway w.past).erase c := underway_closes hturn
  refine ⟨JobTable.keyed_run h.keyed _, hunderway ▸ hnodup, fun i hi d hd => ?_, fun i hi => ?_, fun d hd => ?_,
    fun later d earlier i heq hgrants => ?_⟩
  · exact h.apart i (hwaiting ▸ hi) d (List.mem_of_mem_erase (hunderway ▸ hd))
  · rw [hwaiting] at hi
    exact (h.waits i hi).of_row? ⟨[_], rfl⟩ (hother i.key (h.apart i hi c hc))
  · rw [hunderway] at hd
    obtain ⟨hrunning, r, hr, hrcurrent⟩ := h.runs d (List.mem_of_mem_erase hd)
    exact ⟨hrunning, r, (hother d.key fun heq => halone (heq ▸ List.mem_map_of_mem hd)).trans hr, hrcurrent⟩
  · rw [hwaiting, hunderway]
    rcases split_cons heq with ⟨-, rfl⟩ | ⟨rest, rfl, hpast⟩
    · exact nomatch hgrants.turn.symm.trans hturn
    rcases h.granted rest d earlier i hpast hgrants with hin | ⟨hsettled, hnot, hidle⟩
    · by_cases hi : i = c
      · subst hi
        refine .inr ⟨⟨[], rest, o, now, v, told, t, t', w.jobs, ((JobStatement.updateIf i change).run w.jobs).2, ?_,
          hled, hsince rest d earlier hpast hgrants, hv, hresult⟩, fun k hk => h.apart k hk i hc, hstopped⟩
        rw [hchange]
        rfl
      · exact .inl ((List.mem_erase_of_ne hi).mpr hin)
    · refine .inr ⟨hsettled.cons _, hnot, fun r hr => ?_⟩
      by_cases hkey : i.key = c.key
      · exact hstopped r (hkey ▸ hr)
      · exact hidle r ((hother i.key hkey).symm.trans hr)

end Standing

end MediaBackup

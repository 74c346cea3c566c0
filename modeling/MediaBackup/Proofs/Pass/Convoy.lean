import MediaBackup.Proofs.Pass.Housekeeping

/-
  A pass and its uploads.

  Up to its first permit the main line is alone, and is followed by the chronicle itself.  From then on its uploads may
  write beside it, a CONVOY: it is known what was told up to then, which jobs it has still to claim, and which copy it
  claimed and has not started (`Lookout`).  An upload is followed by its own entries until its outcome is written
  (`Errand`).

  The jobs under way are the one in the hand of the main line and those of the uploads that are out (`Abreast`); so
  every claim of the convoy is granted, and every completion of an upload too.
-/

namespace MediaBackup

/-- What is known of a main line. -/
inductive Lookout where
  | alone (w : Chronicle)
  | convoy (before : List Entry) (todo : List Job) (hand : Option Job)

/-- What is known of an upload. -/
inductive Errand where
  /-- It works at the job, and had these entries. -/
  | out (job : Job) (told : List Entry)
  /-- Its outcome was written. -/
  | home

/-- What has been told for sure. -/
def Lookout.known : Lookout → List Entry
  | alone w => w.past
  | convoy before _ _ => before

/-- The job that the upload works at. -/
def Errand.job? : Errand → Option Job
  | out c _ => some c
  | home => none

/-- The upload had its entries after the claim of its job. -/
def Errand.Since (past : List Entry) : Errand → Prop
  | out c told => ∀ later d earlier, past = later ++ d :: earlier → d.Grants c → told.Sublist later
  | home => True

namespace Convoy

open Script

/-! ## What the members may do -/

/-- The main line takes its first permit when no job is under way.  In a convoy it claims uploads that wait, and starts
    what it claimed. -/
def May (b : Backup) : Lookout → PassCall → Prop
  | .alone _, .engine _ => True
  | .alone w, .tryPermit => ∃ jobs, Roster b jobs [] w
  | .alone _, _ => False
  | .convoy _ todo hand, .engine (.jobs st) =>
    hand = none ∧ ∃ j ∈ todo, j.key.isUpload = true ∧ ∃ now, st = .updateIf j (j.claimChange now)
  | .convoy _ _ hand, .start c => hand = some c ∧ c.key.isUpload = true
  | .convoy _ _ _, _ => True

/-- Claims of a convoy are granted, and its uploads end in a state. -/
def Answers : Lookout → (c : PassCall) → c.Answer → Lookout → Prop
  | .alone w, .engine c, x, m => ∃ v, Chronicle.Unfailing w c x v ∧ m = .alone v
  | .alone w, _, _, m => m = .convoy w.past (waiting w.past) none
  | .convoy before todo _, .engine (.jobs (.updateIf j change)), x, m =>
    x = .ok true ∧ m = .convoy before (todo.filter (·.key ≠ j.key)) (some (j.claimed change))
  | .convoy before todo hand, .engine c, x, m => c.IsDated x ∧ m = .convoy before todo hand
  | .convoy before todo _, .start _, _, m => m = .convoy before todo none
  | .convoy before todo hand, .join, r, m =>
    (∃ state, r = .ok state ∧ state.IsResult) ∧ m = .convoy before todo hand
  | .convoy before todo hand, _, _, m => m = .convoy before todo hand

/-- The protocol of main lines. -/
def mainLine (b : Backup) : Protocol PassCall PassCall.Answer Lookout := ⟨May b, Answers⟩

/-- The upload writes the outcome that it was led to, at the time that the clock showed last. -/
def MayWrite (b : Backup) : Errand → JobStatement → Prop
  | .out c told, st => ∃ o now v led t t', told = ⟨.now, now, t, t'⟩ :: led ∧ (b.outcome c).LedTo led o ∧
      v = Verdict.of (b.retry.policy c.key) c now o ∧ st = .updateIf c (v.change c now)
  | .home, _ => False

/-- What it writes is written. -/
def Tells : Errand → (c : Call) → c.Answer → Errand → Prop
  | .out _ _, .jobs (.updateIf _ _), x, l => x = .ok true ∧ l = .home
  | .out c told, e, x, l => e.faults x = [] ∧ ∃ told', noted.answers told e x told' ∧ l = .out c told'
  | .home, e, x, l => e.IsDated x ∧ l = .home

/-- The protocol of uploads. -/
def errands (b : Backup) : Protocol Call Call.Answer Errand where
  may l e := ∀ st, e = .jobs st → MayWrite b l st
  answers := Tells

/-- The same, where nothing is written yet. -/
def outbound : Protocol Call Call.Answer Errand where
  may _ e := ∀ st, e ≠ .jobs st
  answers := Tells

/-! ## An upload -/

section Uploads

variable {b : Backup} {c : Job} {told : List Entry} {l : Errand} {e : Call} {x : e.Answer}

theorem tells_out (he : ∀ st, e ≠ .jobs st) (h : Tells (.out c told) e x l) :
    e.faults x = [] ∧ ∃ told', noted.answers told e x told' ∧ l = .out c told' := by
  cases e with
  | jobs st => exact absurd rfl (he st)
  | _ => exact h

theorem outbound_answerable (c : Job) :
    Engine.Answerable outbound (fun l => ∃ told, l = .out c told) fun _ _ => False where
  call e he l hl := by
    have hjobs : ∀ st, e ≠ .jobs st := by
      rintro st rfl
      exact he
    obtain ⟨told, rfl⟩ := hl
    refine Engine.meets_call.mpr ⟨hjobs, fun x l' hx => ?_⟩
    obtain ⟨-, told', -, rfl⟩ := tells_out hjobs hx
    exact ⟨told', rfl⟩
  date l x l' hl h := by
    obtain ⟨told, rfl⟩ := hl
    obtain ⟨-, _, ⟨hdate, -⟩, -⟩ := h
    exact hdate
  fault := by
    rintro st fault _ l' ⟨told, rfl⟩ ⟨hnone, -⟩
    exact nomatch hnone

theorem errands_silent (b : Backup) : (errands b).Silent fun l l' => l = .home → l' = .home where
  trans _ _ _ h h' := h' ∘ h
  mayNow _ _ heq := nomatch heq
  now l x l' h := by
    cases l with
    | out c told => exact ⟨h.2.choose_spec.1.1, fun hl => nomatch hl⟩
    | home => exact ⟨h.1, fun _ => h.2⟩
  mayEmit _ _ _ heq := nomatch heq
  emit l e l' h := by
    rintro rfl
    exact h.2

/-- The work at an upload ends with its outcome written. -/
theorem work_keeps (b : Backup) (hrunning : c.state = .running) (hupload : c.key.isUpload = true) :
    (b.work c).run.Keeps (errands b) (fun r l => ∃ state, r = .ok state ∧ state.IsResult ∧ l = .home) (.out c []) := by
  have hrequests : ∀ r, c.key.Requests r → Engine.Upholds outbound (fun l => ∃ told, l = .out c told) (fun _ _ => False)
      (Queue.enqueue r) := by
    intro r hr
    cases hk : c.key with
    | upload id => exact (hk ▸ hr : (JobKey.upload id).Requests r).elim
    | _ => rw [hk] at hupload; exact nomatch hupload
  have hled : Meets outbound (fun o l => ∃ told, l = .out c told ∧ (b.outcome c).LedTo told o) (fun _ _ => False)
      (b.outcome c) (.out c []) := by
    refine Meets.mono (fun _ _ h => h.2) (fun _ _ h => h.2)
      (Engine.meets_ledTo ?_ ((outbound_answerable c).meets_outcome ⟨[], rfl⟩ hrequests) rfl)
    rintro _ told e x l rfl hmay hx
    exact (tells_out hmay hx).2
  have houtcome : Meets (errands b) (fun o l => ∃ told, l = .out c told ∧ (b.outcome c).LedTo told o)
      (fun _ _ => False) (b.outcome c) (.out c []) := by
    refine Keeps.weaken (w := outbound) Eq ?_ (fun _ _ _ _ _ hl _ hx => ⟨_, hl ▸ hx, rfl⟩) (fun _ _ _ hl h => hl ▸ h)
      rfl hled
    exact fun _ _ _ _ hmay st heq => absurd heq (hmay st)
  suffices hmeets : Meets (errands b) (fun state l => state.IsResult ∧ l = .home) (fun _ _ => False) (b.work c)
      (.out c []) by
    refine Keeps.mono (fun r l h => ?_) hmeets
    cases r with
    | ok state => exact ⟨state, rfl, h⟩
    | error e => exact h.elim
  refine Engine.meets_work houtcome ?_
  rintro o _ ⟨told, rfl, hled⟩
  refine Queue.meets_complete_clocked (errands_silent b) (fun hnot => absurd hrunning hnot) ?_
  rintro - now _ ⟨-, _, ⟨-, t, t', rfl⟩, rfl⟩ v hv
  refine ⟨?_, ?_, fun _ ⟨hfalse, _⟩ => (nomatch hfalse), fun _ _ ⟨hfault, _⟩ => nomatch hfault⟩
  · rintro _ ⟨⟩
    exact ⟨o, now, v, told, t, t', rfl, hled, hv, rfl⟩
  · rintro l ⟨-, rfl⟩ l' hl
    exact ⟨hv ▸ (Verdict.gives_of ..).isResult, hl rfl⟩

end Uploads

/-! ## The members together -/

/-- The jobs stand, and those under way are the one in the hand of the main line and those of the uploads. -/
structure Abreast (b : Backup) (w : Chronicle) (before : List Entry) (todo : List Job) (hand : Option Job)
    (ls : List Errand) (ended : List (Except Stop JobState)) : Prop where
  standing : Standing b w
  before : before <:+ w.past
  todo : ∀ j ∈ todo, j ∈ waiting w.past
  underway : (hand.toList ++ ls.filterMap Errand.job?).Perm (underway w.past)
  since : ∀ l ∈ ls, l.Since w.past
  ended : ∀ r ∈ ended, ∃ state, r = .ok state ∧ state.IsResult

section Members

variable {b : Backup} {w v : Chronicle} {before more past : List Entry} {todo : List Job} {hand : Option Job}
  {ls ks : List Errand} {ended : List (Except Stop JobState)} {j c : Job} {l : Errand} {told : List Entry}

/-- An upload stays behind the claim of its job, while no other claim gives its copy. -/
theorem since_append (h : l.Since past) (hmore : ∀ d ∈ more, ∀ c ∈ l.job?, ¬d.Grants c) : l.Since (more ++ past) := by
  cases l with
  | home => trivial
  | out c told =>
    intro later d earlier hsplit hgrants
    obtain ⟨rest, rfl, hpast⟩ := split_append (fun hd => hmore d hd c rfl hgrants) hsplit
    exact (h rest d earlier hpast hgrants).trans (List.sublist_append_right more rest)

theorem since_cons {e : Entry} (h : l.Since past) (he : ∀ c ∈ l.job?, ¬e.Grants c) : l.Since (e :: past) :=
  show l.Since ([e] ++ past) from since_append h fun _ hd => List.mem_singleton.mp hd ▸ he

/-- The job of an upload is under way. -/
theorem Abreast.mem_underway (h : Abreast b w before todo hand ls ended) (hl : l ∈ ls) (hc : c ∈ l.job?) :
    c ∈ MediaBackup.underway w.past :=
  h.underway.mem_iff.mp (List.mem_append_right _ (List.mem_filterMap.mpr ⟨l, hl, hc⟩))

theorem Abreast.quietly (h : Abreast b w before todo hand ls ended) (hv : w.Quietly v) :
    Abreast b v before todo hand ls ended := by
  have hstanding := h.standing.quietly hv
  have hsuffix := h.before.trans hv.past_suffix
  obtain ⟨-, more, hmore, hquiet⟩ := hv
  refine ⟨hstanding, hsuffix, ?_, ?_, fun l hl => ?_, h.ended⟩
  · rw [hmore, waiting_append hquiet]
    exact h.todo
  · rw [hmore, underway_append hquiet]
    exact h.underway
  · rw [hmore]
    exact since_append (h.since l hl) fun d hd c _ => Entry.not_grants (hquiet d hd) c

/-- The main line claims an upload that waits, and has it in its hand. -/
theorem Abreast.claim (h : Abreast b w before todo none ls ended) (hj : j ∈ todo) (hupload : j.key.isUpload = true)
    {now : Instant} {x : Except StoreFault Bool}
    (hx : Chronicle.Unfailing w (.jobs (.updateIf j (j.claimChange now))) x v) :
    x = .ok true ∧
      Abreast b v before (todo.filter (·.key ≠ j.key)) (some (j.claimed (j.claimChange now))) ls ended := by
  obtain ⟨rfl, rfl⟩ := hx.of_jobs
  have hin := h.todo j hj
  rcases (h.standing.waits j hin).current_or with ⟨row, hrow, hcurrent⟩ | ⟨-, hkey, -⟩
  case inr => exact nomatch hkey ▸ hupload
  have hanswer : ((JobStatement.updateIf j (j.claimChange now)).run w.jobs).1 = true := by
    rw [JobTable.answer_updateIf h.standing.keyed, hrow]
    exact hcurrent
  rw [hanswer]
  refine ⟨rfl, h.standing.claim hin hrow hcurrent now, h.before.trans (List.suffix_cons _ _), fun i hi => ?_, ?_,
    fun l hl => since_cons (h.since l hl) fun c hc hgrants => ?_, h.ended⟩
  · obtain ⟨hi, hne⟩ := List.mem_filter.mp hi
    exact waiting_grants Entry.turn_claim ▸ List.mem_filter.mpr ⟨h.todo i hi, hne⟩
  · rw [Chronicle.write, underway_grants Entry.turn_claim]
    exact h.underway.cons _
  · -- the jobs under way have other keys
    obtain rfl := Turn.grants.inj (hgrants.turn.symm.trans Entry.turn_claim)
    exact h.standing.apart j hin _ (h.mem_underway hl hc) rfl

/-- What it has in its hand runs. -/
theorem Abreast.running (h : Abreast b w before todo (some c) ls ended) : c.state = .running :=
  (h.standing.runs c (h.underway.mem_iff.mp (.head _))).1

/-- It starts the upload that it has in its hand. -/
theorem Abreast.start (h : Abreast b w before todo (some c) ls ended) :
    Abreast b w before todo none (ls ++ [.out c []]) ended := by
  refine ⟨h.standing, h.before, h.todo, ?_, fun l hl => ?_, h.ended⟩
  · rw [List.filterMap_append]
    show (ls.filterMap Errand.job? ++ [c]).Perm _
    exact List.perm_append_comm.trans h.underway
  · rcases List.mem_append.mp hl with hl | hl
    · exact h.since l hl
    · exact List.mem_singleton.mp hl ▸ fun _ _ _ _ _ => List.nil_sublist _

/-- An upload has one more entry. -/
theorem Abreast.note {e : Entry} (h : Abreast b w before todo hand (ls ++ .out c told :: ks) ended)
    (he : e.turn = .nothing) :
    Abreast b ⟨w.jobs, e :: w.past⟩ before todo hand (ls ++ .out c (e :: told) :: ks) ended := by
  have hquiet : w.Quietly ⟨w.jobs, e :: w.past⟩ := ⟨rfl, [e], rfl, fun _ hd => List.mem_singleton.mp hd ▸ he⟩
  have hnext := h.quietly hquiet
  refine ⟨hnext.standing, hnext.before, hnext.todo, ?_, fun l hl => ?_, h.ended⟩
  · have hsame := hnext.underway
    rwa [List.filterMap_append] at hsame ⊢
  · rcases List.mem_append.mp hl with hl | hl
    · exact hnext.since l (List.mem_append_left _ hl)
    rcases List.mem_cons.mp hl with rfl | hl
    · intro later d earlier hsplit hgrants
      rcases split_cons hsplit with ⟨-, rfl⟩ | ⟨rest, rfl, hpast⟩
      · exact absurd hgrants (Entry.not_grants he c)
      · exact (h.since _ (List.mem_append_right _ (.head _)) rest d earlier hpast hgrants).cons_cons e
    · exact hnext.since l (List.mem_append_right _ (.tail _ hl))

/-- An upload writes its outcome. -/
theorem Abreast.settle {st : JobStatement} {x : Except StoreFault st.Answer}
    (h : Abreast b w before todo hand (ls ++ .out c told :: ks) ended) (hst : MayWrite b (.out c told) st)
    (hx : Chronicle.Unfailing w (.jobs st) x v) :
    Tells (.out c told) (.jobs st) x .home ∧ Abreast b v before todo hand (ls ++ .home :: ks) ended := by
  obtain ⟨o, now, verdict, led, t, t', rfl, hled, hverdict, rfl⟩ := hst
  obtain ⟨rfl, rfl⟩ := hx.of_jobs
  have hmem : .out c (⟨.now, now, t, t'⟩ :: led) ∈ ls ++ .out c (⟨.now, now, t, t'⟩ :: led) :: ks :=
    List.mem_append_right _ (.head _)
  have hin : c ∈ MediaBackup.underway w.past := h.mem_underway hmem rfl
  obtain ⟨-, row, hrow, hcurrent⟩ := h.standing.runs c hin
  have hanswer : ((JobStatement.updateIf c (verdict.change c now)).run w.jobs).1 = true := by
    rw [JobTable.answer_updateIf h.standing.keyed, hrow]
    exact hcurrent
  have hresult : verdict.state.IsResult := hverdict ▸ (Verdict.gives_of (b.retry.policy c.key) c now o).isResult
  have hturn : (⟨.jobs (.updateIf c (verdict.change c now)), .ok true, w.jobs,
      ((JobStatement.updateIf c (verdict.change c now)).run w.jobs).2⟩ : Entry).turn = .closes c :=
    Entry.turn_complete hresult.ne_running
  rw [hanswer]
  refine ⟨⟨rfl, rfl⟩, h.standing.settle hin hverdict hled (h.since _ hmem), h.before.trans (List.suffix_cons _ _), ?_,
    ?_, fun l hl => since_cons ?_ fun i _ hgrants => (nomatch hgrants.turn.symm.trans hturn), h.ended⟩
  · rw [Chronicle.write, waiting_closes hturn]
    exact h.todo
  · rw [Chronicle.write, underway_closes hturn]
    refine List.Perm.trans ?_ (h.underway.erase c)
    rw [List.filterMap_append, List.filterMap_append, ← List.append_assoc, ← List.append_assoc]
    generalize hand.toList ++ ls.filterMap Errand.job? = front
    have hmiddle : (front ++ c :: ks.filterMap Errand.job?).Perm (c :: (front ++ ks.filterMap Errand.job?)) :=
      List.perm_middle
    have herase := hmiddle.erase c
    rw [List.erase_cons_head] at herase
    exact herase.symm
  · rcases List.mem_append.mp hl with hl | hl
    · exact h.since l (List.mem_append_left _ hl)
    rcases List.mem_cons.mp hl with rfl | hl
    · trivial
    · exact h.since l (List.mem_append_right _ (.tail _ hl))

/-- An upload whose outcome was written ends. -/
theorem Abreast.left {r : Except Stop JobState} (h : Abreast b w before todo hand (ls ++ .home :: ks) ended)
    (hr : ∃ state, r = .ok state ∧ state.IsResult) : Abreast b w before todo hand (ls ++ ks) (ended ++ [r]) := by
  refine ⟨h.standing, h.before, h.todo, ?_, fun l hl => h.since l ?_, fun s hs => ?_⟩
  · have hsame := h.underway
    rwa [List.filterMap_append] at hsame ⊢
  · rcases List.mem_append.mp hl with hl | hl
    · exact List.mem_append_left _ hl
    · exact List.mem_append_right _ (.tail _ hl)
  · rcases List.mem_append.mp hs with hs | hs
    · exact h.ended s hs
    · exact List.mem_singleton.mp hs ▸ hr

/-- It is joined. -/
theorem Abreast.joined {r : Except Stop JobState} (h : Abreast b w before todo hand ls (r :: ended)) :
    Abreast b w before todo hand ls ended :=
  ⟨h.standing, h.before, h.todo, h.underway, h.since, fun s hs => h.ended s (.tail _ hs)⟩

end Members

/-! ## The guide -/

/-- The main line is alone, or in a convoy with its uploads. -/
def Together (b : Backup) (w : Chronicle) : Lookout → List Errand → List (Except Stop JobState) → Prop
  | .alone u, ls, ended => u = w ∧ ls = [] ∧ ended = []
  | .convoy before todo hand, ls, ended => Abreast b w before todo hand ls ended

section Guide

variable {b : Backup} {w v : Chronicle} {m : Lookout} {ls ks : List Errand} {ended : List (Except Stop JobState)}
  {l : Errand} {e : Call} {x : e.Answer}

/-- A call of the main line. -/
theorem Together.engine (h : Together b w m ls ended) (hmay : May b m (.engine e)) (hx : Chronicle.Unfailing w e x v) :
    ∃ n, Answers m (.engine e) x n ∧ Together b v n ls ended := by
  cases m with
  | alone u =>
    obtain ⟨rfl, rfl, rfl⟩ := h
    exact ⟨.alone v, ⟨v, hx, rfl⟩, rfl, rfl, rfl⟩
  | convoy before todo hand =>
    by_cases hjobs : ∃ st, e = .jobs st
    · obtain ⟨st, rfl⟩ := hjobs
      obtain ⟨rfl, j, hj, hupload, now, rfl⟩ := hmay
      obtain ⟨rfl, hclaimed⟩ := Abreast.claim h hj hupload hx
      exact ⟨_, ⟨rfl, rfl⟩, hclaimed⟩
    · have hne : ∀ st, e ≠ .jobs st := fun st heq => hjobs ⟨st, heq⟩
      refine ⟨.convoy before todo hand, ?_, Abreast.quietly h (hx.quietly hne)⟩
      cases e with
      | jobs st => exact absurd rfl (hne st)
      | _ => exact ⟨hx.isDated, rfl⟩

/-- A permit is taken, waited for or returned. -/
theorem Together.tryPermit (h : Together b w m ls ended) (hmay : May b m .tryPermit) (x : Bool) :
    ∃ n, Answers m .tryPermit x n ∧ Together b w n ls ended := by
  cases m with
  | alone u =>
    obtain ⟨rfl, rfl, rfl⟩ := h
    obtain ⟨jobs, hroster⟩ := hmay
    refine ⟨_, rfl, hroster.standing, List.suffix_refl _, fun _ hj => hj, ?_, fun _ hl => (nomatch hl),
      fun _ hr => nomatch hr⟩
    rw [hroster.underway]
    exact .refl _
  | convoy before todo hand => exact ⟨_, rfl, h⟩

/-- A call of an upload. -/
theorem Together.called (h : Together b w m (ls ++ l :: ks) ended) (hmay : (errands b).may l e)
    (hx : Chronicle.Unfailing w e x v) : ∃ k, Tells l e x k ∧ Together b v m (ls ++ k :: ks) ended := by
  cases m with
  | alone u => exact absurd h.2.1 (List.append_ne_nil_of_right_ne_nil _ (List.cons_ne_nil _ _))
  | convoy before todo hand =>
    by_cases hjobs : ∃ st, e = .jobs st
    · obtain ⟨st, rfl⟩ := hjobs
      cases l with
      | home => exact (hmay st rfl).elim
      | out c told => exact ⟨.home, Abreast.settle h (hmay st rfl) hx⟩
    · have hne : ∀ st, e ≠ .jobs st := fun st heq => hjobs ⟨st, heq⟩
      cases l with
      | home => exact ⟨.home, ⟨hx.isDated, rfl⟩, Abreast.quietly h (hx.quietly hne)⟩
      | out c told =>
        refine ⟨.out c (⟨e, x, w.jobs, w.jobs⟩ :: told), ?_, hx.eq_write hne ▸ Abreast.note h ?_⟩
        · cases e with
          | jobs st => exact absurd rfl (hne st)
          | _ => exact ⟨hx.1, _, ⟨hx.isDated, _, _, rfl⟩, rfl⟩
        · exact Chronicle.turn_of_ne_jobs hne x w.jobs w.jobs

/-- The guide of a pass where nothing fails. -/
def guide (b : Backup) : Guide b Chronicle.Unfailing Lookout Errand where
  main := mainLine b
  upload := errands b
  ends r l := ∃ state, r = .ok state ∧ state.IsResult ∧ l = .home
  inv w m ls ended _ := Together b w m ls ended
  engine h hmay hx := h.engine hmay hx
  refused h hmay := h.tryPermit hmay false
  granted h hmay := h.tryPermit hmay true
  waited {w m ls ended free} h hmay := by
    cases m with
    | alone u => exact hmay.elim
    | convoy before todo hand => exact ⟨_, rfl, h⟩
  returned {w m ls ended free} h hmay := by
    cases m with
    | alone u => exact hmay.elim
    | convoy before todo hand => exact ⟨_, rfl, h⟩
  started {w m ls ended free j} h hmay := by
    cases m with
    | alone u => exact hmay.elim
    | convoy before todo hand =>
      obtain ⟨rfl, hupload⟩ := hmay
      exact ⟨.convoy before todo none, .out j [], rfl, work_keeps b (Abreast.running h) hupload, Abreast.start h⟩
  joined {w m ls r ended free} h hmay := by
    cases m with
    | alone u => exact hmay.elim
    | convoy before todo hand => exact ⟨.convoy before todo hand, ⟨h.ended r (.head _), rfl⟩, h.joined⟩
  called h hmay hx := h.called hmay hx
  left {w m ls l ks ended free r} h hends := by
    obtain ⟨state, rfl, hresult, rfl⟩ := hends
    cases m with
    | alone u => exact absurd h.2.1 (List.append_ne_nil_of_right_ne_nil _ (List.cons_ne_nil _ _))
    | convoy before todo hand => exact Abreast.left h ⟨state, rfl, hresult⟩

end Guide

end Convoy

end MediaBackup

import MediaBackup.Proofs.Pass.Crew
import MediaBackup.Proofs.Pass.Rules
import MediaBackup.Proofs.Recovery.Uploading

/-
  A pass under way in a world in which nothing fails.

  Before its first upload the main line is alone, so it is followed by the scene itself; from then on it is followed by
  what it knows of the uploads.  `course` says what it may ask and has to expect, and the guide of the pass that its
  expectations are met.  A crew that keeps to the guide can always go on, unless it is at its end.
-/

namespace MediaBackup

/-- What follows the main line of a pass. -/
inductive Helm where
  /-- There was no upload so far. -/
  | alone (s : Scene)
  | uploading (u : Uploading)

namespace Helm

open Scene

/-- What a main line may ask. -/
def May : Helm → PassCall → Prop
  | alone _, .engine _ => True
  | alone s, .tryPermit => s.Fit
  | uploading _, .engine .now => True
  | uploading _, .engine (.emit _) => True
  | uploading _, .engine .network => True
  | uploading u, .engine (.jobs (.updateIf j change)) => u.hand = none ∧ j.IsProper ∧
      ∃ id now r, now.IsDate ∧ change = j.claimChange now ∧ j.key = .upload id ∧ id ∉ u.taken ∧
        u.frozen.jobs.at? j.key = some r ∧ r.isCurrent j = true
  | uploading u, .tryPermit => u.holds = false
  | uploading u, .waitPermit => u.holds = false
  | uploading u, .start c => u.hand = some c ∧ u.holds = true
  | uploading u, .join => u.opened ≠ 0
  | _, _ => False

/-- What a main line has to expect, and what follows it then. -/
def Goes (ids : List String) : Helm → (c : PassCall) → c.Answer → Helm → Prop
  | alone s, .engine c, x, m => ∃ t, Kindly ids s c x t ∧ m = alone t
  | alone s, .tryPermit, x, m => x = true ∧ m = uploading ⟨s, [], true, none, 0⟩
  | uploading u, .engine .now, x, m => x.IsDate ∧ m = uploading u
  | uploading u, .engine .network, x, m => (x = none ∨ ∃ info, x = some (.ok info) ∧ info.IsFree) ∧
      m = uploading u
  | uploading u, .engine (.jobs (.updateIf j change)), .ok won, m => won = true ∧ ∃ id, j.key = .upload id ∧
      m = uploading { u with hand := some (j.claimed change), taken := id :: u.taken }
  | uploading _, .engine (.jobs _), .error _, _ => False
  | uploading u, .tryPermit, x, m => m = uploading { u with holds := x }
  | uploading u, .waitPermit, _, m => m = uploading { u with holds := true }
  | uploading u, .start _, _, m =>
    m = uploading { u with hand := none, holds := false, opened := u.opened + 1 }
  | uploading u, .join, r, m => r = .ok .succeeded ∧ m = uploading { u with opened := u.opened - 1 }
  | m, _, _, m' => m' = m

/-- The protocol of main lines. -/
def course (ids : List String) : Protocol PassCall PassCall.Answer Helm where
  may := May
  answers := Goes ids

/-- What holds of the world where the main line is followed so. -/
def Holds (permits : Nat) (s : Scene) (m : Helm) (ls : List Leg)
    (ended : List (Except Stop JobState)) (free : Nat) :
    Prop :=
  match m with
  | alone s' => s' = s ∧ s.clock.IsDate ∧ ls = [] ∧ ended = [] ∧ free = permits
  | uploading u => Underway permits u s ls ended free

variable {ids : List String} {permits : Nat} {s t : Scene} {m : Helm} {ls ks : List Leg} {l : Leg}
  {ended : List (Except Stop JobState)} {free : Nat}

/-- The main line is answered as it has to expect. -/
theorem Holds.engine (h : Holds permits s m ls ended free) {e : Call}
    (hm : (course ids).may m (.engine e)) {x : e.Answer} (hx : Kindly ids s e x t) :
    ∃ n, (course ids).answers m (.engine e) x n ∧ Holds permits t n ls ended free := by
  cases m with
  | alone s' =>
    obtain ⟨rfl, hclock, hls, hended, hfree⟩ := h
    exact ⟨alone t, ⟨t, hx, rfl⟩, rfl, (hx.clock hclock).1, hls, hended, hfree⟩
  | uploading u =>
    have hu : Underway permits u s ls ended free := h
    obtain ⟨ha, hf⟩ := hx
    cases e with
    | now =>
      obtain ⟨hdate, rfl⟩ := ha
      exact ⟨uploading u, ⟨hdate, rfl⟩, hu.onward (Spares.same hu.fit rfl rfl hdate hf fun _ _ he => he)⟩
    | emit e =>
      obtain rfl : t = s := ha
      exact ⟨uploading u, rfl, h⟩
    | network =>
      obtain rfl : t = s := ha
      exact ⟨uploading u, ⟨hf, rfl⟩, h⟩
    | jobs st =>
      cases x with
      | error fault => exact hf.elim
      | ok x =>
      obtain ⟨rfl, rfl⟩ := ha
      cases st with
      | updateIf j change =>
        obtain ⟨hhand, hproper, id, now, r, hdate, rfl, hkey, hid, hr, hc⟩ := hm
        -- nobody changed the row of an upload that was not taken
        have hrow : s.jobs.at? j.key = some r := by
          refine (hu.others j.key fun id' hid' he => hid ?_).trans hr
          exact JobKey.upload.inj (hkey.symm.trans he) ▸ hid'
        have hanswer : ((JobStatement.updateIf j (j.claimChange now)).run s.jobs).1 = true := by
          have hrow' : s.jobs.row? j.key.text = some r := hrow
          rw [JobTable.answer_updateIf hu.fit.jobs.keyed, hrow']
          exact hc
        have hset := JobTable.sets_updateIf hu.fit.jobs.keyed hrow hc (j.claimChange now)
        have hspares := Spares.updated hu.fit hrow hc (hproper.claimChange hdate)
        rw [hkey] at hspares
        refine ⟨_, ⟨hanswer, id, hkey, rfl⟩, hu.claim hhand hid hspares ?_ hkey⟩
        refine ⟨rfl, hproper.claimed (hproper.claimChange hdate), _, hset.own, ?_⟩
        exact JobRow.isCurrent_iff.2 ⟨(JobRow.isCurrent_iff.1 hc).1, rfl, rfl⟩
      | _ => exact hm.elim
    | _ => exact hm.elim

end Helm

open Helm in
/-- The guide of a pass. -/
def Recovery.guide (b : Backup) (ids : List String) (hpermits : 0 < b.permits)
    (hu : Upload.breakdown? b.uploads = none) :
    Guide b (Scene.Kindly ids) Helm Leg where
  main := course ids
  upload := Leg.legs b.uploads True
  ends := Leg.Ends True
  inv s m ls ended free := Holds b.permits s m ls ended free
  engine h hm hx := h.engine hm hx
  refused {s m ls ended} h hm := by
    cases m with
    | alone s' =>
      obtain ⟨_, _, _, _, hfree⟩ := h
      omega
    | uploading u =>
      obtain ⟨frozen, taken, holds, hand, opened⟩ := u
      obtain rfl : holds = false := hm
      exact ⟨_, rfl, h⟩
  granted {s m ls ended free} h hm := by
    cases m with
    | alone s' =>
      obtain ⟨rfl, _, rfl, rfl, hfree⟩ := h
      exact ⟨_, ⟨rfl, rfl⟩, Underway.begin hm hfree⟩
    | uploading u => exact ⟨_, rfl, Underway.permit h hm⟩
  waited {s m ls ended free} h hm := by
    cases m with
    | alone s' => exact hm.elim
    | uploading u => exact ⟨_, rfl, Underway.permit h hm⟩
  returned {s m ls ended free} h hm := by
    cases m with
    | alone s' => exact hm.elim
    | uploading u => exact hm.elim
  started {s m ls ended free j} h hm := by
    cases m with
    | alone s' => exact hm.elim
    | uploading u =>
      obtain ⟨hhand, hholds⟩ := hm
      obtain ⟨id, hkey, hstart⟩ := Underway.start h hhand hholds
      obtain ⟨⟨hrunning, hproper, _⟩, _⟩ := Underway.hand h j hhand
      have hwork : (b.work j).run.Keeps (Leg.legs b.uploads True) (Leg.Ends True) ⟨id, j, .idle⟩ :=
        Backup.work_keeps (l := ⟨id, j, .idle⟩) hkey hproper hrunning rfl fun _ => hu
      exact ⟨_, ⟨id, j, .idle⟩, rfl, hwork, hstart⟩
  joined {s m ls r ended free} h hm := by
    cases m with
    | alone s' => exact hm.elim
    | uploading u =>
      obtain ⟨hr, hjoin⟩ := Underway.join h
      exact ⟨_, ⟨hr, rfl⟩, hjoin⟩
  called {s m ls l ks ended free e x t} h hm hx := by
    cases m with
    | alone s' =>
      obtain ⟨_, _, hls, _⟩ := h
      exact absurd hls (List.append_ne_nil_of_right_ne_nil _ (List.cons_ne_nil _ _))
    | uploading u => exact Underway.called h hm hx
  left {s m ls l ks ended free r} h hends := by
    cases m with
    | alone s' =>
      obtain ⟨_, _, hls, _⟩ := h
      exact absurd hls (List.append_ne_nil_of_right_ne_nil _ (List.cons_ne_nil _ _))
    | uploading u =>
      rcases hends with ⟨hclosed, hr, _⟩ | ⟨hlost, _⟩
      · rw [hr trivial]
        exact Underway.leave h hclosed
      · have hat := (Underway.legs h l (List.mem_append_right _ List.mem_cons_self)).2
        unfold Leg.IsAt at hat
        rw [hlost] at hat
        exact hat.elim

namespace Recovery

variable {α : Type} {b : Backup} {ids : List String} {hpermits : 0 < b.permits}
  {hu : Upload.breakdown? b.uploads = none}
  {post : α → Helm → Prop} {c : Crew α} {s : Scene}

/-- A crew that is not at its end can go on. -/
theorem exists_goes (h : (guide b ids hpermits hu).Holds post c s) :
    (∃ a, c.main = .done a) ∨ ∃ d t, Crew.Goes b (Scene.Kindly ids) c s d t := by
  obtain ⟨m, row, hmain, hrow, _, hinv⟩ := h
  have hclock : s.clock.IsDate := by
    cases m with
    | alone s' => exact hinv.2.1
    | uploading u => exact hinv.fit.clock
  rcases Crew.exists_goes (Scene.exists_kindly ids hclock) c with hdone | hgoes | ⟨hnone, hwait⟩
  · exact .inl hdone
  · exact .inr hgoes
  · -- where nobody is under way all permits are free, and there is nothing to join
    have hls : row.map Prod.snd = [] := by
      rw [List.map_eq_nil_iff.1 (hrow.symm.trans hnone)]
      rfl
    rw [hls] at hinv
    cases m with
    | alone s' =>
      rcases hwait with ⟨_, next, he⟩ | ⟨_, next, he⟩
      · rw [he] at hmain
        exact hmain.1.elim
      · rw [he] at hmain
        exact hmain.1.elim
    | uploading u =>
      have hpermits' := Underway.permits hinv
      have hopened := Underway.opened hinv
      rcases hwait with ⟨hfree, next, he⟩ | ⟨hended, next, he⟩
      · rw [he] at hmain
        have hholds : u.holds = false := hmain.1
        rw [hfree, hholds, if_neg Bool.false_ne_true] at hpermits'
        have : b.permits = 0 := hpermits'.symm
        omega
      · rw [he] at hmain
        have hne : u.opened ≠ 0 := hmain.1
        rw [hended] at hopened
        exact absurd hopened hne

end Recovery

end MediaBackup

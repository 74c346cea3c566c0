import MediaBackup.Proofs.Recovery.Tidy
import MediaBackup.Proofs.Upload.Leg

/-
  Uploads under way in a world in which nothing fails.

  While uploads are under way, the main line remembers the scene from before the first of them.  Every row that it took
  no upload from is still as it was then (`Underway.others`).  Of the items that it took, the one in hand is claimed, one
  with a leg is on its way, and every other one is DELIVERED: its job has succeeded, and the item is uploaded if it is
  known.  The permits that are free, the uploads and the permit in hand are together what there was.

  An answer to one leg changes only what belongs to its item (`Underway.turn`).
-/

namespace MediaBackup

namespace Scene

/-- The upload of an item has succeeded, and the item is uploaded if it is known. -/
def Delivered (s : Scene) (id : String) : Prop :=
  (∃ r, s.jobs.at? (.upload id) = some r ∧ r.state = JobState.succeeded.name) ∧
    (s.items.Knows id → s.items.Uploaded id)

/-- The job of a copy runs. -/
def Runs (s : Scene) (c : Job) : Prop :=
  c.state = .running ∧ c.IsProper ∧ ∃ r, s.jobs.at? c.key = some r ∧ r.isCurrent c = true

/-- A scene went on, but not for the jobs of these keys. -/
structure Spares (p : JobKey → Prop) (s t : Scene) : Prop where
  fit : t.Fit
  le : s.clock.nanos ≤ t.clock.nanos
  rows : ∀ k, p k → t.jobs.at? k = s.jobs.at? k
  sent : ∀ (n : Nat) e, s.sent[n]? = some e → t.sent[n]? = some e
  known : ∀ id, t.items.Knows id ↔ s.items.Knows id
  uploaded : ∀ id, s.items.Uploaded id → t.items.Uploaded id

variable {s t : Scene} {p : JobKey → Prop} {id : String} {c : Job}

/-- A scene whose tables are as they were goes on for no job. -/
theorem Spares.same (h : s.Fit) (hj : t.jobs = s.jobs) (hi : t.items = s.items) (hc : t.clock.IsDate)
    (hle : s.clock.nanos ≤ t.clock.nanos)
    (hsent : ∀ (n : Nat) e, s.sent[n]? = some e → t.sent[n]? = some e) :
    Spares p s t where
  fit := h.later ⟨hi, hle, hc⟩ (hj ▸ h.jobs)
  le := hle
  rows _ _ := by rw [hj]
  sent := hsent
  known _ := by rw [hi]
  uploaded _ hu := hi ▸ hu

/-- A change of the row of a job goes on for this job only. -/
theorem Spares.updated (h : s.Fit) {j : Job} {r : JobRow} (hr : s.jobs.at? j.key = some r)
    (hc : r.isCurrent j = true)
    {change : Change} (hproper : change.IsProper) :
    Spares (· ≠ j.key) s { s with jobs := ((JobStatement.updateIf j change).run s.jobs).2 } where
  fit := h.later ⟨rfl, Int.le_refl _, h.clock⟩ (h.jobs.run hproper fun _ he => (nomatch he))
  le := Int.le_refl _
  rows k hk := (JobTable.sets_updateIf h.jobs.keyed hr hc change).others k hk
  sent _ _ he := he
  known _ := Iff.rfl
  uploaded _ hu := hu

/-- A mark goes on for no job. -/
theorem Spares.marked (h : s.Fit) (id : String) (time : Instant) :
    Spares p s { s with items := ((ItemStatement.mark id time).run s.items).2 } where
  fit := h.mark id time
  le := Int.le_refl _
  rows _ _ := rfl
  sent _ _ he := he
  known id' := by
    refine ⟨fun ⟨r, hr⟩ => ?_, fun hk => hk.run _⟩
    replace hr : ItemTable.row? ((ItemStatement.mark id time).run s.items).2 id' = some r := hr
    rw [ItemTable.row?_run] at hr
    obtain ⟨q, hq, _⟩ := Option.map_eq_some_iff.1 hr
    exact ⟨q, hq⟩
  uploaded _ hu := hu.run _

theorem Delivered.spares (h : s.Delivered id) (hs : Spares p s t) (hp : p (.upload id)) :
    t.Delivered id := by
  obtain ⟨⟨r, hr, hstate⟩, hup⟩ := h
  exact ⟨⟨r, (hs.rows _ hp).trans hr, hstate⟩, fun hk => hs.uploaded id (hup ((hs.known id).1 hk))⟩

theorem Runs.spares (h : s.Runs c) (hs : Spares p s t) (hp : p c.key) : t.Runs c := by
  obtain ⟨hr, hproper, r, hrow, hc⟩ := h
  exact ⟨hr, hproper, r, (hs.rows _ hp).trans hrow, hc⟩

end Scene

namespace Leg

/-- How far an upload is at its stand. -/
def IsAt (s : Scene) (l : Leg) : Prop :=
  match l.stand with
  | .idle | .acked => s.Runs l.job
  | .waiting n body => s.Runs l.job ∧ body.content.failure = none ∧ ∃ request,
      s.sent[n]? = some (request, body)
  | .marked => s.Runs l.job ∧ (s.items.Knows l.id → s.items.Uploaded l.id)
  | .closed => s.Delivered l.id
  | .lost => False

theorem IsAt.spares {s t : Scene} {l : Leg} (h : l.IsAt s) {p : JobKey → Prop} (hs : s.Spares p t)
    (hkey : l.job.key = .upload l.id)
    (hp : p (.upload l.id)) : l.IsAt t := by
  have hp' : p l.job.key := hkey ▸ hp
  unfold IsAt at *
  split at h
  · exact h.spares hs hp'
  · exact h.spares hs hp'
  · obtain ⟨hr, hbody, request, hn⟩ := h
    exact ⟨hr.spares hs hp', hbody, request, hs.sent _ _ hn⟩
  · exact ⟨h.1.spares hs hp', fun hk => hs.uploaded _ (h.2 ((hs.known _).1 hk))⟩
  · exact h.spares hs hp
  · exact h

end Leg

/-- What the main line knows while uploads are under way. -/
structure Uploading where
  /-- The scene before the first of them. -/
  frozen : Scene
  /-- The items whose upload it claimed. -/
  taken : List String
  /-- It holds a permit. -/
  holds : Bool
  /-- It claimed this upload and did not start it yet. -/
  hand : Option Job
  /-- How many uploads it started and did not join yet. -/
  opened : Nat

namespace Uploading

/-- The item of the upload in hand. -/
def inHand (u : Uploading) : List String := (u.hand.bind fun c => c.key.item?).toList

end Uploading

open Scene

/-- Uploads are under way. -/
structure Underway (permits : Nat) (u : Uploading) (s : Scene) (ls : List Leg)
    (ended : List (Except Stop JobState))
    (free : Nat) : Prop where
  fit : s.Fit
  le : u.frozen.clock.nanos ≤ s.clock.nanos
  known : ∀ id, s.items.Knows id ↔ u.frozen.items.Knows id
  uploaded : ∀ id, u.frozen.items.Uploaded id → s.items.Uploaded id
  others : ∀ k, (∀ id ∈ u.taken, k ≠ .upload id) → s.jobs.at? k = u.frozen.jobs.at? k
  hand : ∀ c, u.hand = some c → s.Runs c ∧ ∃ id, c.key = .upload id
  legs : ∀ l ∈ ls, l.job.key = .upload l.id ∧ l.IsAt s
  apart : (u.inHand ++ ls.map Leg.id).Nodup
  taken : ∀ id ∈ u.inHand ++ ls.map Leg.id, id ∈ u.taken
  delivered : ∀ id ∈ u.taken, id ∉ u.inHand ++ ls.map Leg.id → s.Delivered id
  permits : free + ls.length + (if u.holds then 1 else 0) = permits
  opened : u.opened = ls.length + ended.length
  ended : ∀ r ∈ ended, r = .ok .succeeded

namespace Underway

variable {permits : Nat} {u : Uploading} {s t : Scene} {ls ks : List Leg}
  {ended : List (Except Stop JobState)}
  {free : Nat} {l : Leg} {c : Job}

/-- When an upload was answered only what belongs to its item has to be looked at. -/
theorem turn (h : Underway permits u s (ls ++ l :: ks) ended free) {st : Stand}
    (hs : s.Spares (· ≠ .upload l.id) t) (hl : (l.move st).IsAt t) :
    Underway permits u t (ls ++ l.move st :: ks) ended free := by
  have hids : (ls ++ l.move st :: ks).map Leg.id = (ls ++ l :: ks).map Leg.id := by
    simp only [List.map_append, List.map_cons, Leg.move_id]
  have hlen : (ls ++ l.move st :: ks).length = (ls ++ l :: ks).length := by
    simp only [List.length_append, List.length_cons]
  have hmem : l ∈ ls ++ l :: ks := List.mem_append_right _ List.mem_cons_self
  -- no other leg and no upload in hand is of this item
  have hapart := h.apart
  rw [List.map_append, List.map_cons] at hapart
  obtain ⟨hhand, hlegs, hsplit⟩ := List.nodup_append.1 hapart
  obtain ⟨_, hks, hls⟩ := List.nodup_append.1 hlegs
  have hother : ∀ k ∈ ls ++ ks, k.id ≠ l.id := by
    intro k hk he
    rcases List.mem_append.1 hk with hk | hk
    · exact hls k.id (List.mem_map_of_mem hk) l.id List.mem_cons_self he
    · exact (List.nodup_cons.1 hks).1 (he ▸ List.mem_map_of_mem hk)
  have hne : ∀ {id}, id ≠ l.id → JobKey.upload id ≠ .upload l.id := fun hid he => hid (JobKey.upload.inj he)
  refine ⟨hs.fit, Int.le_trans h.le hs.le, fun id => (hs.known id).trans (h.known id),
    fun id hu => hs.uploaded id (h.uploaded id hu), ?_, ?_, ?_, hids ▸ h.apart, hids ▸ h.taken, ?_,
      hlen ▸ h.permits,
    hlen ▸ h.opened, h.ended⟩
  · intro k hk
    have htaken : l.id ∈ u.taken := h.taken _ (List.mem_append_right _ (List.mem_map_of_mem hmem))
    exact (hs.rows k (hk l.id htaken)).trans (h.others k hk)
  · intro c hc
    obtain ⟨hruns, id, hkey⟩ := h.hand c hc
    refine ⟨hruns.spares hs ?_, id, hkey⟩
    rw [hkey]
    refine hne fun he => ?_
    have hin : id ∈ u.inHand := by
      unfold Uploading.inHand
      rw [hc, Option.bind_some, hkey]
      exact List.mem_singleton.2 rfl
    exact hsplit id hin l.id (List.mem_append_right _ List.mem_cons_self) he
  · intro k hk
    rcases List.mem_append.1 hk with hk | hk
    · obtain ⟨hkey, hat⟩ := h.legs k (List.mem_append_left _ hk)
      exact ⟨hkey, hat.spares hs hkey (hne (hother k (List.mem_append_left _ hk)))⟩
    · rcases List.mem_cons.1 hk with rfl | hk
      · exact ⟨(h.legs l hmem).1, hl⟩
      · obtain ⟨hkey, hat⟩ := h.legs k (List.mem_append_right _ (List.mem_cons_of_mem _ hk))
        exact ⟨hkey, hat.spares hs hkey (hne (hother k (List.mem_append_right _ hk)))⟩
  · intro id hid hno
    rw [hids] at hno
    refine (h.delivered id hid hno).spares hs (hne fun he => hno ?_)
    exact he ▸ List.mem_append_right _ (List.mem_map_of_mem hmem)

/-- A main line that is answered without anything being changed for its uploads. -/
theorem onward (h : Underway permits u s ls ended free) (hs : s.Spares (fun _ => True) t) :
    Underway permits u t ls ended free where
  fit := hs.fit
  le := Int.le_trans h.le hs.le
  known id := (hs.known id).trans (h.known id)
  uploaded id hu := hs.uploaded id (h.uploaded id hu)
  others k hk := (hs.rows k trivial).trans (h.others k hk)
  hand c hc := ⟨(h.hand c hc).1.spares hs trivial, (h.hand c hc).2⟩
  legs l hl := ⟨(h.legs l hl).1, (h.legs l hl).2.spares hs (h.legs l hl).1 trivial⟩
  apart := h.apart
  taken := h.taken
  delivered id hid hno := (h.delivered id hid hno).spares hs trivial
  permits := h.permits
  opened := h.opened
  ended := h.ended

/-- The main line claims the upload of one more item. -/
theorem claim (h : Underway permits u s ls ended free) {id : String} (hhand : u.hand = none)
    (hid : id ∉ u.taken)
    (hs : s.Spares (· ≠ .upload id) t) (hc : t.Runs c) (hkey : c.key = .upload id) :
    Underway permits { u with hand := some c, taken := id :: u.taken } t ls ended free := by
  have hin : u.inHand = [] := by
    unfold Uploading.inHand
    rw [hhand]
    rfl
  have hin' : Uploading.inHand { u with hand := some c, taken := id :: u.taken } = [id] := by
    unfold Uploading.inHand
    rw [Option.bind_some, hkey]
    rfl
  have hlegs : ∀ id' ∈ ls.map Leg.id, id' ∈ u.taken :=
    fun id' hid' => h.taken id' (List.mem_append_right _ hid')
  have hne : ∀ {id'}, id' ∈ u.taken → JobKey.upload id' ≠ .upload id :=
    fun hmem he => hid (JobKey.upload.inj he ▸ hmem)
  have hapart := h.apart
  rw [hin] at hapart
  refine ⟨hs.fit, Int.le_trans h.le hs.le, fun id => (hs.known id).trans (h.known id),
    fun id hu => hs.uploaded id (h.uploaded id hu), ?_, ?_, ?_, ?_, ?_, ?_, h.permits, h.opened, h.ended⟩
  · intro k hk
    refine (hs.rows k (hk id List.mem_cons_self)).trans
      (h.others k fun id' hid' => hk id' (List.mem_cons_of_mem _ hid'))
  · intro c' hc'
    obtain rfl := Option.some.inj hc'
    exact ⟨hc, id, hkey⟩
  · intro l hl
    obtain ⟨hk, hat⟩ := h.legs l hl
    exact ⟨hk, hat.spares hs hk (hne (hlegs _ (List.mem_map_of_mem hl)))⟩
  · rw [hin']
    exact List.nodup_cons.2 ⟨fun hmem => hid (hlegs id hmem), hapart⟩
  · rw [hin']
    intro id' hid'
    rcases List.mem_cons.1 hid' with rfl | hid'
    · exact List.mem_cons_self
    · exact List.mem_cons_of_mem _ (hlegs id' hid')
  · rw [hin']
    intro id' hid' hno
    rcases List.mem_cons.1 hid' with rfl | hid'
    · exact absurd List.mem_cons_self hno
    · refine (h.delivered id' hid' ?_).spares hs (hne hid')
      rw [hin]
      exact fun hmem => hno (List.mem_cons_of_mem _ hmem)

/-- The main line starts the upload in hand. -/
theorem start (h : Underway permits u s ls ended free) (hc : u.hand = some c) (hholds : u.holds = true) :
    ∃ id, c.key = .upload id ∧
      Underway permits { u with hand := none, holds := false, opened := u.opened + 1 } s
        (ls ++ [⟨id, c, .idle⟩]) ended free := by
  obtain ⟨hruns, id, hkey⟩ := h.hand c hc
  have hin : u.inHand = [id] := by
    unfold Uploading.inHand
    rw [hc, Option.bind_some, hkey]
    rfl
  have hperm : (u.inHand ++ ls.map Leg.id).Perm ((ls ++ [Leg.mk id c .idle]).map Leg.id) := by
    rw [hin, List.map_append]
    exact List.perm_append_comm
  have hpermits := h.permits
  have hopened := h.opened
  refine ⟨id, hkey, h.fit, h.le, h.known, h.uploaded, h.others,
    fun _ he => (nomatch he), ?_, hperm.nodup_iff.1 h.apart,
    fun id' hid' => h.taken id' (hperm.mem_iff.2 hid'),
      fun id' hid' hno => h.delivered id' hid' fun hmem => hno (hperm.mem_iff.1 hmem),
    ?_, ?_, h.ended⟩
  · intro l hl
    rcases List.mem_append.1 hl with hl | hl
    · exact h.legs l hl
    · obtain rfl := List.mem_singleton.1 hl
      exact ⟨hkey, hruns⟩
  · rw [hholds, if_pos rfl] at hpermits
    show free + (ls ++ [_]).length + (if false = true then 1 else 0) = permits
    rw [List.length_append, List.length_singleton, if_neg Bool.false_ne_true]
    omega
  · show u.opened + 1 = (ls ++ [_]).length + ended.length
    rw [List.length_append, List.length_singleton]
    omega

/-- The first permit is taken, and uploads are under way. -/
theorem begin (h : s.Fit) (hfree : free + 1 = permits) :
    Underway permits ⟨s, [], true, none, 0⟩ s [] [] free where
  fit := h
  le := Int.le_refl _
  known _ := Iff.rfl
  uploaded _ hu := hu
  others _ _ := rfl
  hand _ he := nomatch he
  legs _ hl := absurd hl List.not_mem_nil
  apart := List.nodup_nil
  taken _ hid := absurd hid List.not_mem_nil
  delivered _ hid := absurd hid List.not_mem_nil
  permits := hfree
  opened := rfl
  ended _ hr := absurd hr List.not_mem_nil

/-- The main line takes a permit. -/
theorem permit (h : Underway permits u s ls ended (free + 1)) (hholds : u.holds = false) :
    Underway permits { u with holds := true } s ls ended free := by
  obtain ⟨hfit, hle, hknown, huploaded, hothers, hhand, hlegs, hapart, htaken, hdelivered, hpermits,
    hopened, hended⟩ := h
  rw [hholds, if_neg Bool.false_ne_true] at hpermits
  refine ⟨hfit, hle, hknown, huploaded, hothers, hhand, hlegs, hapart, htaken, hdelivered, ?_,
    hopened, hended⟩
  rw [if_pos rfl]
  omega

/-- The main line joins an upload. -/
theorem join {r : Except Stop JobState} (h : Underway permits u s ls (r :: ended) free) :
    r = .ok .succeeded ∧ Underway permits { u with opened := u.opened - 1 } s ls ended free := by
  obtain ⟨hfit, hle, hknown, huploaded, hothers, hhand, hlegs, hapart, htaken, hdelivered, hpermits,
    hopened, hended⟩ := h
  refine ⟨hended r List.mem_cons_self, hfit, hle, hknown, huploaded, hothers, hhand, hlegs, hapart,
    htaken, hdelivered,
    hpermits, ?_, fun r' hr' => hended r' (List.mem_cons_of_mem _ hr')⟩
  rw [List.length_cons] at hopened
  show u.opened - 1 = ls.length + ended.length
  omega

/-- An upload that is at its end leaves its permit. -/
theorem leave (h : Underway permits u s (ls ++ l :: ks) ended free) (hl : l.stand = .closed) :
    Underway permits u s (ls ++ ks) (ended ++ [.ok .succeeded]) (free + 1) := by
  have hmem : l ∈ ls ++ l :: ks := List.mem_append_right _ List.mem_cons_self
  have hperm :
    (u.inHand ++ (ls ++ l :: ks).map Leg.id).Perm (l.id :: (u.inHand ++ (ls ++ ks).map Leg.id)) := by
    rw [List.map_append, List.map_cons, List.map_append]
    exact (List.perm_middle.append_left _).trans List.perm_middle
  have hpermits := h.permits
  have hopened := h.opened
  rw [List.length_append, List.length_cons] at hpermits hopened
  refine ⟨h.fit, h.le, h.known, h.uploaded, h.others, h.hand, ?_,
    (List.nodup_cons.1 (hperm.nodup_iff.1 h.apart)).2, ?_, ?_, ?_, ?_, ?_⟩
  · intro k hk
    refine h.legs k ?_
    rcases List.mem_append.1 hk with hk | hk
    · exact List.mem_append_left _ hk
    · exact List.mem_append_right _ (List.mem_cons_of_mem _ hk)
  · exact fun id hid => h.taken id (hperm.mem_iff.2 (List.mem_cons_of_mem _ hid))
  · intro id hid hno
    by_cases he : id = l.id
    · have hat := (h.legs l hmem).2
      unfold Leg.IsAt at hat
      rw [hl] at hat
      exact he ▸ hat
    · refine h.delivered id hid fun hmem => ?_
      rcases List.mem_cons.1 (hperm.mem_iff.1 hmem) with hid' | hmem
      · exact he hid'
      · exact hno hmem
  · rw [List.length_append]
    omega
  · rw [List.length_append, List.length_append, List.length_singleton]
    omega
  · intro r hr
    rcases List.mem_append.1 hr with hr | hr
    · exact h.ended r hr
    · exact List.mem_singleton.1 hr

/-- Whatever an upload asks, it is answered as its protocol has it, and uploads are under way still. -/
theorem called {ids : List String} {us : UploadSettings}
    (h : Underway permits u s (ls ++ l :: ks) ended free) {e : Call}
    (hm : (Leg.legs us True).may l e) {x : e.Answer} (hx : Kindly ids s e x t) :
    ∃ k, (Leg.legs us True).answers l e x k ∧ Underway permits u t (ls ++ k :: ks) ended free := by
  obtain ⟨ha, hf⟩ := hx
  obtain ⟨hkey, hat⟩ := h.legs l (List.mem_append_right _ List.mem_cons_self)
  unfold Leg.IsAt at hat
  cases e with
  | now =>
    obtain ⟨hdate, rfl⟩ := ha
    exact ⟨l, ⟨hdate, rfl⟩, h.onward (Spares.same h.fit rfl rfl hdate hf fun _ _ he => he)⟩
  | emit e =>
    obtain rfl : t = s := ha
    exact ⟨l, rfl, h⟩
  | openItem id =>
    obtain rfl : t = s := ha
    exact ⟨l, ⟨rfl, fun _ => hf⟩, h⟩
  | send request body =>
    obtain ⟨hstand, _, _, hbody⟩ := hm
    obtain ⟨rfl, rfl⟩ := ha
    rw [hstand] at hat
    have hsent : ∀ (n : Nat) e, s.sent[n]? = some e → (s.sent ++ [(request, body)])[n]? = some e :=
      fun n e he =>
      (List.getElem?_append_left (List.getElem?_eq_some_iff.1 he).1).trans he
    refine ⟨_, rfl, h.turn (Spares.same h.fit rfl rfl h.fit.clock (Int.le_refl _) hsent) ?_⟩
    exact ⟨hat, hbody trivial, request, List.getElem?_concat_length⟩
  | await n =>
    obtain ⟨body, hstand⟩ := hm
    rw [hstand] at hat
    obtain ⟨hruns, hbody, request, hn⟩ := hat
    obtain ⟨r, rfl, hr⟩ := hf request body hn
    have hack := Exchange.acknowledges_of_whole hbody hr
    change s.Exchanges n _ t at ha
    unfold Scene.Exchanges at ha
    rw [hn] at ha
    obtain ⟨hform, ⟨_, rfl⟩ | ⟨hno, _⟩⟩ := ha
    · refine ⟨l.move .acked, ⟨n, body, hstand, hform, .inl ⟨hack, rfl⟩⟩, h.turn ?_ hruns⟩
      exact Spares.same h.fit rfl rfl h.fit.clock (Int.le_refl _) fun _ _ he => he
    · exact absurd hack hno
  | items st =>
    cases x with
    | error fault => exact hf.elim
    | ok x =>
    obtain ⟨_, rfl⟩ := ha
    cases st with
    | mark id time =>
      obtain ⟨hstand, rfl⟩ := hm
      rw [hstand] at hat
      refine ⟨_, rfl, h.turn (Spares.marked h.fit _ _) ⟨hat, fun hk => ?_⟩⟩
      obtain ⟨q, hq⟩ := (Spares.marked (p := fun _ => True) h.fit l.id time).known l.id |>.1 hk
      exact ItemTable.uploaded_run_mark ⟨q, hq⟩ time
    | «exists» id => exact ⟨l, rfl, h⟩
    | _ => exact hm.elim
  | jobs st =>
    cases x with
    | error fault => exact hf.elim
    | ok x =>
    obtain ⟨rfl, rfl⟩ := ha
    cases st with
    | updateIf j change =>
      obtain ⟨rfl, hproper, ⟨hstand, hsucceeded⟩ | ⟨_, hno, _⟩⟩ := hm
      · rw [hstand] at hat
        obtain ⟨⟨_, _, r, hr, hc⟩, hup⟩ := hat
        have hanswer : ((JobStatement.updateIf l.job change).run s.jobs).1 = true := by
          have hrow : s.jobs.row? l.job.key.text = some r := hr
          rw [JobTable.answer_updateIf h.fit.jobs.keyed, hrow]
          exact hc
        have hset := JobTable.sets_updateIf h.fit.jobs.keyed hr hc change
        have hspares := Spares.updated h.fit hr hc hproper
        rw [hkey] at hset hspares
        refine ⟨_, ⟨fun _ => hanswer, rfl⟩, h.turn hspares ⟨⟨_, hset.own, ?_⟩, hup⟩⟩
        exact congrArg JobState.name hsucceeded
      · exact absurd trivial hno
    | _ => exact hm.elim
  | _ => exact hm.elim

end Underway

end MediaBackup

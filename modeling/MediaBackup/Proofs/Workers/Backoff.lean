import MediaBackup.Proofs.Workers.Fencing
import MediaBackup.Proofs.Workers.Lifecycle
import MediaBackup.Proofs.Workers.Requests

/-
  The wait between two attempts of an upload.

  A claim never looks at the time, so that an upload waits until it is due rests on the states: nothing but a promotion
  takes a job out of the state `retrying`, and a promotion looks at the time.  A request does not replace an upload
  that waits, a recovery takes running jobs only, a claim takes queued ones only, however old its copy is, and pruning
  takes jobs that are over.

  So there are two invariants of the row.  Until the clock has shown the time the row stays what the completion wrote
  (`stays_of_early`).  Until a claim takes it, it keeps its count, whatever the time (`pending_of_untaken`).
-/

namespace MediaBackup.Workers

/-- The act is a completion that left the row of a key waiting for another attempt, with this count of attempts and
    until this time in milliseconds. -/
def Act.Delays (key : String) (count : Nat) (time : Int) : Act → Prop
  | .called _ (.complete _ _) (.jobs (.updateIf _ _)) _ before after =>
    before.row? key ≠ after.row? key ∧ ∃ row, after.row? key = some row ∧
      row.state = "retrying" ∧ row.attempt = .int count ∧ row.nextRunAt = .int time
  | _ => False

/-- The act is a claim that took the row of a key. -/
def Act.Takes (key : String) : Act → Prop
  | .called _ (.claim _) (.jobs (.updateIf _ _)) _ before after => before.row? key ≠ after.row? key
  | _ => False

/-- The clock has not shown this time in milliseconds, or a later one. -/
def Early (time : Int) (acts : List Act) : Prop := ∀ t ∈ readings acts, t.millis < time

/-- The row waits, in one state or the other, with this count of attempts. -/
def IsPending (count : Nat) (row : JobRow) : Prop :=
  (row.state = "retrying" ∨ row.state = "queued") ∧ row.attempt = .int count

variable {rules : RetryRules} {acts : List Act} {op : Operation} {s : JobStatement} {row : JobRow}
  {o' : Option JobRow} {id : String} {count : Nat} {time : Int}

/-! ## One move -/

/-- The row of an upload that waits is not replaced. -/
theorem not_isObserved_of_waits {observed : Job} (hkey : row.key = (JobKey.upload id).text)
    (hs : row.state = "retrying" ∨ row.state = "queued") (hreplaceable : observed.isReplaceable = true) :
    row.isObserved observed = false := by
  refine eq_false_of_ne_true fun hobserved => ?_
  obtain ⟨hk, hstate, _⟩ := JobRow.isObserved_iff.1 hobserved
  have hupload : observed.key = .upload id := JobKey.text_injective (hk.symm.trans hkey)
  unfold Job.isReplaceable at hreplaceable
  rw [hupload] at hreplaceable
  rcases hs with hs | hs
  · have hretrying : observed.state = .retrying := JobState.name_injective (hstate.symm.trans hs)
    rw [hretrying] at hreplaceable
    exact nomatch hreplaceable
  · have hqueued : observed.state = .queued := JobState.name_injective (hstate.symm.trans hs)
    rw [hqueued] at hreplaceable
    exact nomatch hreplaceable

/-- A move of an upload that waits is a claim of a queued row or a promotion of a due one. -/
theorem Move.of_waits (h : Move rules acts (JobKey.upload id).text op s (some row) o')
    (hkey : row.key = (JobKey.upload id).text) (hs : row.state = "retrying" ∨ row.state = "queued")
    (hreads : ∀ words, ¬ Overwrites (JobKey.upload id).text words acts) :
    (row.state = "queued" ∧ ∃ j change, op = .claim j ∧ s = .updateIf j change) ∨
      ∃ now, Shown acts now ∧ row.isPromotable now = true ∧ o' = some (row.promoted now) := by
  -- a row that waits is in no other state
  have hwaits {name : String} (hname : row.state = name) (hr : name ≠ "retrying") (hq : name ≠ "queued") : False := by
    rw [hname] at hs
    rcases hs with rfl | rfl
    · exact hr rfl
    · exact hq rfl
  cases h with
  | replaced _ _ hreplaceable hobserved =>
    rw [not_isObserved_of_waits hkey hs hreplaceable] at hobserved
    exact nomatch hobserved
  | quarantined howns _ => exact absurd howns (hreads _)
  | @claimed j now _ _ hq _ hcurrent =>
    obtain ⟨_, hstate, _⟩ := JobRow.isCurrent_iff.1 hcurrent
    rw [hq] at hstate
    exact .inl ⟨hstate, j, _, rfl, rfl⟩
  | completed _ hrun _ hcurrent =>
    obtain ⟨_, hstate, _⟩ := JobRow.isCurrent_iff.1 hcurrent
    rw [hrun] at hstate
    exact (hwaits hstate (by decide) (by decide)).elim
  | promoted hnow hpromotable => exact .inr ⟨_, hnow, hpromotable, rfl⟩
  | reset _ hrunning => exact (hwaits hrunning (by decide) (by decide)).elim
  | deleted _ hprunable =>
    rcases JobRow.isOver_of_isPrunable hprunable with hover | hover
    · exact (hwaits hover (by decide) (by decide)).elim
    · exact (hwaits hover (by decide) (by decide)).elim

/-! ## From the completion on -/

variable {past earlier : List Act} {shop : Shop} {a : Act}

theorem Early.of_append (later : List Act) (h : Early time (later ++ earlier)) : Early time earlier := by
  intro t ht
  obtain ⟨b, hb, hreading⟩ := List.mem_filterMap.1 ht
  exact h t (List.mem_filterMap.2 ⟨b, List.mem_append_right _ hb, hreading⟩)

/-- A promotion that looked at the clock too early does not find the row due. -/
theorem Early.not_isPromotable {n : Nat} (h : Early time earlier) (htime : row.nextRunAt = .int time) {now : Instant}
    (hnow : Shown (own n earlier) now) : row.isPromotable now = false := by
  refine eq_false_of_ne_true fun hdue => ?_
  obtain ⟨b, hb, hreading⟩ := List.mem_filterMap.1 hnow.mem_readings
  have hlt : now.millis < time := h now (List.mem_filterMap.2 ⟨b, mem_of_mem_own hb, hreading⟩)
  have hle : (Cell.int time).le (.int now.millis) = true := htime ▸ (JobRow.isPromotable_iff.1 hdue).2
  have hge : time ≤ now.millis := Cell.le_int.1 hle
  omega

/-- Until the clock shows its time, the row of an upload that waits for another attempt stays. -/
theorem stays_of_early (later : List Act) (hacts : Each (Act.IsRegular rules Named []) (later ++ earlier))
    (hearly : Early time (later ++ earlier))
    (hrow : (tableAfter [] earlier).row? (JobKey.upload id).text = some row) (hs : row.state = "retrying")
    (htime : row.nextRunAt = .int time) :
    (tableAfter [] (later ++ earlier)).row? (JobKey.upload id).text = some row := by
  refine kept_of_acts (P := fun t => t.row? (JobKey.upload id).text = some row) later hacts hrow ?_
  intro meanwhile n op c x before after hsuffix hcall hfound
  rcases moves_of_acts hcall (JobKey.upload id).text with hstays | ⟨s, rfl, hmove, _, hreads, _⟩
  · exact hstays.trans hfound
  rw [hfound] at hmove
  rcases hmove.of_waits (JobTable.key_of_row? hfound) (.inl hs) hreads with ⟨hqueued, _⟩ | ⟨now, hnow, hdue, _⟩
  · rw [hs] at hqueued
    exact absurd hqueued (by decide)
  · obtain ⟨since, rfl⟩ := hsuffix
    rw [List.append_assoc, List.cons_append] at hearly
    have hmeanwhile : Early time (meanwhile ++ earlier) := (hearly.of_append since).of_append [_]
    rw [hmeanwhile.not_isPromotable htime hnow] at hdue
    exact nomatch hdue

/-- Until then no act changes the row. -/
theorem not_changes_of_early {later : List Act} (hacts : Each (Act.IsRegular rules Named []) (later ++ earlier))
    (hearly : Early time (later ++ earlier))
    (hrow : (tableAfter [] earlier).row? (JobKey.upload id).text = some row) (hs : row.state = "retrying")
    (htime : row.nextRunAt = .int time) {b : Act} (hb : b ∈ later) : ¬ b.Changes (JobKey.upload id).text := by
  obtain ⟨since, meanwhile, rfl⟩ := List.append_of_mem hb
  rw [List.append_assoc] at hacts hearly
  have hafter := stays_of_early (b :: meanwhile) hacts.of_append (hearly.of_append since) hrow hs htime
  have hbefore := stays_of_early meanwhile hacts.of_append.2 ((hearly.of_append since).of_append [b]) hrow hs htime
  cases b with
  | begun _ _ => exact False.elim
  | ended _ _ _ => exact False.elim
  | called n op c x before after =>
    have hregular : Regular rules [] (meanwhile ++ earlier) n op c x before after := hacts.of_append.1
    rw [← hregular.before_eq] at hbefore
    exact fun hchanges => hchanges (hbefore.trans hafter.symm)

/-- Until a claim takes it, an upload that waits keeps its count of attempts. -/
theorem pending_of_untaken (later : List Act) (hacts : Each (Act.IsRegular rules Named []) (later ++ earlier))
    (hrow : (tableAfter [] earlier).row? (JobKey.upload id).text = some row) (hpending : IsPending count row)
    (huntaken : ∀ b ∈ later, ¬ b.Takes (JobKey.upload id).text) :
    ∃ row, (tableAfter [] (later ++ earlier)).row? (JobKey.upload id).text = some row ∧ IsPending count row := by
  refine kept_of_acts (P := fun t => ∃ row, t.row? (JobKey.upload id).text = some row ∧ IsPending count row) later
    hacts ⟨row, hrow, hpending⟩ ?_
  rintro meanwhile n op c x before after hsuffix hcall ⟨row', hfound, hpending'⟩
  by_cases hsame : before.row? (JobKey.upload id).text = after.row? (JobKey.upload id).text
  · exact ⟨row', hsame.symm.trans hfound, hpending'⟩
  rcases moves_of_acts hcall (JobKey.upload id).text with hstays | ⟨s, rfl, hmove, _, hreads, _⟩
  · exact absurd hstays.symm hsame
  rw [hfound] at hmove
  rcases hmove.of_waits (JobTable.key_of_row? hfound) hpending'.1 hreads with
    ⟨_, j, change, rfl, rfl⟩ | ⟨now, _, _, hafter⟩
  · exact absurd hsame (huntaken _ (hsuffix.mem List.mem_cons_self))
  · exact ⟨row'.promoted now, hafter, .inr rfl, hpending'.2⟩

/-- Only an attempt below the maximum is followed by another. -/
theorem lt_of_retrying {p : RetryPolicy} {c : Job} {now : Instant} {o : Outcome}
    (h : (Verdict.of p c now o).state = .retrying) : c.attempt < p.maxAttempts := by
  cases o with
  | success => exact nomatch h
  | permanent f => exact nomatch h
  | retryable f =>
    unfold Verdict.of RetryPolicy.allowsRetry at h
    dsimp only at h
    split at h
    case isTrue hallowed => exact of_decide_eq_true hallowed
    case isFalse => exact nomatch h

/-- The row that a delay wrote, and the count of which is below the maximum. -/
theorem Act.Delays.exists_row (hacts : Each (Act.IsRegular rules Named []) (a :: earlier))
    (h : a.Delays (JobKey.upload id).text count time) :
    count < rules.uploads.maxAttempts ∧ ∃ row,
      (tableAfter [] (a :: earlier)).row? (JobKey.upload id).text = some row ∧
      row.state = "retrying" ∧ row.attempt = .int count ∧ row.nextRunAt = .int time := by
  unfold Act.Delays at h
  split at h
  case h_2 => exact h.elim
  rename_i n c o observed change x before after
  obtain ⟨hchanged, row, hrow, hs, hcount, htime⟩ := h
  refine ⟨?_, row, hrow, hs, hcount, htime⟩
  have hregular : Regular rules [] earlier n _ _ x before after := hacts.1
  rcases hregular.moves (JobKey.upload id).text with hstays | ⟨s, he, hmove⟩
  · exact absurd hstays.symm hchanged
  obtain rfl : JobStatement.updateIf observed change = s := Call.jobs.inj he
  rw [hrow] at hmove
  generalize before.row? (JobKey.upload id).text = q at hmove
  cases hmove with
  | @completed _ _ now row hkey _ _ _ =>
    have hupload : c.key = .upload id := JobKey.text_injective hkey
    have hretrying : (completeChange rules c o now).state = .retrying := JobState.name_injective hs
    have hlt := lt_of_retrying hretrying
    rw [hupload] at hlt
    have hattempt : Cell.int c.attempt = .int count := hcount
    rw [Cell.int.injEq] at hattempt
    have hpolicy : rules.policy (.upload id) = rules.uploads := rfl
    rw [hpolicy] at hlt
    omega

/-- While no act changes the row of its key, a claim returns a job only if it was granted before. -/
theorem granted_before {may : Policy} {start : JobTable} {later : List Act} {n : Nat} {j d : Job}
    (hacts : Each (Act.IsRegular rules may start) (later ++ earlier))
    (hquiet : ∀ b ∈ later, ¬ b.Changes j.key.text) (hended : .ended n (.claim j) (.ok (some d)) ∈ later) :
    ∃ change before after,
      .called n (.claim j) (.jobs (.updateIf j change)) (.ok true) before after ∈ earlier := by
  obtain ⟨since, meanwhile, hl⟩ := List.append_of_mem hended
  have hparts := hacts
  rw [hl, List.append_assoc, List.cons_append] at hparts
  have hconcludes : ClaimConcludes n j (own n (meanwhile ++ earlier)) (.ok (some d)) := hparts.of_split
  obtain ⟨now, hupdate, _⟩ := hconcludes
  obtain ⟨before, after, hown⟩ := hupdate.mem
  refine ⟨j.claimChange now, before, after, ?_⟩
  rcases List.mem_append.1 (mem_of_mem_own hown) with hm | hm
  · -- an update that was granted meanwhile would have changed the row
    have hlater : .called n (.claim j) (.jobs (.updateIf j (j.claimChange now))) (.ok true) before after ∈ later := by
      rw [hl]
      exact List.mem_append_right _ (List.mem_cons_of_mem _ hm)
    obtain ⟨l, m, hsplit⟩ := List.append_of_mem hlater
    rw [hsplit, List.append_assoc, List.cons_append] at hacts
    have hregular : Regular rules start (m ++ earlier) n _ _ _ before after := hacts.of_split
    exact absurd hregular.changes_of_granted (hquiet _ hlater)
  · exact hm

/-- A claim that takes an upload that waits counts one attempt more, in the row and in what it returns. -/
theorem counts_of_granted {since meanwhile : List Act} {n : Nat} {j : Job} {change : Change} {before after : JobTable}
    (hacts : Each (Act.IsRegular rules Named [])
      (since ++ .called n (.claim j) (.jobs (.updateIf j change)) (.ok true) before after :: (meanwhile ++ earlier)))
    (hkey : j.key = .upload id) (hcount : count + 1 < UInt32.size)
    (hrow : (tableAfter [] earlier).row? (JobKey.upload id).text = some row) (hpending : IsPending count row)
    (huntaken : ∀ b ∈ meanwhile, ¬ b.Takes (JobKey.upload id).text) :
    (∃ row, after.row? (JobKey.upload id).text = some row ∧ row.state = "running" ∧
      row.attempt = .int (count + 1 : Nat)) ∧
    ∀ d, .ended n (.claim j) (.ok (some d)) ∈ since → d.attempt = count + 1 := by
  have hregular : Regular rules [] (meanwhile ++ earlier) n _ _ _ before after := hacts.of_split
  obtain ⟨row', hrow', hcurrent, hafter⟩ := hregular.granted
  obtain ⟨_, _, _, now, _, rfl⟩ := hregular.mayDo
  rw [hkey, hregular.before_eq] at hrow'
  obtain ⟨row'', hrow'', _, hattempt⟩ := pending_of_untaken meanwhile hacts.of_append.2 hrow hpending huntaken
  obtain rfl : row' = row'' := Option.some.inj (hrow'.symm.trans hrow'')
  have hcopy : j.attempt = count := by
    have hboth : Cell.int j.attempt = .int count := (JobRow.isCurrent_iff.1 hcurrent).2.2.symm.trans hattempt
    rw [Cell.int.injEq] at hboth
    omega
  have hnext : min (j.attempt + 1) Job.attemptMax = count + 1 := by
    have hend : Job.attemptMax = UInt32.size - 1 := rfl
    omega
  refine ⟨⟨_, hkey ▸ hafter, rfl, congrArg (Cell.int ∘ Int.ofNat) hnext⟩, ?_⟩
  intro d hended
  obtain ⟨l, m, rfl⟩ := List.append_of_mem hended
  rw [List.append_assoc, List.cons_append] at hacts
  have hconcludes : ClaimConcludes n j _ (.ok (some d)) := hacts.of_split
  obtain ⟨_, _, rfl⟩ := hconcludes
  exact hnext

/-- **Backoff.**  Whatever workers do to a table that was empty, with keys that can be read back and copies that a row
    can hold, after a completion left an upload waiting for another attempt.  While the clock has not shown the time
    that was written, which a clock that never goes back shows only when it reaches it, no act changes the row, and no
    claim of its key returns a job unless it was granted before, so none that was begun since.  The first claim that
    takes the row counts one attempt more, whenever it comes. -/
theorem Run.backoff (h : Run rules Named [] past shop) {later : List Act} (hp : past = later ++ a :: earlier)
    (ha : a.Delays (JobKey.upload id).text count time) (hmax : rules.uploads.maxAttempts < UInt32.size) :
    (Early time past →
      (∀ b ∈ later, ¬ b.Changes (JobKey.upload id).text) ∧
      ∀ n j d, .ended n (.claim j) (.ok (some d)) ∈ later → j.key = .upload id →
        .begun n (.claim j) ∉ later ∧ ∃ change before after,
          .called n (.claim j) (.jobs (.updateIf j change)) (.ok true) before after ∈ earlier) ∧
    ∀ since meanwhile n j change before after,
      later = since ++ .called n (.claim j) (.jobs (.updateIf j change)) (.ok true) before after :: meanwhile →
      j.key = .upload id → (∀ b ∈ meanwhile, ¬ b.Takes (JobKey.upload id).text) →
      (∃ row, after.row? (JobKey.upload id).text = some row ∧ row.state = "running" ∧
        row.attempt = .int (count + 1 : Nat)) ∧
      ∀ d, .ended n (.claim j) (.ok (some d)) ∈ since → d.attempt = count + 1 := by
  have hacts := (h.conducted JobTable.keyed_nil).acts
  rw [hp] at hacts
  obtain ⟨hlt, row, hrow, hs, hcount, htime⟩ := ha.exists_row hacts.of_append
  refine ⟨?_, ?_⟩
  · intro hearly
    rw [hp] at hearly
    have hquiet : ∀ b ∈ later, ¬ b.Changes (JobKey.upload id).text :=
      fun b hb => not_changes_of_early hacts hearly hrow hs htime hb
    refine ⟨hquiet, ?_⟩
    intro n j d hended hkey
    rw [← hkey] at hquiet
    obtain ⟨change, before, after, hmem⟩ := granted_before hacts hquiet hended
    have hhabits := hacts.mono fun b earlier hb => hb.isHabitual
    have hnever : .begun n (.claim j) ∉ later := fun hbegun => absurd hmem (called_not_mem_of_begun hhabits hbegun)
    refine ⟨hnever, change, before, after, ?_⟩
    -- the completion is no claim
    rcases List.mem_cons.1 hmem with rfl | hm
    · exact ha.elim
    · exact hm
  · rintro since meanwhile n j change before after rfl hkey huntaken
    rw [List.append_assoc, List.cons_append] at hacts
    -- the count is below the maximum, so it does not stand at its end
    have hend : count + 1 < UInt32.size := by omega
    exact counts_of_granted hacts hkey hend hrow ⟨.inl hs, hcount⟩ huntaken

/-! ## An upload that waits -/

/-- When the upload is due again, in milliseconds. -/
def delayedUntil : Int := (completeChange .standard startedUpload lostConnection .epoch).nextRunAt.millis

theorem delays_delaying (n : Nat) : (delaying n).Delays (JobKey.upload "a").text 1 delayedUntil := by
  refine ⟨fun h => ?_, delayedUpload, rfl, rfl, rfl, rfl⟩
  have hstates : some "running" = some "retrying" := congrArg (Option.map JobRow.state) h
  exact absurd hstates (by decide)

/-- Until it is due no act changes the row of the upload. -/
theorem Run.backoff_delayed_upload : ∃ past shop later earlier n,
    Run .standard Named [] past shop ∧ past = later ++ delaying n :: earlier ∧
    (delaying n).Delays (JobKey.upload "a").text 1 delayedUntil ∧ RetryRules.standard.uploads.maxAttempts < UInt32.size ∧
    Early delayedUntil past ∧ ∀ b ∈ later, ¬ b.Changes (JobKey.upload "a").text := by
  obtain ⟨n, later, earlier, hepoch, h⟩ := Run.exists_delayed
  have hmax : RetryRules.standard.uploads.maxAttempts < UInt32.size := by decide
  have hpositive : Instant.epoch.millis < delayedUntil := by decide +kernel
  have hearly : Early delayedUntil (later ++ delaying n :: earlier) := fun t ht => (hepoch t ht).symm ▸ hpositive
  have hbackoff := h.backoff rfl (delays_delaying n) hmax
  exact ⟨_, _, later, earlier, n, h, rfl, delays_delaying n, hmax, hearly, (hbackoff.1 hearly).1⟩

end MediaBackup.Workers

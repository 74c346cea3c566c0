import MediaBackup.Upload.Attempt

/-
  What an acknowledgement means.

  An attempt takes an exchange for an acknowledgement if nothing speaks against it: the server took the
  request, no read failed, and the client took as many bytes as the content had.  Here this is the same as
  what one would want it to be (`objection?_ofBody_eq_none_iff`): the server took the request and the client
  took all chunks of the content, which ended there.  Counting bytes is enough because no chunk is empty.
-/

namespace MediaBackup

namespace Content

/-! What a reader does at an offset: its read fails, the content ends, or a chunk is read. -/

theorem chunksFrom_of_failureAt {c : Content} {offset : Nat} {words : String} (h : c.failureAt offset = some words)
    (room : Nat) (rest : List UInt8) : c.chunksFrom room offset rest = ⟨[], some words⟩ := by
  unfold chunksFrom
  rw [h]

theorem chunksFrom_of_end {c : Content} {room offset : Nat} {rest : List UInt8} (h : c.failureAt offset = none)
    (hend : c.readSize room offset rest.length = 0 ∨ rest = []) : c.chunksFrom room offset rest = ⟨[], none⟩ := by
  unfold chunksFrom
  rw [h]
  exact dif_pos hend

theorem chunksFrom_of_read {c : Content} {room offset : Nat} {rest : List UInt8} (h : c.failureAt offset = none)
    (hread : ¬ (c.readSize room offset rest.length = 0 ∨ rest = [])) :
    c.chunksFrom room offset rest =
      ⟨rest.take (c.readSize room offset rest.length) ::
        (c.chunksFrom room (offset + c.readSize room offset rest.length)
          (rest.drop (c.readSize room offset rest.length))).chunks,
      (c.chunksFrom room (offset + c.readSize room offset rest.length)
        (rest.drop (c.readSize room offset rest.length))).failure⟩ := by
  rw [chunksFrom, h]
  exact dif_neg hread

/-- No chunk is empty. -/
theorem ne_nil_of_mem_chunksFrom (c : Content) (room offset : Nat) (rest : List UInt8) :
    ∀ chunk ∈ (c.chunksFrom room offset rest).chunks, chunk ≠ [] := by
  fun_induction chunksFrom c room offset rest with
  | case1 => simp
  | case2 => simp
  | case3 offset rest hf size hread behind ih =>
    intro chunk hc
    rcases List.mem_cons.1 hc with rfl | hc
    · intro he
      exact hread (List.take_eq_nil_iff.1 he)
    · exact ih chunk hc

end Content

namespace Transfer

/-- The client took the whole body, and its content ended there. -/
def IsWhole (b : Body) (t : Transfer) : Prop :=
  t.taken = (b.content.chunks (room b.chunkSize)).chunks ∧
    (b.content.chunks (room b.chunkSize)).failure = none

/-- The pump is as far as the client asked, at least. -/
theorem le_reach {buffered : Nat} (h : buffered ≠ 0) (asked : Nat) : asked ≤ reach buffered asked := by
  have hb : 0 < buffered := Nat.pos_of_ne_zero h
  unfold reach
  have hceil : asked ≤ buffered * ((asked + buffered - 1) / buffered) := by
    have hd := Nat.div_add_mod (asked + buffered - 1) buffered
    have hm := Nat.mod_lt (asked + buffered - 1) hb
    omega
  exact Nat.le_trans hceil (Nat.mul_le_mul_left _ (Nat.le_max_right _ _))

/-- If some first chunks have all the bytes and no chunk is empty, they are all chunks. -/
theorem take_eq_of_length_flatten_eq {l : List (List UInt8)} (h : ∀ c ∈ l, c ≠ []) {k : Nat}
    (hs : l.flatten.length = (l.take k).flatten.length) : l.take k = l := by
  induction l generalizing k with
  | nil => exact List.take_nil
  | cons c l ih =>
    have hc : 0 < c.length := List.length_pos_iff.2 (h c List.mem_cons_self)
    cases k with
    | zero =>
      rw [List.take_zero, List.flatten_nil, List.length_nil, List.flatten_cons, List.length_append] at hs
      omega
    | succ k =>
      rw [List.take_succ_cons, List.flatten_cons, List.flatten_cons, List.length_append,
        List.length_append] at hs
      rw [List.take_succ_cons, ih (fun d hd => h d (List.mem_cons_of_mem _ hd)) (Nat.add_left_cancel hs)]

/-- The pump of a transfer ended after just what the client took exactly if the client took the whole
    body. -/
theorem pump_eq_finished_iff {b : Body} (hb : b.buffered ≠ 0) (asked : Option Nat) :
    (ofBody b asked).pump = .finished (ofBody b asked).consumed ↔ IsWhole b (ofBody b asked) := by
  have hne : ∀ c ∈ (b.content.chunks (room b.chunkSize)).chunks, c ≠ [] :=
    b.content.ne_nil_of_mem_chunksFrom _ 0 _
  unfold IsWhole ofBody
  generalize b.content.chunks (room b.chunkSize) = c at hne ⊢
  obtain ⟨chunks, failure⟩ := c
  cases asked with
  | none =>
    cases failure with
    | none => exact ⟨fun _ => ⟨rfl, rfl⟩, fun _ => rfl⟩
    | some words => exact ⟨fun h => (nomatch h), fun h => (nomatch h.2)⟩
  | some k =>
    cases failure with
    | some words =>
      refine ⟨fun h => ?_, fun h => (nomatch h.2)⟩
      change (if chunks.length ≤ reach b.buffered k then PumpEnd.failed words else .cutOff) = _ at h
      split at h
      · exact nomatch h
      · exact nomatch h
    | none =>
      show (if chunks.length ≤ reach b.buffered k then PumpEnd.finished
        chunks.flatten.length else .cutOff) =
        .finished (chunks.take k).flatten.length ↔ chunks.take k = chunks ∧ none = none
      constructor
      · intro h
        split at h
        · exact ⟨take_eq_of_length_flatten_eq hne (PumpEnd.finished.inj h), rfl⟩
        · exact nomatch h
      · rintro ⟨ht, _⟩
        have hk : chunks.length ≤ k := by
          have hl := congrArg List.length ht
          rw [List.length_take] at hl
          omega
        rw [if_pos (Nat.le_trans hk (le_reach hb k)), ht]

end Transfer

/-- The server took the request, and the client took the whole body. -/
def Exchange.Acknowledges (b : Body) : Exchange → Prop
  | .ended t (.ok r) => r.isSuccess = true ∧ t.IsWhole b
  | _ => False

namespace Upload

theorem objection?_ok_eq_none_iff (t : Transfer) (r : Response) :
    objection? t (.ok r) = none ↔ r.isSuccess = true ∧ t.pump = .finished t.consumed := by
  unfold objection?
  split
  · rename_i words hp
    exact ⟨fun h => (nomatch h), fun h => (nomatch hp.symm.trans h.2)⟩
  · rename_i he _
    cases he
  · rename_i _ he _
    cases he
  · rename_i he _
    obtain rfl := Except.ok.inj he
    by_cases hs : r.isSuccess = true
    · rw [hs, if_neg (by decide)]
      by_cases hp : t.pump = .finished t.consumed
      · rw [if_pos hp]
        exact ⟨fun _ => ⟨rfl, hp⟩, fun _ => rfl⟩
      · rw [if_neg hp]
        exact ⟨fun h => (nomatch h), fun h => absurd h.2 hp⟩
    · rw [eq_false_of_ne_true hs, if_pos (by decide)]
      exact ⟨fun h => (nomatch h), fun h => (nomatch h.1)⟩

/-- Nothing speaks against an exchange exactly if the server took the request and the pump ended after as many
    bytes as the client took. -/
theorem objection?_eq_none_iff (t : Transfer) (answer : Except HostError Response) :
    objection? t answer = none ↔ ∃ r, answer = .ok r ∧ r.isSuccess = true ∧ t.pump = .finished t.consumed := by
  cases answer with
  | ok r =>
    rw [objection?_ok_eq_none_iff]
    constructor
    · rintro ⟨hr, hp⟩
      exact ⟨r, rfl, hr, hp⟩
    · rintro ⟨_, ⟨⟩, hr, hp⟩
      exact ⟨hr, hp⟩
  | error e =>
    refine ⟨fun h => ?_, fun ⟨_, h, _⟩ => nomatch h⟩
    unfold objection? at h
    split at h
    · exact nomatch h
    · exact nomatch h
    · exact nomatch h
    · rename_i he _
      exact nomatch he

/-- Nothing speaks against an exchange exactly if it is an acknowledgement. -/
theorem objection?_ofBody_eq_none_iff {b : Body} (hb : b.buffered ≠ 0) (asked : Option Nat)
    (answer : Except HostError Response) :
    objection? (Transfer.ofBody b asked) answer = none ↔
      Exchange.Acknowledges b (.ended (Transfer.ofBody b asked) answer) := by
  rw [objection?_eq_none_iff]
  cases answer with
  | error e => exact ⟨fun ⟨_, h, _⟩ => (nomatch h), fun h => h.elim⟩
  | ok r =>
    constructor
    · rintro ⟨_, ⟨⟩, hr, hp⟩
      exact ⟨hr, (Transfer.pump_eq_finished_iff hb asked).1 hp⟩
    · rintro ⟨hr, hwhole⟩
      exact ⟨r, rfl, hr, (Transfer.pump_eq_finished_iff hb asked).2 hwhole⟩

end Upload

end MediaBackup

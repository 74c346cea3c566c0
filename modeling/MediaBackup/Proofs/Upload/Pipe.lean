import MediaBackup.Proofs.Upload.Whole

/-
  The way of a body, step by step.

  `Transfer.ofBody` says what becomes of a body when its pump and its client take turns.  Here nobody takes turns:
  between any two reads the client may take what is there, or leave, and the pump waits where the channel is full.
  So when the client leaves, the pump may be as far ahead as the channel lets it, or not at all.

  The crux is the invariant `Pipe.Fits`: what the client saw, what lies in the channel, what the pump holds and what
  the reader has still to give are together the parcels of the body, in order and each once.  So if both ends
  counted the same bytes the client saw the whole, whatever the order of the steps (`Delivers.finished_iff`).
  What `Transfer.ofBody` computes is one of these ends (`delivers_ofBody`).
-/

namespace MediaBackup

/-! ## Chunks of a content -/

namespace Content

/-- No chunk is longer than the room. -/
theorem length_le_of_mem_chunksFrom (c : Content) (room offset : Nat) (rest : List UInt8) :
    ∀ chunk ∈ (c.chunksFrom room offset rest).chunks, chunk.length ≤ room := by
  fun_induction chunksFrom c room offset rest with
  | case1 => simp
  | case2 => simp
  | case3 offset rest hf size hread behind ih =>
    have hsize : size ≤ room := by
      show c.readSize room offset rest.length ≤ room
      unfold readSize
      dsimp only
      split <;> omega
    intro chunk hc
    rcases List.mem_cons.1 hc with rfl | hc
    · rw [List.length_take]
      omega
    · exact ih chunk hc

/-- The chunks together are the bytes up to where the reader ends or fails. -/
theorem flatten_chunksFrom_prefix (c : Content) (room offset : Nat) (rest : List UInt8) :
    (c.chunksFrom room offset rest).chunks.flatten <+: rest := by
  fun_induction chunksFrom c room offset rest with
  | case1 => exact List.nil_prefix
  | case2 => exact List.nil_prefix
  | case3 offset rest hf size hread behind ih =>
    have h := (List.prefix_append_right_inj (rest.take size)).2 ih
    rwa [List.take_append_drop] at h

end Content

/-- The chunks that a reader gives of a body, and how it fails. -/
def Body.chunks (b : Body) : Chunks := b.content.chunks (Transfer.room b.chunkSize)

/-- How many bytes the read of a body at an offset gives, where `rest` lies behind it. -/
def Body.readSize (b : Body) (offset : Nat) (rest : List UInt8) : Nat :=
  b.content.readSize (Transfer.room b.chunkSize) offset rest.length

/-! ## Parcels -/

/-- What goes through a channel: a chunk, or how a read failed. -/
abbrev Parcel := Except String (List UInt8)

/-- The parcels that a reader gives: its chunks, and last how it failed. -/
def Chunks.parcels (c : Chunks) : List Parcel := c.chunks.map .ok ++ (c.failure.map .error).toList

/-- The chunks among parcels. -/
def Parcel.chunks (ps : List Parcel) : List (List UInt8) := ps.filterMap Except.toOption

/-- The first failure among parcels. -/
def Parcel.failure? (ps : List Parcel) : Option String :=
  ps.findSome? fun
    | .ok _ => none
    | .error words => some words

namespace Parcel

@[simp] theorem chunks_nil : chunks [] = [] := rfl

@[simp] theorem chunks_append (ps qs : List Parcel) : chunks (ps ++ qs) = chunks ps ++ chunks qs :=
  List.filterMap_append

@[simp] theorem chunks_single_ok (chunk : List UInt8) : chunks [.ok chunk] = [chunk] := rfl

@[simp] theorem chunks_single_error (words : String) : chunks [.error words] = [] := rfl

@[simp] theorem chunks_map_ok (cs : List (List UInt8)) : chunks (cs.map .ok) = cs := by
  unfold chunks
  rw [List.filterMap_map]
  exact List.filterMap_some

@[simp] theorem failure?_map_ok (cs : List (List UInt8)) : failure? (cs.map .ok) = none := by
  induction cs with
  | nil => rfl
  | cons chunk cs ih => exact ih

@[simp] theorem failure?_map_ok_append (cs : List (List UInt8)) (words : String) :
    failure? (cs.map .ok ++ [.error words]) = some words := by
  induction cs with
  | nil => rfl
  | cons chunk cs ih => exact ih

@[simp] theorem chunks_parcels (c : Chunks) : chunks c.parcels = c.chunks := by
  unfold Chunks.parcels
  cases c.failure <;> simp

end Parcel

/-! ## Pumps, channels and clients -/

/-- A body on its way. -/
structure Pipe where
  /-- The offset of the reader and what lies behind it; none when the reader is through. -/
  reader : Option (Nat × List UInt8)
  /-- What the pump read and did not put into the channel. -/
  held : Option Parcel
  /-- How many bytes the pump read. -/
  total : Nat
  /-- How the pump ended. -/
  pump : Option PumpEnd
  channel : List Parcel
  /-- What the client took. -/
  seen : List Parcel
  /-- The client wants no more. -/
  gone : Bool

namespace Pipe

/-- A body before its first step. -/
def begun (b : Body) : Pipe := ⟨some (0, b.content.bytes), none, 0, none, [], [], false⟩

/-- A step of the pump or of the client. -/
inductive Step (b : Body) : Pipe → Pipe → Prop where
  | read {offset total : Nat} {rest : List UInt8} {channel seen : List Parcel} {gone : Bool}
      (hf : b.content.failureAt offset = none) (hr : ¬ (b.readSize offset rest = 0 ∨ rest = [])) :
    Step b ⟨some (offset, rest), none, total, none, channel, seen, gone⟩
      ⟨some (offset + b.readSize offset rest, rest.drop (b.readSize offset rest)),
        some (.ok (rest.take (b.readSize offset rest))), total + (rest.take (b.readSize offset rest)).length, none,
        channel, seen, gone⟩
  | readFails {offset total : Nat} {rest : List UInt8} {channel seen : List Parcel} {gone : Bool} {words : String}
      (hf : b.content.failureAt offset = some words) :
    Step b ⟨some (offset, rest), none, total, none, channel, seen, gone⟩
      ⟨none, some (.error words), total, none, channel, seen, gone⟩
  /-- The reader comes to the end of the content. -/
  | readEnds {offset total : Nat} {rest : List UInt8} {channel seen : List Parcel} {gone : Bool}
      (hf : b.content.failureAt offset = none) (hend : b.readSize offset rest = 0 ∨ rest = []) :
    Step b ⟨some (offset, rest), none, total, none, channel, seen, gone⟩
      ⟨none, none, total, some (.finished total), channel, seen, gone⟩
  | put {reader : Option (Nat × List UInt8)} {total : Nat} {channel seen : List Parcel} {chunk : List UInt8}
      (hroom : channel.length < b.buffered) :
    Step b ⟨reader, some (.ok chunk), total, none, channel, seen, false⟩
      ⟨reader, none, total, none, channel ++ [.ok chunk], seen, false⟩
  /-- The pump tells the client how a read failed, and ends. -/
  | putFailure {reader : Option (Nat × List UInt8)} {total : Nat} {channel seen : List Parcel} {words : String}
      (hroom : channel.length < b.buffered) :
    Step b ⟨reader, some (.error words), total, none, channel, seen, false⟩
      ⟨reader, none, total, some (.failed words), channel ++ [.error words], seen, false⟩
  /-- The pump cannot put a chunk because the client is gone, and ends. -/
  | cut {reader : Option (Nat × List UInt8)} {total : Nat} {channel seen : List Parcel} {chunk : List UInt8} :
    Step b ⟨reader, some (.ok chunk), total, none, channel, seen, true⟩
      ⟨reader, some (.ok chunk), total, some .cutOff, channel, seen, true⟩
  | cutFailure {reader : Option (Nat × List UInt8)} {total : Nat} {channel seen : List Parcel} {words : String} :
    Step b ⟨reader, some (.error words), total, none, channel, seen, true⟩
      ⟨reader, some (.error words), total, some (.failed words), channel, seen, true⟩
  | take {reader : Option (Nat × List UInt8)} {held : Option Parcel} {total : Nat} {pump : Option PumpEnd}
      {channel seen : List Parcel} {parcel : Parcel} :
    Step b ⟨reader, held, total, pump, parcel :: channel, seen, false⟩
      ⟨reader, held, total, pump, channel, seen ++ [parcel], false⟩
  | leave {reader : Option (Nat × List UInt8)} {held : Option Parcel} {total : Nat} {pump : Option PumpEnd}
      {channel seen : List Parcel} :
    Step b ⟨reader, held, total, pump, channel, seen, false⟩ ⟨reader, held, total, pump, channel, seen, true⟩

/-- The states that a body can come to on its way. -/
inductive Reachable (b : Body) : Pipe → Prop where
  | begun : Reachable b (begun b)
  | step {p q : Pipe} (h : Reachable b p) (hs : Step b p q) : Reachable b q

/-- The parcels that the reader has still to give. -/
def behind (b : Body) (p : Pipe) : List Parcel :=
  match p.reader with
  | some (offset, rest) => (b.content.chunksFrom (Transfer.room b.chunkSize) offset rest).parcels
  | none => []

/-- What a body on its way is made of. -/
structure Fits (b : Body) (p : Pipe) : Prop where
  whole : p.seen ++ p.channel ++ p.held.toList ++ p.behind b = b.chunks.parcels
  counted : p.total = (Parcel.chunks (p.seen ++ p.channel ++ p.held.toList)).flatten.length
  /-- How the reader will end is known from the begin. -/
  fails : ∀ offset rest, p.reader = some (offset, rest) →
    (b.content.chunksFrom (Transfer.room b.chunkSize) offset rest).failure = b.chunks.failure
  held : ∀ words, p.held = some (.error words) → b.chunks.failure = some words
  finished : ∀ n, p.pump = some (.finished n) →
    p.reader = none ∧ p.held = none ∧ n = p.total ∧ b.chunks.failure = none
  failed : ∀ words, p.pump = some (.failed words) → b.chunks.failure = some words
  cutOff : p.pump = some .cutOff → ∃ chunk, p.held = some (.ok chunk)

variable {b : Body} {p q : Pipe}

theorem fits_begun (b : Body) : (begun b).Fits b where
  whole := rfl
  counted := rfl
  fails := by
    rintro offset rest ⟨⟩
    rfl
  held _ h := nomatch h
  finished _ h := nomatch h
  failed _ h := nomatch h
  cutOff h := nomatch h

/-- Every step preserves what a body is made of. -/
theorem Fits.step (h : p.Fits b) (hs : Step b p q) : q.Fits b := by
  obtain ⟨hwhole, hcounted, hfails, hheld, hfinished, hfailed, hcut⟩ := h
  cases hs with
  | @read offset total rest channel seen gone hf hr =>
    have hchunks := Content.chunksFrom_of_read hf hr
    refine ⟨?_, ?_, ?_, nofun, nofun, nofun, nofun⟩
    · rw [← hwhole]
      simp only [behind, hchunks, Chunks.parcels, Body.readSize, Option.toList_some, Option.toList_none,
        List.append_nil, List.append_assoc, List.map_cons, List.cons_append, List.nil_append]
    · simp only [Option.toList_some, Option.toList_none, List.append_nil, Parcel.chunks_append,
        Parcel.chunks_single_ok, List.flatten_append, List.length_append] at hcounted ⊢
      simp only [hcounted, List.flatten_cons, List.flatten_nil, List.append_nil]
    · rintro _ _ ⟨⟩
      rw [← hfails offset rest rfl, hchunks]
      rfl
  | @readFails offset total rest channel seen gone words hf =>
    have hchunks := Content.chunksFrom_of_failureAt hf (Transfer.room b.chunkSize) rest
    have hfailure : b.chunks.failure = some words := by rw [← hfails offset rest rfl, hchunks]
    refine ⟨?_, ?_, nofun, ?_, nofun, nofun, nofun⟩
    · rw [← hwhole]
      simp [behind, hchunks, Chunks.parcels]
    · simpa using hcounted
    · rintro _ ⟨⟩
      exact hfailure
  | @readEnds offset total rest channel seen gone hf hend =>
    have hchunks := Content.chunksFrom_of_end hf hend
    have hfailure : b.chunks.failure = none := by rw [← hfails offset rest rfl, hchunks]
    refine ⟨?_, hcounted, nofun, nofun, ?_, nofun, nofun⟩
    · rw [← hwhole]
      simp [behind, hchunks, Chunks.parcels]
    · rintro n ⟨⟩
      exact ⟨rfl, rfl, rfl, hfailure⟩
  | put hroom =>
    refine ⟨?_, ?_, hfails, nofun, nofun, nofun, nofun⟩
    · rw [← hwhole]
      simp [behind]
    · simpa using hcounted
  | @putFailure reader total channel seen words hroom =>
    refine ⟨?_, ?_, hfails, nofun, nofun, ?_, nofun⟩
    · rw [← hwhole]
      simp [behind]
    · simpa using hcounted
    · rintro _ ⟨⟩
      exact hheld words rfl
  | @cut reader total channel seen chunk =>
    exact ⟨hwhole, hcounted, hfails, hheld, nofun, nofun, fun _ => ⟨chunk, rfl⟩⟩
  | @cutFailure reader total channel seen words =>
    refine ⟨hwhole, hcounted, hfails, hheld, nofun, ?_, nofun⟩
    rintro _ ⟨⟩
    exact hheld words rfl
  | take =>
    refine ⟨?_, ?_, hfails, hheld, hfinished, hfailed, hcut⟩
    · rw [← hwhole]
      simp [behind]
    · simpa using hcounted
  | leave => exact ⟨hwhole, hcounted, hfails, hheld, hfinished, hfailed, hcut⟩

theorem Reachable.fits (h : Reachable b p) : p.Fits b := by
  induction h with
  | begun => exact fits_begun b
  | step _ hs ih => exact ih.step hs

/-! ## What becomes of a body -/

/-- The way of a body can end so: the client is gone, and the pump ended. -/
def Delivers (b : Body) (t : Transfer) : Prop :=
  ∃ p, Reachable b p ∧ p.gone = true ∧ p.pump = some t.pump ∧ t.taken = Parcel.chunks p.seen ∧
    t.failureTaken = Parcel.failure? p.seen

variable {t : Transfer}

/-- The client saw the first chunks of the body, in order. -/
theorem Fits.seen_prefix (h : p.Fits b) : Parcel.chunks p.seen <+: b.chunks.chunks := by
  rw [← Parcel.chunks_parcels b.chunks, ← h.whole, List.append_assoc, List.append_assoc, Parcel.chunks_append]
  exact List.prefix_append _ _

theorem Delivers.taken_prefix (h : Delivers b t) : t.taken <+: b.chunks.chunks := by
  obtain ⟨p, hp, _, _, ht, _⟩ := h
  exact ht ▸ hp.fits.seen_prefix

/-- A pump that came to the end of the content read all of the body, and no read failed. -/
theorem Fits.of_finished (h : p.Fits b) {n : Nat} (hp : p.pump = some (.finished n)) :
    n = b.chunks.chunks.flatten.length ∧ b.chunks.failure = none := by
  obtain ⟨hreader, hheld, htotal, hfailure⟩ := h.finished n hp
  have hall : Parcel.chunks (p.seen ++ p.channel ++ p.held.toList) = b.chunks.chunks := by
    rw [← Parcel.chunks_parcels b.chunks, ← h.whole]
    simp [behind, hreader]
  rw [htotal, h.counted, hall]
  exact ⟨rfl, hfailure⟩

/-- Both ends counted the same bytes exactly if the client saw the whole body. -/
theorem Delivers.finished_iff (h : Delivers b t) : t.pump = .finished t.consumed ↔ t.IsWhole b := by
  obtain ⟨p, hp, hgone, hpump, htaken, _⟩ := h
  have hfits := hp.fits
  have hchunks : t.taken ++ Parcel.chunks (p.channel ++ p.held.toList ++ p.behind b) = b.chunks.chunks := by
    rw [htaken, ← Parcel.chunks_append, ← Parcel.chunks_parcels b.chunks, ← hfits.whole]
    simp only [List.append_assoc]
  constructor
  · intro hfinished
    obtain ⟨htotal, hfailure⟩ := hfits.of_finished (hfinished ▸ hpump)
    refine ⟨?_, hfailure⟩
    have htake : b.chunks.chunks.take t.taken.length = t.taken := by
      rw [← hchunks]
      exact List.take_left
    have hbytes : b.chunks.chunks.flatten.length = (b.chunks.chunks.take t.taken.length).flatten.length := by
      rw [htake]
      exact htotal.symm
    have hwhole := Transfer.take_eq_of_length_flatten_eq (b.content.ne_nil_of_mem_chunksFrom _ 0 _) hbytes
    exact htake.symm.trans hwhole
  · rintro ⟨hwhole, hfailure⟩
    replace hwhole : t.taken = b.chunks.chunks := hwhole
    replace hfailure : b.chunks.failure = none := hfailure
    have hnone : Parcel.chunks (p.channel ++ p.held.toList ++ p.behind b) = [] := by
      rw [hwhole] at hchunks
      exact List.append_cancel_left (hchunks.trans (List.append_nil _).symm)
    simp only [Parcel.chunks_append, List.append_eq_nil_iff] at hnone
    cases hend : t.pump with
    | finished n =>
      rw [hend] at hpump
      obtain ⟨_, _, rfl, _⟩ := hfits.finished n hpump
      have hcounted := hfits.counted
      rw [Parcel.chunks_append, Parcel.chunks_append, hnone.1.1, hnone.1.2, ← htaken] at hcounted
      rw [hcounted, List.append_nil, List.append_nil]
      rfl
    | failed words =>
      rw [hend] at hpump
      exact nomatch (hfits.failed words hpump).symm.trans hfailure
    | cutOff =>
      -- the pump would still hold a chunk that the client did not see
      rw [hend] at hpump
      obtain ⟨chunk, hheld⟩ := hfits.cutOff hpump
      rw [hheld] at hnone
      exact nomatch hnone.1.2

/-- The client saw the whole body exactly if the reader came to the end and the client took every byte up to
    there. -/
theorem Delivers.isWhole_iff (h : Delivers b t) :
    t.IsWhole b ↔ (∃ total, t.pump = .finished total) ∧ t.taken.flatten = b.chunks.chunks.flatten := by
  constructor
  · intro hwhole
    exact ⟨⟨_, h.finished_iff.2 hwhole⟩, congrArg List.flatten hwhole.1⟩
  · rintro ⟨⟨total, hpump⟩, hbytes⟩
    refine h.finished_iff.1 ?_
    obtain ⟨p, hp, _, hpump', _, _⟩ := h
    obtain ⟨rfl, _⟩ := hp.fits.of_finished (hpump ▸ hpump')
    rw [hpump, ← hbytes]
    rfl

/-! ## What is computed is one of these ends -/

/-- The pump is at rest before a read, where `ahead` is what the reader has still to give. -/
def Rests (b : Body) (ahead : Chunks) (channel seen : List Parcel) : Prop :=
  ∃ offset rest total, Reachable b ⟨some (offset, rest), none, total, none, channel, seen, false⟩ ∧
    b.content.chunksFrom (Transfer.room b.chunkSize) offset rest = ahead

variable {channel seen : List Parcel} {ahead : Chunks} {failure : Option String} {words : String}

theorem rests_begun (b : Body) : Rests b b.chunks [] [] := ⟨0, b.content.bytes, 0, .begun, rfl⟩

/-- What the next read does is told by the chunks that it begins. -/
theorem chunksFrom_cases (c : Content) (room offset : Nat) (rest : List UInt8) :
    (∃ words, c.failureAt offset = some words ∧ c.chunksFrom room offset rest = ⟨[], some words⟩) ∨
    (c.failureAt offset = none ∧ (c.readSize room offset rest.length = 0 ∨ rest = []) ∧
      c.chunksFrom room offset rest = ⟨[], none⟩) ∨
    (c.failureAt offset = none ∧ ¬ (c.readSize room offset rest.length = 0 ∨ rest = []) ∧
      ∃ behind, behind = c.chunksFrom room (offset + c.readSize room offset rest.length)
          (rest.drop (c.readSize room offset rest.length)) ∧
        c.chunksFrom room offset rest =
          ⟨rest.take (c.readSize room offset rest.length) :: behind.chunks, behind.failure⟩) := by
  cases hf : c.failureAt offset with
  | some words => exact .inl ⟨words, rfl, Content.chunksFrom_of_failureAt hf room rest⟩
  | none =>
    by_cases hend : c.readSize room offset rest.length = 0 ∨ rest = []
    · exact .inr (.inl ⟨rfl, hend, Content.chunksFrom_of_end hf hend⟩)
    · exact .inr (.inr ⟨rfl, hend, _, rfl, Content.chunksFrom_of_read hf hend⟩)

/-- A chunk that lies ahead can be read. -/
theorem Rests.read {chunk : List UInt8} {cs : List (List UInt8)} (h : Rests b ⟨chunk :: cs, failure⟩ channel seen) :
    ∃ offset rest total, Reachable b ⟨some (offset, rest), some (.ok chunk), total, none, channel, seen, false⟩ ∧
      b.content.chunksFrom (Transfer.room b.chunkSize) offset rest = ⟨cs, failure⟩ := by
  obtain ⟨offset, rest, total, hp, hahead⟩ := h
  obtain ⟨_, _, he⟩ | ⟨_, _, he⟩ | ⟨hf, hread, behind, hbehind, he⟩ :=
    chunksFrom_cases b.content (Transfer.room b.chunkSize) offset rest
  · exact nomatch (congrArg Chunks.chunks (hahead.symm.trans he))
  · exact nomatch (congrArg Chunks.chunks (hahead.symm.trans he))
  · obtain ⟨hcs, rfl⟩ := Chunks.mk.inj (hahead.symm.trans he)
    obtain ⟨rfl, rfl⟩ := List.cons.inj hcs
    exact ⟨_, _, _, hp.step (.read hf hread), hbehind.symm⟩

/-- The pump goes ahead of the client as long as there is room. -/
theorem Rests.put {cs ds : List (List UInt8)} (h : Rests b ⟨cs ++ ds, failure⟩ channel seen)
    (hroom : channel.length + cs.length ≤ b.buffered) : Rests b ⟨ds, failure⟩ (channel ++ cs.map .ok) seen := by
  induction cs generalizing channel with
  | nil =>
    rw [List.map_nil, List.append_nil]
    exact h
  | cons chunk cs ih =>
    rw [List.length_cons] at hroom
    obtain ⟨offset, rest, total, hp, hahead⟩ := h.read
    have hput : Rests b ⟨cs ++ ds, failure⟩ (channel ++ [.ok chunk]) seen :=
      ⟨offset, rest, total, hp.step (.put (by omega)), hahead⟩
    have hrest := ih hput (by rw [List.length_append, List.length_singleton]; omega)
    rw [List.append_assoc] at hrest
    exact hrest

/-- The client takes every chunk as soon as it is read. -/
theorem Rests.take {cs ds : List (List UInt8)} (h : Rests b ⟨cs ++ ds, failure⟩ [] seen) (hb : b.buffered ≠ 0) :
    Rests b ⟨ds, failure⟩ [] (seen ++ cs.map .ok) := by
  induction cs generalizing seen with
  | nil =>
    rw [List.map_nil, List.append_nil]
    exact h
  | cons chunk cs ih =>
    obtain ⟨offset, rest, total, hp, hahead⟩ := h.read
    have hput := hp.step (.put (Nat.pos_of_ne_zero hb))
    have htake : Rests b ⟨cs ++ ds, failure⟩ [] (seen ++ [.ok chunk]) :=
      ⟨offset, rest, total, hput.step .take, hahead⟩
    have hrest := ih htake
    rw [List.append_assoc] at hrest
    exact hrest

/-- The reader comes to the end of the content, and the client leaves. -/
theorem Rests.ends (h : Rests b ⟨[], none⟩ channel seen) :
    Delivers b ⟨Parcel.chunks seen, Parcel.failure? seen, .finished b.chunks.chunks.flatten.length⟩ := by
  obtain ⟨offset, rest, total, hp, hahead⟩ := h
  obtain ⟨_, _, he⟩ | ⟨hf, hend, _⟩ | ⟨_, _, behind, _, he⟩ :=
    chunksFrom_cases b.content (Transfer.room b.chunkSize) offset rest
  · exact nomatch (congrArg Chunks.failure (hahead.symm.trans he))
  · have hended := (hp.step (.readEnds hf hend)).step .leave
    obtain ⟨rfl, _⟩ := hended.fits.of_finished rfl
    exact ⟨_, hended, rfl, rfl, rfl, rfl⟩
  · exact nomatch (congrArg Chunks.chunks (hahead.symm.trans he))

/-- A read fails. -/
theorem Rests.readFails (h : Rests b ⟨[], some words⟩ channel seen) :
    ∃ total, Reachable b ⟨none, some (.error words), total, none, channel, seen, false⟩ := by
  obtain ⟨offset, rest, total, hp, hahead⟩ := h
  obtain ⟨_, hf, he⟩ | ⟨_, _, he⟩ | ⟨_, _, behind, _, he⟩ :=
    chunksFrom_cases b.content (Transfer.room b.chunkSize) offset rest
  · obtain rfl := Option.some.inj (congrArg Chunks.failure (hahead.symm.trans he))
    exact ⟨total, hp.step (.readFails hf)⟩
  · exact nomatch (congrArg Chunks.failure (hahead.symm.trans he))
  · exact nomatch (congrArg Chunks.chunks (hahead.symm.trans he))

/-- The client leaves before the pump tells it how a read failed. -/
theorem Rests.fails_unheard (h : Rests b ⟨[], some words⟩ channel seen) :
    Delivers b ⟨Parcel.chunks seen, Parcel.failure? seen, .failed words⟩ := by
  obtain ⟨total, hp⟩ := h.readFails
  exact ⟨_, (hp.step .leave).step .cutFailure, rfl, rfl, rfl, rfl⟩

/-- The pump tells the client how a read failed. -/
theorem Rests.fails (h : Rests b ⟨[], some words⟩ [] seen) (hb : b.buffered ≠ 0) :
    Delivers b ⟨Parcel.chunks (seen ++ [.error words]), Parcel.failure? (seen ++ [.error words]),
      .failed words⟩ := by
  obtain ⟨total, hp⟩ := h.readFails
  exact ⟨_, ((hp.step (.putFailure (Nat.pos_of_ne_zero hb))).step .take).step .leave, rfl, rfl, rfl, rfl⟩

/-- The client leaves while there is more to read. -/
theorem Rests.cutOff {chunk : List UInt8} {cs : List (List UInt8)} (h : Rests b ⟨chunk :: cs, failure⟩ channel seen) :
    Delivers b ⟨Parcel.chunks seen, Parcel.failure? seen, .cutOff⟩ := by
  obtain ⟨offset, rest, total, hp, _⟩ := h.read
  exact ⟨_, (hp.step .leave).step .cut, rfl, rfl, rfl, rfl⟩

/-- The client takes the whole body, and hears how it ends. -/
theorem delivers_all (hb : b.buffered ≠ 0) :
    Delivers b ⟨b.chunks.chunks, b.chunks.failure, match b.chunks.failure with
      | none => .finished b.chunks.chunks.flatten.length
      | some words => .failed words⟩ := by
  have hall : Rests b ⟨[], b.chunks.failure⟩ [] ([] ++ b.chunks.chunks.map .ok) := by
    have hbegun : Rests b ⟨b.chunks.chunks ++ [], b.chunks.failure⟩ [] [] := by
      rw [List.append_nil]
      exact rests_begun b
    exact hbegun.take hb
  rw [List.nil_append] at hall
  cases hf : b.chunks.failure with
  | none =>
    rw [hf] at hall
    simpa using hall.ends
  | some words =>
    rw [hf] at hall
    simpa using hall.fails hb

/-- A pump that reads as far as whole channels reach is at most one channel ahead. -/
theorem reach_le {buffered : Nat} (hb : buffered ≠ 0) (asked : Nat) :
    Transfer.reach buffered asked ≤ asked + buffered := by
  have hpos : 0 < buffered := Nat.pos_of_ne_zero hb
  have hceil : buffered * ((asked + buffered - 1) / buffered) ≤ asked + buffered - 1 := Nat.mul_div_le _ _
  unfold Transfer.reach
  rcases Nat.le_total 1 ((asked + buffered - 1) / buffered) with h | h
  · rw [Nat.max_eq_right h]
    omega
  · rw [Nat.max_eq_left h]
    omega

/-- **Turns.**  What is computed of a body is one of the ends that its way can have. -/
theorem delivers_ofBody (hb : b.buffered ≠ 0) (asked : Option Nat) : Delivers b (.ofBody b asked) := by
  have hall := delivers_all hb
  show Delivers b (.ofChunks b.chunks b.buffered asked)
  unfold Transfer.ofChunks
  cases asked with
  | none => exact hall
  | some k =>
    dsimp only
    by_cases hk : b.chunks.chunks.length < k
    · -- the client asks once more than there are chunks
      have hreach : b.chunks.chunks.length ≤ Transfer.reach b.buffered k :=
        Nat.le_trans (Nat.le_of_lt hk) (Transfer.le_reach hb k)
      rw [if_pos hk, if_pos hreach, List.take_of_length_le (Nat.le_of_lt hk)]
      exact hall
    · -- the client takes `k` chunks and leaves
      have htaken : Rests b ⟨b.chunks.chunks.drop k, b.chunks.failure⟩ []
          ([] ++ (b.chunks.chunks.take k).map .ok) := by
        refine Rests.take ?_ hb
        rw [List.take_append_drop]
        exact rests_begun b
      rw [List.nil_append] at htaken
      rw [if_neg hk]
      by_cases hreach : b.chunks.chunks.length ≤ Transfer.reach b.buffered k
      · -- what is left goes into the channel
        have hroom : ([] : List Parcel).length + (b.chunks.chunks.drop k).length ≤ b.buffered := by
          have hle := reach_le hb k
          rw [List.length_nil, List.length_drop]
          omega
        rw [← List.append_nil (b.chunks.chunks.drop k)] at htaken
        have hput := htaken.put hroom
        rw [if_pos hreach]
        cases hf : b.chunks.failure with
        | none =>
          rw [hf] at hput
          simpa only [Parcel.chunks_map_ok, Parcel.failure?_map_ok] using hput.ends
        | some words =>
          rw [hf] at hput
          simpa only [Parcel.chunks_map_ok, Parcel.failure?_map_ok] using hput.fails_unheard
      · rw [if_neg hreach]
        cases hdrop : b.chunks.chunks.drop k with
        | nil =>
          have hlong := Transfer.le_reach hb k
          have hshort := List.drop_eq_nil_iff.1 hdrop
          omega
        | cons chunk cs =>
          rw [hdrop] at htaken
          simpa only [Parcel.chunks_map_ok, Parcel.failure?_map_ok] using htaken.cutOff

end Pipe

end MediaBackup

import MediaBackup.Proofs.Engine.Protocol
import MediaBackup.Proofs.Store.Items
import MediaBackup.Proofs.Time.Dates
import MediaBackup.Proofs.Upload.Leg
import MediaBackup.Proofs.Upload.Pipe

/-
  When an upload counts as acknowledged.

  An attempt to upload opens the item, sends its body and waits for what the exchange comes to.  The body goes
  through a pipe whose ends go on in any order, the client may leave whenever it wants, and it answers what it
  wants.  Only a deadline does not come, and the ledger can be written.

  An `Account` of an attempt tells what became of it.  That it succeeds exactly if the item was acknowledged,
  and that only then the ledger is written and listeners are told, is `Upload.attempt_succeeds_iff`.  The crux
  is that nothing speaks against an exchange if two counts are equal (`objection?_eq_none_iff`), which says that the
  client saw the whole body (`Pipe.Delivers.isWhole_iff`).
-/

namespace MediaBackup

/-- The item that a statement marks. -/
def ItemStatement.marks : ItemStatement → List String
  | mark id _ => [id]
  | _ => []

/-- What became of an attempt to upload so far. -/
structure Account where
  items : ItemTable
  opened : Option Content
  sent : Option Body
  /-- What became of the body, and what the client answered. -/
  exchange : Option (Transfer × Except HostError Response)
  /-- The items that were marked as acknowledged, the last one first. -/
  marked : List String
  /-- What listeners were told, the last event first. -/
  told : List Event

namespace Account

/-- The account before the first call. -/
def blank (items : ItemTable) : Account := ⟨items, none, none, none, [], []⟩

/-- What an attempt may ask. -/
def May : Call → Prop
  | .openItem _ | .send _ _ | .await _ | .items _ | .now | .emit _ => True
  | _ => False

/-- What an attempt has to expect, and what is told of it. -/
def Goes (a : Account) : (c : Call) → c.Answer → Account → Prop
  | .openItem _, .given c, a' => a' = { a with opened := some c }
  | .send _ body, _, a' => a' = { a with sent := some body }
  | .await _, .ended t answer, a' => (∃ body, a.sent = some body ∧ Pipe.Delivers body t) ∧
      a' = { a with exchange := some (t, answer) }
  | .await _, .late, _ => False
  | .items st, .ok x, a' => x = (st.run a.items).1 ∧
      a' = { a with items := (st.run a.items).2, marked := st.marks ++ a.marked }
  | .items _, .error _, _ => False
  | .emit e, _, a' => a' = { a with told := e :: a.told }
  | .now, t, a' => t.IsDate ∧ a' = a
  | _, _, a' => a' = a

/-- The protocol of attempts whose deadline does not come and whose ledger can be written. -/
def dealings : Protocol Call Call.Answer Account where
  may _ := May
  answers := Goes

/-- The item was acknowledged: it was opened, its reader came to the end without an error, the client took every
    byte up to there, and the server took the request. -/
def IsAcknowledged (s : UploadSettings) (a : Account) : Prop :=
  ∃ c t r, a.opened = some c ∧ a.exchange = some (t, .ok r) ∧ (∃ total, t.pump = .finished total) ∧
    t.taken.flatten = (s.body c).chunks.chunks.flatten ∧ r.isSuccess = true

/-- The exchange is the one of the body of the item. -/
def IsSent (s : UploadSettings) (a : Account) : Prop :=
  ∀ t answer, a.exchange = some (t, answer) → ∃ c, a.opened = some c ∧ Pipe.Delivers (s.body c) t

/-- How an attempt ends that found the ledger with these items. -/
structure Settles (s : UploadSettings) (id : String) (items : ItemTable) (result : Except Stop Outcome)
    (a : Account) : Prop where
  sent : a.IsSent s
  success_iff : result = .ok .success ↔ a.IsAcknowledged s
  success : result = .ok .success →
    (∃ now : Instant, now.IsDate ∧ a.items = ((ItemStatement.mark id now).run items).2) ∧
    a.marked = [id] ∧ a.told = [.sync (.uploadSucceeded id)]
  failure : result ≠ .ok .success → a.items = items ∧ a.marked = [] ∧ a.told = []

variable {s : UploadSettings} {id : String} {items : ItemTable} {a : Account} {result : Except Stop Outcome}

/-- An attempt that comes to no exchange does not succeed. -/
theorem settles_of_exchange_eq_none (hresult : result ≠ .ok .success) (hexchange : a.exchange = none)
    (hsame : a.items = items ∧ a.marked = [] ∧ a.told = []) : Settles s id items result a where
  sent t answer h := nomatch hexchange.symm.trans h
  success_iff := by
    refine ⟨fun h => absurd h hresult, ?_⟩
    rintro ⟨c, t, r, _, h, _⟩
    exact nomatch hexchange.symm.trans h
  success h := absurd h hresult
  failure _ := hsame

end Account

namespace Upload

open Script Account

variable {s : UploadSettings} {id : String} {items : ItemTable} {a : Account}

/-- For an exchange of the opened item, nothing speaks against it exactly if the item was acknowledged. -/
theorem objection?_eq_none_iff_isAcknowledged {c : Content} {t : Transfer} {answer : Except HostError Response}
    (ho : a.opened = some c) (he : a.exchange = some (t, answer)) (hd : Pipe.Delivers (s.body c) t) :
    objection? t answer = none ↔ a.IsAcknowledged s := by
  rw [objection?_eq_none_iff]
  constructor
  · rintro ⟨r, rfl, hr, hp⟩
    obtain ⟨hended, hbytes⟩ := hd.isWhole_iff.1 (hd.finished_iff.1 hp)
    exact ⟨c, t, r, ho, he, hended, hbytes, hr⟩
  · rintro ⟨c', t', r, ho', he', hended, hbytes, hr⟩
    obtain rfl := Option.some.inj (ho.symm.trans ho')
    obtain ⟨rfl, rfl⟩ := Prod.mk.inj (Option.some.inj (he.symm.trans he'))
    exact ⟨r, rfl, hr, hd.finished_iff.2 (hd.isWhole_iff.2 ⟨hended, hbytes⟩)⟩

/-- Marking an item marks it once, whether or not it is known. -/
theorem markUploaded_settles {now : Instant} {good : Unit → Account → Prop} {bad : Stop → Account → Prop}
    (hgood : good () { a with items := ((ItemStatement.mark id now).run a.items).2, marked := id :: a.marked }) :
    Meets dealings good bad (Ledger.markUploaded id now) a := by
  unfold Ledger.markUploaded
  rw [meets_bind, Engine.meets_items]
  refine ⟨trivial, ?_, fun _ _ h => h.elim⟩
  rintro changed _ ⟨_, rfl⟩
  split
  · -- nothing was changed, so it is asked whether the item is known
    rw [meets_bind, Engine.meets_items]
    refine ⟨trivial, ?_, fun _ _ h => h.elim⟩
    rintro known _ ⟨_, rfl⟩
    exact hgood
  · exact hgood

/-- An opened item is sent, and the ledger is written if it was acknowledged. -/
theorem send_settles (s : UploadSettings) (id : String) (c : Content) (items : ItemTable) :
    Meets dealings (fun o => Settles s id items (.ok o)) (fun e => Settles s id items (.error e)) (send s id c)
      { blank items with opened := some c } := by
  unfold send
  split
  · rw [meets_bind, Engine.meets_crash]
    exact settles_of_exchange_eq_none nofun rfl ⟨rfl, rfl, rfl⟩
  · rw [meets_bind, Engine.meets_call]
    refine ⟨trivial, ?_⟩
    rintro n _ rfl
    rw [meets_bind, Engine.meets_call]
    refine ⟨trivial, ?_⟩
    intro x a hx
    cases x with
    | late => exact hx.elim
    | crashed words =>
      obtain rfl := hx
      exact settles_of_exchange_eq_none nofun rfl ⟨rfl, rfl, rfl⟩
    | ended t answer =>
      obtain ⟨⟨_, ⟨⟩, hd⟩, rfl⟩ := hx
      have hsent : ∀ t' answer', some (t, answer) = some (t', answer') →
          ∃ c', some c = some c' ∧ Pipe.Delivers (s.body c') t' := by
        rintro _ _ ⟨⟩
        exact ⟨c, rfl, hd⟩
      have hiff : ∀ a : Account, a.opened = some c → a.exchange = some (t, answer) →
          (objection? t answer = none ↔ a.IsAcknowledged s) :=
        fun a ho he => objection?_eq_none_iff_isAcknowledged ho he hd
      dsimp only
      cases hobjection : objection? t answer with
      | some o =>
        have hne : (Except.ok o : Except Stop Outcome) ≠ .ok .success :=
          fun h => ne_success_of_objection? hobjection (Except.ok.inj h)
        refine ⟨hsent, ⟨fun h => absurd h hne, ?_⟩, fun h => absurd h hne, fun _ => ⟨rfl, rfl, rfl⟩⟩
        intro hack
        exact nomatch hobjection.symm.trans ((hiff _ rfl rfl).2 hack)
      | none =>
        dsimp only
        rw [meets_bind, Engine.meets_now]
        refine ⟨trivial, ?_⟩
        rintro now _ ⟨hdate, rfl⟩
        rw [meets_bind]
        refine markUploaded_settles ?_
        rw [meets_bind, Engine.meets_emit]
        refine ⟨trivial, ?_⟩
        rintro _ _ rfl
        refine ⟨hsent, ⟨fun _ => (hiff _ rfl rfl).1 hobjection, fun _ => rfl⟩, ?_, fun h => absurd rfl h⟩
        exact fun _ => ⟨⟨now, hdate, rfl⟩, rfl, rfl⟩

/-- An attempt to upload settles, whatever comes of it. -/
theorem attempt_settles (s : UploadSettings) (id : String) (items : ItemTable) :
    (attempt s id).run.Keeps dealings (fun result a => Settles s id items result a) (blank items) := by
  suffices h : Meets dealings (fun o => Settles s id items (.ok o)) (fun e => Settles s id items (.error e))
      (attempt s id) (blank items) by
    refine Keeps.mono ?_ h
    rintro (e | o) _ hr <;> exact hr
  unfold attempt
  rw [meets_bind, Engine.meets_call]
  refine ⟨trivial, ?_⟩
  intro x a hx
  cases x with
  | given c =>
    obtain rfl := hx
    exact send_settles s id c items
  | failed e =>
    obtain rfl := hx
    cases e <;> exact settles_of_exchange_eq_none nofun rfl ⟨rfl, rfl, rfl⟩
  | crashed words =>
    obtain rfl := hx
    exact settles_of_exchange_eq_none nofun rfl ⟨rfl, rfl, rfl⟩

/-- **Acknowledgement.**  Whatever the reader gives and the client does, an attempt to upload an item ends with
    success exactly if the item was acknowledged.  Then the item was marked once and listeners were told; else
    the ledger is as it was, and nobody was told anything.  What the client took is a part of the content from
    its begin, in chunks that are not empty and not longer than they may be. -/
theorem attempt_succeeds_iff (hchunk : 1 ≤ s.chunkSize) {result : Except Stop Outcome}
    (h : Reaches dealings (attempt s id).run (blank items) (.done result) a) :
    (∀ t answer, a.exchange = some (t, answer) → ∃ c, a.opened = some c ∧
      (∀ chunk ∈ t.taken, chunk ≠ [] ∧ chunk.length ≤ s.chunkSize) ∧ t.taken.flatten <+: c.bytes) ∧
    (result = .ok .success ↔ a.IsAcknowledged s) ∧
    (result = .ok .success →
      (∃ now : Instant, now.IsDate ∧ a.items = ((ItemStatement.mark id now).run items).2) ∧
      a.marked = [id] ∧ a.told = [.sync (.uploadSucceeded id)]) ∧
    (result ≠ .ok .success → a.items = items ∧ a.marked = [] ∧ a.told = []) := by
  have hsettles : Settles s id items result a := (attempt_settles s id items).reaches h
  refine ⟨?_, hsettles.success_iff, hsettles.success, hsettles.failure⟩
  intro t answer he
  obtain ⟨c, hc, hd⟩ := hsettles.sent t answer he
  have hroom : Transfer.room s.chunkSize = s.chunkSize := if_neg (by omega)
  have hprefix : t.taken <+: (s.body c).chunks.chunks := hd.taken_prefix
  refine ⟨c, hc, ?_, ?_⟩
  · intro chunk hmem
    have hmem' : chunk ∈ (s.body c).chunks.chunks := hprefix.subset hmem
    have hlength : chunk.length ≤ Transfer.room s.chunkSize := c.length_le_of_mem_chunksFrom _ 0 _ chunk hmem'
    exact ⟨c.ne_nil_of_mem_chunksFrom _ 0 _ chunk hmem', hroom ▸ hlength⟩
  · obtain ⟨behind, hbehind⟩ := hprefix
    have hflat : t.taken.flatten <+: (s.body c).chunks.chunks.flatten := by
      rw [← hbehind, List.flatten_append]
      exact List.prefix_append _ _
    exact hflat.trans (c.flatten_chunksFrom_prefix _ 0 c.bytes)

/-! ## An item of one byte -/

/-- Uploads to a host, cut as usual. -/
def toHost : UploadSettings := .toward "https://host/items"

/-- A content of one byte. -/
def oneByte : Content := ⟨"a.jpg", "image/jpeg", some 1, [0], fun _ => 1, none⟩

/-- What becomes of it if the client takes all of it. -/
def wholeByte : Transfer := ⟨[[0]], none, .finished 1⟩

theorem ofBody_oneByte : Transfer.ofBody (toHost.body oneByte) none = wholeByte := by
  have hchunks : oneByte.chunks (Transfer.room toHost.chunkSize) = ⟨[[0]], none⟩ := by
    unfold Content.chunks
    rw [Content.chunksFrom_of_read rfl (by decide), Content.chunksFrom_of_end rfl (by decide)]
    rfl
  unfold Transfer.ofBody
  rw [show (toHost.body oneByte).content = oneByte from rfl,
    show (toHost.body oneByte).chunkSize = toHost.chunkSize from rfl, hchunks]
  rfl

/-- The item is acknowledged: the client takes the byte, and the server takes the request. -/
theorem attempt_succeeds_iff_one_byte : ∃ a : Account,
    Reaches dealings (attempt toHost "a").run (blank [⟨"a", .int 0, none⟩]) (.done (.ok .success)) a ∧
    a.IsAcknowledged toHost ∧ a.marked = ["a"] ∧ a.told = [.sync (.uploadSucceeded "a")] ∧
    ItemTable.Uploaded a.items "a" := by
  have hd : Pipe.Delivers (toHost.body oneByte) wholeByte := ofBody_oneByte ▸ Pipe.delivers_ofBody (by decide) none
  have h₀ : Reaches dealings (attempt toHost "a").run (blank [⟨"a", .int 0, none⟩])
      (attempt toHost "a").run _ := .here
  have h₁ := (h₀.answered (e := Call.openItem "a") (.given oneByte) _ rfl).answered
    (e := Call.send (toHost.request "a") (toHost.body oneByte)) (0 : Nat) _ rfl
  have h₂ := h₁.answered (e := Call.await 0) (.ended wholeByte (.ok ⟨200, []⟩)) _ ⟨⟨_, rfl, hd⟩, rfl⟩
  have h₃ := ((h₂.answered (e := Call.now) Instant.epoch _ ⟨by decide, rfl⟩).answered
    (e := Call.items (.mark "a" .epoch)) (.ok 1) _ ⟨rfl, rfl⟩).answered
    (e := Call.emit (.sync (.uploadSucceeded "a"))) () _ rfl
  obtain ⟨_, hiff, hsuccess, _⟩ := attempt_succeeds_iff (by decide) h₃
  obtain ⟨_, hmarked, htold⟩ := hsuccess rfl
  exact ⟨_, h₃, hiff.1 rfl, hmarked, htold, ⟨⟨"a", .int 0, some (.int 0)⟩, rfl, rfl⟩⟩

end Upload

end MediaBackup

import MediaBackup.Proofs.Pass.Crew
import MediaBackup.Proofs.Store.Items
import MediaBackup.Proofs.Store.Table
import MediaBackup.Proofs.Time.Dates
import MediaBackup.Proofs.Upload.Whole

/-
  The two tables, and what the world around the engine did so far.

  A SCENE answers every call in every way that a world can: the clock shows any date, a statement may fail and
  a statement that failed may have been run all the same, the library lists and opens as it likes, and an
  exchange comes to anything.  It keeps count of the acknowledgements, one entry for each exchange that
  took the whole body and was answered with success.
-/

namespace MediaBackup

/-- The item that a request is for. -/
def Request.item (r : Request) : String :=
  ((r.headers.find? (·.1 == UploadSettings.itemHeader)).map Prod.snd).getD ""

/-- A scene. -/
structure Scene where
  jobs : JobTable
  items : ItemTable
  /-- The time that the clock showed last. -/
  clock : Instant
  /-- The exchanges by their number. -/
  sent : List (Request × Body)
  /-- The items whose exchange was acknowledged, each as often as that happened. -/
  acknowledged : List String
  /-- The items that the library listed. -/
  reported : List String

namespace Scene

/-- How an exchange may end. -/
def Exchanges (s : Scene) (n : Nat) (x : Exchange) (t : Scene) : Prop :=
  match s.sent[n]? with
  | some (request, body) =>
    (∀ transfer answer, x = .ended transfer answer → ∃ asked, transfer = .ofBody body asked) ∧
    ((x.Acknowledges body ∧ t = { s with acknowledged := request.item :: s.acknowledged }) ∨
      (¬ x.Acknowledges body ∧ t = s))
  | none => t = s

/-- How a scene may answer a call. -/
def Answers : Ways Scene
  | s, .jobs st, .ok x, t => x = (st.run s.jobs).1 ∧ t = { s with jobs := (st.run s.jobs).2 }
  | s, .jobs st, .error _, t => t = s ∨ t = { s with jobs := (st.run s.jobs).2 }
  | s, .items st, .ok x, t => x = (st.run s.items).1 ∧ t = { s with items := (st.run s.items).2 }
  | s, .items st, .error _, t => t = s ∨ t = { s with items := (st.run s.items).2 }
  | s, .now, x, t => x.IsDate ∧ t = { s with clock := x }
  | s, .list, .given l, t => t = { s with reported := l.ids ++ s.reported }
  | s, .send request body, n, t => n = s.sent.length ∧ t = { s with sent := s.sent ++ [(request, body)] }
  | s, .await n, x, t => s.Exchanges n x t
  | s, _, _, t => t = s

end Scene

namespace UploadSettings

theorem item_header {r : Request} {name value : String} (h : name ≠ itemHeader) :
    (r.header name value).item = r.item := by
  unfold Request.item Request.header
  dsimp only
  rw [List.find?_append, List.find?_filter]
  have hp : (fun e : String × String => decide ((e.1 != name) = true ∧ (e.1 == itemHeader) = true)) =
      (·.1 == itemHeader) := by
    funext e
    by_cases he : e.1 = itemHeader
    · have hne : e.1 ≠ name := fun h' => h (h'.symm.trans he)
      simp [he, bne_iff_ne, he ▸ hne]
    · simp [he]
  rw [hp]
  have hlast : [(name, value)].find? (·.1 == itemHeader) = none := by
    rw [List.find?_cons_of_neg (by simpa using h), List.find?_nil]
  rw [hlast, Option.or_none]

/-- The request that uploads an item is for that item. -/
theorem item_request (s : UploadSettings) (id : String) : (s.request id).item = id := by
  have hitem : ∀ r : Request, r.headers = [] → (r.header itemHeader id).item = id := by
    intro r hr
    unfold Request.item Request.header
    rw [hr]
    rfl
  unfold request
  dsimp only
  split
  · unfold Request.bearer
    rw [item_header (by decide)]
    exact (item_header (r := (Request.post s.endpoint.url).header itemHeader id) (by decide)).trans
      (hitem _ rfl)
  · exact (item_header (r := (Request.post s.endpoint.url).header itemHeader id) (by decide)).trans
      (hitem _ rfl)

end UploadSettings

end MediaBackup

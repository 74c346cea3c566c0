import MediaBackup.Job.Key

/-
  A key and its text.

  The text of a key is read back as that key (`parse?_text`), and nothing else is read as one
  (`parse?_eq_some_iff`); so no two keys have one text (`text_injective`).  The one exception is the
  upload of the item without a name: its text can be written but stands for no key.
-/

namespace MediaBackup.JobKey

/-- The key can be read back from its text: it is no upload, or the upload of an item with a name. -/
def IsProper (k : JobKey) : Prop := k ≠ .upload ""

instance (k : JobKey) : Decidable k.IsProper := inferInstanceAs (Decidable (k ≠ .upload ""))

/-! ## The rest of a list after its lead -/

theorem after?_append (lead rest : List Char) : after? lead (lead ++ rest) = some rest := by
  unfold after?
  have hp : lead.isPrefixOf (lead ++ rest) = true := by
    rw [List.isPrefixOf_iff_prefix]
    exact List.prefix_append lead rest
  rw [if_pos hp, List.drop_left]

theorem eq_append_of_after? {lead s rest : List Char} (h : after? lead s = some rest) :
    s = lead ++ rest := by
  unfold after? at h
  split at h
  case isTrue hp =>
    rw [List.isPrefixOf_iff_prefix] at hp
    obtain ⟨tail, rfl⟩ := hp
    rw [List.drop_left] at h
    rw [Option.some.inj h]
  case isFalse => exact nomatch h

/-! ## Writing and reading keys -/

theorem toList_text_upload (id : String) : (upload id).text.toList = uploadTag.toList ++ id.toList := by
  show (uploadTag ++ id).toList = _
  rw [String.toList_append]

/-- The text of an upload is that of no other kind of key. -/
theorem text_upload_ne_of_head {id s : String} (h : s.toList.head? ≠ some 'u') : (upload id).text ≠ s := by
  intro e
  apply h
  rw [← e, toList_text_upload]
  rfl

theorem text_upload_ne_scan (id : String) : (upload id).text ≠ "scan" :=
  text_upload_ne_of_head (by decide)

theorem text_upload_ne_dispatch (id : String) : (upload id).text ≠ "dispatch" :=
  text_upload_ne_of_head (by decide)

/-- The text of a proper key is read back as that key. -/
theorem parse?_text {k : JobKey} (hk : k.IsProper) : parse? k.text = some k := by
  cases k with
  | scan => rfl
  | dispatch => rfl
  | upload id =>
    unfold parse?
    rw [if_neg (text_upload_ne_scan id), if_neg (text_upload_ne_dispatch id), toList_text_upload,
      after?_append]
    rcases hid : id.toList with _ | ⟨c, r⟩
    · have he : id = "" := String.toList_inj.1 (by rw [hid]; rfl)
      exact absurd (congrArg upload he) hk
    · show some (upload (String.ofList (c :: r))) = _
      rw [← hid, String.ofList_toList]

/-- A text is read as a key exactly if it is the text of that key and the key is proper. -/
theorem parse?_eq_some_iff {s : String} {k : JobKey} : parse? s = some k ↔ s = k.text ∧ k.IsProper := by
  constructor
  · intro h
    unfold parse? at h
    split at h
    · rename_i hs
      obtain rfl := Option.some.inj h
      exact ⟨hs, by decide⟩
    · split at h
      · rename_i _ hs
        obtain rfl := Option.some.inj h
        exact ⟨hs, by decide⟩
      · split at h
        · rename_i c r ha
          obtain rfl := Option.some.inj h
          refine ⟨String.toList_inj.1 ?_, ?_⟩
          · rw [toList_text_upload, String.toList_ofList]
            exact eq_append_of_after? ha
          · intro e
            have hl := congrArg String.toList (upload.inj e)
            rw [String.toList_ofList] at hl
            exact nomatch hl
        · exact nomatch h
  · rintro ⟨rfl, hk⟩
    exact parse?_text hk

/-- The text of the improper key stands for no key. -/
theorem parse?_eq_none_of_not_isProper {k : JobKey} (hk : ¬ k.IsProper) : parse? k.text = none := by
  have he : k = .upload "" := Classical.not_not.1 hk
  rw [he]
  decide

/-- No two keys have one text. -/
theorem text_injective {j k : JobKey} (h : j.text = k.text) : j = k := by
  cases j <;> cases k
  case scan.scan => rfl
  case dispatch.dispatch => rfl
  case scan.dispatch => exact absurd h (by decide)
  case dispatch.scan => exact absurd h (by decide)
  case scan.upload id => exact absurd h.symm (text_upload_ne_scan id)
  case dispatch.upload id => exact absurd h.symm (text_upload_ne_dispatch id)
  case upload.scan id => exact absurd h (text_upload_ne_scan id)
  case upload.dispatch id => exact absurd h (text_upload_ne_dispatch id)
  case upload.upload id id' =>
    have hl := congrArg String.toList h
    rw [toList_text_upload, toList_text_upload] at hl
    rw [String.toList_inj.1 (List.append_cancel_left hl)]

end MediaBackup.JobKey

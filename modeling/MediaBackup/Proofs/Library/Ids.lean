import MediaBackup.Library.Source
import MediaBackup.Proofs.Library.Walking

/-
  Ids and the files they name.

  An id is cut by its slashes into parts (`Cuts`), and it leads somewhere exactly if each part is a name; then it leads to
  those names behind the root and nowhere else (`Cuts.resolve?_eq`).  The id that a walk gives to a file has the names of its
  path as its parts, as long as these are text; so it leads back to the file (`resolve?_itemId`).  Names that are no text are
  lost in ids, and a file is opened only if the system takes its path (`find?_of_reaches`).
-/

namespace MediaBackup.Library

open Files

variable {id part : String} {parts : List String} {path : Path} {chars : List Char} {s : Source} {p : Written}

/-! ## The parts of an id -/

/-- The parts of an id are what stands between its slashes. -/
structure Cuts (id : String) (parts : List String) : Prop where
  whole : "/".intercalate parts = id
  ne_nil : parts ≠ []
  no_slash : ∀ part ∈ parts, '/' ∉ part.toList

theorem Source.parts_eq_splitOn (id : String) : Source.parts id = id.toList.splitOn '/' := by
  rw [Source.parts, Text.splitAll_eq_splitOnP, List.splitOn_eq_splitOnP]

/-- An id is cut in one way. -/
theorem Cuts.parts_eq (h : Cuts id parts) : Source.parts id = parts.map String.toList := by
  have hparts : ∀ l ∈ parts.map String.toList, '/' ∉ l := by
    intro l hl
    obtain ⟨part, hpart, rfl⟩ := List.mem_map.1 hl
    exact h.no_slash part hpart
  have hne : parts.map String.toList ≠ [] := mt List.map_eq_nil_iff.1 h.ne_nil
  rw [Source.parts_eq_splitOn, ← h.whole, String.toList_intercalate]
  exact List.splitOn_intercalate '/' hparts hne

theorem not_mem_of_mem_splitOn {part : List Char} (h : part ∈ chars.splitOn '/') : '/' ∉ part := by
  induction chars generalizing part with
  | nil =>
    rw [List.splitOn_nil, List.mem_singleton] at h
    rw [h]
    exact List.not_mem_nil
  | cons c chars ih =>
    rw [List.splitOn_cons_eq_if_modifyHead] at h
    split at h
    · rcases List.mem_cons.1 h with rfl | h
      · exact List.not_mem_nil
      · exact ih h
    · rename_i hc
      obtain ⟨first, rest, hsplit⟩ := List.exists_cons_of_ne_nil (List.splitOn_ne_nil '/' chars)
      rw [hsplit] at h ih
      rcases List.mem_cons.1 h with rfl | h
      · have hfirst := ih List.mem_cons_self
        simp only [List.mem_cons, not_or]
        exact ⟨fun e => hc (by rw [← e]; exact beq_self_eq_true '/'), hfirst⟩
      · exact ih (List.mem_cons_of_mem first h)

/-- Every id is cut. -/
theorem exists_cuts (id : String) : ∃ parts, Cuts id parts := by
  refine ⟨(Source.parts id).map String.ofList, ?_, ?_, ?_⟩
  · rw [← String.toList_inj, String.toList_intercalate, List.map_map]
    have hmap : (Source.parts id).map (String.toList ∘ String.ofList) = Source.parts id := by
      simp [Function.comp_def]
    rw [hmap, Source.parts_eq_splitOn]
    exact List.intercalate_splitOn '/'
  · rw [Source.parts_eq_splitOn]
    exact mt List.map_eq_nil_iff.1 (List.splitOn_ne_nil '/' _)
  · intro part hpart
    obtain ⟨l, hl, rfl⟩ := List.mem_map.1 hpart
    rw [Source.parts_eq_splitOn] at hl
    rw [String.toList_ofList]
    exact not_mem_of_mem_splitOn hl

/-! ## The path of an id -/

theorem slash_mem_encode_iff : slash ∈ Text.encode chars ↔ '/' ∈ chars :=
  Text.mem_encode_ascii_iff (c := '/') (by decide)

/-- A part is a name if it says something and that is not a way. -/
theorem isPlain_encode_iff (h : '/' ∉ part.toList) :
    IsPlain (Text.encode part.toList) ↔ part ≠ "" ∧ part ≠ "." ∧ part ≠ ".." := by
  have hne : ∀ t : String, Text.encode part.toList ≠ Text.encode t.toList ↔ part ≠ t := by
    intro t
    exact not_congr ⟨fun e => String.toList_inj.1 (Text.encode_injective e), fun e => by rw [e]⟩
  rw [← hne "", ← hne ".", ← hne ".."]
  constructor
  · exact fun hplain => ⟨hplain.ne_nil, hplain.ne_here, hplain.ne_above⟩
  · exact fun ⟨hnil, hhere, habove⟩ => ⟨hnil, mt slash_mem_encode_iff.1 h, hhere, habove⟩

/-- A part is followed if it is a name. -/
theorem descend_eq (h : '/' ∉ chars) (p : Written) :
    Source.descend p chars = if IsPlain (Text.encode chars) then some (p.joined (Text.encode chars)) else none := by
  have hslash := mt slash_mem_encode_iff.1 h
  have hsteps : Written.steps (Text.encode chars) = (Step.ofFirst? true (Text.encode chars)).toList := by
    rw [Written.steps_of_ofBytes (Path.ofBytes_of_no_slash hslash)]
    exact List.append_nil _
  unfold Source.descend
  rw [hsteps]
  by_cases hplain : IsPlain (Text.encode chars)
  · rw [Step.ofFirst?_of_isPlain hplain, if_pos hplain]
    rfl
  · rw [if_neg hplain]
    cases hstep : Step.ofFirst? true (Text.encode chars) with
    | none => rfl
    | some step =>
      cases step with
      | down name => exact absurd (Step.isPlain_of_ofFirst? hslash hstep) hplain
      | _ => rfl

theorem foldlM_descend {l : List (List Char)} (h : ∀ part ∈ l, '/' ∉ part) (p : Written) :
    l.foldlM Source.descend p =
      if ∀ part ∈ l, IsPlain (Text.encode part) then some (p.below (l.map Text.encode)) else none := by
  induction l generalizing p with
  | nil => simp [Written.below]
  | cons part l ih =>
    obtain ⟨hpart, hl⟩ := List.forall_mem_cons.1 h
    rw [List.foldlM_cons, descend_eq hpart]
    by_cases hplain : IsPlain (Text.encode part)
    · rw [if_pos hplain]
      show l.foldlM Source.descend _ = _
      rw [ih hl]
      simp [hplain, Written.below]
    · rw [if_neg hplain, if_neg (fun hall => hplain (hall part List.mem_cons_self))]
      rfl

/-- The names that the parts of an id are. -/
def names (parts : List String) : Path := parts.map fun part => Text.encode part.toList

/-- The path of an id: the parts behind the root, if they are names. -/
theorem Cuts.resolve?_eq (h : Cuts id parts) (s : Source) :
    s.resolve? id = if ∀ name ∈ names parts, IsPlain name then some (s.path.below (names parts)) else none := by
  have hslash : ∀ part ∈ parts.map String.toList, '/' ∉ part := by
    intro l hl
    obtain ⟨part, hpart, rfl⟩ := List.mem_map.1 hl
    exact h.no_slash part hpart
  unfold Source.resolve?
  rw [h.parts_eq, foldlM_descend hslash]
  simp [names, Function.comp_def]

/-- Read as text, the names are the parts. -/
theorem itemId_names (h : Cuts id parts) : itemId (names parts) = id := by
  have hshown : (names parts).map Text.showBytes = parts := by
    simp [names, Function.comp_def, Text.showBytes_encode]
  rw [itemId, hshown, h.whole]

/-- **Ids stay inside.**  An id leads somewhere exactly if each of its parts is a name; then its path is the root and
    behind it the parts in their order, each one step down, and the id of that path is the id again.  Every other id is
    of nothing, whatever there is. -/
theorem ids_stay_inside (s : Source) (id : String) : ∃ parts, Cuts id parts ∧
    ((s.resolve? id).isSome = true ↔ ∀ part ∈ parts, part ≠ "" ∧ part ≠ "." ∧ part ≠ "..") ∧
    (∀ p, s.resolve? id = some p → p = s.path.below (names parts) ∧ s.path <+: p ∧
      p.steps = s.path.steps ++ (names parts).map .down ∧ relativeId? s.path p = some id) ∧
    (s.resolve? id = none → ∀ top, s.openItem top id =
      .error (.notFound ("media id " ++ id ++ " does not name a file under the library root"))) := by
  obtain ⟨parts, h⟩ := exists_cuts id
  have hresolve := h.resolve?_eq s
  have hnames : (∀ name ∈ names parts, IsPlain name) ↔ ∀ part ∈ parts, part ≠ "" ∧ part ≠ "." ∧ part ≠ ".." := by
    unfold names
    rw [List.forall_mem_map]
    exact forall₂_congr fun part hpart => isPlain_encode_iff (h.no_slash part hpart)
  refine ⟨parts, h, ?_, ?_, ?_⟩
  · rw [← hnames, hresolve]
    by_cases hplain : ∀ name ∈ names parts, IsPlain name
    · rw [if_pos hplain]
      exact ⟨fun _ => hplain, fun _ => rfl⟩
    · rw [if_neg hplain]
      exact ⟨nofun, fun h => absurd h hplain⟩
  · intro p hp
    rw [hresolve] at hp
    split at hp
    · rename_i hplain
      obtain rfl := Option.some.inj hp
      have hne : names parts ≠ [] := mt List.map_eq_nil_iff.1 h.ne_nil
      refine ⟨rfl, Written.isPrefix_below hplain _, Written.steps_below hplain _, ?_⟩
      rw [relativeId?_below hplain hne, itemId_names h]
    · cases hp
  · intro hnone top
    unfold Source.openItem
    rw [hnone]

example : ∀ id ∈ ["", "/a.jpg", "a//b.jpg", "a/", "./a.jpg", "a/../b.jpg"], (Source.mk "phone").resolve? id = none := by
  decide

/-! ## The ids of a walk -/

/-- The names of a path are text. -/
def IsText (path : Path) : Prop := ∀ name ∈ path, ∃ chars : List Char, name = Text.encode chars

/-- Names that are text are the parts of their id. -/
theorem exists_cuts_itemId (hplain : ∀ name ∈ path, IsPlain name) (hne : path ≠ []) (htext : IsText path) :
    ∃ parts, Cuts (itemId path) parts ∧ names parts = path := by
  have hname : ∀ name ∈ path, Text.encode (Text.showBytes name).toList = name := by
    intro name hname
    obtain ⟨chars, rfl⟩ := htext name hname
    rw [Text.showBytes_encode, String.toList_ofList]
  refine ⟨path.map Text.showBytes, ⟨rfl, mt List.map_eq_nil_iff.1 hne, ?_⟩, ?_⟩
  · intro part hpart
    obtain ⟨name, hmem, rfl⟩ := List.mem_map.1 hpart
    rw [← slash_mem_encode_iff, hname name hmem]
    exact (hplain name hmem).no_slash
  · rw [names, List.map_map]
    exact (List.map_congr_left hname).trans (List.map_id path)

/-- So their id leads back to them. -/
theorem resolve?_itemId (hplain : ∀ name ∈ path, IsPlain name) (hne : path ≠ []) (htext : IsText path) (s : Source) :
    s.resolve? (itemId path) = some (s.path.below path) := by
  obtain ⟨parts, hcuts, rfl⟩ := exists_cuts_itemId hplain hne htext
  rw [hcuts.resolve?_eq, if_pos hplain]

/-- The system takes the path of a file: neither it nor a name in it is too long. -/
def Fits (root : Written) (path : Path) : Prop :=
  (root.below path).length ≤ mostInPath ∧ ∀ name ∈ path, name.length ≤ mostInName

instance (root : Written) (path : Path) : Decidable (Fits root path) :=
  inferInstanceAs (Decidable (_ ∧ ∀ name ∈ path, name.length ≤ mostInName))

variable {dir : Written} {entries : List (Name × Node)} {bytes : List UInt8} {name : Name} {top : Node}

/-- One name is followed to what stands under it. -/
theorem follow_of_mem (htree : IsTree entries) {node : Node} (hmem : (name, node) ∈ entries) (readable : Bool)
    (up : List Node) : follow (.dir readable entries :: up) name =
      if mostInName < name.length then .error .nameTooLong else .ok (node :: .dir readable entries :: up) := by
  have hplain := (htree.legal _ hmem).toIsPlain
  have hlookup : entries.lookup name = some node := by
    obtain ⟨before, after, rfl⟩ := List.append_of_mem hmem
    refine List.lookup_eq_some_iff.2 ⟨before, after, rfl, ?_⟩
    intro e he
    -- a name that came before would be there twice
    have hdistinct := htree.distinct
    rw [List.map_append, List.nodup_append] at hdistinct
    rw [bne_iff_ne]
    exact (hdistinct.2.2 e.1 (List.mem_map.2 ⟨e, he, rfl⟩) name (List.mem_map.2 ⟨_, List.mem_cons_self, rfl⟩)).symm
  unfold follow
  simp only [Node.entries?, hlookup, if_neg (not_or.2 ⟨hplain.ne_nil, hplain.ne_here⟩), if_neg hplain.ne_above]

/-- The way to a file that is reached ends there, unless a name on it is too long. -/
theorem Reaches.follow (h : Reaches dir entries path bytes) (htree : IsTree entries) (readable : Bool) (up : List Node) :
    path.foldlM Files.follow (.dir readable entries :: up) >>= Node.last =
      if ∀ name ∈ path, name.length ≤ mostInName then .ok (.file bytes) else .error .nameTooLong := by
  induction h generalizing readable up with
  | @here dir entries name bytes hmem =>
    rw [List.foldlM_cons, follow_of_mem htree hmem]
    by_cases hlong : mostInName < name.length
    · rw [if_pos hlong, if_neg (by simpa using hlong)]
      rfl
    · rw [if_neg hlong, if_pos (by simpa using hlong)]
      rfl
  | @deeper dir entries name readable' sub path bytes hmem hlisted hreaches ih =>
    rw [List.foldlM_cons, follow_of_mem htree hmem]
    by_cases hlong : mostInName < name.length
    · have hnot : ¬ ∀ n ∈ name :: path, n.length ≤ mostInName :=
        fun hall => absurd (hall name List.mem_cons_self) (Nat.not_le.2 hlong)
      rw [if_pos hlong, if_neg hnot]
      rfl
    · rw [if_neg hlong]
      show path.foldlM Files.follow _ >>= Node.last = _
      rw [ih (htree.sub hmem)]
      simp [Nat.not_lt.1 hlong]

/-- What is opened at the path of a file that is reached. -/
theorem find?_of_reaches {readable : Bool} (hroot : top.find? dir = .ok (.dir readable entries)) (htree : IsTree entries)
    (h : Reaches dir entries path bytes) :
    top.find? (dir.below path) = if Fits dir path then .ok (.file bytes) else .error .nameTooLong := by
  obtain ⟨hzero, -, up, hway⟩ := Node.way_of_find? hroot
  have hzero' := Written.zero_not_mem_below (h.legal htree) hzero
  rcases Nat.lt_or_ge mostInPath (dir.below path).length with hlong | hlength
  · rw [Node.find?_of_lt hzero' hlong, if_neg (fun hfits => absurd hfits.1 (Nat.not_le.2 hlong))]
  · have hfits : Fits dir path ↔ ∀ name ∈ path, name.length ≤ mostInName := and_iff_right hlength
    rw [Node.find?_of_le hzero' hlength, Node.way_below (h.plain htree), hway]
    show path.foldlM Files.follow _ >>= Node.last = _
    rw [h.follow htree]
    simp only [hfits]

/-- What opening an id gives that leads to a file. -/
theorem openItem_of_reaches {readable : Bool} (hroot : top.find? s.path = .ok (.dir readable entries))
    (htree : IsTree entries) (h : Reaches s.path entries path bytes) (hid : s.resolve? id = some (s.path.below path)) :
    s.openItem top id = if Fits s.path path then .ok (fileContent (s.path.below path) id bytes)
      else .error (.device FileFault.nameTooLong.message) := by
  have hfind := find?_of_reaches hroot htree h
  unfold Source.openItem
  rw [hid]
  dsimp only
  rw [hfind]
  by_cases hfits : Fits s.path path
  · rw [if_pos hfits, if_pos hfits]
  · rw [if_neg hfits, if_neg hfits]

/-- A walk through a library begins at its directory. -/
theorem enumerate_rest (hroot : top.find? s.path = .ok (.dir true entries)) (htree : IsTree entries) :
    ∃ found, (s.enumerate top >>= Cursor.rest) = .ok found ∧
      found.Perm ((mediaIn s.path entries).map Media.found) := by
  obtain ⟨-, hlength, -⟩ := Node.way_of_find? hroot
  have hlisted : (Folder.mk s.path true entries).fault? = none := if_neg (Nat.not_lt.2 hlength)
  unfold Source.enumerate
  rw [hroot]
  exact rest_start hlisted htree

/-- The library of a phone among all that it holds. -/
def storage : Node := .dir true [(Text.encode "phone".toList, .dir true phone.entries)]

/-- Two photos whose names are no text. -/
def twins : List (Name × Node) :=
  [(0xFE :: Text.encode ".jpg".toList, .file [1]), (0xFF :: Text.encode ".jpg".toList, .file [2])]

theorem mediaType?_stray (b : UInt8) : mediaType? (b :: Text.encode ".jpg".toList) = some "image/jpeg" :=
  mediaType?_eq_some_iff.2 ⟨[b], Text.encode "jpg".toList, "jpg", List.cons_ne_nil _ _, rfl, by decide, by decide⟩

/-- A byte that is no text is told as the stand-in for all such bytes. -/
theorem found_stray {b : UInt8} (hb : ¬ b < 0x80) (h : Text.leadRange b = none) :
    Media.found ⟨[b :: Text.encode ".jpg".toList], bytes, type⟩ = ⟨"\uFFFD.jpg", "\uFFFD.jpg", type, bytes.length⟩ := by
  have hshown : Text.showBytes (b :: Text.encode ".jpg".toList) = "\uFFFD.jpg" :=
    Text.showBytes_cons_of_leadRange hb h _
  unfold Media.found itemId
  rw [List.map_singleton, hshown, List.getLast?_singleton, Option.getD_some, hshown]
  rfl

/-- A name that is as long as the system takes, nearly. -/
def longName : List Char := List.replicate 250 'n' ++ ".jpg".toList

/-- A photo with a long name. -/
def longNamed : List (Name × Node) := [(Text.encode longName, .file [0x63])]

/-- The root with many slashes behind it. -/
def farRoot : Source := ⟨String.ofList ("root".toList ++ List.replicate 3880 '/')⟩

theorem encode_longName : Text.encode longName = List.replicate 250 0x6E ++ Text.encode ".jpg".toList := by
  rw [← Text.encode_replicate (c := 'n') (by decide)]
  exact List.flatMap_append

theorem path_farRoot : farRoot.path = Text.encode "root".toList ++ List.replicate 3880 slash := by
  unfold Source.path farRoot
  rw [String.toList_ofList, ← Text.encode_replicate (c := '/') (by decide)]
  exact List.flatMap_append

/-- A path with a name behind it is as long as both, so it may be too long though neither is. -/
theorem not_fits_of_lt (h : IsPlain name) (hlong : mostInPath < p.length + name.length) : ¬ Fits p [name] := by
  have hjoined : p.length + name.length ≤ (p.joined name).length := by
    rcases Written.joined_cases h p with ⟨rfl, e⟩ | ⟨q, rfl, e⟩ | ⟨-, e⟩ <;> rw [e]
    · simp
    · simp only [List.length_append, List.length_cons, List.length_nil]
      omega
    · simp only [List.length_append, List.length_cons]
      omega
  intro hfits
  exact absurd (Nat.le_trans hjoined hfits.1) (Nat.not_le.2 hlong)

/-- The path of a name that is text. -/
theorem resolve?_ofList {chars : List Char} (h : IsPlain (Text.encode chars)) (s : Source) :
    s.resolve? (String.ofList chars) = some (s.path.below [Text.encode chars]) := by
  have hplain : ∀ name ∈ [Text.encode chars], IsPlain name := by simpa using h
  have hid : itemId [Text.encode chars] = String.ofList chars := by
    simp [itemId, Text.showBytes_encode]
  rw [← hid]
  exact resolve?_itemId hplain (List.cons_ne_nil _ _) (by simp [IsText]) s

/-- A library of one photo whose name is text. -/
theorem enumerate_one {chars : List Char} (hname : IsLegal (Text.encode chars))
    (htype : mediaType? (Text.encode chars) = some type)
    (hroot : top.find? s.path = .ok (.dir true [(Text.encode chars, .file bytes)])) :
    (s.enumerate top >>= Cursor.rest) = .ok [⟨String.ofList chars, String.ofList chars, type, bytes.length⟩] ∧
      s.openItem top (String.ofList chars) = if Fits s.path [Text.encode chars]
        then .ok (fileContent (s.path.below [Text.encode chars]) (String.ofList chars) bytes)
        else .error (.device FileFault.nameTooLong.message) := by
  have htree : IsTree [(Text.encode chars, .file bytes)] := .cons_leaf hname List.not_mem_nil rfl .nil
  constructor
  · obtain ⟨found, hfound, hperm⟩ := enumerate_rest hroot htree
    have hmedia : mediaIn s.path [(Text.encode chars, .file bytes)] = [⟨[Text.encode chars], bytes, type⟩] := by
      simp [mediaIn, htype]
    rw [hmedia, List.map_singleton, List.perm_singleton] at hperm
    rw [hfound, hperm]
    simp [Media.found, itemId, Text.showBytes_encode]
  · exact openItem_of_reaches hroot htree (.here (.head _)) (resolve?_ofList hname.toIsPlain s)

/-- A directory with another in it that is called root. -/
def holding (entries : List (Name × Node)) : Node := .dir true [(Text.encode "root".toList, .dir true entries)]

end MediaBackup.Library

import Mathlib.Data.List.Nodup
import MediaBackup.Library.Walk
import MediaBackup.Proofs.Files.Written
import MediaBackup.Proofs.Text.Reading

/-
  What a walk through a directory finds.

  The directory is any tree: entries in any order, links and the like among them, and any directories in it that cannot be
  listed.  A file is reached along directories that can be listed (`Reaches`), and it is media by the ending of its name
  (`IsMedia`).

  The program is a loop over what is yet to be listed; the specification is a recursion over the tree (`mediaIn`).  The crux
  is that what a cursor has LEFT is the sum of what is in its listing and in its pending directories: one call of `next`
  takes one file from it or none (`tells_next`), and only the order of a sum changes when a directory is put off.
-/

namespace MediaBackup.Library

open Files

variable {name ext : Name} {type : String} {root dir : Written} {entries : List (Name × Node)} {path : Path}
  {bytes : List UInt8}

/-! ## Which files are media -/

/-- The byte before the extension of a name. -/
def dot : UInt8 := 0x2E

/-- The name ends in a dot, not its first byte, and a known extension, in whatever case. -/
def IsMedia (name : Name) (type : String) : Prop :=
  ∃ stem ext known, stem ≠ [] ∧ name = stem ++ dot :: ext ∧ (known, type) ∈ mediaTypes ∧
    ext.map lowerByte = Text.encode known.toList

/-- What follows the last dot. -/
theorem takeWhile_extension {stem : Name} (h : dot ∉ ext) :
    ((stem ++ dot :: ext).reverse.takeWhile (· != 0x2E)).reverse = ext := by
  have hext : ∀ b ∈ ext.reverse, (b != 0x2E) = true := by
    intro b hb
    exact bne_iff_ne.2 fun (e : b = dot) => h (e ▸ List.mem_reverse.1 hb)
  rw [List.reverse_append, List.reverse_cons, List.append_assoc, List.takeWhile_append_of_pos hext]
  simp [dot]

theorem extension?_append {stem : Name} (hstem : stem ≠ []) (h : dot ∉ ext) (habove : stem ++ dot :: ext ≠ above) :
    extension? (stem ++ dot :: ext) = some ext := by
  have hlength : 0 < stem.length := List.length_pos_iff.2 hstem
  unfold extension?
  rw [takeWhile_extension h, if_neg]
  simp only [habove, List.length_append, List.length_cons, false_or, not_or]
  omega

/-- A name with an extension has a dot before it, which is not its first byte. -/
theorem eq_append_of_extension? (h : extension? name = some ext) : ∃ stem, stem ≠ [] ∧ name = stem ++ dot :: ext := by
  by_cases hdot : dot ∈ name
  · obtain ⟨ext', stem', hname, hext'⟩ := List.eq_append_cons_of_mem (List.mem_reverse.2 hdot)
    have hname' : name = stem'.reverse ++ dot :: ext'.reverse := by
      rw [← List.reverse_reverse name, hname]
      simp
    have htake : ((stem'.reverse ++ dot :: ext'.reverse).reverse.takeWhile (· != 0x2E)).reverse = ext'.reverse :=
      takeWhile_extension (by simpa using hext')
    unfold extension? at h
    rw [hname', htake] at h
    dsimp only at h
    split at h
    · cases h
    · rename_i hnone
      obtain rfl := Option.some.inj h
      refine ⟨stem'.reverse, ?_, hname'⟩
      intro hnil
      refine hnone (.inr (.inr ?_))
      rw [hnil]
      simp
  · have hall : ∀ b ∈ name.reverse, (b != 0x2E) = true := by
      intro b hb
      exact bne_iff_ne.2 fun (e : b = dot) => hdot (e ▸ List.mem_reverse.1 hb)
    have htake : name.reverse.takeWhile (· != 0x2E) = name.reverse := by
      have happend : (name.reverse ++ []).takeWhile (· != 0x2E) = name.reverse ++ [].takeWhile (· != 0x2E) :=
        List.takeWhile_append_of_pos hall
      rwa [List.append_nil, List.takeWhile_nil, List.append_nil] at happend
    unfold extension? at h
    rw [htake, List.reverse_reverse] at h
    simp at h

/-- No two types have one extension, and no extension has a dot. -/
theorem pairwise_mediaTypes :
    mediaTypes.Pairwise (fun a b => Text.encode a.1.toList ≠ Text.encode b.1.toList) ∧
      ∀ a ∈ mediaTypes, dot ∉ Text.encode a.1.toList ∧ Text.encode a.1.toList ≠ [] := by
  decide

/-- In a list of different keys what has a key is found by it. -/
theorem find?_eq_some_iff_of_pairwise {α β : Type} [BEq β] [LawfulBEq β] (key : α → β) {l : List α}
    (h : l.Pairwise fun a b => key a ≠ key b) {k : β} {a : α} :
    l.find? (fun a => key a == k) = some a ↔ a ∈ l ∧ key a = k := by
  induction l with
  | nil => simp
  | cons b l ih =>
    obtain ⟨hb, hl⟩ := List.pairwise_cons.1 h
    rw [List.find?_cons]
    by_cases hk : key b = k
    · simp only [hk, beq_self_eq_true, Option.some.injEq, List.mem_cons]
      constructor
      · rintro rfl
        exact ⟨.inl rfl, hk⟩
      · rintro ⟨rfl | hmem, ha⟩
        · rfl
        · exact absurd (hk.trans ha.symm) (hb a hmem)
    · rw [beq_eq_false_iff_ne.2 hk, ih hl, List.mem_cons]
      constructor
      · exact fun ⟨hmem, ha⟩ => ⟨.inr hmem, ha⟩
      · rintro ⟨rfl | hmem, ha⟩
        · exact absurd ha hk
        · exact ⟨hmem, ha⟩

/-- The type of a name is told by its ending. -/
theorem mediaType?_eq_some_iff : mediaType? name = some type ↔ IsMedia name type := by
  have hfind : ∀ ext : Name, ∀ a, mediaTypes.find? (fun a => Text.encode a.1.toList == ext.map lowerByte) = some a ↔
      a ∈ mediaTypes ∧ Text.encode a.1.toList = ext.map lowerByte :=
    fun ext a => find?_eq_some_iff_of_pairwise (fun a : String × String => Text.encode a.1.toList) pairwise_mediaTypes.1
  have hread : mediaType? name = some type ↔ ∃ ext, extension? name = some ext ∧ ∃ a,
      mediaTypes.find? (fun a => Text.encode a.1.toList == ext.map lowerByte) = some a ∧ a.2 = type := by
    unfold mediaType?
    simp only [bind, Option.bind_eq_some_iff, pure, Option.some.injEq]
  rw [hread]
  constructor
  · rintro ⟨ext, hext, ⟨known, type⟩, hknown, rfl⟩
    obtain ⟨stem, hstem, rfl⟩ := eq_append_of_extension? hext
    obtain ⟨hmem, hk⟩ := (hfind ext _).1 hknown
    exact ⟨stem, ext, known, hstem, rfl, hmem, hk.symm⟩
  · rintro ⟨stem, ext, known, hstem, rfl, hmem, hk⟩
    obtain ⟨hdot, hne⟩ := pairwise_mediaTypes.2 _ hmem
    have hext : dot ∉ ext := by
      intro hd
      refine hdot ?_
      rw [← hk]
      exact List.mem_map.2 ⟨dot, hd, by decide⟩
    refine ⟨ext, extension?_append hstem hext ?_, (known, type), (hfind ext _).2 ⟨hmem, hk.symm⟩, rfl⟩
    -- two dots alone end in no extension
    intro habove
    have hlength := congrArg List.length habove
    have hpos := List.length_pos_iff.2 hstem
    have hpos' := List.length_pos_iff.2 (fun e => hne (hk ▸ e) : ext.map lowerByte ≠ [])
    simp only [List.length_append, List.length_cons, List.length_map, above, List.length_nil] at hlength hpos'
    omega

/-! ## The tree -/

/-- Entries that a directory can have: each has a name of its own. -/
inductive IsTree : List (Name × Node) → Prop where
  | intro {entries : List (Name × Node)} (legal : ∀ e ∈ entries, IsLegal e.1) (distinct : (entries.map Prod.fst).Nodup)
      (below : ∀ name readable sub, (name, Node.dir readable sub) ∈ entries → IsTree sub) : IsTree entries

theorem IsTree.legal (h : IsTree entries) : ∀ e ∈ entries, IsLegal e.1 := by
  cases h
  assumption

theorem IsTree.distinct (h : IsTree entries) : (entries.map Prod.fst).Nodup := by
  cases h
  assumption

theorem IsTree.sub (h : IsTree entries) {name : Name} {readable : Bool} {sub : List (Name × Node)}
    (hmem : (name, .dir readable sub) ∈ entries) : IsTree sub := by
  cases h with
  | intro _ _ below => exact below name readable sub hmem

theorem IsTree.isPlain_head {node : Node} (h : IsTree ((name, node) :: entries)) : IsPlain name :=
  (h.legal _ List.mem_cons_self).toIsPlain

theorem IsTree.tail {e : Name × Node} (h : IsTree (e :: entries)) : IsTree entries := by
  refine .intro ?_ ?_ ?_
  · exact fun e' he' => h.legal e' (List.mem_cons_of_mem e he')
  · exact (List.nodup_cons.1 h.distinct).2
  · exact fun _ _ _ hmem => h.sub (List.mem_cons_of_mem e hmem)

theorem IsTree.nil : IsTree [] := by
  refine .intro ?_ List.nodup_nil ?_
  · exact fun e he => absurd he List.not_mem_nil
  · exact fun _ _ _ he => absurd he List.not_mem_nil

theorem IsTree.cons {node : Node} (hname : IsLegal name) (hnew : name ∉ entries.map Prod.fst)
    (hnode : ∀ readable sub, node = .dir readable sub → IsTree sub) (h : IsTree entries) :
    IsTree ((name, node) :: entries) := by
  refine .intro ?_ (List.nodup_cons.2 ⟨hnew, h.distinct⟩) ?_
  · exact List.forall_mem_cons.2 ⟨hname, h.legal⟩
  · intro name' readable sub hmem
    rcases List.mem_cons.1 hmem with e | hmem
    · exact hnode readable sub (Prod.mk.inj e).2.symm
    · exact h.sub hmem

/-- One more entry that is no directory. -/
theorem IsTree.cons_leaf {node : Node} (hname : IsLegal name) (hnew : name ∉ entries.map Prod.fst)
    (hleaf : node.entries? = none) (h : IsTree entries) : IsTree ((name, node) :: entries) := by
  refine .cons hname hnew ?_ h
  intro readable sub e
  rw [e] at hleaf
  cases hleaf

/-- One more directory. -/
theorem IsTree.cons_dir {readable : Bool} {sub : List (Name × Node)} (hname : IsLegal name)
    (hnew : name ∉ entries.map Prod.fst) (hsub : IsTree sub) (h : IsTree entries) :
    IsTree ((name, .dir readable sub) :: entries) := by
  refine .cons hname hnew ?_ h
  rintro _ _ ⟨⟩
  exact hsub

/-- A file of this path and with these bytes is reached from a directory: on the way to it each directory can be listed. -/
inductive Reaches : Written → List (Name × Node) → Path → List UInt8 → Prop where
  | here {dir : Written} {entries : List (Name × Node)} {name : Name} {bytes : List UInt8}
      (hmem : (name, .file bytes) ∈ entries) : Reaches dir entries [name] bytes
  | deeper {dir : Written} {entries : List (Name × Node)} {name : Name} {readable : Bool} {sub : List (Name × Node)}
      {path : Path} {bytes : List UInt8} (hmem : (name, .dir readable sub) ∈ entries)
      (hlisted : (Folder.mk (dir.joined name) readable sub).fault? = none)
      (hreaches : Reaches (dir.joined name) sub path bytes) : Reaches dir entries (name :: path) bytes

/-- A media file of a tree. -/
structure Media where
  /-- The names down to it. -/
  path : Path
  bytes : List UInt8
  type : String
deriving DecidableEq

/-- The media file is reached from a directory. -/
structure Media.IsIn (m : Media) (dir : Written) (entries : List (Name × Node)) : Prop where
  reaches : Reaches dir entries m.path m.bytes
  isMedia : ∃ name, m.path.getLast? = some name ∧ IsMedia name m.type

/-- The id of a path: its names as text, with slashes between them. -/
def itemId (path : Path) : String := "/".intercalate (path.map Text.showBytes)

/-- What a walk tells of a media file. -/
def Media.found (m : Media) : Found := ⟨itemId m.path, Text.showBytes (m.path.getLast?.getD []), m.type, m.bytes.length⟩

/-- The media file is under a name. -/
def Media.under (name : Name) (m : Media) : Media := { m with path := name :: m.path }

/-- The media files that are reached from a directory. -/
def mediaIn (dir : Written) : List (Name × Node) → List Media
  | [] => []
  | (name, .file bytes) :: entries => ((mediaType? name).map (Media.mk [name] bytes)).toList ++ mediaIn dir entries
  | (name, .dir readable sub) :: entries =>
    (match (Folder.mk (dir.joined name) readable sub).fault? with
      | none => (mediaIn (dir.joined name) sub).map (.under name)
      | some _ => []) ++ mediaIn dir entries
  | (_, .other) :: entries => mediaIn dir entries

/-! ## What is reached -/

/-- A file is reached through an entry of a directory: the entry is the file, or the file is reached from there. -/
def ReachesBy (dir : Written) (path : Path) (bytes : List UInt8) : Name × Node → Prop
  | (name, .file bytes') => path = [name] ∧ bytes' = bytes
  | (name, .dir readable sub) => ∃ rest, path = name :: rest ∧
      (Folder.mk (dir.joined name) readable sub).fault? = none ∧ Reaches (dir.joined name) sub rest bytes
  | (_, .other) => False

theorem reaches_iff : Reaches dir entries path bytes ↔ ∃ e ∈ entries, ReachesBy dir path bytes e := by
  constructor
  · intro h
    cases h with
    | here hmem => exact ⟨_, hmem, rfl, rfl⟩
    | deeper hmem hlisted hreaches => exact ⟨_, hmem, _, rfl, hlisted, hreaches⟩
  · rintro ⟨⟨name, node⟩, hmem, hby⟩
    cases node with
    | file bytes' =>
      obtain ⟨rfl, rfl⟩ := hby
      exact .here hmem
    | dir readable sub =>
      obtain ⟨rest, rfl, hlisted, hreaches⟩ := hby
      exact .deeper hmem hlisted hreaches
    | other => exact hby.elim

theorem Reaches.ne_nil (h : Reaches dir entries path bytes) : path ≠ [] := by
  cases h <;> exact List.cons_ne_nil _ _

theorem Reaches.legal (h : Reaches dir entries path bytes) (htree : IsTree entries) : ∀ name ∈ path, IsLegal name := by
  induction h with
  | here hmem =>
    intro name hname
    rw [List.mem_singleton.1 hname]
    exact htree.legal _ hmem
  | deeper hmem hlisted hreaches ih =>
    intro name hname
    rcases List.mem_cons.1 hname with rfl | hname
    · exact htree.legal _ hmem
    · exact ih (htree.sub hmem) name hname

theorem Reaches.plain (h : Reaches dir entries path bytes) (htree : IsTree entries) : ∀ name ∈ path, IsPlain name :=
  fun name hname => (h.legal htree name hname).toIsPlain

/-- What is in a directory is reached through its first entry, or through another one. -/
theorem Media.isIn_cons_iff {m : Media} {e : Name × Node} : m.IsIn dir (e :: entries) ↔
    (ReachesBy dir m.path m.bytes e ∧ ∃ name, m.path.getLast? = some name ∧ IsMedia name m.type) ∨
      m.IsIn dir entries := by
  constructor
  · rintro ⟨hreaches, hmedia⟩
    obtain ⟨e', hmem, hby⟩ := reaches_iff.1 hreaches
    rcases List.mem_cons.1 hmem with rfl | hmem
    · exact .inl ⟨hby, hmedia⟩
    · exact .inr ⟨reaches_iff.2 ⟨e', hmem, hby⟩, hmedia⟩
  · rintro (⟨hby, hmedia⟩ | ⟨hreaches, hmedia⟩)
    · exact ⟨reaches_iff.2 ⟨e, List.mem_cons_self, hby⟩, hmedia⟩
    · obtain ⟨e', hmem, hby⟩ := reaches_iff.1 hreaches
      exact ⟨reaches_iff.2 ⟨e', List.mem_cons_of_mem e hmem, hby⟩, hmedia⟩

theorem Media.getLast?_under {m : Media} (h : m.path ≠ []) (name : Name) :
    (m.under name).path.getLast? = m.path.getLast? := by
  obtain ⟨first, rest, hpath⟩ := List.exists_cons_of_ne_nil h
  simp [Media.under, hpath]

theorem mem_mediaIn_iff {m : Media} : m ∈ mediaIn dir entries ↔ m.IsIn dir entries := by
  fun_induction mediaIn dir entries generalizing m with
  | case1 dir =>
    refine ⟨fun h => absurd h List.not_mem_nil, ?_⟩
    rintro ⟨hreaches, -⟩
    obtain ⟨e, hmem, -⟩ := reaches_iff.1 hreaches
    exact absurd hmem List.not_mem_nil
  | case2 dir name bytes entries ih =>
    rw [List.mem_append, Media.isIn_cons_iff, ih]
    refine or_congr_left ?_
    obtain ⟨path, bytes', type⟩ := m
    simp only [Option.mem_toList, Option.map_eq_some_iff, mediaType?_eq_some_iff, ReachesBy, Media.mk.injEq]
    constructor
    · rintro ⟨type', hmedia, rfl, rfl, rfl⟩
      exact ⟨⟨rfl, rfl⟩, name, rfl, hmedia⟩
    · rintro ⟨⟨rfl, rfl⟩, name', hlast, hmedia⟩
      cases hlast
      exact ⟨type, hmedia, rfl, rfl, rfl⟩
  | case3 dir name readable sub entries ih' ih =>
    rw [List.mem_append, Media.isIn_cons_iff, ih]
    refine or_congr_left ?_
    split
    case h_1 hlisted =>
      rw [List.mem_map]
      constructor
      · rintro ⟨m, hmem, rfl⟩
        obtain ⟨hreaches, hmedia⟩ := ih'.1 hmem
        refine ⟨⟨m.path, rfl, hlisted, hreaches⟩, ?_⟩
        rw [Media.getLast?_under hreaches.ne_nil]
        exact hmedia
      · rintro ⟨⟨rest, hpath, -, hreaches⟩, hmedia⟩
        have hm : m = Media.under name { m with path := rest } := by
          rw [Media.under, ← hpath]
        rw [hm, Media.getLast?_under hreaches.ne_nil] at hmedia
        exact ⟨_, ih'.2 ⟨hreaches, hmedia⟩, hm.symm⟩
    case h_2 fault hfault =>
      constructor
      · exact fun h => absurd h List.not_mem_nil
      · rintro ⟨⟨rest, -, hlisted, -⟩, -⟩
        rw [hfault] at hlisted
        cases hlisted
  | case4 dir name entries ih =>
    rw [Media.isIn_cons_iff, ih]
    exact (or_iff_right fun h => h.1).symm

/-- The path of a file in a directory starts with the name of an entry. -/
theorem head?_of_mem_mediaIn {m : Media} (h : m ∈ mediaIn dir entries) : ∃ e ∈ entries, m.path.head? = some e.1 := by
  obtain ⟨⟨name, node⟩, hmem, hby⟩ := reaches_iff.1 (mem_mediaIn_iff.1 h).reaches
  refine ⟨_, hmem, ?_⟩
  cases node with
  | file bytes =>
    rw [hby.1]
    rfl
  | dir readable sub =>
    obtain ⟨rest, hpath, -⟩ := hby
    rw [hpath]
    rfl
  | other => exact hby.elim

/-- No file is counted twice. -/
theorem nodup_mediaIn (h : IsTree entries) : ((mediaIn dir entries).map Media.path).Nodup := by
  -- files under different names of a directory have different paths
  have happend : ∀ (dir : Written) (name : Name) (node : Node) (entries : List (Name × Node)) (files : List Media),
      IsTree ((name, node) :: entries) → (files.map Media.path).Nodup → (∀ m ∈ files, m.path.head? = some name) →
      ((mediaIn dir entries).map Media.path).Nodup → ((files ++ mediaIn dir entries).map Media.path).Nodup := by
    intro dir name node entries files htree hfiles hhead hrest
    rw [List.map_append, List.nodup_append]
    refine ⟨hfiles, hrest, ?_⟩
    intro path hpath path' hpath' heq
    obtain ⟨m, hm, rfl⟩ := List.mem_map.1 hpath
    obtain ⟨m', hm', rfl⟩ := List.mem_map.1 hpath'
    obtain ⟨e, he, hhead'⟩ := head?_of_mem_mediaIn hm'
    rw [← heq, hhead m hm] at hhead'
    obtain rfl := Option.some.inj hhead'
    exact (List.nodup_cons.1 htree.distinct).1 (List.mem_map.2 ⟨e, he, rfl⟩)
  fun_induction mediaIn dir entries with
  | case1 dir => exact List.nodup_nil
  | case2 dir name bytes entries ih =>
    refine happend dir name _ entries _ h ?_ ?_ (ih h.tail)
    · cases mediaType? name <;> simp
    · intro m hm
      obtain ⟨type, -, rfl⟩ := Option.map_eq_some_iff.1 (Option.mem_toList.1 hm)
      rfl
  | case3 dir name readable sub entries ih' ih =>
    refine happend dir name _ entries _ h ?_ ?_ (ih h.tail)
    · split
      · have hsub := (ih' (h.sub List.mem_cons_self)).map (List.cons_injective (a := name))
        rw [List.map_map] at hsub ⊢
        exact hsub
      · exact List.nodup_nil
    · split
      · intro m hm
        obtain ⟨m', -, rfl⟩ := List.mem_map.1 hm
        rfl
      · exact fun m hm => absurd hm List.not_mem_nil
  | case4 dir name entries ih => exact ih h.tail

/-! ## One call -/

/-- What a walk that began at a root tells of a media file in a directory. -/
def Media.told (root dir : Written) (m : Media) : Found :=
  ⟨(relativeId? root (dir.below m.path)).getD "", Text.showBytes (m.path.getLast?.getD []), m.type, m.bytes.length⟩

/-- What is told of a file does not hang on where on the way to it one stands. -/
theorem Media.told_under {m : Media} (h : m.path ≠ []) (root dir : Written) (name : Name) :
    (m.under name).told root dir = m.told root (dir.joined name) := by
  unfold told
  rw [getLast?_under h]
  rfl

/-- An entry that is a file. -/
theorem entry?_joined (h : IsPlain name) (hroot : root.steps <+: dir.steps) (bytes : List UInt8) :
    entry? root (dir.joined name) bytes.length =
      (mediaType? name).map fun type => Media.told root dir ⟨[name], bytes, type⟩ := by
  have hplain : ∀ n ∈ [name], IsPlain n := by simpa using h
  have hname : Written.fileName? (dir.joined name) = some name := Written.fileName?_below hplain rfl dir
  obtain ⟨rest, hrest⟩ := hroot
  have hbehind : root.behind? (dir.joined name) = some (rest ++ [.down name]) := by
    unfold Written.behind?
    rw [Written.steps_joined h, ← hrest, List.append_assoc, if_pos (by simp), List.drop_left]
  obtain ⟨id, hid⟩ : ∃ id, relativeId? root (dir.joined name) = some id := by
    unfold relativeId?
    rw [hbehind]
    cases rest <;> exact ⟨_, rfl⟩
  unfold entry?
  rw [hname]
  cases hmedia : mediaType? name with
  | none => simp [hmedia]
  | some type => simp [hmedia, hid, Media.told, Written.below]

/-- The media files of a directory, if it can be listed. -/
def Folder.media (f : Folder) : List Media :=
  match f.fault? with
  | none => mediaIn f.path f.entries
  | some _ => []

/-- A directory is one to which a walk from a root may come: it is the root, or it is behind it. -/
structure Folder.IsBehind (root : Written) (f : Folder) : Prop where
  tree : IsTree f.entries
  path : root.steps <+: f.path.steps
  /-- Where the walk began is not put off unless it can be listed. -/
  away : f.fault? ≠ none → f.path.steps ≠ root.steps

/-- The files of a directory are told when it is listed as if it had been listed where it was found. -/
theorem map_told_mediaIn_cons (root dir : Written) (name : Name) (readable : Bool) (sub entries : List (Name × Node)) :
    (mediaIn dir ((name, .dir readable sub) :: entries)).map (Media.told root dir) =
      (Folder.media ⟨dir.joined name, readable, sub⟩).map (Media.told root (dir.joined name)) ++
        (mediaIn dir entries).map (Media.told root dir) := by
  rw [mediaIn, List.map_append]
  refine congrArg (· ++ _) ?_
  unfold Folder.media
  split
  · rw [List.map_map]
    refine List.map_congr_left fun m hm => ?_
    exact Media.told_under (mem_mediaIn_iff.1 hm).reaches.ne_nil root dir name
  · rfl

namespace Cursor

/-- What a cursor has yet to tell. -/
def left (c : Cursor) : List Found :=
  (mediaIn c.path c.listing).map (Media.told c.root c.path) ++
    c.pending.flatMap fun f => f.media.map (Media.told c.root f.path)

/-- A cursor is where a walk may come. -/
structure Sound (c : Cursor) : Prop where
  listing : IsTree c.listing
  path : c.root.steps <+: c.path.steps
  pending : ∀ f ∈ c.pending, f.IsBehind c.root

/-- What one call does: it tells one of what is left, or nothing is left. -/
def Tells (c : Cursor) : Except HostError (Option (Found × Cursor)) → Prop
  | .error _ => False
  | .ok none => c.left = []
  | .ok (some (f, d)) => d.Sound ∧ c.left.Perm (f :: d.left)

/-- A step of a call, after which it goes on from `d`. -/
theorem Tells.of_perm {c d : Cursor} {r : Except HostError (Option (Found × Cursor))} (h : d.Tells r)
    (hperm : c.left.Perm d.left) : c.Tells r := by
  match r, h with
  | .ok none, h =>
    show c.left = []
    rw [show d.left = [] from h] at hperm
    exact hperm.eq_nil
  | .ok (some (f, e)), h => exact ⟨h.1, hperm.trans h.2⟩

theorem tells_next {c : Cursor} (h : c.Sound) : c.Tells c.next := by
  fun_induction next c with
  | case1 root path name bytes listing pending found hfound =>
    have hentry := entry?_joined h.listing.isPlain_head h.path bytes
    rw [hfound] at hentry
    obtain ⟨type, hmedia, rfl⟩ := Option.map_eq_some_iff.1 hentry.symm
    refine ⟨⟨h.listing.tail, h.path, h.pending⟩, ?_⟩
    simp [left, mediaIn, hmedia]
  | case2 root path name bytes listing pending hnone ih =>
    have hentry := entry?_joined h.listing.isPlain_head h.path bytes
    rw [hnone] at hentry
    have hmedia := Option.map_eq_none_iff.1 hentry.symm
    refine (ih ⟨h.listing.tail, h.path, h.pending⟩).of_perm ?_
    simp [left, mediaIn, hmedia]
  | case3 root path name readable entries listing pending ih =>
    have hsteps := Written.steps_joined h.listing.isPlain_head path
    have hfolder : Folder.IsBehind root ⟨path.joined name, readable, entries⟩ := by
      refine ⟨h.listing.sub List.mem_cons_self, ?_, fun _ e => ?_⟩
      · rw [hsteps]
        exact h.path.trans (List.prefix_append _ _)
      · -- it has one step more than what is at or behind the root
        have hlength := h.path.length_le
        rw [← e, hsteps, List.length_append, List.length_singleton] at hlength
        exact absurd hlength (Nat.not_succ_le_self _)
    refine (ih ⟨h.listing.tail, h.path, List.forall_mem_cons.2 ⟨hfolder, h.pending⟩⟩).of_perm ?_
    unfold left
    rw [map_told_mediaIn_cons, List.flatMap_cons, List.append_assoc]
    exact List.perm_append_comm_assoc _ _ _
  | case4 root path name listing pending ih =>
    refine (ih ⟨h.listing.tail, h.path, h.pending⟩).of_perm ?_
    simp [left, mediaIn]
  | case5 => simp [Tells, left, mediaIn]
  | case6 root path folder pending hlisted ih =>
    obtain ⟨hfolder, hpending⟩ := List.forall_mem_cons.1 h.pending
    refine (ih ⟨hfolder.tree, hfolder.path, hpending⟩).of_perm ?_
    simp [left, mediaIn, Folder.media, hlisted]
  | case7 root path folder pending fault hfault hroot =>
    have hne : folder.fault? ≠ none := by
      rw [hfault]
      exact Option.some_ne_none fault
    exact (h.pending folder List.mem_cons_self).away hne hroot
  | case8 root path folder pending fault hfault hroot ih =>
    obtain ⟨-, hpending⟩ := List.forall_mem_cons.1 h.pending
    refine (ih ⟨h.listing, h.path, hpending⟩).of_perm ?_
    simp [left, mediaIn, Folder.media, hfault]

/-! ## A whole walk -/

/-- A walk tells all that is left, in some order. -/
theorem rest_perm {c : Cursor} (h : c.Sound) : ∃ found, c.rest = .ok found ∧ found.Perm c.left := by
  fun_induction rest c with
  | case1 c e he =>
    have htells := tells_next h
    rw [he] at htells
    exact htells.elim
  | case2 c hnone =>
    have htells := tells_next h
    rw [hnone] at htells
    refine ⟨[], rfl, ?_⟩
    rw [show c.left = [] from htells]
  | case3 c f d hd e he ih =>
    have htells := tells_next h
    rw [hd] at htells
    obtain ⟨found, hfound, -⟩ := ih htells.1
    rw [he] at hfound
    cases hfound
  | case4 c f d hd fs hfs ih =>
    have htells := tells_next h
    rw [hd] at htells
    obtain ⟨found, hfound, hperm⟩ := ih htells.1
    rw [hfs] at hfound
    obtain rfl := Except.ok.inj hfound
    exact ⟨f :: fs, rfl, (hperm.cons f).trans htells.2.symm⟩

end Cursor

/-- The id of names behind a root. -/
theorem relativeId?_below (h : ∀ name ∈ path, IsPlain name) (hne : path ≠ []) (root : Written) :
    relativeId? root (root.below path) = some (itemId path) := by
  obtain ⟨first, rest, rfl⟩ := List.exists_cons_of_ne_nil hne
  unfold relativeId?
  rw [Written.behind?_below h]
  simp [itemId, Step.written, Function.comp_def]

/-- From the root itself the id of a file is its path. -/
theorem Media.told_root {m : Media} (h : m.IsIn root entries) (htree : IsTree entries) : m.told root root = m.found := by
  have hid := relativeId?_below (h.reaches.plain htree) h.reaches.ne_nil root
  unfold told found
  rw [hid]
  rfl

/-- A walk from a directory that can be listed tells its media files, in some order. -/
theorem rest_start {folder : Folder} (hlisted : folder.fault? = none) (htree : IsTree folder.entries) :
    ∃ found, (Cursor.start folder).rest = .ok found ∧
      found.Perm ((mediaIn folder.path folder.entries).map Media.found) := by
  have hsound : (Cursor.start folder).Sound := by
    refine ⟨.nil, List.prefix_refl _, ?_⟩
    intro f hf
    obtain rfl := List.mem_singleton.1 hf
    exact ⟨htree, List.prefix_refl _, fun hne => absurd hlisted hne⟩
  have hmap : (mediaIn folder.path folder.entries).map (Media.told folder.path folder.path) =
      (mediaIn folder.path folder.entries).map Media.found :=
    List.map_congr_left fun m hm => Media.told_root (mem_mediaIn_iff.1 hm) htree
  have hleft : (Cursor.start folder).left = (mediaIn folder.path folder.entries).map Media.found := by
    rw [← hmap]
    simp [Cursor.left, Cursor.start, mediaIn, Folder.media, hlisted]
  obtain ⟨found, hfound, hperm⟩ := Cursor.rest_perm hsound
  rw [hleft] at hperm
  exact ⟨found, hfound, hperm⟩

/-- **A walk is exact.**  Called again and again, the cursor comes to an end, and it tells of each media file that is
    reached along directories that can be listed, of each once and of nothing else.  A directory that cannot be listed
    costs the files under it; but if the walk begins at one, the first call fails. -/
theorem walk_exact (folder : Folder) (htree : IsTree folder.entries) :
    (folder.fault? = none → ∃ found, (Cursor.start folder).rest = .ok found ∧ ∃ files : List Media,
      found.Perm (files.map Media.found) ∧ (files.map Media.path).Nodup ∧
        ∀ m, m ∈ files ↔ m.IsIn folder.path folder.entries) ∧
    ∀ fault, folder.fault? = some fault → (Cursor.start folder).next = .error (.device fault.message) := by
  constructor
  · intro hlisted
    obtain ⟨found, hfound, hperm⟩ := rest_start hlisted htree
    exact ⟨found, hfound, _, hperm, nodup_mediaIn htree, fun m => mem_mediaIn_iff⟩
  · intro fault hfault
    unfold Cursor.start Cursor.next
    simp [hfault]

/-! ## A phone -/

/-- The directory of a phone: a photo, a link, a locked album, and an album with a video and a note. -/
def phone : Folder where
  path := Text.encode "phone".toList
  readable := true
  entries := [
    (Text.encode "a.JPG".toList, .file [1, 2]),
    (Text.encode "b.jpg".toList, .other),
    (Text.encode "locked".toList, .dir false [(Text.encode "c.jpg".toList, .file [3])]),
    (Text.encode "trip".toList, .dir true [
      (Text.encode "d.mov".toList, .file [4]),
      (Text.encode "notes.txt".toList, .file [5])])]

theorem isTree_phone : IsTree phone.entries := by
  have hlocked : IsTree [(Text.encode "c.jpg".toList, .file [3])] := .cons_leaf (by decide) (by decide) rfl .nil
  have htrip : IsTree [(Text.encode "d.mov".toList, .file [4]), (Text.encode "notes.txt".toList, .file [5])] :=
    .cons_leaf (by decide) (by decide) rfl (.cons_leaf (by decide) (by decide) rfl .nil)
  refine .cons_leaf (by decide) (by decide) rfl (.cons_leaf (by decide) (by decide) rfl ?_)
  exact .cons_dir (by decide) (by decide) hlocked (.cons_dir (by decide) (by decide) htrip .nil)

theorem walk_exact_phone : IsTree phone.entries ∧ phone.fault? = none ∧
    ∃ found, (Cursor.start phone).rest = .ok found ∧ found.Perm
      [⟨"a.JPG", "a.JPG", "image/jpeg", 2⟩, ⟨"trip/d.mov", "d.mov", "video/quicktime", 1⟩] := by
  have hlisted : phone.fault? = none := by decide
  refine ⟨isTree_phone, hlisted, ?_⟩
  obtain ⟨found, hfound, files, hperm, hnodup, hmem⟩ := (walk_exact phone isTree_phone).1 hlisted
  have hdifferent : ∀ l : List Media, (l.map Media.path).Nodup → l.Nodup :=
    fun l => List.Pairwise.of_map Media.path fun _ _ hne e => hne (congrArg Media.path e)
  have hfiles : files.Perm (mediaIn phone.path phone.entries) := by
    rw [List.perm_ext_iff_of_nodup (hdifferent _ hnodup) (hdifferent _ (nodup_mediaIn isTree_phone))]
    exact fun m => (hmem m).trans mem_mediaIn_iff.symm
  have hmedia : mediaIn phone.path phone.entries = [⟨[Text.encode "a.JPG".toList], [1, 2], "image/jpeg"⟩,
      ⟨[Text.encode "trip".toList, Text.encode "d.mov".toList], [4], "video/quicktime"⟩] := by
    have hphoto : mediaType? (Text.encode "a.JPG".toList) = some "image/jpeg" := by decide
    have hvideo : mediaType? (Text.encode "d.mov".toList) = some "video/quicktime" := by decide
    have hnote : mediaType? (Text.encode "notes.txt".toList) = none := by decide
    simp only [mediaIn, phone, hphoto, hvideo, hnote]
    rfl
  refine ⟨found, hfound, hperm.trans ?_⟩
  rw [hmedia] at hfiles
  simpa [Media.found, itemId, Text.showBytes_encode] using hfiles.map Media.found

end MediaBackup.Library

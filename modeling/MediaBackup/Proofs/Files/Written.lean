import MediaBackup.Files.Written

/-
  What a written path says, and where it leads.

  A name behind a path is one more step: down to that name (`steps_joined`), whether the path ends in a slash, in one dot,
  or is empty.  So the names behind a root are read off again from the path written with them (`behind?_below`), and
  following that path is following the names from where the root leads (`find?_below`).
-/

namespace MediaBackup

theorem Text.splitAll_eq_splitOnP {α : Type} (p : α → Bool) (xs : List α) : Text.splitAll p xs = xs.splitOnP p := by
  induction xs with
  | nil => rfl
  | cons x xs ih =>
    rw [Text.splitAll, List.splitOnP_cons_eq_if_modifyHead, ih]
    cases hs : xs.splitOnP p with
    | nil => exact absurd hs (List.splitOnP_ne_nil p xs)
    | cons part parts => rfl

namespace Files

/-! ## Names -/

/-- A name that says one step down wherever it stands in a path. -/
structure IsPlain (name : Name) : Prop where
  ne_nil : name ≠ []
  no_slash : slash ∉ name
  ne_here : name ≠ here
  ne_above : name ≠ above

instance (name : Name) : Decidable (IsPlain name) :=
  decidable_of_iff (name ≠ [] ∧ slash ∉ name ∧ name ≠ here ∧ name ≠ above)
    ⟨fun ⟨h, h', h'', h'''⟩ => ⟨h, h', h'', h'''⟩, fun ⟨h, h', h'', h'''⟩ => ⟨h, h', h'', h'''⟩⟩

variable {name : Name} {path : Path} {p q : Written}

theorem Path.ofBytes_eq_splitOn (bs : List UInt8) : Path.ofBytes bs = bs.splitOn slash := by
  rw [Path.ofBytes, Text.splitAll_eq_splitOnP, List.splitOn_eq_splitOnP]
  rfl

theorem Path.ofBytes_ne_nil (bs : List UInt8) : Path.ofBytes bs ≠ [] := by
  rw [Path.ofBytes_eq_splitOn]
  exact List.splitOn_ne_nil slash bs

/-- A slash cuts a path in two. -/
theorem Path.ofBytes_append_slash (bs cs : List UInt8) :
    Path.ofBytes (bs ++ slash :: cs) = Path.ofBytes bs ++ Path.ofBytes cs := by
  simp only [Path.ofBytes_eq_splitOn, List.splitOn_append_cons_self]

theorem Path.ofBytes_of_no_slash {bs : List UInt8} (h : slash ∉ bs) : Path.ofBytes bs = [bs] := by
  rw [Path.ofBytes_eq_splitOn, List.splitOn_eq_singleton h]

namespace Step

theorem ofPart?_of_isPlain (h : IsPlain name) : ofPart? name = some (down name) := by
  unfold ofPart?
  rw [if_neg (not_or.2 ⟨h.ne_nil, h.ne_here⟩), if_neg h.ne_above]

/-- Others behind the first part matter only if it is empty. -/
theorem ofFirst?_of_ne_nil (h : name ≠ []) (alone : Bool) : ofFirst? alone name = ofFirst? false name := by
  unfold ofFirst?
  rw [if_neg h, if_neg h]

theorem ofFirst?_of_isPlain (h : IsPlain name) (alone : Bool) : ofFirst? alone name = some (down name) := by
  unfold ofFirst?
  rw [if_neg h.ne_nil, if_neg h.ne_here, ofPart?_of_isPlain h]

/-- Only a plain name says one step down. -/
theorem isPlain_of_ofFirst? {alone : Bool} {part : Name} (hslash : slash ∉ part)
    (h : ofFirst? alone part = some (down name)) : IsPlain part := by
  unfold ofFirst? ofPart? at h
  by_cases hnil : part = []
  · rw [if_pos hnil] at h
    cases alone <;> cases h
  by_cases hhere : part = here
  · rw [if_neg hnil, if_pos hhere] at h
    cases h
  by_cases habove : part = above
  · rw [if_neg hnil, if_neg hhere, if_neg (not_or.2 ⟨hnil, hhere⟩), if_pos habove] at h
    cases h
  exact ⟨hnil, hslash, hhere, habove⟩

end Step

namespace Written

/-! ## The steps of a path -/

theorem steps_of_ofBytes {first : Name} {parts : Path} (h : Path.ofBytes p = first :: parts) :
    p.steps = (Step.ofFirst? parts.isEmpty first).toList ++ parts.filterMap Step.ofPart? := by
  unfold steps
  rw [h]

/-- A part that others stand before. -/
theorem steps_append_slash (hp : p ≠ []) (hq : slash ∉ q) :
    steps (p ++ slash :: q) = p.steps ++ (Step.ofPart? q).toList := by
  obtain ⟨first, parts, hparts⟩ := List.exists_cons_of_ne_nil (Path.ofBytes_ne_nil p)
  have hall : Path.ofBytes (p ++ slash :: q) = first :: (parts ++ [q]) := by
    rw [Path.ofBytes_append_slash, hparts, Path.ofBytes_of_no_slash hq, List.cons_append]
  have hfirst : Step.ofFirst? parts.isEmpty first = Step.ofFirst? (parts ++ [q]).isEmpty first := by
    cases parts with
    | cons part parts => rfl
    | nil =>
      refine Step.ofFirst?_of_ne_nil ?_ true
      intro hnil
      rw [hnil, Path.ofBytes_eq_splitOn] at hparts
      have hjoin : [slash].intercalate (p.splitOn slash) = p := List.intercalate_splitOn slash
      rw [hparts, List.intercalate_singleton] at hjoin
      exact hp hjoin.symm
  rw [steps_of_ofBytes hparts, steps_of_ofBytes hall, hfirst, List.filterMap_append, List.append_assoc]
  rfl

/-- How a name is put behind a path: a slash comes between them unless there is one, or nothing to cut off. -/
theorem joined_cases (h : IsPlain name) (p : Written) :
    p = [] ∧ p.joined name = name ∨ (∃ q, p = q ++ [slash] ∧ p.joined name = q ++ slash :: name) ∨
      p ≠ [] ∧ p.joined name = p ++ slash :: name := by
  have hhead : ¬ name.head? = some slash := fun e => h.no_slash (List.mem_of_mem_head? e)
  unfold joined
  rw [if_neg hhead]
  rcases List.eq_nil_or_concat p with rfl | ⟨q, b, rfl⟩
  · exact .inl ⟨rfl, rfl⟩
  · refine .inr ?_
    rw [List.concat_eq_append, List.getLast?_concat]
    by_cases hb : b = slash
    · subst hb
      exact .inl ⟨q, rfl, by simp⟩
    · refine .inr ⟨by simp, ?_⟩
      rw [if_neg]
      simpa using hb

/-- A name behind a path is one more step. -/
theorem steps_joined (h : IsPlain name) (p : Written) : steps (p.joined name) = p.steps ++ [.down name] := by
  rcases joined_cases h p with ⟨rfl, e⟩ | ⟨q, rfl, e⟩ | ⟨hne, e⟩ <;> rw [e]
  · rw [steps_of_ofBytes (Path.ofBytes_of_no_slash h.no_slash), Step.ofFirst?_of_isPlain h]
    rfl
  · cases q with
    | nil =>
      have hall : Path.ofBytes (slash :: name) = [[], name] := by
        rw [← List.nil_append (slash :: name), Path.ofBytes_append_slash, Path.ofBytes_of_no_slash h.no_slash]
        rfl
      show steps (slash :: name) = _
      rw [steps_of_ofBytes hall, List.filterMap_cons_some (Step.ofPart?_of_isPlain h)]
      rfl
    | cons b q =>
      rw [steps_append_slash (List.cons_ne_nil b q) h.no_slash, steps_append_slash (List.cons_ne_nil b q) List.not_mem_nil,
        Step.ofPart?_of_isPlain h, List.append_assoc]
      rfl
  · rw [steps_append_slash hne h.no_slash, Step.ofPart?_of_isPlain h]
    rfl

/-! ## Names behind a path -/

/-- A path and names behind it. -/
def below (p : Written) (path : Path) : Written := path.foldl joined p

theorem below_cons (p : Written) (name : Name) (path : Path) : p.below (name :: path) = below (p.joined name) path :=
  List.foldl_cons

/-- Nothing of the path is given up for the names. -/
theorem isPrefix_below (h : ∀ name ∈ path, IsPlain name) (p : Written) : p <+: p.below path := by
  induction path generalizing p with
  | nil => exact List.prefix_refl p
  | cons name path ih =>
    have hjoined : p <+: p.joined name := by
      rcases joined_cases (h name List.mem_cons_self) p with ⟨rfl, e⟩ | ⟨q, rfl, e⟩ | ⟨-, e⟩ <;> rw [e]
      · exact List.nil_prefix
      · exact ⟨name, by simp⟩
      · exact List.prefix_append p _
    rw [below_cons]
    exact hjoined.trans (ih (fun n hn => h n (List.mem_cons_of_mem name hn)) _)

/-- Each name is one step down. -/
theorem steps_below (h : ∀ name ∈ path, IsPlain name) (p : Written) :
    steps (p.below path) = p.steps ++ path.map Step.down := by
  induction path generalizing p with
  | nil => simp [below]
  | cons name path ih =>
    rw [below_cons, ih (fun n hn => h n (List.mem_cons_of_mem name hn)), steps_joined (h name List.mem_cons_self)]
    simp

/-- The names behind a root are read off again. -/
theorem behind?_below (h : ∀ name ∈ path, IsPlain name) (root : Written) :
    root.behind? (root.below path) = some (path.map .down) := by
  unfold behind?
  rw [steps_below h, if_pos (by simp), List.drop_left]

theorem fileName?_below (h : ∀ name ∈ path, IsPlain name) (hlast : path.getLast? = some name) (root : Written) :
    fileName? (root.below path) = some name := by
  have hl : (steps (root.below path)).getLast? = some (.down name) := by
    rw [steps_below h, List.getLast?_append, List.getLast?_map, hlast]
    rfl
  unfold fileName?
  rw [hl]

/-- Paths of different names are different. -/
theorem below_injective {path' : Path} (h : ∀ name ∈ path, IsPlain name) (h' : ∀ name ∈ path', IsPlain name)
    {root : Written} (e : root.below path = root.below path') : path = path' := by
  have hsteps := steps_below h root
  rw [e, steps_below h' root] at hsteps
  exact ((List.map_inj_right fun _ _ => Step.down.inj).1 (List.append_cancel_left hsteps)).symm

end Written

/-! ## Where a path leads -/

theorem Path.mem_ofBytes_iff {b : UInt8} (hb : b ≠ slash) {bs : List UInt8} :
    (∃ part ∈ Path.ofBytes bs, b ∈ part) ↔ b ∈ bs := by
  rw [Path.ofBytes_eq_splitOn]
  induction bs with
  | nil => simp
  | cons c bs ih =>
    rw [List.splitOn_cons_eq_if_modifyHead]
    by_cases hc : c = slash
    · subst hc
      simp [ih, hb]
    · obtain ⟨first, parts, hparts⟩ := List.exists_cons_of_ne_nil (List.splitOn_ne_nil slash bs)
      rw [hparts] at ih ⊢
      simp only [List.mem_cons, exists_eq_or_imp] at ih
      simp [hc, ← ih, or_assoc]

/-- The size of a path is that of its writing. -/
theorem Path.size_ofBytes (bs : List UInt8) : (Path.ofBytes bs).size = bs.length := by
  have hsum : ∀ (parts : Path) (k : Nat), parts ≠ [] →
      parts.foldl (fun n name => n + name.length + 1) k = k + ([slash].intercalate parts).length + 1 := by
    intro parts
    induction parts with
    | nil => exact fun k h => absurd rfl h
    | cons part parts ih =>
      intro k _
      rw [List.foldl_cons]
      cases parts with
      | nil => simp
      | cons part' parts =>
        rw [ih _ (List.cons_ne_nil _ _), List.intercalate_cons_cons]
        simp only [List.length_append, List.length_singleton]
        omega
  have hjoin : [slash].intercalate (Path.ofBytes bs) = bs := by
    rw [Path.ofBytes_eq_splitOn, List.intercalate_splitOn]
  unfold Path.size
  rw [hsum _ 0 (Path.ofBytes_ne_nil bs), hjoin]
  omega

/-- A name that a file system can hold. -/
structure IsLegal (name : Name) : Prop extends IsPlain name where
  no_zero : 0 ∉ name

instance (name : Name) : Decidable (IsLegal name) :=
  decidable_of_iff (IsPlain name ∧ 0 ∉ name) ⟨fun ⟨h, h'⟩ => ⟨h, h'⟩, fun ⟨h, h'⟩ => ⟨h, h'⟩⟩

/-- No zero comes into a path with names that a file system can hold. -/
theorem Written.zero_not_mem_below (h : ∀ name ∈ path, IsLegal name) (hp : 0 ∉ p) : 0 ∉ p.below path := by
  induction path generalizing p with
  | nil => exact hp
  | cons name path ih =>
    have hname := h name List.mem_cons_self
    rw [Written.below_cons]
    refine ih (fun n hn => h n (List.mem_cons_of_mem name hn)) ?_
    rcases Written.joined_cases hname.toIsPlain p with ⟨rfl, e⟩ | ⟨q, rfl, e⟩ | ⟨-, e⟩ <;> rw [e]
    · exact hname.no_zero
    · simpa [hname.no_zero] using hp
    · simp [hp, hname.no_zero, slash]

/-- The way from the top to where a path leads, what was reached last first. -/
def Node.way (top : Node) (p : Written) : Except FileFault (List Node) := (Path.ofBytes p).foldlM follow [top]

variable {top n : Node} {trail : List Node}

theorem Node.any_contains_zero_iff : (Path.ofBytes p).any (·.contains 0) = true ↔ 0 ∈ p := by
  rw [List.any_eq_true, ← Path.mem_ofBytes_iff (by decide)]
  simp only [List.contains_iff_mem]

/-- What was reached last on a way. -/
def Node.last : List Node → Except FileFault Node
  | n :: _ => .ok n
  | [] => .error .missing

/-- A path leads to where its way ends, if the system takes the path at all. -/
theorem Node.find?_of_le (h : 0 ∉ p) (hlength : p.length ≤ mostInPath) : top.find? p = top.way p >>= last := by
  unfold Node.find? Node.at?
  rw [if_neg (mt any_contains_zero_iff.1 h), if_neg (by rw [Path.size_ofBytes]; omega)]
  refine bind_congr fun trail => ?_
  cases trail <;> rfl

/-- A path may be too long to be followed. -/
theorem Node.find?_of_lt (h : 0 ∉ p) (hlength : mostInPath < p.length) : top.find? p = .error .nameTooLong := by
  unfold Node.find? Node.at?
  rw [if_neg (mt any_contains_zero_iff.1 h), Path.size_ofBytes, if_pos hlength]
  rfl

/-- What is found by a path: the system takes the path, and its way ends there. -/
theorem Node.way_of_find? (h : top.find? p = .ok n) :
    0 ∉ p ∧ p.length ≤ mostInPath ∧ ∃ up, top.way p = .ok (n :: up) := by
  have hzero : 0 ∉ p := by
    intro hmem
    unfold Node.find? Node.at? at h
    rw [if_pos (any_contains_zero_iff.2 hmem)] at h
    cases h
  rcases Nat.lt_or_ge mostInPath p.length with hlong | hlength
  · rw [find?_of_lt hzero hlong] at h
    cases h
  · refine ⟨hzero, hlength, ?_⟩
    rw [find?_of_le hzero hlength] at h
    cases hway : top.way p with
    | error e =>
      rw [hway] at h
      cases h
    | ok trail =>
      rw [hway] at h
      cases trail with
      | nil => cases h
      | cons n' up =>
        cases h
        exact ⟨up, rfl⟩

/-- An empty name leads nowhere else. -/
theorem follow_nil_bind (trail : List Node) (name : Name) :
    (follow trail [] >>= fun trail => follow trail name) = follow trail name := by
  cases trail with
  | nil => rfl
  | cons n up =>
    cases hn : n.entries? with
    | none => simp [follow, hn, bind, Except.bind]
    | some entries => simp [follow, hn, bind, Except.bind]

/-- The way along a part that others stand before. -/
theorem Node.way_append_slash (h : slash ∉ q) (top : Node) (p : Written) :
    top.way (p ++ slash :: q) = top.way p >>= fun trail => follow trail q := by
  unfold way
  rw [Path.ofBytes_append_slash, Path.ofBytes_of_no_slash h, List.foldlM_append]
  simp

theorem Node.way_of_no_slash (h : slash ∉ q) (top : Node) : top.way q = follow [top] q := by
  unfold way
  rw [Path.ofBytes_of_no_slash h]
  simp

/-- Slashes behind the path of a directory lead nowhere else. -/
theorem Node.find?_append_slashes {readable : Bool} {entries : List (Name × Node)}
    (h : top.find? p = .ok (.dir readable entries)) {k : Nat} (hlength : p.length + k ≤ mostInPath) :
    top.find? (p ++ List.replicate k slash) = .ok (.dir readable entries) := by
  obtain ⟨hzero, -, up, hway⟩ := way_of_find? h
  have hway' : top.way (p ++ List.replicate k slash) = .ok (.dir readable entries :: up) := by
    clear hlength
    induction k with
    | zero => rw [List.replicate_zero, List.append_nil, hway]
    | succ k ih =>
      rw [List.replicate_succ', ← List.append_assoc, way_append_slash List.not_mem_nil, ih]
      rfl
  have hzero' : 0 ∉ p ++ List.replicate k slash := by
    rw [List.mem_append, List.mem_replicate]
    rintro (hmem | ⟨-, e⟩)
    · exact hzero hmem
    · cases e
  rw [find?_of_le hzero' (by simpa using hlength), hway']
  rfl

/-- The way along a name behind a path. -/
theorem Node.way_joined (h : IsPlain name) (top : Node) (p : Written) :
    top.way (p.joined name) = top.way p >>= fun trail => follow trail name := by
  rcases Written.joined_cases h p with ⟨rfl, e⟩ | ⟨q, rfl, e⟩ | ⟨-, e⟩ <;> rw [e]
  · rw [way_of_no_slash h.no_slash, way_of_no_slash List.not_mem_nil, follow_nil_bind]
  · rw [way_append_slash h.no_slash, way_append_slash List.not_mem_nil, bind_assoc]
    simp only [follow_nil_bind]
  · rw [way_append_slash h.no_slash]

/-- The way along names behind a path. -/
theorem Node.way_below (h : ∀ name ∈ path, IsPlain name) (top : Node) (p : Written) :
    top.way (p.below path) = top.way p >>= path.foldlM follow := by
  induction path generalizing p with
  | nil => simp [Written.below]
  | cons name path ih =>
    rw [Written.below_cons, ih (fun n hn => h n (List.mem_cons_of_mem name hn)), way_joined (h name List.mem_cons_self),
      bind_assoc]
    simp only [List.foldlM_cons]

end Files

end MediaBackup

import SceneTidy.Command.Files

/-!
# What stays of a tree of files

A path holds bytes if it leads to a place that is no directory and has the bytes.  To put bytes at
another place leaves what a path holds, and directories are made only where nothing is, so that a
path keeps its place and a file its bytes.  Main statements: what opening a file for writing leaves
(`Files.create_spec`), that making the directories for a path makes the tree grow
(`Files.grows_ensureParent`), and that a path which leads somewhere needs none
(`Files.ensureParent_of_place`).
-/

namespace SceneTidy.Command.Files

variable {fs gs hs : Files} {path : Path} {p q : Place} {bytes : List UInt8}

/-! ### Contents -/

theorem lookup_replace (l : List (Place × List UInt8)) (p : Place) (bytes : List UInt8)
    (q : Place) :
    (l.map fun (r, bs) => if r = p then (r, bytes) else (r, bs)).lookup q =
      if p = q then (l.lookup q).map fun _ => bytes else l.lookup q := by
  induction l with
  | nil => simp
  | cons entry l ih =>
    obtain ⟨r, bs⟩ := entry
    by_cases hr : r = p
    · subst hr
      by_cases hq : r = q
      · simp [hq]
      · have hne : (q == r) = false := beq_false_of_ne (Ne.symm hq)
        simpa [List.lookup_cons, hne, hq] using ih
    · by_cases hq : r = q
      · subst hq
        have hne : p ≠ r := Ne.symm hr
        simp [hr, hne]
      · have hne : (q == r) = false := beq_false_of_ne (Ne.symm hq)
        simpa [List.lookup_cons, hr, hne] using ih

/-- What is put at a place is found there, and the rest is found as before. -/
theorem bytes?_put (fs : Files) (p : Place) (bytes : List UInt8) (q : Place) :
    (fs.put p bytes).bytes? q = if p = q then some bytes else fs.bytes? q := by
  rw [bytes?, put]
  split
  · next h =>
    rw [lookup_replace]
    split
    · next hq =>
      obtain ⟨bs, hbs⟩ := Option.isSome_iff_exists.1 h
      rw [bytes?, hq] at hbs
      rw [hbs, Option.map_some]
    · rfl
  · next h =>
    have hnone : fs.contents.lookup p = none := by
      rwa [bytes?, Option.not_isSome_iff_eq_none] at h
    rw [List.lookup_append]
    by_cases hq : p = q
    · subst hq
      simp [hnone]
    · have hne : (q == p) = false := beq_false_of_ne (Ne.symm hq)
      simp [List.lookup_cons, hne, hq, bytes?]

/-! ### Growth -/

/-- A tree has the files of another one, and its directories and maybe more, where nothing was. -/
structure Grows (fs gs : Files) : Prop where
  directory : ∀ p, fs.isDirectory p = true → gs.isDirectory p = true
  file : ∀ p, fs.isDirectory p = false → (fs.bytes? p).isSome → gs.isDirectory p = false
  bytes : ∀ p, gs.bytes? p = fs.bytes? p

namespace Grows

theorem refl (fs : Files) : fs.Grows fs := ⟨fun _ h => h, fun _ h _ => h, fun _ => rfl⟩

theorem trans (h : fs.Grows gs) (h' : gs.Grows hs) : fs.Grows hs where
  directory p hp := h'.directory p (h.directory p hp)
  file p hp hbs := h'.file p (h.file p hp hbs) (by rwa [h.bytes])
  bytes p := (h'.bytes p).trans (h.bytes p)

end Grows

/-- A path leads to where it led when there are more directories. -/
theorem follow_of_isDirectory (h : ∀ p, fs.isDirectory p = true → gs.isDirectory p = true)
    (names : List String) (hp : fs.follow p names = .ok q) : gs.follow p names = .ok q := by
  induction names generalizing p with
  | nil => exact hp
  | cons name names ih =>
    rw [follow] at hp ⊢
    split at hp
    · next hd =>
      rw [if_pos (h p hd)]
      split at hp
      · cases hp
      · next hlimit =>
        rw [if_neg hlimit]
        exact ih hp
    · cases hp

theorem place_of_isDirectory (h : ∀ p, fs.isDirectory p = true → gs.isDirectory p = true)
    (hp : fs.place path = .ok p) : gs.place path = .ok p := by
  rw [place] at hp ⊢
  split at hp
  · cases hp
  · exact follow_of_isDirectory h _ hp

theorem place_put (hp : fs.place path = .ok p) (q : Place) (bytes : List UInt8) :
    (fs.put q bytes).place path = .ok p := by
  have hsame : ∀ r, fs.isDirectory r = true → (fs.put q bytes).isDirectory r = true := fun _ h => h
  exact place_of_isDirectory hsame hp

/-- One directory more. -/
theorem isDirectory_append (fs : Files) (p q : Place) :
    ({ fs with directories := fs.directories ++ [p] } : Files).isDirectory q =
      (fs.isDirectory q || decide (q = p)) := by
  simp [isDirectory, Bool.or_assoc]

theorem grows_makeDirectory (h : fs.makeDirectory path = .ok gs) : fs.Grows gs := by
  rw [makeDirectory] at h
  cases hp : fs.place path with
  | error e => simp [hp, bind, Except.bind] at h
  | ok p =>
    simp only [hp, bind, Except.bind] at h
    split at h
    · cases h
    · next hfree =>
      obtain rfl := Except.ok.inj h
      have hfree : fs.isDirectory p = false ∧ (fs.bytes? p).isSome = false := by
        simpa [isTaken] using hfree
      refine ⟨fun q hq => ?_, fun q hq hbs => ?_, fun _ => rfl⟩
      · rw [isDirectory_append, hq, Bool.true_or]
      · have hne : q ≠ p := by
          rintro rfl
          rw [hfree.2] at hbs
          cases hbs
        rw [isDirectory_append, hq, Bool.false_or, decide_eq_false hne]

theorem grows_ensureDirectory (h : fs.ensureDirectory path = .ok gs) : fs.Grows gs := by
  rw [ensureDirectory] at h
  split at h
  · next made =>
    obtain rfl := Except.ok.inj h
    exact grows_makeDirectory made
  · split at h
    · split at h
      · obtain rfl := Except.ok.inj h
        exact .refl fs
      · cases h
    · cases h

theorem grows_ensureAll (start : String) (names : List String)
    (h : fs.ensureAll start names = .ok gs) : fs.Grows gs := by
  induction names generalizing gs with
  | nil => exact grows_ensureDirectory h
  | cons name outer ih =>
    rw [ensureAll] at h
    split at h
    · cases hfs : fs.ensureAll start outer with
      | error e => simp [hfs, bind, Except.bind] at h
      | ok made =>
        simp only [hfs, bind, Except.bind] at h
        exact (ih hfs).trans (grows_ensureDirectory h)
    · exact grows_ensureDirectory h

/-- To make the directories that a path needs makes the tree grow. -/
theorem grows_ensureParent (h : fs.ensureParent path = .ok gs) : fs.Grows gs :=
  grows_ensureAll _ _ h

/-! ### Paths that lead somewhere -/

/-- The text of a path starts with that of its parent, unless this is a dot. -/
theorem exists_toString_eq (path : Path) :
    path.parent.toString = "." ∨ ∃ tail, path.toString = path.parent.toString ++ tail := by
  obtain ⟨start, names⟩ := path
  rcases List.eq_nil_or_concat names with rfl | ⟨outer, name, rfl⟩
  · exact .inr ⟨"", String.append_empty.symm⟩
  · rw [List.concat_eq_append]
    have hparent : Path.parent ⟨start, outer ++ [name]⟩ = ⟨start, outer⟩ := by
      simp [Path.parent]
    have hwhole : Path.toString ⟨start, outer ++ [name]⟩ =
        start ++ "/".intercalate (outer ++ [name]) := by
      simp [Path.toString]
    rw [hparent, hwhole, Path.toString]
    split
    · exact .inl rfl
    · by_cases hnil : outer = []
      · exact .inr ⟨name, by simp [hnil]⟩
      · refine .inr ⟨"/" ++ name, ?_⟩
        rw [String.intercalate_append_of_ne_nil hnil (List.cons_ne_nil _ _),
          String.intercalate_singleton]
        simp only [String.append_assoc]

/-- A path that the system takes has a parent that it takes. -/
theorem fault?_parent (h : path.fault? = none) : path.parent.fault? = none := by
  rcases exists_toString_eq path with hdot | ⟨tail, htail⟩
  · rw [Path.fault?, hdot]
    rfl
  · have hsize : path.parent.toString.utf8ByteSize ≤ path.toString.utf8ByteSize := by
      rw [htail, String.utf8ByteSize_append]
      exact Nat.le_add_right _ _
    simp only [Path.fault?, List.contains_eq_mem, decide_eq_true_eq] at h ⊢
    split at h
    · cases h
    · next hnull =>
      rw [htail, String.toList_append, List.mem_append, not_or] at hnull
      split at h
      · cases h
      · rw [if_neg hnull.1, if_neg (by omega)]

/-- To follow names is to follow the first ones, and the others from there. -/
theorem follow_append (fs : Files) (p : Place) (l m : List String) :
    fs.follow p (l ++ m) = (fs.follow p l).bind fun q => fs.follow q m := by
  induction l generalizing p with
  | nil => rfl
  | cons name l ih =>
    rw [List.cons_append, follow, follow]
    split
    · split
      · rfl
      · exact ih _
    · rfl

/-- The parent of a path that leads somewhere is a directory. -/
theorem exists_place_parent (h : fs.place path = .ok p) :
    ∃ q, fs.place path.parent = .ok q ∧ fs.isDirectory q = true := by
  rw [place] at h ⊢
  cases hfault : path.fault? with
  | some e => simp [hfault] at h
  | none =>
    simp only [hfault, fault?_parent hfault] at h ⊢
    rcases List.eq_nil_or_concat path.names with hnil | ⟨outer, name, hnames⟩
    · rw [Path.parent, hnil]
      refine ⟨_, rfl, ?_⟩
      split <;> simp [isDirectory]
    · rw [hnames, List.concat_eq_append, follow_append] at h
      have houter : path.parent.names = outer := by simp [Path.parent, hnames]
      rw [houter]
      cases hq : fs.follow (if path.start = "" then [] else ["/"]) outer with
      | error e => simp [hq, Except.bind] at h
      | ok q =>
        simp only [hq, Except.bind, follow] at h
        split at h
        · next hd => exact ⟨q, hq, hd⟩
        · cases h

theorem makeDirectory_of_isDirectory (h : fs.place path = .ok p)
    (hd : fs.isDirectory p = true) : fs.makeDirectory path = .error .alreadyExists := by
  simp [makeDirectory, h, isTaken, hd, bind, Except.bind]

theorem ensureDirectory_of_isDirectory (h : fs.place path = .ok p)
    (hd : fs.isDirectory p = true) : fs.ensureDirectory path = .ok fs := by
  simp [ensureDirectory, makeDirectory_of_isDirectory h hd, h, hd]

/-- A path that leads somewhere needs no more directories. -/
theorem ensureParent_of_place (h : fs.place path = .ok p) : fs.ensureParent path = .ok fs := by
  obtain ⟨q, hq, hd⟩ := exists_place_parent h
  have hensure : fs.ensureDirectory path.parent = .ok fs := ensureDirectory_of_isDirectory hq hd
  have hparent : path.parent = ⟨path.start, path.parent.names⟩ := rfl
  rw [ensureParent]
  cases hnames : path.parent.names.reverse with
  | nil =>
    rw [List.reverse_eq_nil_iff] at hnames
    rwa [hparent, hnames] at hensure
  | cons name outer =>
    have hback : (name :: outer).reverse = path.parent.names := by
      rw [← hnames, List.reverse_reverse]
    rw [ensureAll, hback, ← hparent, makeDirectory_of_isDirectory hq hd]
    exact hensure

/-! ### What a path holds -/

/-- A path leads to a place that has some bytes. -/
structure Holds (fs : Files) (path : Path) (p : Place) (bytes : List UInt8) : Prop where
  place : fs.place path = .ok p
  file : fs.isDirectory p = false
  bytes : fs.bytes? p = some bytes

theorem read_eq_ok_iff : fs.read path = .ok bytes ↔ ∃ p, fs.Holds path p bytes := by
  constructor
  · intro h
    rw [read] at h
    cases hp : fs.place path with
    | error e => simp [hp, bind, Except.bind] at h
    | ok p =>
      simp only [hp, bind, Except.bind] at h
      split at h
      · cases h
      · next hd =>
        split at h
        · next hbs =>
          obtain rfl := Except.ok.inj h
          exact ⟨p, hp, by simpa using hd, hbs⟩
        · cases h
  · rintro ⟨p, h⟩
    simp [read, h.place, h.file, h.bytes, bind, Except.bind]

namespace Holds

theorem read (h : fs.Holds path p bytes) : fs.read path = .ok bytes := read_eq_ok_iff.2 ⟨p, h⟩

theorem grow (h : fs.Holds path p bytes) (hg : fs.Grows gs) : gs.Holds path p bytes where
  place := place_of_isDirectory hg.directory h.place
  file := hg.file p h.file (by rw [h.bytes]; rfl)
  bytes := (hg.bytes p).trans h.bytes

theorem put_of_ne (h : fs.Holds path p bytes) (hq : q ≠ p) (other : List UInt8) :
    (fs.put q other).Holds path p bytes where
  place := place_put h.place q other
  file := h.file
  bytes := by rw [bytes?_put, if_neg hq, h.bytes]

/-- A file that is there can be opened for writing. -/
theorem create (h : fs.Holds path p bytes) : fs.create path = .ok (p, fs.put p []) := by
  simp [Files.create, h.place, h.file, bind, Except.bind]

end Holds

/-- A path holds what is put at its place. -/
theorem holds_put (hp : fs.place path = .ok p) (hd : fs.isDirectory p = false)
    (bytes : List UInt8) : (fs.put p bytes).Holds path p bytes where
  place := place_put hp p bytes
  file := hd
  bytes := by rw [bytes?_put, if_pos rfl]

/-- A file that is opened for writing is at the place of its path, and empty. -/
theorem create_spec (h : fs.create path = .ok (p, gs)) :
    fs.place path = .ok p ∧ fs.isDirectory p = false ∧ gs = fs.put p [] := by
  rw [create] at h
  cases hp : fs.place path with
  | error e => simp [hp, bind, Except.bind] at h
  | ok q =>
    simp only [hp, bind, Except.bind] at h
    split at h
    · cases h
    · next hd =>
      obtain ⟨rfl, rfl⟩ := Prod.mk.inj (Except.ok.inj h)
      exact ⟨rfl, by simpa using hd, rfl⟩

end SceneTidy.Command.Files

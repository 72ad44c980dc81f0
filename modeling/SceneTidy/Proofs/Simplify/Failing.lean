import SceneTidy.Proofs.Simplify.KeptGroup
import SceneTidy.Proofs.Simplify.Merging

/-!
# When simplifications fail

Dropping junk fails only if the group to keep is not there (`lacksGroup_of_dropJunk_error`).
Merging fails only on a shape whose face set was malformed before (`exists_of_mergeShapes_error`),
since the groups merged until then have changed no shape and no face set.
-/

namespace SceneTidy.Scene

variable {s u : Scene} {start group : NodeId} {w : Bool} {done : List NodeId} {e : SceneError}

/-! ### Dropping junk -/

/-- The rules ask for a group that is not there. -/
def LacksGroup (s : Scene) (numberOf : NodeId → Option Nat) (rules : JunkRules) (start : NodeId)
    (number : Option Int) : Prop :=
  rules.keep = some number ∧ ∀ id, ¬s.NamesGroup numberOf start number id

/-- Dropping junk fails only if the rules ask for a group that is not there. -/
theorem lacksGroup_of_dropJunk_error {numberOf : NodeId → Option Nat} {rules : JunkRules}
    (hnum : ∀ a b k, numberOf a = some k → numberOf b = some k → a = b)
    (h : (s.dropJunk numberOf rules start).result = .error e) :
    ∃ number, s.LacksGroup numberOf rules start number ∧ e = .notReachableGroup number := by
  unfold dropJunk at h
  cases hkept : s.keptGroup numberOf rules start with
  | ok kept => simp [hkept] at h
  | error e' =>
    obtain rfl : e' = e := by simpa [hkept] using h
    unfold keptGroup at hkept
    cases hkeep : rules.keep with
    | none => simp [hkeep] at hkept
    | some number =>
      rw [hkeep] at hkept
      refine ⟨number, ⟨hkeep, fun id hid => ?_⟩, ?_⟩
      · simp [findGroup_of_namesGroup hnum hid, bind, Except.bind, pure, Except.pure] at hkept
      · rcases s.findGroup_eq_ok_or numberOf start number with ⟨id, hid⟩ | herror
        · simp [hid, bind, Except.bind, pure, Except.pure] at hkept
        · simpa [herror, bind, Except.bind] using hkept.symm

/-! ### Merging -/

/-- A shape of a group shows a face set that is malformed. -/
def HasMalformedShape (s : Scene) (start : NodeId) (cause : Malformed) : Prop :=
  ∃ g x, s.MergesAt start g ∧ x ∈ s.children g ∧ s.isFaceShape x = true ∧
    s.shapeFaces x = .error cause

/-- The faces of shapes fail for a shape whose faces fail. -/
theorem exists_of_allFaces_error {shapes : List NodeId} {cause : Malformed}
    (h : s.allFaces shapes = .error cause) : ∃ x ∈ shapes, s.shapeFaces x = .error cause := by
  induction shapes with
  | nil => cases h
  | cons id shapes ih =>
    rw [allFaces_cons] at h
    cases hfirst : s.shapeFaces id with
    | error cause' =>
      rw [hfirst] at h
      exact ⟨id, List.mem_cons_self .., hfirst.trans (congrArg _ (Except.error.inj h))⟩
    | ok fs =>
      cases hrest : s.allFaces shapes with
      | ok gs => simp [hfirst, hrest, Except.bind, Except.map] at h
      | error cause' =>
        rw [hfirst, hrest] at h
        obtain ⟨x, hx, hxe⟩ := ih (hrest.trans (congrArg _ (Except.error.inj h)))
        exact ⟨x, List.mem_cons_of_mem _ hx, hxe⟩

/-- A change that fails after another one: the first fails, or it goes on to fail. -/
theorem cases_of_andThen_error {α β : Type} {c : Change α} {f : Scene → α → Change β}
    (h : (c.andThen f).result = .error e) :
    c.result = .error e ∨ ∃ a, c.result = .ok a ∧ (f c.scene a).result = .error e := by
  cases hc : c.result with
  | error e' =>
    rw [Change.andThen_of_error hc] at h
    exact .inl (congrArg Except.error (Except.error.inj h))
  | ok a =>
    rw [Change.andThen_of_ok hc] at h
    exact .inr ⟨a, rfl, h⟩

theorem exists_of_mergeClass_error {c : ShapeClass} (h : (u.mergeClass w c).result = .error e) :
    ∃ cause, e = .malformed cause ∧ ∃ x ∈ c.shapes, u.shapeFaces x = .error cause := by
  unfold mergeClass at h
  cases hfaces : u.allFaces c.shapes with
  | ok faces => simp [hfaces] at h
  | error cause =>
    refine ⟨cause, by simpa [hfaces] using h.symm, exists_of_allFaces_error hfaces⟩

/-- Merging classes fails on a shape whose faces failed at first. -/
theorem exists_of_mergeClasses_error (hw : s.Whole start)
    (hdone : ∀ g ∈ done, s.isGrouping g = true) {classes : List ShapeClass}
    (hshapes : ∀ c ∈ classes, ∀ x ∈ c.shapes, s.Reaches start x ∧ s.isFaceShape x = true)
    (hu : Untouched s done u) (h : (u.mergeClasses w classes).result = .error e) :
    ∃ cause, e = .malformed cause ∧ ∃ c ∈ classes, ∃ x ∈ c.shapes,
      s.shapeFaces x = .error cause := by
  induction classes generalizing u with
  | nil => cases h
  | cons c classes ih =>
    obtain ⟨hc, hclasses⟩ := List.forall_mem_cons.1 hshapes
    rw [mergeClasses] at h
    rcases cases_of_andThen_error h with hfirst | ⟨id, hfirst, hrest⟩
    · obtain ⟨cause, rfl, x, hx, hfaces⟩ := exists_of_mergeClass_error hfirst
      rw [hu.shapeFaces_eq hdone hw (hc x hx).1 (hc x hx).2] at hfaces
      exact ⟨cause, rfl, c, List.mem_cons_self .., x, hx, hfaces⟩
    · obtain ⟨faces, -, -, hpushed⟩ := exists_of_mergeClass_ok hfirst
      have hpush := (u.pushShape_spec c.appearance
        (IndexedFaces.ofFaces (Face.distinct w faces))).1
      have hv := hu.trans hpush
      rw [List.append_nil, ← hpushed] at hv
      rcases cases_of_andThen_error hrest with hlater | ⟨_, -, hpure⟩
      · obtain ⟨cause, he, d, hd, hx⟩ := ih hclasses hv hlater
        exact ⟨cause, he, d, List.mem_cons_of_mem _ hd, hx⟩
      · cases hpure

/-- Merging a group fails where merging its classes does, and then leaves the scene as it was. -/
theorem mergeClasses_of_mergeGroup_error (h : (u.mergeGroup w group).result = .error e) :
    (u.mergeClasses w (u.shapeClasses (u.children group))).result = .error e ∧
      (u.mergeGroup w group).scene = u := by
  unfold mergeGroup at h ⊢
  dsimp only at h ⊢
  split at h
  · cases h
  · next hsome =>
    rw [if_neg hsome]
    cases hc : (u.mergeClasses w (u.shapeClasses (u.children group))).result with
    | error e' =>
      simp only [hc, Except.error.injEq] at h ⊢
      exact ⟨h, trivial⟩
    | ok merged => simp [hc] at h

theorem exists_of_mergeGroup_error (hw : s.Whole start)
    (hdone : ∀ g ∈ done, s.isGrouping g = true) (hu : Untouched s done u)
    (hg : s.MergesAt start group) (hnew : group ∉ done)
    (h : (u.mergeGroup w group).result = .error e) :
    ∃ cause, e = .malformed cause ∧ s.HasMalformedShape start cause := by
  have hchildren : u.children group = s.children group := hu.children_eq hnew hg.node?_isSome
  obtain ⟨-, hclasses⟩ := hu.faceShapes_eq hdone hw hg
  have hmerge : (u.mergeClasses w (s.shapeClasses (s.children group))).result = .error e := by
    rw [← hclasses, ← hchildren]
    exact (mergeClasses_of_mergeGroup_error h).1
  obtain ⟨cause, he, c, hc, x, hx, hfaces⟩ := exists_of_mergeClasses_error hw hdone
    (fun c hc => hg.of_mem_shapes hc) hu hmerge
  obtain ⟨hmem, hface⟩ := mem_of_mem_shapeClasses hc hx
  exact ⟨cause, he, group, x, hg, hmem, hface, hfaces⟩

theorem exists_of_mergeGroups_error (hw : s.Whole start)
    (hdone : ∀ g ∈ done, s.isGrouping g = true) (hu : Untouched s done u) {groups : List NodeId}
    (hgroups : ∀ g ∈ groups, s.MergesAt start g) (hnd : (done ++ groups).Nodup)
    (h : (u.mergeGroups w groups).result = .error e) :
    ∃ cause, e = .malformed cause ∧ s.HasMalformedShape start cause := by
  induction groups generalizing u done with
  | nil => cases h
  | cons g groups ih =>
    obtain ⟨hg, hgroups⟩ := List.forall_mem_cons.1 hgroups
    have hgnew : g ∉ done := fun hmem =>
      List.disjoint_of_nodup_append hnd hmem (List.mem_cons_self ..)
    rw [mergeGroups] at h
    rcases cases_of_andThen_error h with hfirst | ⟨k, hfirst, hrest⟩
    · exact exists_of_mergeGroup_error hw hdone hu hg hgnew hfirst
    · obtain ⟨-, hone, -⟩ := mergeGroup_spec hw hdone hu hg hgnew hfirst
      have hdone' : ∀ x ∈ done ++ [g], s.isGrouping x = true := by
        intro x hx
        rcases List.mem_append.1 hx with hx | hx
        · exact hdone x hx
        · obtain rfl := List.mem_singleton.1 hx
          exact hg.2.1
      rcases cases_of_andThen_error hrest with hlater | ⟨_, -, hpure⟩
      · exact ih hdone' (hu.trans hone) hgroups (by rwa [List.append_assoc]) hlater
      · cases hpure

/-- **Merging shapes fails only on a shape that was malformed before.** -/
theorem exists_of_mergeShapes_error (hw : s.Whole start)
    (h : (s.mergeShapes w start).result = .error e) :
    ∃ cause, e = .malformed cause ∧ s.HasMalformedShape start cause := by
  rw [mergeShapes] at h
  rcases cases_of_andThen_error h with hgroups | ⟨_, -, hpure⟩
  · exact exists_of_mergeGroups_error hw (fun g hg => absurd hg List.not_mem_nil) (.refl s [])
      (fun g hg => mem_mergeable_iff.1 hg) (s.nodup_mergeable start) hgroups
  · cases hpure

/-- Merging succeeds if none of the shapes that it meets is malformed. -/
theorem exists_ok_mergeShapes (hw : s.Whole start)
    (h : ∀ g x, s.MergesAt start g → x ∈ s.children g → s.isFaceShape x = true →
      ∃ faces, s.shapeFaces x = .ok faces) : ∃ k, (s.mergeShapes w start).result = .ok k := by
  cases hresult : (s.mergeShapes w start).result with
  | ok k => exact ⟨k, rfl⟩
  | error e =>
    obtain ⟨cause, -, g, x, hg, hx, hface, hmalformed⟩ := exists_of_mergeShapes_error hw hresult
    obtain ⟨faces, hfaces⟩ := h g x hg hx hface
    cases hfaces.symm.trans hmalformed

end SceneTidy.Scene

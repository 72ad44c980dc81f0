import SceneTidy.Proofs.Simplify.Failing

/-!
# When the shapes of a group cannot be merged

A face set has bad indices if it has indices but no points, if it refers to a node that is not one
of coordinates, or if an index that does not close a face is no place among the points
(`HasBadIndices`); then, and only then, its faces cannot be told (`exists_faces_error_iff`).  Main
statement: merging the shapes of a group fails exactly if one of them shows such a face set, and the
nodes that were there are then as they were (`mergeGroup_error_iff`).
-/

namespace SceneTidy.Scene

variable {s u : Scene} {start group id : NodeId} {w : Bool} {e : SceneError}

/-- The indices of a face set name no faces. -/
inductive HasBadIndices (s : Scene) (faceSet : Node) : Prop
  | noCoordinates (h : faceSet.target "coord" = none)
      (hindices : faceSet.items "coordIndex" .int32 ≠ [])
  | notCoordinates {c : NodeId} {coord : Node} (h : faceSet.target "coord" = some c)
      (hcoord : s.node? c = some coord) (hkind : coord.kind ≠ .coordinate)
  | outOfRange {c : NodeId} {coord : Node} {i : Int} (h : faceSet.target "coord" = some c)
      (hcoord : s.node? c = some coord) (hi : i ∈ faceSet.items "coordIndex" .int32)
      (hend : i ≠ faceEnd) (hrange : i < 0 ∨ (coord.items "point" .vec3f).length ≤ i)

/-- A node is a shape that shows a face set with bad indices. -/
def IsBadShape (s : Scene) (id : NodeId) : Prop :=
  ∃ shape g faceSet, s.node? id = some shape ∧ shape.kind = .shape ∧
    shape.target "geometry" = some g ∧ s.node? g = some faceSet ∧ faceSet.kind = .indexedFaceSet ∧
    s.HasBadIndices faceSet

/-! ### Face sets and shapes -/

/-- The faces of a face set cannot be told exactly if its indices are bad. -/
theorem exists_faces_error_iff {faceSet : Node} (hw : ∀ x ∈ faceSet.refs, (s.node? x).isSome) :
    (∃ cause, s.faces faceSet = .error cause) ↔ s.HasBadIndices faceSet := by
  cases htarget : faceSet.target "coord" with
  | none =>
    constructor
    · rintro ⟨cause, h⟩
      refine .noCoordinates htarget fun hnil => ?_
      simp [faces, htarget, hnil] at h
    · rintro (⟨-, hindices⟩ | ⟨h, -, -⟩ | ⟨h, -, -, -, -⟩)
      · exact ⟨.indexWithoutCoordinates, by simp [faces, htarget, hindices]⟩
      · simp [htarget] at h
      · simp [htarget] at h
  | some c =>
    obtain ⟨coord, hcoord⟩ := Option.isSome_iff_exists.1 (hw c (Node.mem_refs_of_target htarget))
    by_cases hkind : coord.kind = .coordinate
    · have hfaces : (∃ cause, s.faces faceSet = .error cause) ↔ ∃ bad, facesOfIndices
          (coord.items "point" .vec3f) (faceSet.items "coordIndex" .int32) = .error bad := by
        simp only [faces, htarget, hcoord, hkind, if_true]
        cases facesOfIndices (coord.items "point" .vec3f) (faceSet.items "coordIndex" .int32) <;>
          simp
      rw [hfaces, exists_facesOfIndices_error_iff]
      constructor
      · rintro ⟨i, hi, hend, hrange⟩
        exact .outOfRange htarget hcoord hi hend hrange
      · rintro (⟨h, -⟩ | ⟨h, h', hne⟩ | ⟨h, h', hi, hend, hrange⟩)
        · simp [htarget] at h
        · obtain rfl := Option.some.inj (htarget.symm.trans h)
          obtain rfl := Option.some.inj (hcoord.symm.trans h')
          exact absurd hkind hne
        · obtain rfl := Option.some.inj (htarget.symm.trans h)
          obtain rfl := Option.some.inj (hcoord.symm.trans h')
          exact ⟨_, hi, hend, hrange⟩
    · have hfaces : s.faces faceSet = .error (.notCoordinates coord.kind.typeName) := by
        simp [faces, htarget, hcoord, hkind]
      exact ⟨fun _ => .notCoordinates htarget hcoord hkind, fun _ => ⟨_, hfaces⟩⟩

/-- The faces that a shape shows cannot be told exactly if the shape is bad. -/
theorem isBadShape_iff (hw : s.Whole start) (hr : s.Reaches start id) :
    s.IsBadShape id ↔ s.isFaceShape id = true ∧ ∃ cause, s.shapeFaces id = .error cause := by
  have hshown : ∀ shape g faceSet, s.node? id = some shape → shape.target "geometry" = some g →
      s.node? g = some faceSet →
      ((∃ cause, s.shapeFaces id = .error cause) ↔ s.HasBadIndices faceSet) := by
    intro shape g faceSet hshape hg hfaceSet
    have hrefers := refers_of_target hshape hg
    have hfaces : s.shapeFaces id = s.faces faceSet := by simp [shapeFaces, hshape, hg, hfaceSet]
    rw [hfaces]
    refine exists_faces_error_iff fun x hx => hw g x (hr.tail hrefers) ?_
    rwa [Refers, refs_of_node? hfaceSet]
  constructor
  · rintro ⟨shape, g, faceSet, hshape, hk, hg, hfaceSet, hkind, hbad⟩
    refine ⟨?_, (hshown shape g faceSet hshape hg hfaceSet).2 hbad⟩
    simp [isFaceShape_of_node? hshape, hk, hg, isKind, kind?, hfaceSet, hkind]
  · rintro ⟨hface, hbad⟩
    obtain ⟨shape, g, faceSet, hshape, hk, hg, hfaceSet, hkind⟩ := exists_node_of_isFaceShape hface
    exact ⟨shape, g, faceSet, hshape, hk, hg, hfaceSet, hkind,
      (hshown shape g faceSet hshape hg hfaceSet).1 hbad⟩

/-! ### Merging a group -/

/-- The classes of a group hold face-set shapes below it. -/
theorem reaches_of_mem_shapes {c : ShapeClass} (hc : c ∈ s.shapeClasses (s.children group)) :
    ∀ x ∈ c.shapes, s.Reaches group x ∧ s.isFaceShape x = true := by
  intro x hx
  obtain ⟨hmem, hface⟩ := mem_of_mem_shapeClasses hc hx
  exact ⟨.single (mem_refs_of_mem_children hmem), hface⟩

/-- A group that is merged shows no bad shape. -/
theorem exists_ok_of_mergeGroup_ok (hw : s.Whole group) {k : Nat}
    (h : (s.mergeGroup w group).result = .ok k) {x : NodeId} (hx : x ∈ s.children group)
    (hface : s.isFaceShape x = true) : ∃ faces, s.shapeFaces x = .ok faces := by
  have hshape : x ∈ s.faceShapes (s.children group) := mem_faceShapes_iff.2 ⟨hx, hface⟩
  obtain ⟨-, ⟨hnil, -⟩ | ⟨merged, hmerged, -⟩⟩ := mergeGroup_cases h
  · rw [hnil] at hshape
    exact absurd hshape List.not_mem_nil
  · obtain ⟨-, hall, -⟩ := mergeClasses_spec hw (fun g hg => absurd hg List.not_mem_nil)
      (fun c hc => reaches_of_mem_shapes hc) (.refl s []) hmerged
    obtain ⟨p, -, ⟨-, base, faces, -, -, -, hfaces, -⟩, -⟩ :=
      exists_lookup_of_mem_mergedAppearances hall (List.mem_map_of_mem hshape)
    refine exists_ok_of_allFaces hfaces x (List.mem_filter.2 ⟨hshape, ?_⟩)
    simp

/-- **Merging the shapes of a group fails exactly if one of them shows a face set with bad
indices**, and the scene is then as it was.  The merged shapes that were made by then are only added
to its nodes, none of which has changed. -/
theorem mergeGroup_error_iff (hw : s.Whole group) (w : Bool) :
    ((∃ cause, (s.mergeGroup w group).result = .error (.malformed cause)) ↔
      ∃ x ∈ s.children group, s.IsBadShape x) ∧
    ∀ e, (s.mergeGroup w group).result = .error e →
      (∃ cause, e = .malformed cause) ∧ (s.mergeGroup w group).scene = s ∧
      ∀ x n, s.node? x = some n →
        (s.mergeClasses w (s.shapeClasses (s.children group))).scene.node? x = some n := by
  have hbad : ∀ x ∈ s.children group, s.IsBadShape x ↔
      s.isFaceShape x = true ∧ ∃ cause, s.shapeFaces x = .error cause := fun x hx =>
    isBadShape_iff hw (.single (mem_refs_of_mem_children hx))
  have herror : ∀ e, (s.mergeGroup w group).result = .error e → ∃ cause, e = .malformed cause ∧
      ∃ x ∈ s.children group, s.IsBadShape x := by
    intro e h
    obtain ⟨cause, he, c, hc, x, hx, hfaces⟩ := exists_of_mergeClasses_error hw
      (fun g hg => absurd hg List.not_mem_nil)
      (fun c hc => reaches_of_mem_shapes hc) (.refl s [])
      (mergeClasses_of_mergeGroup_error h).1
    obtain ⟨hmem, hface⟩ := mem_of_mem_shapeClasses hc hx
    exact ⟨cause, he, x, hmem, (hbad x hmem).2 ⟨hface, cause, hfaces⟩⟩
  refine ⟨⟨?_, ?_⟩, fun e h => ⟨?_, (mergeClasses_of_mergeGroup_error h).2, fun x n hn => ?_⟩⟩
  · rintro ⟨cause, h⟩
    obtain ⟨-, -, hshape⟩ := herror _ h
    exact hshape
  · rintro ⟨x, hx, hbadx⟩
    obtain ⟨hface, cause, hcause⟩ := (hbad x hx).1 hbadx
    cases hresult : (s.mergeGroup w group).result with
    | ok k =>
      obtain ⟨faces, hfaces⟩ := exists_ok_of_mergeGroup_ok hw hresult hx hface
      cases hfaces.symm.trans hcause
    | error e =>
      obtain ⟨cause', rfl, -⟩ := herror e hresult
      exact ⟨cause', rfl⟩
  · obtain ⟨cause, he, -⟩ := herror e h
    exact ⟨cause, he⟩
  · exact (s.untouched_mergeClasses w _).node?_eq List.not_mem_nil hn

/-- A scene with two shapes of different appearance: the second shows a face set that refers to a
fourth point, and has but three. -/
def tornSheet : Scene :=
  ⟨#[(Node.create .scene none).setChildren [1, 2], shapeNode none 3, shapeNode (some 6) 4,
    mergedFaceSet 5 [0, 1, 2, -1], mergedFaceSet 5 [2, 1, 3],
    coordinateNode [Vec3.zero, .diagonal .one, ⟨.one, .zero, .zero⟩],
    Node.create .appearance none], 0⟩

theorem mergeGroup_tornSheet : tornSheet.Whole 0 ∧
    (∃ cause, (tornSheet.mergeGroup true 0).result = .error (.malformed cause)) ∧
    (tornSheet.mergeGroup true 0).scene = tornSheet := by
  have hw : tornSheet.Whole 0 := whole_of_forall (by decide +kernel) 0
  have hbad : tornSheet.IsBadShape 2 := by
    refine ⟨shapeNode (some 6) 4, 4, mergedFaceSet 5 [2, 1, 3], rfl, rfl, rfl, rfl, rfl, ?_⟩
    exact .outOfRange (i := 3) (c := 5) rfl rfl (by decide +kernel) (by decide) (.inr (by decide))
  obtain ⟨hfails, hleft⟩ := mergeGroup_error_iff hw true
  obtain ⟨cause, hcause⟩ := hfails.2 ⟨2, by decide +kernel, hbad⟩
  exact ⟨hw, ⟨cause, hcause⟩, (hleft _ hcause).2.1⟩

end SceneTidy.Scene

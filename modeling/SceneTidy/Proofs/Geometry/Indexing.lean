import SceneTidy.Geometry.FaceSet
import SceneTidy.Proofs.Geometry.Renumbering

/-!
# Faces by their indices

A face set may refer to points and hold the indices of faces (`Scene.Stores`).  Main statement: it
shows those faces then, by value, and what it shows has the same points and indices again; the
points are the corners that are the same as none before them, and they are what sorting the corners
gives (`IndexedFaces.faces_ofFaces`).
-/

namespace SceneTidy

/-- A node has the indices of indexed faces, and refers to a coordinate node that has their points.
-/
structure Scene.Stores (s : Scene) (faceSet : Node) (indexed : IndexedFaces) : Prop where
  indices : faceSet.items "coordIndex" .int32 = indexed.indices
  points : ∃ id coord, faceSet.target "coord" = some id ∧ s.node? id = some coord ∧
    coord.kind = .coordinate ∧ coord.items "point" .vec3f = indexed.points

theorem Scene.Stores.faces {s : Scene} {faceSet : Node} {indexed : IndexedFaces} {fs : List Face}
    (h : s.Stores faceSet indexed) (hfs : facesOfIndices indexed.points indexed.indices = .ok fs) :
    s.faces faceSet = .ok fs := by
  obtain ⟨id, coord, htarget, hcoord, hkind, hpoints⟩ := h.points
  rw [Scene.faces, h.indices, htarget]
  dsimp only
  rw [hcoord]
  dsimp only
  rw [if_pos hkind, hpoints, hfs]

namespace IndexedFaces

variable {fs : List Face}

/-- The place of a corner is among the indices. -/
theorem placeOf_mem_placesOf (points : List Vec3) {f : Face} {p : Vec3} (hf : f ∈ fs)
    (hp : p ∈ f) : (placeOf points p : Int) ∈ placesOf points fs :=
  List.mem_flatMap.2 ⟨f, hf, List.mem_append_left _ (List.mem_map.2 ⟨p, hp, rfl⟩)⟩

/-- **Faces that are put into indices are shown by every face set that holds these**, with the same
corners by value, and are put into the same indices again.  The points are the corners that are the
same as none before them; they are distinct, and each is named by an index.  The same points and
indices come from sorting the corners and renumbering them. -/
theorem faces_ofFaces (hne : ∀ f ∈ fs, f ≠ []) (hnumber : ∀ f ∈ fs, ∀ p ∈ f, p.IsNumber) :
    (∀ s faceSet, Scene.Stores s faceSet (ofFaces fs) → ∃ shown, s.faces faceSet = .ok shown ∧
      sameItems Face.same shown fs ∧ ofFaces shown = ofFaces fs) ∧
    (ofFaces fs).points = fresh Vec3.same fs.flatten ∧
    ((ofFaces fs).points.Pairwise fun p q => p.same q = false) ∧
    (∀ i < (ofFaces fs).points.length, (i : Int) ∈ (ofFaces fs).indices) ∧
    ∀ rows first inverse, SortedPoints fs.flatten rows first inverse →
      renumbered first inverse fs = ofFaces fs := by
  refine ⟨fun s faceSet h => ⟨_, h.faces (facesOfIndices_ofFaces_eq hne hnumber), ?_, ?_⟩, ?_⟩
  · exact sameItems_map fun f hf => sameItems_map fun p hp =>
      same_pointFor (exists_mem_distinctPoints hnumber f hf p hp)
  · exact ofFaces_map_pointFor hne hnumber
  · have hfresh := distinctPoints_eq_fresh fs
    refine ⟨?_, ?_, fun i hi => ?_, fun _ _ _ => renumbered_eq_ofFaces hne⟩
    · rw [ofFaces_eq hne, hfresh]
    · rw [ofFaces_eq hne, hfresh]
      refine (pairwise_fresh fs.flatten).imp fun {p q} h => ?_
      rwa [Vec3.same_comm]
    · rw [ofFaces_eq hne] at hi ⊢
      obtain ⟨f, hf, hp⟩ := exists_of_mem_distinctPoints (List.getElem_mem hi)
      have hmem := placeOf_mem_placesOf (Face.distinctPoints fs) hf hp
      rwa [placeOf_distinctPoints hnumber hi] at hmem

/-- Two faces on one edge, of which the second has a zero with a sign. -/
def hinge : List Face :=
  [[.zero, ⟨.infinity false, .zero, .zero⟩, ⟨.zero, .infinity false, .zero⟩],
    [⟨.infinity false, .zero, .zero⟩, ⟨.ofDecimal true 0 0, .zero, .zero⟩,
      ⟨.zero, .zero, .infinity false⟩]]

/-- A face set with the indices of the two faces. -/
def hingeFaceSet : Node :=
  ((Node.create .indexedFaceSet none).set "coord" (.node (some 0))).set "coordIndex"
    (.many .int32 (ofFaces hinge).indices)

/-- A store with the points of the two faces. -/
def hingeScene : Scene :=
  ⟨#[(Node.create .coordinate none).set "point" (.many .vec3f (ofFaces hinge).points)], 0⟩

/-- The corners of the two faces in ascending order. -/
theorem sortedPoints_hinge : SortedPoints hinge.flatten
    [.zero, ⟨.zero, .zero, .infinity false⟩, ⟨.zero, .infinity false, .zero⟩,
      ⟨.infinity false, .zero, .zero⟩] [0, 5, 2, 1] [0, 3, 2, 3, 0, 1] where
  ascending := by decide +kernel
  sound := by decide +kernel
  complete := by decide +kernel
  first := by decide +kernel
  inverse := by decide +kernel

theorem faces_ofFaces_hinge : (∀ f ∈ hinge, f ≠ []) ∧ (∀ f ∈ hinge, ∀ p ∈ f, p.IsNumber) ∧
    hingeScene.Stores hingeFaceSet (ofFaces hinge) ∧
    (∃ shown, hingeScene.faces hingeFaceSet = .ok shown ∧
      sameItems Face.same shown hinge ∧ ofFaces shown = ofFaces hinge) ∧
    (ofFaces hinge).points = fresh Vec3.same hinge.flatten ∧
    ((ofFaces hinge).points.Pairwise fun p q => p.same q = false) ∧
    (∀ i < (ofFaces hinge).points.length, (i : Int) ∈ (ofFaces hinge).indices) ∧
    renumbered [0, 5, 2, 1] [0, 3, 2, 3, 0, 1] hinge = ofFaces hinge := by
  have hnumber : ∀ f ∈ hinge, ∀ p ∈ f, ∀ x ∈ p.numbers, x.isNaN = false := by decide +kernel
  have hstores : hingeScene.Stores hingeFaceSet (ofFaces hinge) :=
    ⟨rfl, 0, _, rfl, rfl, rfl, rfl⟩
  obtain ⟨hshown, hpoints, hdistinct, hused, hsorted⟩ := faces_ofFaces (by decide) hnumber
  exact ⟨by decide, hnumber, hstores, hshown _ _ hstores, hpoints, hdistinct, hused,
    hsorted _ _ _ sortedPoints_hinge⟩

example : (ofFaces hinge).indices = [0, 1, 2, -1, 1, 0, 3, -1] := by decide +kernel

end IndexedFaces

end SceneTidy

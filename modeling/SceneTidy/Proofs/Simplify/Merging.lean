import Mathlib.Algebra.GroupWithZero.Nat
import Mathlib.Data.List.Forall2
import SceneTidy.Proofs.Geometry.FaceLists
import SceneTidy.Proofs.Scene.Reachable
import SceneTidy.Proofs.Scene.Slots
import SceneTidy.Proofs.Simplify.ShapeClasses

/-!
# Merging keeps the geometry

Merging adds nodes to the store and changes the children of the groups at hand, and nothing else
(`Untouched`).  Shapes and face sets are no groups, so that what is read of them while the groups
are merged one after the other is what was there at first (`Untouched.shapeFaces_eq`).  Main
statement: each group gets its merged children, with shapes that show the distinct faces of those
replaced (`exists_isMerge_mergeShapes`).
-/

namespace SceneTidy.Scene

variable {s t u : Scene} {start id group : NodeId} {changed : List NodeId}

/-! ### What merging comes to -/

/-- A group below a start whose shapes are merged: a switch picks its children by position. -/
def MergesAt (s : Scene) (start group : NodeId) : Prop :=
  s.Reaches start group ∧ s.isGrouping group = true ∧ s.isKind .switch group = false

theorem mem_mergeable_iff : group ∈ s.mergeable start ↔ s.MergesAt start group := by
  rw [mergeable, List.mem_filter, mem_groupings_iff, MergesAt, Bool.not_eq_true', and_assoc]

theorem MergesAt.node?_isSome (h : s.MergesAt start group) : (s.node? group).isSome := by
  obtain ⟨n, hn, -⟩ := exists_node_of_isGrouping h.2.1
  exact Option.isSome_iff_exists.2 ⟨n, hn⟩

theorem nodup_mergeable (s : Scene) (start : NodeId) : (s.mergeable start).Nodup :=
  (s.nodup_walk start).sublist (List.filter_sublist.trans List.filter_sublist)

theorem mergeable_eq_singleton {start : NodeId} (hgroup : s.isGrouping start = true)
    (hswitch : s.isKind .switch start = false)
    (hall : ∀ g < s.size, s.isGrouping g = true → g = start) : s.mergeable start = [start] := by
  refine List.perm_singleton.1 ((List.perm_ext_iff_of_nodup (s.nodup_mergeable start)
    (List.nodup_singleton start)).2 fun g => ?_)
  rw [mem_mergeable_iff, List.mem_singleton]
  constructor
  · exact fun hg => hall g (node?_isSome_iff.1 hg.node?_isSome) hg.2.1
  · rintro rfl
    exact ⟨.refl, hgroup, hswitch⟩

/-- All references below a start lead to nodes of the store, and none to a place still free. -/
def Whole (s : Scene) (start : NodeId) : Prop :=
  ∀ a b, s.Reaches start a → s.Refers a b → (s.node? b).isSome

theorem whole_of_forall (h : ∀ a < s.size, ∀ b ∈ s.refs a, b < s.size) (start : NodeId) :
    s.Whole start := fun a b _ hab =>
  node?_isSome_iff.2 (h a (node?_isSome_iff.1 (node?_isSome_of_mem_refs hab)) b hab)

theorem MergesAt.reaches (hg : s.MergesAt start group) {x : NodeId} (hx : x ∈ s.children group) :
    s.Reaches start x :=
  hg.1.tail (mem_refs_of_mem_children hx)

theorem Whole.node?_isSome (hw : s.Whole start) (hg : s.MergesAt start group) {x : NodeId}
    (hx : x ∈ s.children group) : (s.node? x).isSome :=
  hw group x hg.1 (mem_refs_of_mem_children hx)

/-- The points of all coordinate nodes below a start have coordinates that are numbers. -/
def NumberPoints (s : Scene) (start : NodeId) : Prop :=
  ∀ a n, s.Reaches start a → s.node? a = some n → n.kind = .coordinate →
    ∀ p ∈ n.items "point" .vec3f, p.IsNumber

theorem numberPoints_of_forall {start : NodeId}
    (h : ∀ n ∈ s.nodes, ∀ p ∈ n.items "point" .vec3f, ∀ x ∈ p.numbers, x.isNaN = false) :
    s.NumberPoints start :=
  fun _ n _ hn _ p hp => h n (Array.mem_of_getElem? hn) p hp

/-- A shape of a scene that came of another one: it has an appearance, and shows on both sides the
distinct faces that some shapes showed. -/
def ShowsMerged (s t : Scene) (ignoreWinding : Bool) (shapes : List NodeId)
    (appearance : Option NodeId) (id : NodeId) : Prop :=
  ∃ n faceSet m faces drawn, t.node? id = some n ∧ n.kind = .shape ∧
    n.target "appearance" = appearance ∧ n.target "geometry" = some faceSet ∧
    t.node? faceSet = some m ∧ m.kind = .indexedFaceSet ∧ m.item "solid" .bool = false ∧
    s.allFaces shapes = .ok faces ∧ t.shapeFaces id = .ok drawn ∧
    sameItems Face.same drawn (Face.distinct ignoreWinding faces) = true

/-- The appearances of the face-set shapes among the children of a group. -/
def mergedAppearances (s : Scene) (group : NodeId) : List (Option NodeId) :=
  (s.faceShapes (s.children group)).map s.appearanceOf

/-- The face-set shapes of an appearance among the children of a group, each once. -/
def shapesWith (s : Scene) (group : NodeId) (appearance : Option NodeId) : List NodeId :=
  (s.faceShapes (s.children group)).filter (s.appearanceOf · = appearance)

/-- A scene comes of another by merging: each group has its merged children, with a new node for
each group and appearance; all other fields of the nodes that were there are as they were; and the
number is that of the shapes replaced in all groups. -/
structure IsMerge (s : Scene) (ignoreWinding : Bool) (start : NodeId) (t : Scene) (count : Nat)
    (new : NodeId → Option NodeId → NodeId) : Prop where
  root : t.root = s.root
  children : ∀ g, s.MergesAt start g → t.children g = s.mergedChildren (new g) (s.children g)
  shown : ∀ g, s.MergesAt start g → ∀ a ∈ s.mergedAppearances g, s.node? (new g a) = none ∧
    s.ShowsMerged t ignoreWinding (s.shapesWith g a) a (new g a)
  injective : ∀ g g', s.MergesAt start g → s.MergesAt start g' → ∀ a ∈ s.mergedAppearances g,
    ∀ a' ∈ s.mergedAppearances g', new g a = new g' a' → g = g' ∧ a = a'
  untouched : ∀ x n, s.node? x = some n → ∃ m, t.node? x = some m ∧ m.kind = n.kind ∧
    m.name = n.name ∧ ∀ field, ¬ s.MergesAt start x ∨ field ≠ n.kind.childrenField →
      m.get? field = n.get? field
  count : count = ((s.mergeable start).map fun g => (s.faceShapes (s.children g)).length).sum

/-! ### Face-set shapes -/

theorem refers_of_target {n : Node} {x y : NodeId} {field : String} (hn : s.node? x = some n)
    (hy : n.target field = some y) : s.Refers x y := by
  rw [Refers, refs_of_node? hn]
  exact Node.mem_refs_of_target hy

theorem isFaceShape_of_node? {n : Node} (hn : s.node? id = some n) :
    s.isFaceShape id = (n.kind == .shape &&
      ((n.target "geometry").map (s.isKind .indexedFaceSet)).getD false) := by
  rw [isFaceShape, hn]

theorem exists_node_of_isFaceShape (h : s.isFaceShape id = true) :
    ∃ n g m, s.node? id = some n ∧ n.kind = .shape ∧ n.target "geometry" = some g ∧
      s.node? g = some m ∧ m.kind = .indexedFaceSet := by
  cases hn : s.node? id with
  | none => simp [isFaceShape, hn] at h
  | some n =>
    rw [isFaceShape_of_node? hn, Bool.and_eq_true] at h
    cases hg : n.target "geometry" with
    | none => simp [hg] at h
    | some g =>
      have hkind : s.kind? g = some .indexedFaceSet := by simpa [hg, isKind] using h.2
      obtain ⟨m, hm, hmk⟩ := Option.map_eq_some_iff.1 hkind
      exact ⟨n, g, m, rfl, by simpa using h.1, hg, hm, hmk⟩

theorem allFaces_cons (s : Scene) (id : NodeId) (shapes : List NodeId) :
    s.allFaces (id :: shapes) =
      (s.shapeFaces id).bind fun fs => (s.allFaces shapes).map (fs ++ ·) := by
  rw [allFaces, allFaces, List.mapM_cons]
  cases s.shapeFaces id with
  | error e => rfl
  | ok fs =>
    cases shapes.mapM s.shapeFaces with
    | error e => rfl
    | ok gs => rfl

/-- Faces of shapes that can be read are those of the first and of the others. -/
theorem exists_of_allFaces_cons {shapes : List NodeId} {faces : List Face}
    (h : s.allFaces (id :: shapes) = .ok faces) : ∃ fs gs, s.shapeFaces id = .ok fs ∧
      s.allFaces shapes = .ok gs ∧ fs ++ gs = faces := by
  rw [allFaces_cons] at h
  cases hfirst : s.shapeFaces id with
  | error e => simp [hfirst, Except.bind] at h
  | ok fs =>
    cases hrest : s.allFaces shapes with
    | error e => simp [hfirst, hrest, Except.bind, Except.map] at h
    | ok gs => exact ⟨fs, gs, rfl, rfl, by simpa [hfirst, hrest, Except.bind, Except.map] using h⟩

/-- The faces of shapes are those of each shape. -/
theorem exists_of_mem_allFaces {shapes : List NodeId} {faces : List Face}
    (h : s.allFaces shapes = .ok faces) :
    ∀ f ∈ faces, ∃ id ∈ shapes, ∃ fs, s.shapeFaces id = .ok fs ∧ f ∈ fs := by
  induction shapes generalizing faces with
  | nil =>
    obtain rfl : [] = faces := Except.ok.inj h
    exact fun f hf => absurd hf List.not_mem_nil
  | cons id shapes ih =>
    obtain ⟨fs, gs, hfirst, hrest, rfl⟩ := exists_of_allFaces_cons h
    intro f hf
    rcases List.mem_append.1 hf with hf | hf
    · exact ⟨id, List.mem_cons_self .., fs, hfirst, hf⟩
    · obtain ⟨x, hx, gs, hgs, hf⟩ := ih hrest f hf
      exact ⟨x, List.mem_cons_of_mem _ hx, gs, hgs, hf⟩

/-- Shapes whose faces can be read together have faces each. -/
theorem exists_ok_of_allFaces {shapes : List NodeId} {faces : List Face}
    (h : s.allFaces shapes = .ok faces) : ∀ x ∈ shapes, ∃ fs, s.shapeFaces x = .ok fs := by
  induction shapes generalizing faces with
  | nil => exact fun x hx => absurd hx List.not_mem_nil
  | cons id shapes ih =>
    obtain ⟨fs, gs, hfirst, hrest, -⟩ := exists_of_allFaces_cons h
    exact List.forall_mem_cons.2 ⟨⟨fs, hfirst⟩, ih hrest⟩

/-- Shapes that show the same faces one by one do so together. -/
theorem allFaces_map {f : NodeId → NodeId} {shapes : List NodeId}
    (h : ∀ x ∈ shapes, t.shapeFaces (f x) = s.shapeFaces x) :
    t.allFaces (shapes.map f) = s.allFaces shapes := by
  have hmap : (shapes.map f).mapM t.shapeFaces = shapes.mapM s.shapeFaces := by
    induction shapes with
    | nil => rfl
    | cons x shapes ih =>
      obtain ⟨hx, hshapes⟩ := List.forall_mem_cons.1 h
      rw [List.map_cons, List.mapM_cons, List.mapM_cons, ih hshapes, hx]
  rw [allFaces, allFaces, hmap]

theorem corners_of_faces {faceSet : Node} {fs : List Face} (hnum : s.NumberPoints start)
    (hr : ∀ t ∈ faceSet.refs, s.Reaches start t) (h : s.faces faceSet = .ok fs) :
    ∀ f ∈ fs, f ≠ [] ∧ ∀ p ∈ f, p.IsNumber := by
  have hempty : ∀ (b : Bool) (e : Malformed),
      (if b then .ok [] else .error e : Except Malformed (List Face)) = .ok fs →
        ∀ f ∈ fs, f ≠ [] ∧ ∀ p ∈ f, p.IsNumber := by
    intro b e hb
    cases b with
    | true =>
      obtain rfl := Except.ok.inj hb
      exact fun f hf => absurd hf List.not_mem_nil
    | false => cases hb
  unfold faces at h
  dsimp only at h
  split at h
  · exact hempty _ _ h
  · next c hc =>
    split at h
    · exact hempty _ _ h
    · next coord hcoord =>
      split at h
      · next hk =>
        split at h
        · next gs hgs =>
          obtain rfl := Except.ok.inj h
          intro f hf
          obtain ⟨hne, hpoints⟩ := corners_of_facesOfIndices hgs f hf
          exact ⟨hne, fun p hp =>
            hnum c coord (hr c (Node.mem_refs_of_target hc)) hcoord hk p (hpoints p hp)⟩
        · cases h
      · cases h

/-- The faces that reachable shapes show have corners, and those are numbers. -/
theorem corners_of_shapeFaces {fs : List Face} (hnum : s.NumberPoints start)
    (hr : s.Reaches start id) (h : s.shapeFaces id = .ok fs) :
    ∀ f ∈ fs, f ≠ [] ∧ ∀ p ∈ f, p.IsNumber := by
  unfold shapeFaces at h
  split at h
  · next faceSet hset =>
    obtain ⟨g, hg, hset⟩ := Option.bind_eq_some_iff.1 hset
    obtain ⟨n, hn, hg⟩ := Option.bind_eq_some_iff.1 hg
    have hrefers := refers_of_target hn hg
    refine corners_of_faces hnum (fun t ht => (hr.tail hrefers).tail ?_) h
    rwa [Refers, refs_of_node? hset]
  · obtain rfl := Except.ok.inj h
    exact fun f hf => absurd hf List.not_mem_nil

theorem corners_of_allFaces {shapes : List NodeId} {faces : List Face} (hnum : s.NumberPoints start)
    (hr : ∀ x ∈ shapes, s.Reaches start x) (h : s.allFaces shapes = .ok faces) :
    ∀ f ∈ faces, f ≠ [] ∧ ∀ p ∈ f, p.IsNumber := by
  intro f hf
  obtain ⟨x, hx, fs, hfs, hf⟩ := exists_of_mem_allFaces h f hf
  exact corners_of_shapeFaces hnum (hr x hx) hfs f hf

/-! ### What merging leaves alone -/

/-- No nodes but some changed ones have other fields than before, and of those no field but the
children is another. -/
structure Untouched (s : Scene) (changed : List NodeId) (t : Scene) : Prop where
  root : t.root = s.root
  size_le : s.size ≤ t.size
  node : ∀ x n, s.node? x = some n → ∃ m, t.node? x = some m ∧ m.kind = n.kind ∧
    m.name = n.name ∧ ∀ field, x ∉ changed ∨ field ≠ n.kind.childrenField →
      m.get? field = n.get? field

namespace Untouched

theorem refl (s : Scene) (changed : List NodeId) : Untouched s changed s :=
  ⟨rfl, Nat.le_refl _, fun _ n hn => ⟨n, hn, rfl, rfl, fun _ _ => rfl⟩⟩

theorem trans {more : List NodeId} (h : Untouched s changed t) (h' : Untouched t more u) :
    Untouched s (changed ++ more) u := by
  refine ⟨h'.root.trans h.root, Nat.le_trans h.size_le h'.size_le, fun x n hn => ?_⟩
  obtain ⟨m, hm, hkind, hname, hfields⟩ := h.node x n hn
  obtain ⟨k, hk, hkind', hname', hfields'⟩ := h'.node x m hm
  refine ⟨k, hk, hkind'.trans hkind, hname'.trans hname, fun field hfield => ?_⟩
  have hboth : (x ∉ changed ∨ field ≠ n.kind.childrenField) ∧
      (x ∉ more ∨ field ≠ m.kind.childrenField) := by
    rw [hkind]
    rcases hfield with hx | hf
    · rw [List.mem_append, not_or] at hx
      exact ⟨.inl hx.1, .inl hx.2⟩
    · exact ⟨.inr hf, .inr hf⟩
  exact (hfields' field hboth.2).trans (hfields field hboth.1)

theorem node?_eq {n : Node} (h : Untouched s changed t) (hid : id ∉ changed)
    (hn : s.node? id = some n) : t.node? id = some n := by
  obtain ⟨m, hm, hkind, hname, hfields⟩ := h.node id n hn
  rw [hm, Node.eq_of_get?_eq hkind hname fun d _ => hfields d.name (.inl hid)]

theorem kind?_eq (h : Untouched s changed t) (hid : (s.node? id).isSome) :
    t.kind? id = s.kind? id := by
  obtain ⟨n, hn⟩ := Option.isSome_iff_exists.1 hid
  obtain ⟨m, hm, hkind, -⟩ := h.node id n hn
  rw [kind?, kind?, hm, hn, Option.map_some, Option.map_some, hkind]

theorem children_eq (h : Untouched s changed t) (hid : id ∉ changed)
    (hs : (s.node? id).isSome) : t.children id = s.children id := by
  obtain ⟨n, hn⟩ := Option.isSome_iff_exists.1 hs
  rw [children_of_node? (h.node?_eq hid hn), children_of_node? hn]

/-- Only the children of groups are changed, so that the appearance stays. -/
theorem appearanceOf_eq (h : Untouched s changed t) (hid : (s.node? id).isSome) :
    t.appearanceOf id = s.appearanceOf id := by
  obtain ⟨n, hn⟩ := Option.isSome_iff_exists.1 hid
  obtain ⟨m, hm, -, -, hfields⟩ := h.node id n hn
  have hne : "appearance" ≠ n.kind.childrenField := by
    cases n.kind <;> exact of_decide_eq_true rfl
  rw [appearanceOf, appearanceOf, hm, hn, Option.bind_some, Option.bind_some, Node.target,
    Node.target, hfields _ (.inr hne)]

section Reading

variable (h : Untouched s changed t) (hg : ∀ g ∈ changed, s.isGrouping g = true)

include h hg

theorem node?_eq_of_kind {n : Node} (hn : s.node? id = some n) (hk : n.kind.isGrouping = false) :
    t.node? id = some n := by
  refine h.node?_eq (fun hmem => ?_) hn
  have hgroup := hg id hmem
  simp [isGrouping, kind?, hn, hk] at hgroup

theorem isFaceShape_eq (hw : s.Whole start) (hr : s.Reaches start id)
    (hid : (s.node? id).isSome) : t.isFaceShape id = s.isFaceShape id := by
  obtain ⟨n, hn⟩ := Option.isSome_iff_exists.1 hid
  obtain ⟨m, hm, hkind, -⟩ := h.node id n hn
  by_cases hk : n.kind = .shape
  · have hsame := h.node?_eq_of_kind hg hn (by rw [hk]; rfl)
    rw [isFaceShape_of_node? hsame, isFaceShape_of_node? hn]
    cases hgeometry : n.target "geometry" with
    | none => rfl
    | some g =>
      have hrefers := refers_of_target hn hgeometry
      rw [Option.map_some, Option.map_some, isKind, isKind, h.kind?_eq (hw id g hr hrefers)]
  · have hfalse : (n.kind == .shape) = false := by simpa using hk
    rw [isFaceShape_of_node? hm, isFaceShape_of_node? hn, hkind, hfalse, Bool.false_and,
      Bool.false_and]

/-- A face set has the faces that it had. -/
theorem faces_eq (faceSet : Node) (hw : ∀ x ∈ faceSet.refs, (s.node? x).isSome) :
    t.faces faceSet = s.faces faceSet := by
  unfold faces
  cases hc : faceSet.target "coord" with
  | none => rfl
  | some c =>
    obtain ⟨coord, hcoord⟩ := Option.isSome_iff_exists.1 (hw c (Node.mem_refs_of_target hc))
    obtain ⟨m, hm, hkind, -⟩ := h.node c coord hcoord
    by_cases hk : coord.kind = .coordinate
    · simp only [h.node?_eq_of_kind hg hcoord (by rw [hk]; rfl), hcoord]
    · simp only [hm, hcoord, hkind, if_neg hk]

/-- A face-set shape shows the faces that it showed. -/
theorem shapeFaces_eq (hw : s.Whole start) (hr : s.Reaches start id)
    (hface : s.isFaceShape id = true) : t.shapeFaces id = s.shapeFaces id := by
  obtain ⟨n, g, m, hn, hk, hgeometry, hm, hmk⟩ := exists_node_of_isFaceShape hface
  have hrefers := refers_of_target hn hgeometry
  have hfaces : t.faces m = s.faces m := h.faces_eq hg m fun x hx => by
    refine hw g x (hr.tail hrefers) ?_
    rwa [Refers, refs_of_node? hm]
  rw [shapeFaces, shapeFaces, h.node?_eq_of_kind hg hn (by rw [hk]; rfl), hn, Option.bind_some,
    hgeometry, Option.bind_some, Option.bind_some, h.node?_eq_of_kind hg hm (by rw [hmk]; rfl), hm]
  exact hfaces

theorem allFaces_eq (hw : s.Whole start) {shapes : List NodeId}
    (hshapes : ∀ x ∈ shapes, s.Reaches start x ∧ s.isFaceShape x = true) :
    t.allFaces shapes = s.allFaces shapes := by
  have hall := allFaces_map (f := id) fun x hx =>
    h.shapeFaces_eq hg hw (hshapes x hx).1 (hshapes x hx).2
  rwa [List.map_id] at hall

end Reading

end Untouched

/-! ### The new shape -/

/-- A coordinate node with points. -/
def coordinateNode (points : List Vec3) : Node :=
  (Node.create .coordinate none).set "point" (.many .vec3f points)

/-- A shape with an appearance and a geometry. -/
def shapeNode (appearance : Option NodeId) (geometry : NodeId) : Node :=
  ((Node.create .shape none).set "appearance" (.node appearance)).set "geometry"
    (.node (some geometry))

/-- A coordinate node, a face set and a shape stand at three places that follow one another. -/
structure Shown (t : Scene) (base : NodeId) (appearance : Option NodeId) (indexed : IndexedFaces) :
    Prop where
  coord : t.node? base = some (coordinateNode indexed.points)
  faceSet : t.node? (base + 1) = some (mergedFaceSet base indexed.indices)
  shape : t.node? (base + 2) = some (shapeNode appearance (base + 1))

variable {base : NodeId} {appearance : Option NodeId} {indexed : IndexedFaces}

theorem Shown.shapeFaces {fs : List Face} (h : t.Shown base appearance indexed)
    (hfs : facesOfIndices indexed.points indexed.indices = .ok fs) :
    t.shapeFaces (base + 2) = .ok fs := by
  have hgeometry : (shapeNode appearance (base + 1)).target "geometry" = some (base + 1) := rfl
  have hcoord : (mergedFaceSet base indexed.indices).target "coord" = some base := rfl
  have hindices : (mergedFaceSet base indexed.indices).items "coordIndex" .int32 =
      indexed.indices := rfl
  have hpoints : (coordinateNode indexed.points).items "point" .vec3f = indexed.points := rfl
  have hkind : (coordinateNode indexed.points).kind = .coordinate := rfl
  have hset : t.faces (mergedFaceSet base indexed.indices) = .ok fs := by
    unfold faces
    simp only [hcoord, h.coord, hkind, if_true, hpoints, hindices, hfs]
  rw [Scene.shapeFaces, h.shape, Option.bind_some, hgeometry, Option.bind_some, h.faceSet]
  exact hset

theorem Untouched.shown (h : Untouched s changed t) (hs : s.Shown base appearance indexed)
    (hchanged : ∀ g ∈ changed, g < base) : t.Shown base appearance indexed := by
  have hnot : ∀ x, base ≤ x → x ∉ changed := fun x hx hmem =>
    Nat.lt_irrefl x (Nat.lt_of_lt_of_le (hchanged x hmem) hx)
  exact ⟨h.node?_eq (hnot _ (Nat.le_refl _)) hs.coord,
    h.node?_eq (hnot _ (Nat.le_add_right _ 1)) hs.faceSet,
    h.node?_eq (hnot _ (Nat.le_add_right _ 2)) hs.shape⟩

theorem untouched_push (s : Scene) (n : Node) : Untouched s [] (s.push n) := by
  refine ⟨rfl, Nat.le_of_lt (by rw [size_push]; exact Nat.lt_succ_self _), fun x m hm => ?_⟩
  have hne : x ≠ s.next := Nat.ne_of_lt (lt_size_of_node? hm)
  exact ⟨m, by rw [node?_push, if_neg hne, hm], rfl, rfl, fun _ _ => rfl⟩

theorem pushShape_spec (s : Scene) (appearance : Option NodeId) (indexed : IndexedFaces) :
    Untouched s [] (s.pushShape appearance indexed) ∧
      (s.pushShape appearance indexed).size = s.size + 3 ∧
      (s.pushShape appearance indexed).Shown s.size appearance indexed := by
  have hcoord := untouched_push s (coordinateNode indexed.points)
  have hset := untouched_push (s.push (coordinateNode indexed.points))
    (mergedFaceSet s.size indexed.indices)
  have hshape := untouched_push ((s.push (coordinateNode indexed.points)).push
    (mergedFaceSet s.size indexed.indices)) (shapeNode appearance (s.size + 1))
  have hsize₁ : (s.push (coordinateNode indexed.points)).size = s.size + 1 := size_push ..
  have heq : s.pushShape appearance indexed = ((s.push (coordinateNode indexed.points)).push
      (mergedFaceSet s.size indexed.indices)).push
        (shapeNode appearance (s.push (coordinateNode indexed.points)).size) := rfl
  have hself : ∀ (u : Scene) (n : Node), (u.push n).node? u.size = some n := fun u n => by
    rw [node?_push]
    exact if_pos rfl
  rw [heq, hsize₁]
  refine ⟨(hcoord.trans hset).trans hshape, ?_, ?_, ?_, ?_⟩
  · rw [size_push, size_push, size_push]
  · exact hshape.node?_eq List.not_mem_nil (hset.node?_eq List.not_mem_nil (hself ..))
  · exact hshape.node?_eq List.not_mem_nil (hsize₁ ▸ hself ..)
  · have hsize₂ : ((s.push (coordinateNode indexed.points)).push
        (mergedFaceSet s.size indexed.indices)).size = s.size + 2 := by rw [size_push, hsize₁]
    exact hsize₂ ▸ hself ..

/-! ### Merging classes -/

/-- One change after another leaves the scene that the first one left, if that has failed. -/
theorem scene_andThen {α β : Type} (c : Change α) (f : Scene → α → Change β) :
    (c.andThen f).scene = c.scene ∨
      ∃ a, c.result = .ok a ∧ (c.andThen f).scene = (f c.scene a).scene := by
  cases hc : c.result with
  | error e =>
    rw [Change.andThen_of_error hc]
    exact .inl rfl
  | ok a =>
    rw [Change.andThen_of_ok hc]
    exact .inr ⟨a, rfl, rfl⟩

/-- What holds after one change, and after any other that goes on from its success, holds after
both. -/
theorem of_scene_andThen {α β : Type} {P : Scene → Prop} {c : Change α} {f : Scene → α → Change β}
    (hc : P c.scene) (hf : ∀ a, c.result = .ok a → P (f c.scene a).scene) :
    P (c.andThen f).scene := by
  obtain hscene | ⟨a, ha, hscene⟩ := scene_andThen c f
  · rwa [hscene]
  · rw [hscene]
    exact hf a ha

theorem Untouched.andThen {α β : Type} {changed more : List NodeId} {c : Change α}
    {f : Scene → α → Change β} (hc : Untouched s changed c.scene)
    (hf : ∀ a, Untouched c.scene more (f c.scene a).scene) :
    Untouched s (changed ++ more) (c.andThen f).scene :=
  of_scene_andThen (P := Untouched s (changed ++ more)) (hc.trans (.refl _ _))
    fun a _ => hc.trans (hf a)

theorem exists_of_andThen_ok {α β : Type} {c : Change α} {f : Scene → α → Change β} {b : β}
    (h : (c.andThen f).result = .ok b) : ∃ a, c.result = .ok a ∧ (f c.scene a).result = .ok b ∧
      (c.andThen f).scene = (f c.scene a).scene := by
  cases hc : c.result with
  | error e =>
    rw [Change.andThen_of_error hc] at h
    cases h
  | ok a =>
    rw [Change.andThen_of_ok hc] at h ⊢
    exact ⟨a, rfl, h, rfl⟩

/-- Two changes one after the other, with a result of both. -/
theorem exists_of_andThen_pure_ok {α β γ : Type} {c : Change α} {f : Scene → Change β}
    {g : α → β → γ} {r : γ}
    (h : (c.andThen fun s a => (f s).andThen fun s b => .pure s (g a b)).result = .ok r) :
    ∃ a b, c.result = .ok a ∧ (f c.scene).result = .ok b ∧ g a b = r ∧
      (c.andThen fun s a => (f s).andThen fun s b => .pure s (g a b)).scene =
        (f c.scene).scene := by
  obtain ⟨a, ha, hthen, hscene⟩ := exists_of_andThen_ok h
  obtain ⟨b, hb, hpure, hscene'⟩ := exists_of_andThen_ok hthen
  exact ⟨a, b, ha, hb, Except.ok.inj hpure, hscene.trans hscene'⟩

variable {w : Bool} {done : List NodeId}

theorem exists_of_mergeClass_ok {c : ShapeClass} (h : (u.mergeClass w c).result = .ok id) :
    ∃ faces, u.allFaces c.shapes = .ok faces ∧ id = u.size + 2 ∧
      (u.mergeClass w c).scene =
        u.pushShape c.appearance (IndexedFaces.ofFaces (Face.distinct w faces)) := by
  unfold mergeClass at h ⊢
  cases hfaces : u.allFaces c.shapes with
  | error e => simp [hfaces] at h
  | ok faces =>
    obtain ⟨-, hsize, -⟩ :=
      u.pushShape_spec c.appearance (IndexedFaces.ofFaces (Face.distinct w faces))
    simp only [hfaces, hsize] at h ⊢
    exact ⟨faces, rfl, (Except.ok.inj h).symm, rfl⟩

theorem untouched_mergeClass (s : Scene) (w : Bool) (c : ShapeClass) :
    Untouched s [] (s.mergeClass w c).scene := by
  unfold mergeClass
  cases s.allFaces c.shapes with
  | error cause => exact .refl s []
  | ok faces => exact (s.pushShape_spec c.appearance _).1

/-- Merging classes only adds nodes, whether it fails or not. -/
theorem untouched_mergeClasses (s : Scene) (w : Bool) (classes : List ShapeClass) :
    Untouched s [] (s.mergeClasses w classes).scene := by
  induction classes generalizing s with
  | nil => exact .refl s []
  | cons c classes ih =>
    rw [mergeClasses]
    exact (s.untouched_mergeClass w c).andThen fun _ => (ih _).andThen fun _ => .refl _ []

/-- The merged shape of a class is shown at new places from a bound on, with the distinct faces that
the shapes of the class had at first. -/
def ClassMerged (s : Scene) (w : Bool) (bound : Nat) (t : Scene) (c : ShapeClass)
    (p : Option NodeId × NodeId) : Prop :=
  p.1 = c.appearance ∧ ∃ base faces, bound ≤ base ∧ base + 3 ≤ t.size ∧ p.2 = base + 2 ∧
    s.allFaces c.shapes = .ok faces ∧
    t.Shown base c.appearance (IndexedFaces.ofFaces (Face.distinct w faces))

theorem mergeClasses_spec (hw : s.Whole start) (hdone : ∀ g ∈ done, s.isGrouping g = true)
    {classes : List ShapeClass}
    (hshapes : ∀ c ∈ classes, ∀ x ∈ c.shapes, s.Reaches start x ∧ s.isFaceShape x = true)
    (hu : Untouched s done u) {merged : List (Option NodeId × NodeId)}
    (h : (u.mergeClasses w classes).result = .ok merged) :
    Untouched u [] (u.mergeClasses w classes).scene ∧
      List.Forall₂ (s.ClassMerged w u.size (u.mergeClasses w classes).scene) classes merged ∧
      (merged.map Prod.snd).Nodup := by
  induction classes generalizing u merged with
  | nil =>
    obtain rfl : [] = merged := Except.ok.inj h
    exact ⟨.refl u [], .nil, List.nodup_nil⟩
  | cons c classes ih =>
    obtain ⟨hc, hclasses⟩ := List.forall_mem_cons.1 hshapes
    rw [mergeClasses] at h ⊢
    obtain ⟨shape, rest, hfirst, hrest, rfl, hlast⟩ := exists_of_andThen_pure_ok h
    obtain ⟨faces, hfaces, hshape, hpushed⟩ := exists_of_mergeClass_ok hfirst
    obtain ⟨hpush, hsize, hshown⟩ :=
      u.pushShape_spec c.appearance (IndexedFaces.ofFaces (Face.distinct w faces))
    rw [hlast]
    rw [hpushed] at hrest ⊢
    generalize u.pushShape c.appearance (IndexedFaces.ofFaces (Face.distinct w faces)) = v
      at hpush hsize hshown hrest ⊢
    have hv : Untouched s done v := by
      have hboth := hu.trans hpush
      rwa [List.append_nil] at hboth
    obtain ⟨hlater, hall, hnodup⟩ := ih hclasses hv hrest
    have hle : v.size ≤ (v.mergeClasses w classes).scene.size := hlater.size_le
    -- the shapes of later classes stand at later places
    have hbound : ∀ p ∈ rest, v.size ≤ p.2 := by
      intro p hp
      obtain ⟨i, hi, rfl⟩ := List.mem_iff_getElem.1 hp
      obtain ⟨-, base, -, hbase, -, hid, -⟩ := hall.get (hall.length_eq ▸ hi) hi
      rw [List.get_eq_getElem] at hid
      rw [hid]
      exact Nat.le_add_right_of_le hbase
    refine ⟨hpush.trans hlater, .cons ⟨rfl, u.size, faces, Nat.le_refl _, by omega, hshape, ?_,
      hlater.shown hshown fun g hg => absurd hg List.not_mem_nil⟩ (hall.imp fun c p hcp => ?_), ?_⟩
    · rw [← hu.allFaces_eq hdone hw hc, hfaces]
    · obtain ⟨hp, base, fs, hbase, hmore⟩ := hcp
      exact ⟨hp, base, fs, by omega, hmore⟩
    · refine List.nodup_cons.2 ⟨fun hmem => ?_, hnodup⟩
      obtain ⟨p, hp, hpid⟩ := List.mem_map.1 hmem
      have hple := hbound p hp
      rw [hpid, hshape, hsize] at hple
      exact absurd hple (Nat.not_succ_le_self _)

/-! ### Merging a group -/

theorem untouched_setChildren (s : Scene) (g : NodeId) (ts : List NodeId) :
    Untouched s [g] (s.setChildren g ts) := by
  refine ⟨rfl, Nat.le_of_eq (size_modify ..).symm, fun x n hn => ?_⟩
  have hnode := s.node?_setChildren g ts x
  rw [hn] at hnode
  by_cases hx : g = x
  · rw [if_pos hx] at hnode
    refine ⟨n.setChildren ts, hnode, rfl, rfl, fun field hfield => n.get?_set_of_ne ?_ _⟩
    exact (hfield.resolve_left fun hnot => hnot (hx ▸ List.mem_singleton_self g)).symm
  · rw [if_neg hx] at hnode
    exact ⟨n, hnode, rfl, rfl, fun _ _ => rfl⟩

theorem untouched_mergeGroup (s : Scene) (w : Bool) (group : NodeId) :
    Untouched s [group] (s.mergeGroup w group).scene := by
  unfold mergeGroup
  dsimp only
  split
  · exact .refl s _
  · split
    · exact .refl s _
    · exact (s.untouched_mergeClasses w _).trans (untouched_setChildren _ group _)

/-- Merging changes no node but the groups at hand, whether it fails or not. -/
theorem untouched_mergeGroups (s : Scene) (w : Bool) (groups : List NodeId) :
    Untouched s groups (s.mergeGroups w groups).scene := by
  induction groups generalizing s with
  | nil => exact .refl s []
  | cons group groups ih =>
    have hall := (s.untouched_mergeGroup w group).andThen
      (f := fun s n => (s.mergeGroups w groups).andThen fun s m => .pure s (n + m))
      fun _ => (ih _).andThen fun _ => .refl _ []
    rwa [List.append_nil] at hall

theorem exists_lookup_of_forall₂ {R : ShapeClass → Option NodeId × NodeId → Prop}
    {classes : List ShapeClass} {merged : List (Option NodeId × NodeId)}
    (h : List.Forall₂ R classes merged) (hkey : ∀ c p, R c p → p.1 = c.appearance)
    (hnd : (classes.map ShapeClass.appearance).Nodup) :
    ∀ c ∈ classes, ∃ p ∈ merged, R c p ∧ merged.lookup c.appearance = some p.2 := by
  induction h with
  | nil => exact fun c hc => absurd hc List.not_mem_nil
  | @cons b p classes merged hbp _ ih =>
    obtain ⟨hb, hnd⟩ := List.nodup_cons.1 hnd
    intro c hc
    rw [List.lookup_cons, hkey b p hbp]
    rcases List.mem_cons.1 hc with rfl | hc
    · exact ⟨p, List.mem_cons_self .., hbp, by simp⟩
    · obtain ⟨q, hq, hcq, hlookup⟩ := ih hnd c hc
      have hne : (c.appearance == b.appearance) = false := by
        refine beq_eq_false_iff_ne.2 fun he => hb ?_
        rw [← he]
        exact List.mem_map_of_mem hc
      exact ⟨q, List.mem_cons_of_mem _ hq, hcq, by rw [hne]; exact hlookup⟩

/-- A group has its merged children, with new shapes at places from a bound on. -/
structure GroupMerged (s : Scene) (w : Bool) (bound : Nat) (t : Scene) (g : NodeId)
    (new : Option NodeId → NodeId) : Prop where
  children : t.children g = s.mergedChildren new (s.children g)
  shown : ∀ a ∈ s.mergedAppearances g, ∃ base faces, bound ≤ base ∧ base + 3 ≤ t.size ∧
    new a = base + 2 ∧ s.allFaces (s.shapesWith g a) = .ok faces ∧
    t.Shown base a (IndexedFaces.ofFaces (Face.distinct w faces))
  injective : ∀ a ∈ s.mergedAppearances g, ∀ a' ∈ s.mergedAppearances g, new a = new a' → a = a'

/-- What is read of the children of a group while groups are merged is what was there at first. -/
theorem Untouched.faceShapes_eq (hu : Untouched s done u)
    (hdone : ∀ g ∈ done, s.isGrouping g = true) (hw : s.Whole start)
    (hg : s.MergesAt start group) :
    u.faceShapes (s.children group) = s.faceShapes (s.children group) ∧
      u.shapeClasses (s.children group) = s.shapeClasses (s.children group) := by
  have hface : u.faceShapes (s.children group) = s.faceShapes (s.children group) := by
    rw [faceShapes, faceShapes]
    exact congrArg distinctNodes (List.filter_congr fun x hx =>
      hu.isFaceShape_eq hdone hw (hg.reaches hx) (hw.node?_isSome hg hx))
  refine ⟨hface, ?_⟩
  rw [shapeClasses, shapeClasses, hface]
  refine List.foldl_ext _ _ _ fun cs x hx => ?_
  rw [hu.appearanceOf_eq (hw.node?_isSome hg (mem_faceShapes_iff.1 hx).1)]

/-- The classes of a group hold face-set shapes below the start. -/
theorem MergesAt.of_mem_shapes (hg : s.MergesAt start group) {c : ShapeClass}
    (hc : c ∈ s.shapeClasses (s.children group)) :
    ∀ x ∈ c.shapes, s.Reaches start x ∧ s.isFaceShape x = true := by
  intro x hx
  obtain ⟨hmem, hface⟩ := mem_of_mem_shapeClasses hc hx
  exact ⟨hg.reaches hmem, hface⟩

/-- Every appearance has its class, and the class its merged shape. -/
theorem exists_lookup_of_mem_mergedAppearances {bound : Nat}
    {merged : List (Option NodeId × NodeId)}
    (h : List.Forall₂ (s.ClassMerged w bound t) (s.shapeClasses (s.children group)) merged)
    {a : Option NodeId} (ha : a ∈ s.mergedAppearances group) : ∃ p ∈ merged,
      s.ClassMerged w bound t ⟨a, s.shapesWith group a⟩ p ∧ merged.lookup a = some p.2 := by
  have hfit := s.classesFit_shapeClasses (s.children group)
  obtain ⟨c, hc, rfl⟩ := List.mem_map.1 ((hfit.mem a).2 ha)
  obtain ⟨p, hp, hcp, hlookup⟩ :=
    exists_lookup_of_forall₂ h (fun _ _ hcp => hcp.1) hfit.nodup c hc
  have heq : c = ⟨c.appearance, s.shapesWith group c.appearance⟩ := by
    rw [shapesWith, ← hfit.shapes c hc]
  exact ⟨p, hp, heq ▸ hcp, hlookup⟩

theorem groupMerged_of_nil {bound : Nat} (hnil : s.faceShapes (s.children group) = [])
    (hchildren : t.children group = s.children group) (new : Option NodeId → NodeId) :
    s.GroupMerged w bound t group new := by
  have hnone : s.mergedAppearances group = [] := by
    rw [mergedAppearances, hnil]
    rfl
  refine ⟨hchildren.trans (mergedChildren_of_nil hnil new).symm, fun a ha => ?_, fun a ha => ?_⟩
  · rw [hnone] at ha
    exact absurd ha List.not_mem_nil
  · rw [hnone] at ha
    exact absurd ha List.not_mem_nil

/-- A group whose classes are merged is so itself once it has the new children. -/
theorem groupMerged_of_classes {bound : Nat} {merged : List (Option NodeId × NodeId)}
    (hall : List.Forall₂ (s.ClassMerged w bound t) (s.shapeClasses (s.children group)) merged)
    (hnodup : (merged.map Prod.snd).Nodup) (hu : Untouched t [group] u) (hold : group < bound)
    (hchildren : u.children group =
      s.mergedChildren (fun a => (merged.lookup a).getD 0) (s.children group)) :
    s.GroupMerged w bound u group fun a => (merged.lookup a).getD 0 := by
  refine ⟨hchildren, fun a ha => ?_, fun a ha a' ha' he => ?_⟩
  · obtain ⟨p, -, ⟨-, base, faces, hle, hlt, hid, hfaces, hshown⟩, hlookup⟩ :=
      exists_lookup_of_mem_mergedAppearances hall ha
    refine ⟨base, faces, hle, Nat.le_trans hlt hu.size_le, ?_, hfaces, ?_⟩
    · rw [hlookup, Option.getD_some, hid]
    · refine hu.shown hshown fun g hg => ?_
      obtain rfl := List.mem_singleton.1 hg
      exact Nat.lt_of_lt_of_le hold hle
  · obtain ⟨p, hp, hcp, hlookup⟩ := exists_lookup_of_mem_mergedAppearances hall ha
    obtain ⟨q, hq, hcq, hlookup'⟩ := exists_lookup_of_mem_mergedAppearances hall ha'
    rw [hlookup, hlookup'] at he
    -- different pairs have different shapes, and a pair has but one appearance
    have hpq := List.inj_on_of_nodup_map hnodup hp hq he
    exact (hcp.1.symm.trans (congrArg Prod.fst hpq)).trans hcq.1

/-- What merging a group does if it does not fail. -/
theorem mergeGroup_cases {k : Nat} (h : (u.mergeGroup w group).result = .ok k) :
    k = (u.faceShapes (u.children group)).length ∧
      (u.faceShapes (u.children group) = [] ∧ (u.mergeGroup w group).scene = u ∨
        ∃ merged, (u.mergeClasses w (u.shapeClasses (u.children group))).result = .ok merged ∧
          (u.mergeGroup w group).scene =
            (u.mergeClasses w (u.shapeClasses (u.children group))).scene.setChildren group
              (replaceShapes u.appearanceOf (u.faceShapes (u.children group)) merged []
                (u.children group))) := by
  unfold mergeGroup at h ⊢
  dsimp only at h ⊢
  split
  · next hempty =>
    have hnil : u.faceShapes (u.children group) = [] := List.isEmpty_iff.1 hempty
    rw [if_pos hempty] at h
    obtain rfl : 0 = k := Except.ok.inj h
    exact ⟨by rw [hnil]; rfl, .inl ⟨hnil, rfl⟩⟩
  · next hempty =>
    rw [if_neg hempty] at h
    cases hc : (u.mergeClasses w (u.shapeClasses (u.children group))).result with
    | error e => simp [hc] at h
    | ok merged =>
      simp only [hc] at h ⊢
      exact ⟨(Except.ok.inj h).symm, .inr ⟨merged, rfl, rfl⟩⟩

theorem mergeGroup_spec (hw : s.Whole start) (hdone : ∀ g ∈ done, s.isGrouping g = true)
    (hu : Untouched s done u) (hg : s.MergesAt start group) (hnew : group ∉ done) {k : Nat}
    (h : (u.mergeGroup w group).result = .ok k) :
    k = (s.faceShapes (s.children group)).length ∧
      Untouched u [group] (u.mergeGroup w group).scene ∧
      ∃ new, s.GroupMerged w u.size (u.mergeGroup w group).scene group new := by
  obtain ⟨n, hn, hk⟩ := exists_node_of_isGrouping hg.2.1
  have hold := hu.node?_eq hnew hn
  have hchildren : u.children group = s.children group := hu.children_eq hnew hg.node?_isSome
  obtain ⟨hshapes, hclasses⟩ := hu.faceShapes_eq hdone hw hg
  obtain ⟨hcount, hcases⟩ := mergeGroup_cases h
  rw [hchildren, hshapes, hclasses] at hcases
  refine ⟨by rw [hcount, hchildren, hshapes], ?_⟩
  rcases hcases with ⟨hnil, hscene⟩ | ⟨merged, hmerged, hscene⟩
  · rw [hscene]
    exact ⟨.refl u _, fun _ => 0, groupMerged_of_nil hnil hchildren _⟩
  · obtain ⟨hlater, hall, hnodup⟩ :=
      mergeClasses_spec hw hdone (fun c hc => hg.of_mem_shapes hc) hu hmerged
    rw [hscene]
    generalize (u.mergeClasses w (s.shapeClasses (s.children group))).scene = v at hlater hall ⊢
    have hset := v.untouched_setChildren group
      (replaceShapes u.appearanceOf (s.faceShapes (s.children group)) merged [] (s.children group))
    refine ⟨hlater.trans hset, fun a => (merged.lookup a).getD 0,
      groupMerged_of_classes hall hnodup hset (lt_size_of_node? hold) ?_⟩
    rw [children_setChildren (hlater.node?_eq List.not_mem_nil hold) hk]
    refine replaceShapes_eq (fun x hx => hu.appearanceOf_eq (hw.node?_isSome hg hx)) fun x hx => ?_
    obtain ⟨p, -, -, hlookup⟩ :=
      exists_lookup_of_mem_mergedAppearances hall (List.mem_map_of_mem hx)
    rw [hlookup, Option.getD_some]

/-! ### Merging all groups -/

/-- A merged group stays so while other groups are merged. -/
theorem GroupMerged.untouched {bound : Nat} {new : Option NodeId → NodeId}
    (h : s.GroupMerged w bound t group new) (hu : Untouched t changed u) (hnew : group ∉ changed)
    (hs : (t.node? group).isSome) (hchanged : ∀ g ∈ changed, g < bound) :
    s.GroupMerged w bound u group new := by
  refine ⟨(hu.children_eq hnew hs).trans h.children, fun a ha => ?_, h.injective⟩
  obtain ⟨base, faces, hle, hlt, hid, hfaces, hshown⟩ := h.shown a ha
  exact ⟨base, faces, hle, Nat.le_trans hlt hu.size_le, hid, hfaces,
    hu.shown hshown fun g hg => Nat.lt_of_lt_of_le (hchanged g hg) hle⟩

theorem GroupMerged.mono {bound bound' : Nat} {new : Option NodeId → NodeId}
    (h : s.GroupMerged w bound t group new) (hle : bound' ≤ bound) :
    s.GroupMerged w bound' t group new := by
  refine ⟨h.children, fun a ha => ?_, h.injective⟩
  obtain ⟨base, faces, hbase, hmore⟩ := h.shown a ha
  exact ⟨base, faces, Nat.le_trans hle hbase, hmore⟩

theorem GroupMerged.lt_size {bound : Nat} {new : Option NodeId → NodeId}
    (h : s.GroupMerged w bound t group new) {a : Option NodeId}
    (ha : a ∈ s.mergedAppearances group) : new a < t.size := by
  obtain ⟨base, -, -, hlt, hid, -⟩ := h.shown a ha
  rw [hid]
  exact hlt

theorem GroupMerged.bound_le {bound : Nat} {new : Option NodeId → NodeId}
    (h : s.GroupMerged w bound t group new) {a : Option NodeId}
    (ha : a ∈ s.mergedAppearances group) : bound ≤ new a := by
  obtain ⟨base, -, hle, -, hid, -⟩ := h.shown a ha
  rw [hid]
  exact Nat.le_add_right_of_le hle

/-- Groups have their merged children, and no two of them a new shape in common. -/
structure GroupsMerged (s : Scene) (w : Bool) (bound : Nat) (t : Scene) (groups : List NodeId)
    (new : NodeId → Option NodeId → NodeId) : Prop where
  merged : ∀ g ∈ groups, s.GroupMerged w bound t g (new g)
  distinct : ∀ g ∈ groups, ∀ g' ∈ groups, ∀ a ∈ s.mergedAppearances g,
    ∀ a' ∈ s.mergedAppearances g', new g a = new g' a' → g = g'

/-- A group merged before others has its new shapes at places below theirs. -/
theorem GroupsMerged.cons {groups : List NodeId} {bound mid : Nat} {newg : Option NodeId → NodeId}
    {new : NodeId → Option NodeId → NodeId} (hg : s.GroupMerged w bound t group newg)
    (hlow : ∀ a ∈ s.mergedAppearances group, newg a < mid)
    (h : s.GroupsMerged w mid t groups new) (hle : bound ≤ mid) (hnot : group ∉ groups) :
    ∃ both, s.GroupsMerged w bound t (group :: groups) both := by
  obtain ⟨both, hself, hothers⟩ : ∃ both : NodeId → Option NodeId → NodeId,
      both group = newg ∧ ∀ x ∈ groups, both x = new x := by
    refine ⟨fun x => if x = group then newg else new x, if_pos rfl, fun x hx => if_neg ?_⟩
    rintro rfl
    exact hnot hx
  have happart : ∀ x ∈ groups, ∀ a ∈ s.mergedAppearances group, ∀ a' ∈ s.mergedAppearances x,
      newg a ≠ new x a' := fun x hx a ha a' ha' =>
    Nat.ne_of_lt (Nat.lt_of_lt_of_le (hlow a ha) ((h.merged x hx).bound_le ha'))
  refine ⟨both, List.forall_mem_cons.2 ⟨?_, fun x hx => ?_⟩, ?_⟩
  · rw [hself]
    exact hg
  · rw [hothers x hx]
    exact (h.merged x hx).mono hle
  · intro x hx y hy a ha a' ha' he
    rcases List.mem_cons.1 hx with hxg | hxt <;> rcases List.mem_cons.1 hy with hyg | hyt
    · rw [hxg, hyg]
    · subst hxg
      rw [hself, hothers y hyt] at he
      exact absurd he (happart y hyt a ha a' ha')
    · subst hyg
      rw [hself, hothers x hxt] at he
      exact absurd he.symm (happart x hxt a' ha' a ha)
    · rw [hothers x hxt, hothers y hyt] at he
      exact h.distinct x hxt y hyt a ha a' ha' he

theorem mergeGroups_spec (hw : s.Whole start) (hdone : ∀ g ∈ done, s.isGrouping g = true)
    (hu : Untouched s done u) {groups : List NodeId} (hgroups : ∀ g ∈ groups, s.MergesAt start g)
    (hnd : (done ++ groups).Nodup) {k : Nat} (h : (u.mergeGroups w groups).result = .ok k) :
    k = (groups.map fun g => (s.faceShapes (s.children g)).length).sum ∧
      Untouched u groups (u.mergeGroups w groups).scene ∧
      ∃ new, s.GroupsMerged w u.size (u.mergeGroups w groups).scene groups new := by
  induction groups generalizing u done k with
  | nil =>
    obtain rfl : 0 = k := Except.ok.inj h
    exact ⟨rfl, .refl u [], fun _ _ => 0, fun g hg => absurd hg List.not_mem_nil,
      fun g hg => absurd hg List.not_mem_nil⟩
  | cons g groups ih =>
    obtain ⟨hg, hgroups⟩ := List.forall_mem_cons.1 hgroups
    have hgnew : g ∉ done := fun hmem =>
      List.disjoint_of_nodup_append hnd hmem (List.mem_cons_self ..)
    have hgnot : g ∉ groups := (List.nodup_cons.1 hnd.of_append_right).1
    rw [mergeGroups] at h ⊢
    obtain ⟨n, m, hfirst, hrest, rfl, hlast⟩ := exists_of_andThen_pure_ok h
    rw [hlast]
    obtain ⟨hcount, hone, newg, hmerged⟩ := mergeGroup_spec hw hdone hu hg hgnew hfirst
    generalize (u.mergeGroup w g).scene = v at hrest hone hmerged ⊢
    have hdone' : ∀ x ∈ done ++ [g], s.isGrouping x = true := by
      intro x hx
      rcases List.mem_append.1 hx with hx | hx
      · exact hdone x hx
      · obtain rfl := List.mem_singleton.1 hx
        exact hg.2.1
    obtain ⟨hcount', hlater, new, hall⟩ :=
      ih hdone' (hu.trans hone) hgroups (by rwa [List.append_assoc]) hrest
    generalize (v.mergeGroups w groups).scene = t at hlater hall ⊢
    refine ⟨by rw [hcount, hcount', List.map_cons, List.sum_cons], hone.trans hlater, ?_⟩
    have hlt : ∀ x, s.MergesAt start x → x < u.size := fun x hx =>
      Nat.lt_of_lt_of_le (node?_isSome_iff.1 hx.node?_isSome) hu.size_le
    have hgv : (v.node? g).isSome := node?_isSome_iff.2 (Nat.lt_of_lt_of_le (hlt g hg) hone.size_le)
    exact GroupsMerged.cons (hmerged.untouched hlater hgnot hgv fun x hx => hlt x (hgroups x hx))
      (fun a ha => hmerged.lt_size ha) hall hone.size_le hgnot

/-- The shape shown at new places is the merged one. -/
theorem Shown.showsMerged (hw : s.NumberPoints start) {shapes : List NodeId} {faces : List Face}
    (hshapes : ∀ x ∈ shapes, s.Reaches start x) (hfaces : s.allFaces shapes = .ok faces)
    (h : t.Shown base appearance (IndexedFaces.ofFaces (Face.distinct w faces))) :
    s.ShowsMerged t w shapes appearance (base + 2) := by
  have hcorners : ∀ f ∈ Face.distinct w faces, f ≠ [] ∧ ∀ p ∈ f, p.IsNumber := fun f hf =>
    corners_of_allFaces hw hshapes hfaces f ((firsts_sublist _ _ _ _).subset hf)
  obtain ⟨drawn, hdrawn, hsame⟩ := facesOfIndices_ofFaces (fun f hf => (hcorners f hf).1)
    fun f hf => (hcorners f hf).2
  exact ⟨_, base + 1, _, faces, drawn, h.shape, rfl, rfl, rfl, h.faceSet, rfl, rfl, hfaces,
    h.shapeFaces hdrawn, hsame⟩

/-- A scene comes of another by merging the groups below a start. -/
structure Merged (s : Scene) (w : Bool) (start : NodeId) (t : Scene)
    (new : NodeId → Option NodeId → NodeId) : Prop where
  untouched : Untouched s (s.mergeable start) t
  groups : s.GroupsMerged w s.size t (s.mergeable start) new

theorem exists_merged_mergeShapes (hw : s.Whole start) {k : Nat}
    (h : (s.mergeShapes w start).result = .ok k) :
    k = ((s.mergeable start).map fun g => (s.faceShapes (s.children g)).length).sum ∧
      ∃ new, s.Merged w start (s.mergeShapes w start).scene new := by
  unfold mergeShapes at h ⊢
  dsimp only at h ⊢
  obtain ⟨n, hgroups, hpure, hscene⟩ := exists_of_andThen_ok h
  obtain rfl : n = k := Except.ok.inj hpure
  have hlast : ((s.mergeGroups w (s.mergeable start)).andThen fun t n =>
      ⟨t, if n = 0 then [] else [.unified n (s.mergeable start).length], .ok n⟩).scene =
      (s.mergeGroups w (s.mergeable start)).scene := hscene
  rw [hlast]
  obtain ⟨hcount, huntouched, new, hmerged⟩ := mergeGroups_spec hw
    (fun g hg => absurd hg List.not_mem_nil) (.refl s []) (fun g hg => mem_mergeable_iff.1 hg)
    (s.nodup_mergeable start) hgroups
  exact ⟨hcount, new, huntouched, hmerged⟩

namespace Merged

variable {new : NodeId → Option NodeId → NodeId} {g : NodeId} {a : Option NodeId}

theorem children (h : s.Merged w start t new) (hg : s.MergesAt start g) :
    t.children g = s.mergedChildren (new g) (s.children g) :=
  (h.groups.merged g (mem_mergeable_iff.2 hg)).children

theorem exists_shown (h : s.Merged w start t new) (hg : s.MergesAt start g)
    (ha : a ∈ s.mergedAppearances g) : ∃ base faces, s.size ≤ base ∧ base + 3 ≤ t.size ∧
      new g a = base + 2 ∧ s.allFaces (s.shapesWith g a) = .ok faces ∧
      t.Shown base a (IndexedFaces.ofFaces (Face.distinct w faces)) :=
  (h.groups.merged g (mem_mergeable_iff.2 hg)).shown a ha

theorem injective (h : s.Merged w start t new) {g' : NodeId} {a' : Option NodeId}
    (hg : s.MergesAt start g) (hg' : s.MergesAt start g') (ha : a ∈ s.mergedAppearances g)
    (ha' : a' ∈ s.mergedAppearances g') (he : new g a = new g' a') : g = g' ∧ a = a' := by
  have hsame := h.groups.distinct g (mem_mergeable_iff.2 hg) g' (mem_mergeable_iff.2 hg') a ha a'
    ha' he
  subst hsame
  exact ⟨rfl, (h.groups.merged g (mem_mergeable_iff.2 hg)).injective a ha a' ha' he⟩

end Merged

/-- The shapes of an appearance are reached where those of a group are. -/
theorem MergesAt.reaches_shapesWith (hg : s.MergesAt start group) {a : Option NodeId} :
    ∀ x ∈ s.shapesWith group a, s.Reaches start x :=
  fun _ hx => hg.reaches (mem_faceShapes_iff.1 (List.mem_filter.1 hx).1).1

/-- **Merging shapes keeps the geometry and leaves everything else alone.** -/
theorem exists_isMerge_mergeShapes (hwhole : s.Whole start) (hnumber : s.NumberPoints start)
    {ignoreWinding : Bool} {count : Nat}
    (h : (s.mergeShapes ignoreWinding start).result = .ok count) :
    ∃ new, s.IsMerge ignoreWinding start (s.mergeShapes ignoreWinding start).scene count new := by
  obtain ⟨hcount, new, hmerged⟩ := exists_merged_mergeShapes hwhole h
  refine ⟨new, hmerged.untouched.root, fun g hg => hmerged.children hg, fun g hg a ha => ?_,
    fun g g' hg hg' a ha a' ha' he => hmerged.injective hg hg' ha ha' he, fun x n hn => ?_, hcount⟩
  · obtain ⟨base, faces, hle, -, hid, hfaces, hshown⟩ := hmerged.exists_shown hg ha
    rw [hid]
    refine ⟨?_, hshown.showsMerged hnumber hg.reaches_shapesWith hfaces⟩
    rw [← Option.not_isSome_iff_eq_none, node?_isSome_iff]
    exact Nat.not_lt.2 (Nat.le_add_right_of_le hle)
  · obtain ⟨m, hm, hkind, hname, hfields⟩ := hmerged.untouched.node x n hn
    refine ⟨m, hm, hkind, hname, fun field hfield =>
      hfields field (hfield.imp_left fun hx hmem => ?_)⟩
    exact hx (mem_mergeable_iff.1 hmem)

/-- A scene with two shapes, the first of them twice, that show a triangle and its other side. -/
def sheet : Scene :=
  ⟨#[(Node.create .scene none).setChildren [1, 2, 1], shapeNode none 3, shapeNode none 4,
    mergedFaceSet 5 [0, 1, 2, -1], mergedFaceSet 5 [2, 1, 0],
    coordinateNode [Vec3.zero, .diagonal .one, ⟨.one, .zero, .zero⟩]], 0⟩

theorem whole_sheet : sheet.Whole 0 := whole_of_forall (by decide +kernel) 0

theorem numberPoints_sheet : sheet.NumberPoints 0 := numberPoints_of_forall (by decide +kernel)

theorem mergeable_sheet : sheet.mergeable 0 = [0] :=
  mergeable_eq_singleton rfl rfl (by decide +kernel)

theorem mergeShapes_sheet : (sheet.mergeShapes true 0).result = .ok 2 := by
  unfold mergeShapes
  rw [mergeable_sheet]
  decide +kernel

theorem exists_isMerge_sheet : (sheet.mergeShapes true 0).result = .ok 2 ∧
    ∃ new, sheet.IsMerge true 0 (sheet.mergeShapes true 0).scene 2 new :=
  ⟨mergeShapes_sheet, exists_isMerge_mergeShapes whole_sheet numberPoints_sheet mergeShapes_sheet⟩

end SceneTidy.Scene

import Mathlib.Data.Set.Function
import SceneTidy.Proofs.Geometry.FaceKeys
import SceneTidy.Proofs.Simplify.Failing

/-!
# The scene after merging

What is reached after merging was reached before, or belongs to the merged shape of a group that is
still reached (`Merged.standing`).  So references still lead to nodes of the store (`Merged.whole`),
and each group has one face-set shape for each appearance (`Merged.shapesWith_eq`), whose faces can
be read, and are put into the same indices again (`Shown.exists_readBack`).  A map of what is
reached after merging may be given on the old nodes and on the merged shapes
(`Merged.exists_glues`).
-/

namespace SceneTidy.Scene

variable {s t : Scene} {w : Bool} {start g x y : NodeId} {a : Option NodeId}
  {new : NodeId → Option NodeId → NodeId}

/-! ### The parts of a merged shape -/

/-- The kinds of a coordinate node, a face set and a shape, which stand in this order. -/
def partKind : Nat → NodeKind
  | 0 => .coordinate
  | 1 => .indexedFaceSet
  | _ => .shape

theorem isGrouping_partKind (j : Nat) : (partKind j).isGrouping = false := by
  match j with
  | 0 | 1 | _ + 2 => rfl

namespace Shown

variable {base : NodeId} {indexed : IndexedFaces} (h : t.Shown base a indexed)

include h

theorem kind?_eq {j : Nat} (hj : j < 3) : t.kind? (base + j) = some (partKind j) := by
  match j, hj with
  | 0, _ => exact kind?_of_node? h.coord
  | 1, _ => exact kind?_of_node? h.faceSet
  | 2, _ => exact kind?_of_node? h.shape

theorem isFaceShape : t.isFaceShape (base + 2) = true := by
  have hgeometry : (shapeNode a (base + 1)).target "geometry" = some (base + 1) := rfl
  rw [isFaceShape_of_node? h.shape, hgeometry, Option.map_some, isKind, h.kind?_eq (by decide)]
  rfl

theorem appearanceOf : t.appearanceOf (base + 2) = a := by
  rw [Scene.appearanceOf, h.shape]
  rfl

theorem refers_faceSet : t.Refers (base + 2) (base + 1) := by
  have hgeometry : (shapeNode a (base + 1)).target "geometry" = some (base + 1) := rfl
  exact refers_of_target h.shape hgeometry

theorem refers_coord : t.Refers (base + 1) base := by
  have hcoord : (mergedFaceSet base indexed.indices).target "coord" = some base := rfl
  exact refers_of_target h.faceSet hcoord

theorem refers_appearance (ha : a = some y) : t.Refers (base + 2) y := by
  have happearance : (shapeNode a (base + 1)).target "appearance" = a := rfl
  exact refers_of_target h.shape (happearance.trans ha)

/-- A merged shape refers to its appearance and to its face set, and that one to its points. -/
theorem eq_of_refers {j : Nat} (hj : j < 3) (hxy : t.Refers (base + j) y) :
    (∃ i < j, y = base + i) ∨ j = 2 ∧ a = some y := by
  match j, hj with
  | 0, _ =>
    have hy : y ∈ (coordinateNode indexed.points).refs := refs_of_node? h.coord ▸ hxy
    exact absurd hy List.not_mem_nil
  | 1, _ =>
    have hy : y ∈ (mergedFaceSet base indexed.indices).refs := refs_of_node? h.faceSet ▸ hxy
    exact .inl ⟨0, Nat.one_pos, List.mem_singleton.1 hy⟩
  | 2, _ =>
    have hy : y ∈ (shapeNode a (base + 1)).refs := refs_of_node? h.shape ▸ hxy
    have hrefs : (shapeNode a (base + 1)).refs = a.toList ++ [base + 1] := by cases a <;> rfl
    rw [hrefs] at hy
    rcases List.mem_append.1 hy with hy | hy
    · exact .inr ⟨rfl, Option.mem_toList.1 hy⟩
    · exact .inl ⟨1, by decide, List.mem_singleton.1 hy⟩

end Shown

/-- The merged shape of a group and an appearance stands at a place from its first part on, and the
group is reached on both sides. -/
structure PartsAt (s t : Scene) (start : NodeId) (new : NodeId → Option NodeId → NodeId)
    (g : NodeId) (a : Option NodeId) (base : NodeId) : Prop where
  before : s.MergesAt start g
  after : t.MergesAt start g
  appearance : a ∈ t.mergedAppearances g
  shape : new g a = base + 2

/-- A node was reached before merging, or is a part of a merged shape. -/
def Standing (s t : Scene) (start : NodeId) (new : NodeId → Option NodeId → NodeId)
    (x : NodeId) : Prop :=
  (s.Reaches start x ∧ x < s.size) ∨
    ∃ g a base, s.PartsAt t start new g a base ∧ ∃ j < 3, x = base + j

/-- A map from the nodes reached after merging to other nodes, which is given for those that were
there before, and which takes the parts of each merged shape to places that follow one another. -/
structure Glues (s t : Scene) (start : NodeId) (new : NodeId → Option NodeId → NodeId)
    (old : NodeId → NodeId) (part : NodeId → Option NodeId → NodeId) (f : NodeId → NodeId) :
    Prop where
  injOn : Set.InjOn f {x | t.Reaches start x}
  old : ∀ x, t.Reaches start x → x < s.size → f x = old x
  part : ∀ g a base, s.PartsAt t start new g a base → ∀ j < 3, f (base + j) = part g a + j

/-! ### Children after merging -/

theorem exists_of_mem_mergedAt {new : Option NodeId → NodeId} {before : List NodeId}
    (h : x ∈ s.mergedAt new before y) : (x = y ∧ s.isFaceShape y = false) ∨
      (s.isFaceShape y = true ∧ x = new (s.appearanceOf y) ∧
        ∀ b ∈ before, s.isFaceShape b = true → s.appearanceOf b ≠ s.appearanceOf y) := by
  unfold mergedAt at h
  split at h
  · next hface =>
    split at h
    · exact absurd h List.not_mem_nil
    · next hfirst =>
      exact .inr ⟨hface, List.mem_singleton.1 h, fun b hb hbf he => hfirst ⟨b, hb, hbf, he⟩⟩
  · next hface => exact .inl ⟨List.mem_singleton.1 h, Bool.eq_false_iff.2 hface⟩

theorem mem_mergedAppearances (hy : y ∈ s.children g) (hface : s.isFaceShape y = true) :
    s.appearanceOf y ∈ s.mergedAppearances g :=
  List.mem_map_of_mem (mem_faceShapes_iff.2 ⟨hy, hface⟩)

theorem refers_appearanceOf (h : s.appearanceOf x = some y) : s.Refers x y := by
  obtain ⟨n, hn, htarget⟩ := Option.bind_eq_some_iff.1 h
  exact refers_of_target hn htarget

/-- The appearances of a group are reached where its children are. -/
theorem Whole.reaches_appearance (hw : s.Whole start) (hg : s.MergesAt start g)
    (hy : some y ∈ s.mergedAppearances g) : s.Reaches start y ∧ y < s.size := by
  obtain ⟨x, hx, hxy⟩ := List.mem_map.1 hy
  have hr := hg.reaches (mem_faceShapes_iff.1 hx).1
  have hrefers := refers_appearanceOf hxy
  exact ⟨hr.tail hrefers, node?_isSome_iff.1 (hw x y hr hrefers)⟩

/-- Face-set shapes in a list have different appearances. -/
def OneEach (s : Scene) (ids : List NodeId) : Prop :=
  ids.Pairwise fun x y =>
    s.isFaceShape x = true → s.isFaceShape y = true → s.appearanceOf x ≠ s.appearanceOf y

/-- If face-set shapes have different appearances, each gives its place to a new one. -/
theorem OneEach.mergedChildren_eq {ids : List NodeId} (h : s.OneEach ids)
    (new : Option NodeId → NodeId) : s.mergedChildren new ids =
      ids.map fun x => if s.isFaceShape x then new (s.appearanceOf x) else x := by
  have hfirst : ∀ p ∈ ids.zipIdx, s.mergedAt new (ids.take p.2) p.1 =
      [if s.isFaceShape p.1 then new (s.appearanceOf p.1) else p.1] := by
    rintro ⟨x, i⟩ hp
    obtain ⟨hi, hx⟩ := List.mem_zipIdx' hp
    rw [mergedAt]
    split
    · next hface =>
      refine if_neg ?_
      rintro ⟨b, hb, hbf, he⟩
      obtain ⟨j, hj, rfl⟩ := List.mem_take_iff_getElem.1 hb
      have hji : j < i := Nat.lt_of_lt_of_le hj (Nat.min_le_left ..)
      have hne := List.pairwise_iff_getElem.1 h j i (Nat.lt_trans hji hi) hi hji
      rw [← hx] at hne
      exact hne hbf hface he
    · rfl
  calc s.mergedChildren new ids
      = ids.zipIdx.flatMap fun p => [if s.isFaceShape p.1 then new (s.appearanceOf p.1) else p.1] :=
        List.flatMap_congr hfirst
    _ = ids.zipIdx.map fun p => if s.isFaceShape p.1 then new (s.appearanceOf p.1) else p.1 :=
        List.flatMap_pure_eq_map ..
    _ = ids.map fun x => if s.isFaceShape x then new (s.appearanceOf x) else x := by
        conv_rhs => rw [← List.zipIdx_map_fst 0 ids, List.map_map]
        rfl

/-- The faces of a merged shape can be read, and are put into the same indices again. -/
theorem Shown.exists_readBack (hnum : s.NumberPoints start) (hg : s.MergesAt start g)
    {base : NodeId} {faces : List Face} (hfaces : s.allFaces (s.shapesWith g a) = .ok faces)
    (hshown : t.Shown base a (IndexedFaces.ofFaces (Face.distinct w faces))) :
    ∃ drawn, t.shapeFaces (base + 2) = .ok drawn ∧
      IndexedFaces.ofFaces (Face.distinct w drawn) =
        IndexedFaces.ofFaces (Face.distinct w faces) := by
  have hcorners := corners_of_allFaces hnum hg.reaches_shapesWith hfaces
  obtain ⟨drawn, hdrawn, hagain⟩ := SceneTidy.exists_readBack w (fun f hf => (hcorners f hf).1)
    fun f hf => (hcorners f hf).2
  exact ⟨drawn, hshown.shapeFaces hdrawn, hagain⟩

/-! ### What is reached after merging -/

namespace Merged

variable (h : s.Merged w start t new) (hw : s.Whole start)

include h

theorem size_le : s.size ≤ t.size := h.untouched.size_le

theorem kind?_eq (hx : x < s.size) : t.kind? x = s.kind? x :=
  h.untouched.kind?_eq (node?_isSome_iff.2 hx)

theorem mergesAt_iff (hx : x < s.size) (hr : t.Reaches start x) (hr' : s.Reaches start x) :
    t.MergesAt start x ↔ s.MergesAt start x := by
  rw [MergesAt, MergesAt, and_iff_right hr, and_iff_right hr', isGrouping, isKind, h.kind?_eq hx]
  rfl

theorem isFaceShape_new (hg : s.MergesAt start g) (ha : a ∈ s.mergedAppearances g) :
    t.isFaceShape (new g a) = true := by
  obtain ⟨base, faces, -, -, hid, -, hshown⟩ := h.exists_shown hg ha
  rw [hid, hshown.isFaceShape]

theorem appearanceOf_new (hg : s.MergesAt start g) (ha : a ∈ s.mergedAppearances g) :
    t.appearanceOf (new g a) = a := by
  obtain ⟨base, faces, -, -, hid, -, hshown⟩ := h.exists_shown hg ha
  rw [hid, hshown.appearanceOf]

/-- The merged shape of an appearance stands at new places. -/
theorem shown_of_shape {base : NodeId} (hg : s.MergesAt start g) (ha : a ∈ s.mergedAppearances g)
    (hb : new g a = base + 2) : s.size ≤ base ∧ base + 3 ≤ t.size ∧
      ∃ faces, s.allFaces (s.shapesWith g a) = .ok faces ∧
        t.Shown base a (IndexedFaces.ofFaces (Face.distinct w faces)) := by
  obtain ⟨base', faces, hle, hlt, hid, hfaces, hshown⟩ := h.exists_shown hg ha
  obtain rfl : base' = base := Nat.add_right_cancel (hid.symm.trans hb)
  exact ⟨hle, hlt, faces, hfaces, hshown⟩

/-- A node is a part of one merged shape only. -/
theorem part_unique {g' base base' : NodeId} {a' : Option NodeId} {j j' : Nat}
    (hg : s.MergesAt start g) (hg' : s.MergesAt start g') (ha : a ∈ s.mergedAppearances g)
    (ha' : a' ∈ s.mergedAppearances g') (hb : new g a = base + 2) (hb' : new g' a' = base' + 2)
    (hj : j < 3) (hj' : j' < 3) (he : base + j = base' + j') : g = g' ∧ a = a' ∧ j = j' := by
  have hkinds : ∀ i < 3, ∀ k < 3, partKind i = partKind k → i = k := by decide
  obtain ⟨-, -, faces, -, hshown⟩ := h.shown_of_shape hg ha hb
  obtain ⟨-, -, faces', -, hshown'⟩ := h.shown_of_shape hg' ha' hb'
  have hkind := hshown.kind?_eq hj
  rw [he, hshown'.kind?_eq hj', Option.some.injEq] at hkind
  obtain rfl := hkinds j' hj' j hj hkind
  obtain rfl : base = base' := Nat.add_right_cancel he
  obtain ⟨rfl, rfl⟩ := h.injective hg hg' ha ha' (hb.trans hb'.symm)
  exact ⟨rfl, rfl, rfl⟩

/-- The fields of a node that was there, but the children of merged groups, refer to what they
referred to before. -/
theorem refers_of_mem_refs {n : Node} {field : String} {v : FieldValue} (hx : x < s.size)
    (hn : t.node? x = some n) (hfield : ¬s.MergesAt start x ∨ field ≠ n.kind.childrenField)
    (hv : n.get? field = some v) (hy : y ∈ v.refs) : s.Refers x y := by
  obtain ⟨n₀, hn₀⟩ := Option.isSome_iff_exists.1 (node?_isSome_iff.2 hx)
  obtain ⟨m, hm, hkind, -, hfields⟩ := h.untouched.node x n₀ hn₀
  obtain rfl : m = n := Option.some.inj (hm.symm.trans hn)
  rw [hkind] at hfield
  rw [hfields field (hfield.imp_left (mt mem_mergeable_iff.1))] at hv
  rw [Refers, refs_of_node? hn₀]
  exact Node.mem_refs_iff.2 ⟨field, v, hv, hy⟩

/-- The merged shapes among the children of a group that is reached have their parts. -/
theorem exists_partsAt (hg : s.MergesAt start g) (hr : t.Reaches start g)
    (ha : a ∈ s.mergedAppearances g) (hmem : new g a ∈ t.children g) :
    ∃ base, s.PartsAt t start new g a base := by
  obtain ⟨base, -, -, -, hid, -, -⟩ := h.exists_shown hg ha
  have hlt : g < s.size := node?_isSome_iff.1 hg.node?_isSome
  have happearance := mem_mergedAppearances hmem (h.isFaceShape_new hg ha)
  rw [h.appearanceOf_new hg ha] at happearance
  exact ⟨base, hg, (h.mergesAt_iff hlt hr hg.1).2 hg, happearance, hid⟩

include hw

theorem isFaceShape_eq (hg : s.MergesAt start g) (hx : x ∈ s.children g) :
    t.isFaceShape x = s.isFaceShape x :=
  h.untouched.isFaceShape_eq (fun _ hg => (mem_mergeable_iff.1 hg).2.1) hw (hg.reaches hx)
    (hw.node?_isSome hg hx)

/-- A child after merging is one that was there and is no face-set shape, or a new shape. -/
theorem exists_of_mem_children (hg : s.MergesAt start g) (hx : x ∈ t.children g) :
    (x ∈ s.children g ∧ t.isFaceShape x = false) ∨ ∃ a ∈ s.mergedAppearances g, x = new g a := by
  rw [h.children hg] at hx
  obtain ⟨⟨y, i⟩, hp, hx⟩ := List.mem_flatMap.1 hx
  have hy : y ∈ s.children g := by
    obtain ⟨hi, hy⟩ := List.mem_zipIdx' hp
    exact hy ▸ List.getElem_mem hi
  rcases exists_of_mem_mergedAt hx with ⟨rfl, hface⟩ | ⟨hface, rfl, -⟩
  · exact .inl ⟨hy, (h.isFaceShape_eq hw hg hy).trans hface⟩
  · exact .inr ⟨_, mem_mergedAppearances hy hface, rfl⟩

/-- A face-set shape among the children after merging is the new one of its appearance. -/
theorem eq_new_of_isFaceShape (hg : s.MergesAt start g) (hx : x ∈ t.children g)
    (hface : t.isFaceShape x = true) :
    t.appearanceOf x ∈ s.mergedAppearances g ∧ x = new g (t.appearanceOf x) := by
  rcases h.exists_of_mem_children hw hg hx with ⟨-, hnot⟩ | ⟨a, ha, rfl⟩
  · exact absurd (hface.symm.trans hnot) nofun
  · rw [h.appearanceOf_new hg ha]
    exact ⟨ha, rfl⟩

theorem mem_mergedAppearances_of (hg : s.MergesAt start g) (ha : a ∈ t.mergedAppearances g) :
    a ∈ s.mergedAppearances g ∧ new g a ∈ t.children g := by
  obtain ⟨x, hx, rfl⟩ := List.mem_map.1 ha
  obtain ⟨hx, hface⟩ := mem_faceShapes_iff.1 hx
  obtain ⟨ha, hnew⟩ := h.eq_new_of_isFaceShape hw hg hx hface
  exact ⟨ha, hnew ▸ hx⟩

section Parts

variable {base : NodeId} {j : Nat} (hp : s.PartsAt t start new g a base)

include hp

theorem shown_part : a ∈ s.mergedAppearances g ∧ s.size ≤ base ∧ base + 3 ≤ t.size ∧
    ∃ faces, s.allFaces (s.shapesWith g a) = .ok faces ∧
      t.Shown base a (IndexedFaces.ofFaces (Face.distinct w faces)) := by
  obtain ⟨ha, -⟩ := h.mem_mergedAppearances_of hw hp.before hp.appearance
  exact ⟨ha, h.shown_of_shape hp.before ha hp.shape⟩

theorem kind?_part (hj : j < 3) : t.kind? (base + j) = some (partKind j) := by
  obtain ⟨-, -, -, faces, -, hshown⟩ := h.shown_part hw hp
  exact hshown.kind?_eq hj

theorem not_part_lt : ¬base + j < s.size := by
  obtain ⟨-, hle, -⟩ := h.shown_part hw hp
  exact Nat.not_lt.2 (Nat.le_add_right_of_le hle)

theorem reaches_part (hj : j < 3) : t.Reaches start (base + j) := by
  obtain ⟨-, -, -, faces, -, hshown⟩ := h.shown_part hw hp
  have hmem := (h.mem_mergedAppearances_of hw hp.before hp.appearance).2
  have hshape : t.Reaches start (base + 2) := hp.shape ▸ hp.after.reaches hmem
  have hset := hshape.tail hshown.refers_faceSet
  match j, hj with
  | 0, _ => exact hset.tail hshown.refers_coord
  | 1, _ => exact hset
  | 2, _ => exact hshape

end Parts

/-- The merged shape of an appearance is the only face-set shape that has it. -/
theorem shapesWith_eq (hg : s.MergesAt start g) (ha : a ∈ t.mergedAppearances g) :
    t.shapesWith g a = [new g a] := by
  obtain ⟨ha, hmem⟩ := h.mem_mergedAppearances_of hw hg ha
  have hnodup : (t.faceShapes (t.children g)).Nodup :=
    (pairwise_firsts (· == ·) id [] ((t.children g).filter t.isFaceShape)).imp
      fun hxy he => by simp [he] at hxy
  refine List.perm_singleton.1 ((List.perm_ext_iff_of_nodup (hnodup.filter _)
    (List.nodup_singleton _)).2 fun x => ?_)
  rw [List.mem_filter, mem_faceShapes_iff, List.mem_singleton, decide_eq_true_iff]
  constructor
  · rintro ⟨⟨hx, hface⟩, rfl⟩
    exact (h.eq_new_of_isFaceShape hw hg hx hface).2
  · rintro rfl
    exact ⟨⟨hmem, h.isFaceShape_new hg ha⟩, h.appearanceOf_new hg ha⟩

theorem oneEach (hg : s.MergesAt start g) : t.OneEach (t.children g) := by
  have hpair : (s.children g).zipIdx.Pairwise fun p q => p.1 ∈ (s.children g).take q.2 := by
    refine List.pairwise_iff_getElem.2 fun i j hi hj hij => ?_
    rw [List.length_zipIdx] at hi hj
    rw [List.getElem_zipIdx, List.getElem_zipIdx, Nat.zero_add]
    exact List.mem_take_iff_getElem.2 ⟨i, Nat.lt_min.2 ⟨hij, hi⟩, rfl⟩
  -- what comes of one child shows a face set only as the new shape of its appearance
  have hnew : ∀ p ∈ (s.children g).zipIdx, ∀ x ∈ s.mergedAt (new g) ((s.children g).take p.2) p.1,
      t.isFaceShape x = true → s.isFaceShape p.1 = true ∧ t.appearanceOf x = s.appearanceOf p.1 ∧
        ∀ b ∈ (s.children g).take p.2, s.isFaceShape b = true →
          s.appearanceOf b ≠ s.appearanceOf p.1 := by
    rintro ⟨y, i⟩ hp x hx hface
    have hy : y ∈ s.children g := by
      obtain ⟨hi, hy⟩ := List.mem_zipIdx' hp
      exact hy ▸ List.getElem_mem hi
    rcases exists_of_mem_mergedAt hx with ⟨rfl, hnot⟩ | ⟨hyf, rfl, hfirst⟩
    · exact absurd ((h.isFaceShape_eq hw hg hy).symm.trans hface ▸ hnot) nofun
    · exact ⟨hyf, h.appearanceOf_new hg (mem_mergedAppearances hy hyf), hfirst⟩
  rw [h.children hg]
  refine List.pairwise_flatMap.2 ⟨fun p _ => ?_, hpair.imp_of_mem fun {p q} hp hq hpq => ?_⟩
  · unfold mergedAt
    split
    · split
      · exact .nil
      · exact List.pairwise_singleton ..
    · exact List.pairwise_singleton ..
  · intro x hx y hy hxf hyf he
    obtain ⟨hpf, hxa, -⟩ := hnew p hp x hx hxf
    obtain ⟨-, hya, hfirst⟩ := hnew q hq y hy hyf
    exact hfirst p.1 hpq hpf (hxa.symm.trans (he.trans hya))

theorem reaches_of_mem_refs {n : Node} {field : String} {v : FieldValue} (hr : s.Reaches start x)
    (hx : x < s.size) (hn : t.node? x = some n)
    (hfield : ¬s.MergesAt start x ∨ field ≠ n.kind.childrenField) (hv : n.get? field = some v) :
    ∀ y ∈ v.refs, s.Reaches start y ∧ y < s.size := by
  intro y hy
  have hxy := h.refers_of_mem_refs hx hn hfield hv hy
  exact ⟨hr.tail hxy, node?_isSome_iff.1 (hw x y hr hxy)⟩

theorem standing_of_mem_children (hg : s.MergesAt start g) (hr : t.Reaches start g)
    (hy : y ∈ t.children g) : s.Standing t start new y := by
  rcases h.exists_of_mem_children hw hg hy with ⟨hold, -⟩ | ⟨a, ha, rfl⟩
  · exact .inl ⟨hg.reaches hold, node?_isSome_iff.1 (hw.node?_isSome hg hold)⟩
  · obtain ⟨base, hp⟩ := h.exists_partsAt hg hr ha hy
    exact .inr ⟨g, a, base, hp, 2, by decide, hp.shape⟩

/-- What is referred to from a node of the scene after merging is so itself. -/
theorem standing_tail (hst : s.Standing t start new x) (hr : t.Reaches start x)
    (hxy : t.Refers x y) : s.Standing t start new y := by
  obtain ⟨n, hn⟩ := Option.isSome_iff_exists.1 (node?_isSome_of_mem_refs hxy)
  rcases hst with ⟨hreached, hx⟩ | ⟨g, a, base, hparts, j, hj, rfl⟩
  · rw [Refers, refs_of_node? hn] at hxy
    obtain ⟨field, v, hv, hy⟩ := Node.mem_refs_iff.1 hxy
    by_cases hfield : ¬s.MergesAt start x ∨ field ≠ n.kind.childrenField
    · exact .inl (h.reaches_of_mem_refs hw hreached hx hn hfield hv y hy)
    · obtain ⟨hg, rfl⟩ := not_or.1 hfield |>.imp Classical.not_not.1 Classical.not_not.1
      obtain ⟨m, hm, hgroup⟩ := exists_node_of_isGrouping
        ((h.mergesAt_iff hx hr hreached).2 hg).2.1
      obtain rfl : m = n := Option.some.inj (hm.symm.trans hn)
      obtain rfl := Option.some.inj ((Node.get?_childrenField hgroup).symm.trans hv)
      exact h.standing_of_mem_children hw hg hr (children_of_node? hn ▸ hy)
  · obtain ⟨ha, -, -, faces, -, hshown⟩ := h.shown_part hw hparts
    rcases hshown.eq_of_refers hj hxy with ⟨i, hi, rfl⟩ | ⟨-, rfl⟩
    · exact .inr ⟨g, a, base, hparts, i, Nat.lt_trans hi hj, rfl⟩
    · exact .inl (hw.reaches_appearance hparts.before ha)

/-- **What is reached after merging** was reached before, or is a part of a merged shape. -/
theorem standing (hstart : start < s.size) (hr : t.Reaches start x) :
    s.Standing t start new x := by
  induction hr with
  | refl => exact .inl ⟨.refl, hstart⟩
  | tail hr hxy ih => exact h.standing_tail hw ih hr hxy

/-- What was there and is reached after merging was reached before. -/
theorem reaches_of_lt (hstart : start < s.size) (hr : t.Reaches start x) (hx : x < s.size) :
    s.Reaches start x := by
  rcases h.standing hw hstart hr with ⟨hs, -⟩ | ⟨g, a, base, hp, j, -, rfl⟩
  · exact hs
  · exact absurd hx (h.not_part_lt hw hp)

theorem lt_size_of_standing (hst : s.Standing t start new x) : x < t.size := by
  rcases hst with ⟨-, hx⟩ | ⟨g, a, base, hparts, j, hj, rfl⟩
  · exact Nat.lt_of_lt_of_le hx h.size_le
  · obtain ⟨-, -, hle, -⟩ := h.shown_part hw hparts
    exact Nat.lt_of_lt_of_le (Nat.add_lt_add_left hj base) hle

theorem whole (hstart : start < s.size) : t.Whole start := fun _ _ hr hab =>
  node?_isSome_iff.2 (h.lt_size_of_standing hw (h.standing hw hstart (hr.tail hab)))

/-- No group is merged after merging that was not merged before. -/
theorem mergesAt_of (hstart : start < s.size) (hg : t.MergesAt start g) : s.MergesAt start g := by
  rcases h.standing hw hstart hg.1 with ⟨hr, hlt⟩ | ⟨g', a, base, hparts, j, hj, rfl⟩
  · exact (h.mergesAt_iff hlt hg.1 hr).1 hg
  · have hgroup := hg.2.1
    rw [isGrouping, h.kind?_part hw hparts hj, Option.map_some, Option.getD_some,
      isGrouping_partKind] at hgroup
    exact absurd hgroup Bool.false_ne_true

/-- A scene whose shapes were merged can be merged again. -/
theorem exists_ok (hstart : start < s.size) (hnum : s.NumberPoints start) :
    ∃ k, (t.mergeShapes w start).result = .ok k := by
  refine exists_ok_mergeShapes (h.whole hw hstart) fun g x hg hx hface => ?_
  have hg₀ := h.mergesAt_of hw hstart hg
  obtain ⟨ha, hnew⟩ := h.eq_new_of_isFaceShape hw hg₀ hx hface
  obtain ⟨base, faces, -, -, hid, hfaces, hshown⟩ := h.exists_shown hg₀ ha
  obtain ⟨drawn, hdrawn, -⟩ := hshown.exists_readBack hnum hg₀ hfaces
  exact ⟨drawn, by rw [hnew, hid, hdrawn]⟩

/-! ### Maps from what is reached after merging -/

/-- Old nodes and merged shapes can be mapped separately, if no place is taken twice. -/
theorem exists_glues (hstart : start < s.size) {old : NodeId → NodeId}
    {part : NodeId → Option NodeId → NodeId} (bound : Nat)
    (hold : Set.InjOn old {x | t.Reaches start x ∧ x < s.size})
    (hlow : ∀ x, t.Reaches start x → x < s.size → old x < bound)
    (hhigh : ∀ g a base, s.PartsAt t start new g a base → bound ≤ part g a)
    (hpart : ∀ g a base g' a' base', s.PartsAt t start new g a base →
      s.PartsAt t start new g' a' base' → ∀ i < 3, ∀ j < 3, part g a + i = part g' a' + j →
        g = g' ∧ a = a' ∧ i = j) : ∃ f, s.Glues t start new old part f := by
  have hplace : ∀ x, ∃ y, t.Reaches start x → (x < s.size → y = old x) ∧
      ∀ g a base, s.PartsAt t start new g a base → ∀ j < 3, x = base + j → y = part g a + j := by
    intro x
    by_cases hr : t.Reaches start x
    · rcases h.standing hw hstart hr with ⟨-, hx⟩ | ⟨g, a, base, hp, j, hj, rfl⟩
      · refine ⟨old x, fun _ => ⟨fun _ => rfl, ?_⟩⟩
        rintro g a base hp j - rfl
        exact absurd hx (h.not_part_lt hw hp)
      · refine ⟨part g a + j, fun _ => ⟨fun hx => absurd hx (h.not_part_lt hw hp), ?_⟩⟩
        intro g' a' base' hp' j' hj' he
        obtain ⟨rfl, rfl, rfl⟩ := h.part_unique hp.before hp'.before (h.shown_part hw hp).1
          (h.shown_part hw hp').1 hp.shape hp'.shape hj hj' he
        rfl
    · exact ⟨x, fun hr' => absurd hr' hr⟩
  choose f hf using hplace
  have hparts : ∀ g a base, s.PartsAt t start new g a base → ∀ j < 3,
      f (base + j) = part g a + j := fun g a base hp j hj =>
    (hf _ (h.reaches_part hw hp hj)).2 g a base hp j hj rfl
  have happart : ∀ x, t.Reaches start x → x < s.size → ∀ g a base,
      s.PartsAt t start new g a base → ∀ j < 3, f x ≠ f (base + j) := by
    intro x hr hx g a base hp j hj he
    rw [(hf x hr).1 hx, hparts g a base hp j hj] at he
    exact absurd (hlow x hr hx) (Nat.not_lt.2 (he ▸ Nat.le_add_right_of_le (hhigh g a base hp)))
  refine ⟨f, fun x hr y hr' he => ?_, fun x hr => (hf x hr).1, hparts⟩
  rcases h.standing hw hstart hr with ⟨-, hx⟩ | ⟨g, a, base, hp, i, hi, rfl⟩
  · rcases h.standing hw hstart hr' with ⟨-, hy⟩ | ⟨g, a, base, hp, j, hj, rfl⟩
    · rw [(hf x hr).1 hx, (hf y hr').1 hy] at he
      exact hold ⟨hr, hx⟩ ⟨hr', hy⟩ he
    · exact absurd he (happart x hr hx g a base hp j hj)
  · rcases h.standing hw hstart hr' with ⟨-, hy⟩ | ⟨g', a', base', hp', j, hj, rfl⟩
    · exact absurd he.symm (happart y hr' hy g a base hp i hi)
    · rw [hparts g a base hp i hi, hparts g' a' base' hp' j hj] at he
      obtain ⟨rfl, rfl, rfl⟩ := hpart g a base g' a' base' hp hp' i hi j hj he
      rw [Nat.add_right_cancel (hp.shape.symm.trans hp'.shape)]

end Merged

end SceneTidy.Scene

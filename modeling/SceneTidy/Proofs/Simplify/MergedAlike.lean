import SceneTidy.Proofs.Simplify.Remerging

/-!
# Merging scenes that mirror each other

Merging goes by the kinds of nodes, by what shapes show and by the points and indices of face sets.
All of these are the same in a scene that mirrors another one, so that the same shapes are merged,
into shapes with the same faces.  Main statement: if shapes can be merged in a scene, they can in
each scene that mirrors it, and the merged scenes mirror each other (`Mirrors.mergeShapes`).
-/

namespace SceneTidy

variable {f g : NodeId → NodeId}

namespace FieldValue

/-- A value that counts as none is none. -/
theorem eq_initial_of_same {v : FieldValue} {k : FieldKind} (hk : ∀ l, k ≠ .one l)
    (h : v.same k.initial = true) : v = k.initial := by
  cases k with
  | one l => exact absurd rfl (hk l)
  | many l =>
    cases v with
    | many l' xs =>
      have hsame : (if hl : l = l' then sameItems l'.same xs (hl ▸ []) else false) = true := h
      split at hsame
      · next hl =>
        subst hl
        cases xs with
        | nil => rfl
        | cons x xs => cases hsame
      · cases hsame
    | _ => cases h
  | node =>
    cases v with
    | node t => exact congrArg node (eq_of_beq h)
    | _ => cases h
  | nodes =>
    cases v with
    | nodes ts => exact congrArg nodes (eq_of_beq h)
    | _ => cases h

/-- A list or a reference that is usually none is followed along. -/
theorem Echoes.eq_relink {v w : FieldValue} {name : String} {k : FieldKind}
    (h : v.Echoes f (.plain name k) w) (hk : ∀ l, k ≠ .one l) : w = v.relink f := by
  cases hv : v.same k.initial with
  | false => exact h.written rfl hv
  | true =>
    have hw : w.same k.initial = true := (h.same rfl).trans hv
    rw [eq_initial_of_same hk hw, eq_initial_of_same hk hv]
    cases k <;> rfl

theorem Echoes.congr {v w : FieldValue} {d : FieldDecl} (h : v.Echoes f d w)
    (hg : ∀ y ∈ v.refs, f y = g y) : v.Echoes g d w := by
  refine ⟨h.refs.trans (List.map_congr_left hg), h.same, fun hx hv => ?_⟩
  rw [h.written hx hv, relink_congr hg]

end FieldValue

namespace Node.Echoes

variable {n m : Node} {name : String} (h : n.Echoes f m)

include h

theorem get?_eq {k : FieldKind} (hd : .plain name k ∈ n.kind.fields) (hk : ∀ l, k ≠ .one l) :
    m.get? name = (n.get? name).map (·.relink f) := by
  have hn : n.get? name = some (n.value (.plain name k)) := get?_eq_value hd
  have hm : m.get? name = some (m.value (.plain name k)) := get?_eq_value (h.kind ▸ hd)
  rw [hn, hm, (h.fields _ hd).eq_relink hk]
  rfl

theorem target_eq (hd : .plain name .node ∈ n.kind.fields) :
    m.target name = (n.target name).map f := by
  have hn : n.get? name = some (.node (n.target name)) := get?_eq_node hd rfl
  rw [target, h.get?_eq hd (by simp), hn]
  rfl

theorem items_eq {k : ItemKind} (hd : .plain name (.many k) ∈ n.kind.fields) :
    m.items name k = n.items name k := by
  rw [items, items, h.get?_eq hd (by simp)]
  cases n.get? name with
  | none => rfl
  | some v => cases v <;> rfl

end Node.Echoes

namespace Scene

/-! ### What is read of a mirrored scene -/

namespace Mirrors

variable {s s' : Scene} {x y : NodeId} {a : Option NodeId} (h : s.Mirrors s' f)

include h

theorem refs_eq (hx : s.Reaches s.root x) : s'.refs (f x) = (s.refs x).map f := by
  obtain ⟨n, m, hn, hm, hnode⟩ := h.node x hx
  rw [refs_of_node? hn, refs_of_node? hm, hnode.mirrors.refs]

theorem children_eq (hx : s.Reaches s.root x) : s'.children (f x) = (s.children x).map f := by
  obtain ⟨n, m, hn, hm, hnode⟩ := h.node x hx
  rw [children_of_node? hn, children_of_node? hm, hnode.mirrors.children]

theorem kind?_eq (hx : s.Reaches s.root x) : s'.kind? (f x) = s.kind? x := by
  obtain ⟨n, m, hn, hm, hnode⟩ := h.node x hx
  rw [kind?_of_node? hn, kind?_of_node? hm, hnode.kind]

theorem reaches (hx : s.Reaches s.root x) : s'.Reaches s'.root (f x) := by
  induction hx with
  | refl => exact h.root ▸ .refl
  | tail hx hxy ih =>
    refine ih.tail ?_
    rw [Refers, h.refs_eq hx]
    exact List.mem_map_of_mem hxy

/-- All that is reached stands for something. -/
theorem exists_reaches (hy : s'.Reaches s'.root y) : ∃ x, s.Reaches s.root x ∧ f x = y := by
  induction hy with
  | refl => exact ⟨s.root, .refl, h.root⟩
  | tail _ hyz ih =>
    obtain ⟨x, hx, rfl⟩ := ih
    rw [Refers, h.refs_eq hx] at hyz
    obtain ⟨z, hz, rfl⟩ := List.mem_map.1 hyz
    exact ⟨z, hx.tail hz, rfl⟩

theorem whole : s.Whole s.root := fun _ b ha hab => by
  obtain ⟨n, -, hn, -, -⟩ := h.node b (ha.tail hab)
  rw [hn]
  rfl

theorem whole_mirror : s'.Whole s'.root := fun a b ha hab => by
  obtain ⟨x, hx, rfl⟩ := h.exists_reaches (ha.tail hab)
  obtain ⟨-, m, -, hm, -⟩ := h.node x hx
  rw [hm]
  rfl

theorem root_lt : s.root < s.size := by
  obtain ⟨n, -, hn, -, -⟩ := h.node s.root .refl
  exact lt_size_of_node? hn

theorem mergesAt_iff (hx : s.Reaches s.root x) :
    s'.MergesAt s'.root (f x) ↔ s.MergesAt s.root x := by
  rw [MergesAt, MergesAt, and_iff_right hx, and_iff_right (h.reaches hx), isGrouping, isKind,
    h.kind?_eq hx]
  rfl

theorem isFaceShape_eq (hx : s.Reaches s.root x) : s'.isFaceShape (f x) = s.isFaceShape x := by
  obtain ⟨n, m, hn, hm, hnode⟩ := h.node x hx
  rw [isFaceShape_of_node? hn, isFaceShape_of_node? hm, hnode.kind]
  by_cases hk : n.kind = .shape
  · rw [hnode.target_eq (by simp [hk, NodeKind.fields])]
    cases hg : n.target "geometry" with
    | none => rfl
    | some g =>
      have hxg := refers_of_target hn hg
      rw [Option.map_some, Option.map_some, Option.map_some, isKind, isKind,
        h.kind?_eq (hx.tail hxg)]
  · rw [beq_false_of_ne hk, Bool.false_and, Bool.false_and]

theorem appearanceOf_eq (hx : s.Reaches s.root x) (hface : s.isFaceShape x = true) :
    s'.appearanceOf (f x) = (s.appearanceOf x).map f := by
  obtain ⟨n, m, hn, hm, hnode⟩ := h.node x hx
  obtain ⟨n', -, -, hn', hk, -⟩ := exists_node_of_isFaceShape hface
  obtain rfl := Option.some.inj (hn.symm.trans hn')
  rw [appearanceOf, appearanceOf, hn, hm, Option.bind_some, Option.bind_some,
    hnode.target_eq (by simp [hk, NodeKind.fields])]

theorem faces_eq {n m : Node} (hn : s.node? x = some n) (hnode : n.Echoes f m)
    (hk : n.kind = .indexedFaceSet) (hx : s.Reaches s.root x) : s'.faces m = s.faces n := by
  have hindices : m.items "coordIndex" .int32 = n.items "coordIndex" .int32 :=
    hnode.items_eq (by simp [hk, NodeKind.fields])
  unfold faces
  rw [hindices, hnode.target_eq (by simp [hk, NodeKind.fields])]
  cases hc : n.target "coord" with
  | none => rfl
  | some c =>
    have hxc := refers_of_target hn hc
    obtain ⟨coord, coord', hcoord, hcoord', hpoints⟩ := h.node c (hx.tail hxc)
    simp only [Option.map_some, hcoord, hcoord', hpoints.kind]
    split
    · next hk => rw [hpoints.items_eq (by simp [hk, NodeKind.fields])]
    · rfl

theorem shapeFaces_eq (hx : s.Reaches s.root x) (hface : s.isFaceShape x = true) :
    s'.shapeFaces (f x) = s.shapeFaces x := by
  obtain ⟨n, m, hn, hm, hnode⟩ := h.node x hx
  obtain ⟨n', g, faceSet, hn', hk, hg, hset, hsk⟩ := exists_node_of_isFaceShape hface
  obtain rfl := Option.some.inj (hn.symm.trans hn')
  have hxg := refers_of_target hn hg
  obtain ⟨faceSet', m', hset', hm', hfaces⟩ := h.node g (hx.tail hxg)
  obtain rfl := Option.some.inj (hset.symm.trans hset')
  rw [shapeFaces, shapeFaces, hn, hm, Option.bind_some, Option.bind_some,
    hnode.target_eq (by simp [hk, NodeKind.fields]), hg, Option.map_some, Option.bind_some,
    Option.bind_some, hset, hm']
  exact h.faces_eq hset hfaces hsk (hx.tail hxg)

/-! ### Classes of a mirrored group -/

theorem map_injective {b : Option NodeId} (ha : ∀ x ∈ a, s.Reaches s.root x)
    (hb : ∀ x ∈ b, s.Reaches s.root x) (he : a.map f = b.map f) : a = b := by
  cases a with
  | none => cases b with
    | none => rfl
    | some y => cases he
  | some x => cases b with
    | none => cases he
    | some y => exact congrArg some (h.injOn (ha x rfl) (hb y rfl) (Option.some.inj he))

theorem appearanceOf_eq_iff (hx : s.Reaches s.root x) (hxf : s.isFaceShape x = true)
    (ha : ∀ y ∈ a, s.Reaches s.root y) :
    s'.appearanceOf (f x) = a.map f ↔ s.appearanceOf x = a := by
  rw [h.appearanceOf_eq hx hxf]
  exact ⟨h.map_injective (fun y hy => hx.tail (refers_appearanceOf hy)) ha, congrArg (Option.map f)⟩

variable (hg : s.MergesAt s.root x)

include hg

theorem faceShapes_eq :
    s'.faceShapes (s'.children (f x)) = (s.faceShapes (s.children x)).map f := by
  rw [h.children_eq hg.1, faceShapes, faceShapes, List.filter_map]
  have hfilter : (s.children x).filter (s'.isFaceShape ∘ f) =
      (s.children x).filter s.isFaceShape :=
    List.filter_congr fun y hy => h.isFaceShape_eq (hg.reaches hy)
  rw [hfilter]
  exact distinctNodes_map fun a ha b hb he =>
    h.injOn (hg.reaches (List.mem_filter.1 ha).1) (hg.reaches (List.mem_filter.1 hb).1) he

theorem mem_mergedAppearances (ha : a ∈ s.mergedAppearances x) :
    a.map f ∈ s'.mergedAppearances (f x) ∧ ∀ y ∈ a, s.Reaches s.root y := by
  obtain ⟨y, hy, rfl⟩ := List.mem_map.1 ha
  obtain ⟨hmem, hface⟩ := mem_faceShapes_iff.1 hy
  have hr := hg.reaches hmem
  refine ⟨?_, fun z hz => hr.tail (refers_appearanceOf hz)⟩
  rw [← h.appearanceOf_eq hr hface, mergedAppearances, h.faceShapes_eq hg]
  exact List.mem_map_of_mem (List.mem_map_of_mem hy)

theorem shapesWith_eq (ha : ∀ y ∈ a, s.Reaches s.root y) :
    s'.shapesWith (f x) (a.map f) = (s.shapesWith x a).map f := by
  rw [shapesWith, shapesWith, h.faceShapes_eq hg, List.filter_map]
  refine congrArg (List.map f) (List.filter_congr fun y hy => ?_)
  obtain ⟨hmem, hface⟩ := mem_faceShapes_iff.1 hy
  exact decide_eq_decide.2 (h.appearanceOf_eq_iff (hg.reaches hmem) hface ha)

theorem allFaces_eq (ha : ∀ y ∈ a, s.Reaches s.root y) :
    s'.allFaces (s'.shapesWith (f x) (a.map f)) = s.allFaces (s.shapesWith x a) := by
  rw [h.shapesWith_eq hg ha]
  refine allFaces_map fun y hy => ?_
  obtain ⟨hmem, hface⟩ := mem_faceShapes_iff.1 (List.mem_filter.1 hy).1
  exact h.shapeFaces_eq (hg.reaches hmem) hface

end Mirrors

/-! ### The merged scenes -/

/-- Merging on both sides of two scenes of which one mirrors the other. -/
structure MergedAlike (s : Scene) (w : Bool) (t : Scene) (new : NodeId → Option NodeId → NodeId)
    (f : NodeId → NodeId) (s' t' : Scene) (new' : NodeId → Option NodeId → NodeId) : Prop where
  mirrors : s.Mirrors s' f
  merged : s.Merged w s.root t new
  mirror : s'.Merged w s'.root t' new'

/-- Where the parts of the merged shape of a mirrored group stand. -/
def mirrorPart (f : NodeId → NodeId) (new' : NodeId → Option NodeId → NodeId) (g : NodeId)
    (a : Option NodeId) : NodeId := new' (f g) (a.map f) - 2

namespace MergedAlike

variable {s t s' t' : Scene} {w : Bool} {g x base : NodeId} {a : Option NodeId}
  {new new' : NodeId → Option NodeId → NodeId} {F : NodeId → NodeId}
  (h : s.MergedAlike w t new f s' t' new')

include h

theorem standing (hr : t.Reaches s.root x) : s.Standing t s.root new x :=
  h.merged.standing h.mirrors.whole h.mirrors.root_lt hr

theorem reaches_of_lt (hr : t.Reaches s.root x) (hx : x < s.size) : s.Reaches s.root x :=
  h.merged.reaches_of_lt h.mirrors.whole h.mirrors.root_lt hr hx

/-- The merged shapes of a group and of the mirrored one have the same points and indices. -/
theorem exists_shown (hp : s.PartsAt t s.root new g a base) :
    s'.size ≤ mirrorPart f new' g a ∧ new' (f g) (a.map f) = mirrorPart f new' g a + 2 ∧
      ∃ indexed, t.Shown base a indexed ∧
        t'.Shown (mirrorPart f new' g a) (a.map f) indexed := by
  obtain ⟨ha, -, -, faces, hfaces, hshown⟩ := h.merged.shown_part h.mirrors.whole hp
  obtain ⟨ha', hreach⟩ := h.mirrors.mem_mergedAppearances hp.before ha
  obtain ⟨base', faces', hle, -, hb', hfaces', hshown'⟩ :=
    h.mirror.exists_shown ((h.mirrors.mergesAt_iff hp.before.1).2 hp.before) ha'
  rw [h.mirrors.allFaces_eq hp.before hreach, hfaces] at hfaces'
  obtain rfl := Except.ok.inj hfaces'
  have hpart : mirrorPart f new' g a = base' := by rw [mirrorPart, hb', Nat.add_sub_cancel]
  rw [hpart]
  exact ⟨hle, hb', _, hshown, hshown'⟩

theorem exists_glues : ∃ F, s.Glues t s.root new f (mirrorPart f new') F := by
  refine h.merged.exists_glues h.mirrors.whole h.mirrors.root_lt s'.size
    (fun x hx y hy he => h.mirrors.injOn (h.reaches_of_lt hx.1 hx.2) (h.reaches_of_lt hy.1 hy.2) he)
    (fun x hr hx => ?_) (fun g a base hp => (h.exists_shown hp).1)
    fun g a base g' a' base' hp hp' i hi j hj he => ?_
  · obtain ⟨-, m, -, hm, -⟩ := h.mirrors.node x (h.reaches_of_lt hr hx)
    exact lt_size_of_node? hm
  · have ha := (h.merged.shown_part h.mirrors.whole hp).1
    have ha' := (h.merged.shown_part h.mirrors.whole hp').1
    obtain ⟨hmem, hreach⟩ := h.mirrors.mem_mergedAppearances hp.before ha
    obtain ⟨hmem', hreach'⟩ := h.mirrors.mem_mergedAppearances hp'.before ha'
    obtain ⟨hg, hae, rfl⟩ := h.mirror.part_unique
      ((h.mirrors.mergesAt_iff hp.before.1).2 hp.before)
      ((h.mirrors.mergesAt_iff hp'.before.1).2 hp'.before) hmem hmem' (h.exists_shown hp).2.1
      (h.exists_shown hp').2.1 hi hj he
    exact ⟨h.mirrors.injOn hp.before.1 hp'.before.1 hg, h.mirrors.map_injective hreach hreach' hae,
      rfl⟩

variable (hF : s.Glues t s.root new f (mirrorPart f new') F)

include hF

theorem children_eq (hg : s.MergesAt s.root g) (hr : t.Reaches s.root g) :
    t'.children (f g) = (t.children g).map F := by
  have hmem : ∀ y ∈ s.mergedChildren (new g) (s.children g), y ∈ t.children g := fun y hy => by
    rwa [h.merged.children hg]
  have hreach : ∀ y ∈ s.mergedChildren (new g) (s.children g), t.Reaches s.root y := fun y hy =>
    hr.tail (mem_refs_of_mem_children (hmem y hy))
  rw [h.mirror.children ((h.mirrors.mergesAt_iff hg.1).2 hg), h.mirrors.children_eq hg.1,
    h.merged.children hg]
  refine mergedChildren_map (fun y hy => h.mirrors.isFaceShape_eq (hg.reaches hy))
    (fun y hy z hz hyf hzf => ?_) (fun y hy _ hmerged => ?_) fun y hy hface hmerged => ?_
  · rw [h.mirrors.appearanceOf_eq (hg.reaches hz) hzf]
    exact h.mirrors.appearanceOf_eq_iff (hg.reaches hy) hyf fun x hx =>
      (hg.reaches hz).tail (refers_appearanceOf hx)
  · exact hF.old y (hreach y hmerged) (node?_isSome_iff.1 (h.mirrors.whole.node?_isSome hg hy))
  · obtain ⟨base, hp⟩ :=
      h.merged.exists_partsAt hg hr (Scene.mem_mergedAppearances hy hface) (hmem _ hmerged)
    rw [h.mirrors.appearanceOf_eq (hg.reaches hy) hface, hp.shape,
      hF.part g _ base hp 2 (by decide), (h.exists_shown hp).2.1]

/-- The fields of an old node still stand for those of the node that it stood for. -/
theorem exists_echoes_of_lt (hr : t.Reaches s.root x) (hx : x < s.size) :
    ∃ n m, t.node? x = some n ∧ t'.node? (f x) = some m ∧ n.Echoes F m := by
  have hr₀ := h.reaches_of_lt hr hx
  obtain ⟨n₀, m₀, hn₀, hm₀, hold⟩ := h.mirrors.node x hr₀
  obtain ⟨n, hn, hkind, -, hfields⟩ := h.merged.untouched.node x n₀ hn₀
  obtain ⟨m, hm, hkind', -, hfields'⟩ := h.mirror.untouched.node (f x) m₀ hm₀
  have hmk : m.kind = n.kind := hkind'.trans (hold.kind.trans hkind.symm)
  refine ⟨n, m, hn, hm, hmk, fun d hd => ?_⟩
  by_cases hfield : ¬s.MergesAt s.root x ∨ d.name ≠ n.kind.childrenField
  · have hfield' : ¬s'.MergesAt s'.root (f x) ∨ d.name ≠ m₀.kind.childrenField := by
      rwa [h.mirrors.mergesAt_iff hr₀, hold.kind, ← hkind]
    have hvalue : n.value d = n₀.value d := by
      rw [Node.value, Node.value, hfields _ ((hkind ▸ hfield).imp_left (mt mem_mergeable_iff.1))]
    have hvalue' : m.value d = m₀.value d := by
      rw [Node.value, Node.value, hfields' _ (hfield'.imp_left (mt mem_mergeable_iff.1))]
    rw [hvalue']
    refine FieldValue.Echoes.congr (hvalue ▸ hold.fields d (hkind ▸ hd)) fun y hy => ?_
    have hxy : t.Refers x y := by
      rw [Refers, refs_of_node? hn]
      exact Node.mem_refs_iff.2 ⟨d.name, _, Node.get?_eq_value hd, hy⟩
    exact (hF.old y (hr.tail hxy) (h.merged.reaches_of_mem_refs h.mirrors.whole hr₀ hx hn hfield
      (Node.get?_eq_value hd) y hy).2).symm
  · obtain ⟨hg, hname⟩ := not_or.1 hfield |>.imp Classical.not_not.1 Classical.not_not.1
    obtain ⟨k, hk, hgroup⟩ := exists_node_of_isGrouping hg.2.1
    obtain rfl := Option.some.inj (hn₀.symm.trans hk)
    rw [← hkind] at hgroup
    have hchildren := h.children_eq hF hg hr
    rw [children_of_node? hm, children_of_node? hn] at hchildren
    have hvalue : n.value d = .nodes n.children :=
      Node.value_of_get? (hname ▸ Node.get?_childrenField hgroup)
    have hvalue' : m.value d = .nodes m.children :=
      Node.value_of_get? (hname ▸ hmk ▸ Node.get?_childrenField (hmk.symm ▸ hgroup))
    rw [hvalue, hvalue', hchildren]
    exact FieldValue.echoes_relink hd F (.nodes n.children)

theorem exists_echoes_of_parts (hp : s.PartsAt t s.root new g a base) {j : Nat} (hj : j < 3) :
    ∃ n m, t.node? (base + j) = some n ∧ t'.node? (F (base + j)) = some m ∧ n.Echoes F m := by
  obtain ⟨-, -, indexed, hshown, hshown'⟩ := h.exists_shown hp
  obtain ⟨n, hn, -⟩ := Option.map_eq_some_iff.1 (hshown.kind?_eq hj)
  have ha : a.map f = a.map F := by
    cases a with
    | none => rfl
    | some y =>
      have hy := h.mirrors.whole.reaches_appearance hp.before
        (h.merged.shown_part h.mirrors.whole hp).1
      have hshape := h.merged.reaches_part h.mirrors.whole hp (j := 2) (by decide)
      exact congrArg some (hF.old y (hshape.tail (hshown.refers_appearance rfl)) hy.2).symm
  have hpart := hF.part g a base hp
  obtain ⟨m, hm, -, hrelinks⟩ := hshown.exists_relinks (ha ▸ hshown') (hpart 0 (by decide))
    (hpart 1 (by decide)) hj hn
  exact ⟨n, m, hn, (hpart j hj).symm ▸ hm, hrelinks.echoes⟩

omit hF in
theorem exists_mirrors : ∃ F, t.Mirrors t' F := by
  obtain ⟨F, hF⟩ := h.exists_glues
  have hroot : t.root = s.root := h.merged.untouched.root
  have hstart : F t.root = t'.root := by
    rw [hroot, hF.old s.root .refl h.mirrors.root_lt, h.mirrors.root, h.mirror.untouched.root]
  refine ⟨F, hstart, hroot ▸ hF.injOn, fun x hr => ?_⟩
  rw [hroot] at hr
  rcases h.standing hr with ⟨-, hx⟩ | ⟨g, a, base, hp, j, hj, rfl⟩
  · rw [hF.old x hr hx]
    exact h.exists_echoes_of_lt hF hr hx
  · exact h.exists_echoes_of_parts hF hp hj

end MergedAlike

/-- Shapes that could be merged are not malformed. -/
theorem Merged.exists_shapeFaces {s t : Scene} {w : Bool} {start g x : NodeId}
    {new : NodeId → Option NodeId → NodeId} (h : s.Merged w start t new)
    (hg : s.MergesAt start g) (hx : x ∈ s.children g) (hface : s.isFaceShape x = true) :
    ∃ fs, s.shapeFaces x = .ok fs := by
  obtain ⟨-, faces, -, -, -, hfaces, -⟩ := h.exists_shown hg (mem_mergedAppearances hx hface)
  have hmem : x ∈ s.shapesWith g (s.appearanceOf x) :=
    List.mem_filter.2 ⟨mem_faceShapes_iff.2 ⟨hx, hface⟩, decide_eq_true rfl⟩
  exact exists_ok_of_allFaces hfaces x hmem

/-- **Merging scenes that mirror each other**: if the shapes of one can be merged, so can those of
the other, and the merged scenes mirror each other. -/
theorem Mirrors.mergeShapes {s s' : Scene} (h : s.Mirrors s' f) {w : Bool} {k : Nat}
    (hok : (s.mergeShapes w s.root).result = .ok k) :
    (∃ k', (s'.mergeShapes w s'.root).result = .ok k') ∧
      ∃ F, (s.mergeShapes w s.root).scene.Mirrors (s'.mergeShapes w s'.root).scene F := by
  obtain ⟨-, new, hmerged⟩ := exists_merged_mergeShapes h.whole hok
  have hok' : ∃ k', (s'.mergeShapes w s'.root).result = .ok k' := by
    refine exists_ok_mergeShapes h.whole_mirror fun g' x' hg' hx' hface => ?_
    obtain ⟨g, hg, rfl⟩ := h.exists_reaches hg'.1
    rw [h.children_eq hg] at hx'
    obtain ⟨x, hx, rfl⟩ := List.mem_map.1 hx'
    have hmerges := (h.mergesAt_iff hg).1 hg'
    have hr := hmerges.reaches hx
    rw [h.isFaceShape_eq hr] at hface
    rw [h.shapeFaces_eq hr hface]
    exact hmerged.exists_shapeFaces hmerges hx hface
  obtain ⟨k', hk'⟩ := hok'
  obtain ⟨-, new', hmerged'⟩ := exists_merged_mergeShapes h.whole_mirror hk'
  exact ⟨⟨k', hk'⟩, (MergedAlike.mk h hmerged hmerged').exists_mirrors⟩

end Scene

end SceneTidy

import SceneTidy.Proofs.Simplify.MergedScene
import SceneTidy.Proofs.Vrml.Mirror

/-!
# Merging twice

Merging shapes that were merged before finds one shape for each appearance, with faces that are
already distinct, and makes it anew.  The nodes after the second time are twins of those after the
first one (`Twins`): the same nodes, but for the parts of merged shapes.  Main statement: merging a
second time succeeds, puts equal nodes in the place of the merged shapes, their face sets and their
points, and leaves the text of the scene as it is (`exists_renews_mergeShapes`).
-/

namespace SceneTidy

namespace Node

variable {f : NodeId → NodeId} {n m : Node}

theorem relinks_mapValues (f : NodeId → NodeId) (n : Node) :
    n.Relinks f (n.mapValues (FieldValue.relink f) (FieldValue.kind_relink f)) :=
  ⟨rfl, fun field => get?_mapValues n field⟩

theorem Relinks.echoes (h : n.Relinks f m) : n.Echoes f m := by
  refine ⟨h.kind_eq, fun d hd => ?_⟩
  have hvalue : m.value d = (n.value d).relink f := by
    rw [value, h.get?_eq, get?_eq_value hd]
    rfl
  rw [hvalue]
  exact FieldValue.echoes_relink hd ..

end Node

namespace Scene

/-- A scene comes of another one by putting equal nodes in the place of some that are new since an
older scene: shapes, face sets and coordinate nodes.  All fields, and so all lists of nodes, refer
to the same nodes as before, or to those in their place. -/
structure Renews (s t u : Scene) (f : NodeId → NodeId) : Prop where
  root : u.root = t.root
  injOn : Set.InjOn f {x | t.Reaches t.root x}
  node : ∀ x n, t.Reaches t.root x → t.node? x = some n →
    ∃ m, u.node? (f x) = some m ∧ m.name = n.name ∧ n.Relinks f m
  kept : ∀ x, t.Reaches t.root x → (s.node? x).isSome → f x = x
  renewed : ∀ x n, t.Reaches t.root x → t.node? x = some n → s.node? x = none →
    t.node? (f x) = none ∧ n.kind ∈ [.shape, .indexedFaceSet, .coordinate]

variable {s t u : Scene} {w : Bool} {start g x base base' : NodeId} {a : Option NodeId}
  {new new' : NodeId → Option NodeId → NodeId} {f : NodeId → NodeId}

/-- A merged shape is made anew with other nodes in place of its parts. -/
theorem Shown.exists_relinks {indexed : IndexedFaces} (h : t.Shown base a indexed)
    (h' : u.Shown base' (a.map f) indexed) (hcoord : f base = base')
    (hset : f (base + 1) = base' + 1) {j : Nat} (hj : j < 3) {n : Node}
    (hn : t.node? (base + j) = some n) :
    ∃ m, u.node? (base' + j) = some m ∧ m.name = n.name ∧ n.Relinks f m := by
  match j, hj with
  | 0, _ =>
    obtain rfl := Option.some.inj (h.coord.symm.trans hn)
    exact ⟨_, h'.coord, rfl, Node.relinks_mapValues f _⟩
  | 1, _ =>
    obtain rfl := Option.some.inj (h.faceSet.symm.trans hn)
    refine ⟨_, h'.faceSet, rfl, ?_⟩
    rw [← hcoord]
    exact Node.relinks_mapValues f _
  | 2, _ =>
    obtain rfl := Option.some.inj (h.shape.symm.trans hn)
    refine ⟨_, h'.shape, rfl, ?_⟩
    rw [← hset]
    exact Node.relinks_mapValues f _

/-! ### Twins -/

/-- Merging a second time after a first one. -/
structure MergedTwice (s : Scene) (w : Bool) (start : NodeId) (t : Scene)
    (new : NodeId → Option NodeId → NodeId) (u : Scene) (new' : NodeId → Option NodeId → NodeId) :
    Prop where
  whole : s.Whole start
  start_lt : start < s.size
  numbers : s.NumberPoints start
  first : s.Merged w start t new
  second : t.Merged w start u new'

/-- Each node after merging once has a twin after merging twice: itself, if it was there before, or
the same part of the merged shape of the same group and appearance. -/
abbrev Twins (s t : Scene) (start : NodeId) (new new' : NodeId → Option NodeId → NodeId)
    (f : NodeId → NodeId) : Prop := s.Glues t start new id (fun g a => new' g a - 2) f

namespace MergedTwice

variable (h : s.MergedTwice w start t new u new')

include h

theorem standing (hr : t.Reaches start x) : s.Standing t start new x :=
  h.first.standing h.whole h.start_lt hr

/-- The merged shape is made anew with the same points and indices. -/
theorem exists_shown (hp : s.PartsAt t start new g a base) :
    t.size ≤ new' g a - 2 ∧ new' g a = new' g a - 2 + 2 ∧
      ∃ indexed, t.Shown base a indexed ∧ u.Shown (new' g a - 2) a indexed := by
  obtain ⟨-, -, -, faces, hfaces, hshown⟩ := h.first.shown_part h.whole hp
  obtain ⟨base', drawn, hle, -, hb', hdrawn, hshown'⟩ :=
    h.second.exists_shown hp.after hp.appearance
  obtain ⟨drawn', hread, hagain⟩ := hshown.exists_readBack h.numbers hp.before hfaces
  have hsingle : t.allFaces [new g a] = t.shapeFaces (new g a) := by
    rw [allFaces, List.mapM_cons, List.mapM_nil]
    cases t.shapeFaces (new g a) with
    | error e => rfl
    | ok fs => exact congrArg Except.ok (List.append_nil fs)
  rw [h.first.shapesWith_eq h.whole hp.before hp.appearance, hsingle, hp.shape, hread] at hdrawn
  obtain rfl := Except.ok.inj hdrawn
  rw [hagain] at hshown'
  have hpart : new' g a - 2 = base' := by rw [hb', Nat.add_sub_cancel]
  rw [hpart]
  exact ⟨hle, hb', _, hshown, hshown'⟩

theorem exists_twins : ∃ f, s.Twins t start new new' f := by
  refine h.first.exists_glues h.whole h.start_lt t.size (fun _ _ _ _ he => he)
    (fun x _ hx => Nat.lt_of_lt_of_le hx h.first.size_le) (fun g a base hp => (h.exists_shown hp).1)
    fun g a base g' a' base' hp hp' i hi j hj he => ?_
  exact h.second.part_unique hp.after hp'.after hp.appearance hp'.appearance
    (h.exists_shown hp).2.1 (h.exists_shown hp').2.1 hi hj he

/-! ### The renewed scene -/

variable (hf : s.Twins t start new new' f)

include hf

theorem eq_new (hg : s.MergesAt start g) (hg' : t.MergesAt start g)
    (ha : a ∈ t.mergedAppearances g) : f (new g a) = new' g a := by
  obtain ⟨base, -, -, -, hb, -, -⟩ :=
    h.first.exists_shown hg (h.first.mem_mergedAppearances_of h.whole hg ha).1
  have hp : s.PartsAt t start new g a base := ⟨hg, hg', ha, hb⟩
  rw [hb, hf.part g a base hp 2 (by decide), ← (h.exists_shown hp).2.1]

theorem children_eq (hg : t.MergesAt start g) : u.children g = (t.children g).map f := by
  have hg₀ := h.first.mergesAt_of h.whole h.start_lt hg
  rw [h.second.children hg, (h.first.oneEach h.whole hg₀).mergedChildren_eq]
  refine List.map_congr_left fun x hx => ?_
  split
  · next hface =>
    have hnew := (h.first.eq_new_of_isFaceShape h.whole hg₀ hx hface).2
    rw [← h.eq_new hf hg₀ hg (Scene.mem_mergedAppearances hx hface), ← hnew]
  · next hface =>
    rcases h.first.exists_of_mem_children h.whole hg₀ hx with ⟨hold, -⟩ | ⟨a, ha, rfl⟩
    · exact (hf.old x (hg.reaches hx) (node?_isSome_iff.1 (h.whole.node?_isSome hg₀ hold))).symm
    · exact absurd (h.first.isFaceShape_new hg₀ ha) hface

/-- A node that was there stays, with the twins of those that it refers to. -/
theorem exists_relinks_of_lt (hr : t.Reaches start x) (hr₀ : s.Reaches start x) (hx : x < s.size)
    {n : Node} (hn : t.node? x = some n) :
    ∃ m, u.node? x = some m ∧ m.name = n.name ∧ n.Relinks f m := by
  obtain ⟨m, hm, hkind, hname, hfields⟩ := h.second.untouched.node x n hn
  refine ⟨m, hm, hname, hkind, fun field => ?_⟩
  by_cases hfield : ¬t.MergesAt start x ∨ field ≠ n.kind.childrenField
  · rw [hfields field (hfield.imp_left (mt mem_mergeable_iff.1))]
    cases hv : n.get? field with
    | none => rfl
    | some v =>
      have hfield₀ := hfield.imp_left (mt (h.first.mergesAt_iff hx hr hr₀).2)
      have hold := h.first.reaches_of_mem_refs h.whole hr₀ hx hn hfield₀ hv
      have hfixed : v.relink f = v := FieldValue.relink_of_fixed fun y hy => by
        have hxy : t.Refers x y := by
          rw [Refers, refs_of_node? hn]
          exact Node.mem_refs_iff.2 ⟨field, v, hv, hy⟩
        exact hf.old y (hr.tail hxy) (hold y hy).2
      rw [Option.map_some, hfixed]
  · obtain ⟨hg, rfl⟩ := not_or.1 hfield |>.imp Classical.not_not.1 Classical.not_not.1
    obtain ⟨n', hn', hgroup⟩ := exists_node_of_isGrouping hg.2.1
    obtain rfl : n' = n := Option.some.inj (hn'.symm.trans hn)
    have hchildren := h.children_eq hf hg
    rw [children_of_node? hm, children_of_node? hn] at hchildren
    rw [Node.get?_childrenField hgroup, ← hkind, Node.get?_childrenField (hkind ▸ hgroup),
      hchildren]
    rfl

/-- A part of a merged shape is made anew, with the twins of those that it refers to. -/
theorem exists_relinks_of_parts (hp : s.PartsAt t start new g a base) {j : Nat} (hj : j < 3)
    {n : Node} (hn : t.node? (base + j) = some n) :
    ∃ m, u.node? (f (base + j)) = some m ∧ m.name = n.name ∧ n.Relinks f m := by
  obtain ⟨-, -, indexed, hshown, hshown'⟩ := h.exists_shown hp
  have ha : a.map f = a := by
    cases a with
    | none => rfl
    | some y =>
      have hlt := (h.whole.reaches_appearance hp.before (h.first.shown_part h.whole hp).1).2
      have hshape := h.first.reaches_part h.whole hp (j := 2) (by decide)
      exact congrArg some (hf.old y (hshape.tail (hshown.refers_appearance rfl)) hlt)
  have hpart := hf.part g a base hp
  rw [hpart j hj]
  exact hshown.exists_relinks (ha.symm ▸ hshown') (hpart 0 (by decide)) (hpart 1 (by decide)) hj hn

end MergedTwice

/-- **Merging shapes a second time** puts equal nodes in the place of the merged ones. -/
theorem MergedTwice.exists_renews (h : s.MergedTwice w s.root t new u new') :
    ∃ f, s.Renews t u f := by
  have hroot : t.root = s.root := h.first.untouched.root
  obtain ⟨f, hf⟩ := h.exists_twins
  refine ⟨f, h.second.untouched.root, ?_, ?_, ?_, ?_⟩ <;> rw [hroot]
  · exact hf.injOn
  · intro x n hr hn
    rcases h.standing hr with ⟨hr₀, hx⟩ | ⟨g, a, base, hp, j, hj, rfl⟩
    · rw [hf.old x hr hx]
      exact h.exists_relinks_of_lt hf hr hr₀ hx hn
    · exact h.exists_relinks_of_parts hf hp hj hn
  · exact fun x hr hx => hf.old x hr (node?_isSome_iff.1 hx)
  · intro x n hr hn hnew
    rcases h.standing hr with ⟨-, hx⟩ | ⟨g, a, base, hp, j, hj, rfl⟩
    · exact absurd (node?_isSome_iff.2 hx) (by simp [hnew])
    · have hkinds : ∀ i < 3, partKind i ∈ [.shape, .indexedFaceSet, .coordinate] := by decide
      have hkind := h.first.kind?_part h.whole hp hj
      rw [kind?_of_node? hn, Option.some.injEq] at hkind
      refine ⟨?_, hkind ▸ hkinds j hj⟩
      rw [← Option.not_isSome_iff_eq_none, node?_isSome_iff, hf.part g a base hp j hj, Nat.not_lt]
      exact Nat.le_add_right_of_le (h.exists_shown hp).1

/-- A renewed scene mirrors the one that it comes of. -/
theorem Renews.mirrors (h : s.Renews t u f) (hs : (s.node? t.root).isSome)
    (hw : t.Whole t.root) (ht : (t.node? t.root).isSome) : t.Mirrors u f := by
  refine ⟨(h.kept t.root .refl hs).trans h.root.symm, h.injOn, fun x hr => ?_⟩
  have hx : (t.node? x).isSome := by
    rcases hr.cases_tail with rfl | ⟨y, hy, hyx⟩
    · exact ht
    · exact hw y x hy hyx
  obtain ⟨n, hn⟩ := Option.isSome_iff_exists.1 hx
  obtain ⟨m, hm, -, hrelinks⟩ := h.node x n hr hn
  exact ⟨n, m, hn, hm, hrelinks.echoes⟩

/-- **Merging shapes is idempotent**: a second time succeeds as well, puts equal nodes in the place
of the merged ones, and does not change the text of the scene. -/
theorem exists_renews_mergeShapes (hroot : (s.node? s.root).isSome) (hwhole : s.Whole s.root)
    (hnumber : s.NumberPoints s.root) {ignoreWinding : Bool} {count : Nat}
    (h : (s.mergeShapes ignoreWinding s.root).result = .ok count) :
    let t := (s.mergeShapes ignoreWinding s.root).scene
    let u := (t.mergeShapes ignoreWinding t.root).scene
    (∃ again, (t.mergeShapes ignoreWinding t.root).result = .ok again) ∧
      (∃ f, s.Renews t u f) ∧ ∀ indent, (u.write indent).text = (t.write indent).text ∧
        (u.write indent).failure = (t.write indent).failure := by
  dsimp only
  have hlt : s.root < s.size := node?_isSome_iff.1 hroot
  obtain ⟨-, new, hfirst⟩ := exists_merged_mergeShapes hwhole h
  generalize (s.mergeShapes ignoreWinding s.root).scene = t at hfirst ⊢
  have hsame : t.root = s.root := hfirst.untouched.root
  have ht : t.Whole s.root := hfirst.whole hwhole hlt
  obtain ⟨again, hagain⟩ := hfirst.exists_ok hwhole hlt hnumber
  obtain ⟨-, new', hsecond⟩ := exists_merged_mergeShapes ht hagain
  have htwice : s.MergedTwice ignoreWinding s.root t new
    (t.mergeShapes ignoreWinding s.root).scene new' := ⟨hwhole, hlt, hnumber, hfirst, hsecond⟩
  obtain ⟨f, hf⟩ := htwice.exists_renews
  have hmirrors := hf.mirrors (hsame ▸ hroot) (hsame ▸ ht)
    (node?_isSome_iff.2 (Nat.lt_of_lt_of_le (hsame ▸ hlt) hfirst.size_le))
  rw [hsame]
  exact ⟨⟨again, hagain⟩, ⟨f, hf⟩, hmirrors.write⟩

theorem exists_renews_sheet : (sheet.mergeShapes true sheet.root).result = .ok 2 ∧
    let t := (sheet.mergeShapes true sheet.root).scene
    let u := (t.mergeShapes true t.root).scene
    (∃ again, (t.mergeShapes true t.root).result = .ok again) ∧ (∃ f, sheet.Renews t u f) ∧
      ∀ indent, (u.write indent).text = (t.write indent).text ∧
        (u.write indent).failure = (t.write indent).failure :=
  ⟨mergeShapes_sheet,
    exists_renews_mergeShapes rfl whole_sheet numberPoints_sheet mergeShapes_sheet⟩

end Scene

end SceneTidy

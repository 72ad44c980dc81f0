import SceneTidy.Proofs.Pipeline

/-!
# Merged face sets stay two-sided

Merging adds nodes to the store, and of these all face sets are shown on both sides
(`AddsTwoSided`).  Cleaning may give every face set one solidity, but choices that would make merged
face sets one-sided again are refused, also where they come from a preset in part
(`Choices.Makes.forceSolid_ne`).  Main statement: after a run every face set that merging made is
shown on both sides (`isTwoSided_of_madeByMerging`).
-/

namespace SceneTidy

/-! ### Choices that are refused -/

/-- Choices make a plan, on their own or over a preset. -/
inductive Choices.Makes (c : Choices) (plan : Plan) : Prop
  | alone (h : c.plan = .ok plan)
  | ofPreset (preset : String) (h : c.planFrom preset = .ok plan)

theorem Choices.forceSolid_ne_of_plan {c : Choices} {plan : Plan} (h : c.plan = .ok plan)
    (hmerge : plan.mergeShapes = true) (hclean : plan.clean = true) :
    plan.values.forceSolid ≠ some true := by
  unfold Choices.plan at h
  dsimp only at h
  split at h
  · cases h
  · split at h
    · cases h
    · next hfree =>
      obtain rfl := Except.ok.inj h
      exact fun hsolid => hfree ⟨hmerge, hclean, hsolid⟩

/-- No choices make a plan that merges shapes and lets cleaning make all face sets one-sided. -/
theorem Choices.Makes.forceSolid_ne {c : Choices} {plan : Plan} (h : c.Makes plan)
    (hmerge : plan.mergeShapes = true) (hclean : plan.clean = true) :
    plan.values.forceSolid ≠ some true := by
  cases h with
  | alone h => exact forceSolid_ne_of_plan h hmerge hclean
  | ofPreset preset h =>
    unfold planFrom at h
    split at h
    · exact forceSolid_ne_of_plan h hmerge hclean
    · cases h

/-! ### Nodes -/

namespace Node

variable {n m : Node}

/-- If the node is a face set, it is shown on both sides. -/
def TwoSided (n : Node) : Prop := n.kind = .indexedFaceSet → n.item "solid" .bool = false

theorem twoSided_of_kind (h : n.kind ≠ .indexedFaceSet) : n.TwoSided := fun hk => absurd hk h

theorem item_set_of_kind {d : FieldDecl} {k : ItemKind} (h : d ∈ n.kind.fields)
    (hk : d.kind = .one k) (x : k.Value) : (n.set d.name (.one k x)).item d.name k = x := by
  have hget : (n.set d.name (.one k x)).get? d.name = some (.one k x) :=
    get?_set_of_kind h hk.symm
  rw [item, hget]
  exact dif_pos rfl

theorem item_set_solid (hk : n.kind = .indexedFaceSet) (b : Bool) :
    (n.set "solid" (.one .bool b)).item "solid" .bool = b := by
  have hfield : ∃ d ∈ NodeKind.fields .indexedFaceSet, d.name = "solid" ∧ d.kind = .one .bool :=
    ⟨_, List.mem_of_getElem? (i := 12) rfl, rfl, rfl⟩
  obtain ⟨d, hd, hname, hkind⟩ := hfield
  rw [← hname]
  exact item_set_of_kind (hk ▸ hd) hkind b

/-- The merged face set is made with both sides. -/
theorem twoSided_mergedFaceSet (coord : NodeId) (indices : List Int) :
    (mergedFaceSet coord indices).TwoSided := fun _ => rfl

/-- Cleaning makes no face set one-sided, unless it is told to. -/
theorem TwoSided.prepared {values : CleanValues} (h : n.TwoSided)
    (hvalues : values.forceSolid ≠ some true) : (n.prepared values).TwoSided := by
  intro hk
  rw [kind_prepared] at hk
  have hstraight : n.straighten.item "solid" .bool = false :=
    (item_straighten_of_ne (by decide)).trans (h hk)
  have hkind : n.straighten.kind = .indexedFaceSet := hk
  rw [Node.prepared, applyValues, hkind]
  dsimp only
  split
  · next solid hforce =>
    have hfalse : solid = false := by
      cases solid with
      | false => rfl
      | true => exact absurd hforce hvalues
    rw [item_set_solid hkind, hfalse]
  · exact hstraight

theorem Swapped.twoSided {R : NodeId → NodeId → Prop} (hswap : n.Swapped R m) (h : n.TwoSided) :
    m.TwoSided := by
  intro hk
  rw [hswap.item]
  exact h (hswap.kind ▸ hk)

end Node

namespace Scene

variable {s t u : Scene} {plan : Plan} {numberOf : NodeId → Option Nat} {x : NodeId} {bound : Nat}

/-! ### Merging adds two-sided face sets -/

/-- The face sets from a place on are shown on both sides. -/
def TwoSidedFrom (s : Scene) (bound : Nat) : Prop :=
  ∀ x n, bound ≤ x → s.node? x = some n → n.TwoSided

/-- Nodes are added, of which all face sets are shown on both sides; the others keep their fields,
but for the children of groups. -/
structure AddsTwoSided (s t : Scene) : Prop where
  untouched : ∃ changed, Untouched s changed t
  new : t.TwoSidedFrom s.size

/-- The children of a group are no solidity. -/
theorem Untouched.twoSidedFrom {changed : List NodeId} (h : Untouched s changed t)
    (hs : s.TwoSidedFrom bound) (hnew : t.TwoSidedFrom s.size) : t.TwoSidedFrom bound := by
  intro x m hx hm hk
  rcases Nat.lt_or_ge x s.size with hlt | hge
  · obtain ⟨n, hn⟩ := Option.isSome_iff_exists.1 (node?_isSome_iff.2 hlt)
    obtain ⟨m', hm', hkind, -, hfields⟩ := h.node x n hn
    obtain rfl := Option.some.inj (hm.symm.trans hm')
    have hne : "solid" ≠ n.kind.childrenField := by
      cases n.kind <;> exact of_decide_eq_true rfl
    rw [Node.item, hfields _ (.inr hne)]
    exact hs x n hx hn (hkind ▸ hk)
  · exact hnew x m hge hm hk

namespace AddsTwoSided

theorem refl (s : Scene) : AddsTwoSided s s := by
  refine ⟨⟨[], .refl s []⟩, fun x n hx hn => ?_⟩
  exact absurd (lt_size_of_node? hn) (Nat.not_lt_of_le hx)

theorem trans (h : AddsTwoSided s t) (h' : AddsTwoSided t u) : AddsTwoSided s u := by
  obtain ⟨changed, hst⟩ := h.untouched
  obtain ⟨more, htu⟩ := h'.untouched
  exact ⟨⟨changed ++ more, hst.trans htu⟩, htu.twoSidedFrom h.new h'.new⟩

theorem andThen {α β : Type} {c : Change α} {f : Scene → α → Change β}
    (hc : AddsTwoSided s c.scene) (hf : ∀ a, AddsTwoSided c.scene (f c.scene a).scene) :
    AddsTwoSided s (c.andThen f).scene :=
  of_scene_andThen (P := AddsTwoSided s) hc fun a _ => hc.trans (hf a)

end AddsTwoSided

theorem addsTwoSided_setChildren (s : Scene) (group : NodeId) (ts : List NodeId) :
    AddsTwoSided s (s.setChildren group ts) := by
  refine ⟨⟨[group], untouched_setChildren s group ts⟩, fun x n hx hn => ?_⟩
  have hlt := lt_size_of_node? hn
  rw [setChildren, size_modify] at hlt
  exact absurd hlt (Nat.not_lt_of_le hx)

/-- Of the three nodes of a merged shape one is a face set. -/
theorem addsTwoSided_pushShape (s : Scene) (appearance : Option NodeId) (indexed : IndexedFaces) :
    AddsTwoSided s (s.pushShape appearance indexed) := by
  obtain ⟨huntouched, hsize, hshown⟩ := s.pushShape_spec appearance indexed
  refine ⟨⟨[], huntouched⟩, fun x n hx hn => ?_⟩
  have hlt : x < s.size + 3 := hsize ▸ lt_size_of_node? hn
  have hcases : x = s.size ∨ x = s.size + 1 ∨ x = s.size + 2 := by omega
  rcases hcases with rfl | rfl | rfl
  · obtain rfl := Option.some.inj (hshown.coord.symm.trans hn)
    exact Node.twoSided_of_kind nofun
  · obtain rfl := Option.some.inj (hshown.faceSet.symm.trans hn)
    exact Node.twoSided_mergedFaceSet _ _
  · obtain rfl := Option.some.inj (hshown.shape.symm.trans hn)
    exact Node.twoSided_of_kind nofun

theorem addsTwoSided_mergeClasses (s : Scene) (ignoreWinding : Bool) (classes : List ShapeClass) :
    AddsTwoSided s (s.mergeClasses ignoreWinding classes).scene := by
  induction classes generalizing s with
  | nil => exact .refl s
  | cons c classes ih =>
    have hone : AddsTwoSided s (s.mergeClass ignoreWinding c).scene := by
      unfold mergeClass
      cases s.allFaces c.shapes with
      | error cause => exact .refl s
      | ok faces => exact s.addsTwoSided_pushShape c.appearance _
    rw [mergeClasses]
    exact hone.andThen fun _ => (ih _).andThen fun _ => .refl _

theorem addsTwoSided_mergeGroup (s : Scene) (ignoreWinding : Bool) (group : NodeId) :
    AddsTwoSided s (s.mergeGroup ignoreWinding group).scene := by
  unfold mergeGroup
  dsimp only
  split
  · exact .refl s
  · split
    · exact .refl s
    · exact (s.addsTwoSided_mergeClasses ..).trans (addsTwoSided_setChildren ..)

theorem addsTwoSided_mergeShapes (s : Scene) (ignoreWinding : Bool) (start : NodeId) :
    AddsTwoSided s (s.mergeShapes ignoreWinding start).scene := by
  have hgroups : ∀ (groups : List NodeId) (s : Scene),
      AddsTwoSided s (s.mergeGroups ignoreWinding groups).scene := by
    intro groups
    induction groups with
    | nil => exact .refl
    | cons group groups ih =>
      exact fun s => (s.addsTwoSided_mergeGroup ignoreWinding group).andThen
        fun _ => (ih _).andThen fun _ => .refl _
  rw [mergeShapes]
  exact (hgroups _ s).andThen fun _ => .refl _

/-! ### Cleaning keeps them two-sided -/

theorem TwoSidedFrom.clean {values : CleanValues} (h : s.TwoSidedFrom bound)
    (hvalues : values.forceSolid ≠ some true) :
    (s.clean values .empty).scene.TwoSidedFrom bound := by
  obtain ⟨st, hscene, -, hs⟩ := s.loose_clean values
  rw [hscene]
  intro x m hx hm
  cases hr : st.replacement? x with
  | none => exact h x m hx ((hs.untouched x hr).symm.trans hm)
  | some r =>
    obtain ⟨n, m', hn, hm', hswap⟩ := hs.done x (by simp [hr]) List.not_mem_nil
    obtain rfl := Option.some.inj (hm.symm.trans hm')
    exact hswap.twoSided ((h x n hx hn).prepared hvalues)

/-! ### A whole plan -/

/-- A face set that merging made: its place was free when merging started. -/
def MadeByMerging (s : Scene) (plan : Plan) (numberOf : NodeId → Option Nat) (x : NodeId) : Prop :=
  (s.beforeMerging plan numberOf).scene.kind? x = none ∧
    (s.beforeCleaning plan numberOf).scene.kind? x = some .indexedFaceSet

/-- A node is a face set that is shown on both sides. -/
def IsTwoSided (s : Scene) (x : NodeId) : Prop :=
  ∃ n, s.node? x = some n ∧ n.kind = .indexedFaceSet ∧ n.item "solid" .bool = false

theorem addsTwoSided_beforeCleaning (s : Scene) (plan : Plan) (numberOf : NodeId → Option Nat) :
    AddsTwoSided (s.beforeMerging plan numberOf).scene (s.beforeCleaning plan numberOf).scene := by
  refine AddsTwoSided.andThen (.refl _) fun _ => ?_
  rw [scene_stage]
  split
  · exact addsTwoSided_mergeShapes ..
  · exact .refl _

theorem kind?_clean (s : Scene) (values : CleanValues) (x : NodeId) :
    (s.clean values .empty).scene.kind? x = s.kind? x := by
  obtain ⟨st, hscene, -, hs⟩ := s.loose_clean values
  rw [hscene, hs.kind]

/-- Only merging adds nodes. -/
theorem MadeByMerging.mergeShapes_eq_true (h : s.MadeByMerging plan numberOf x) :
    plan.mergeShapes = true := by
  obtain ⟨hnew, hmade⟩ := h
  rw [← Bool.not_eq_false]
  intro hoff
  obtain hscene | ⟨_, -, hscene⟩ := scene_andThen (s.beforeMerging plan numberOf) fun s _ =>
    s.stage plan.mergeShapes .unify fun s => s.mergeShapes plan.ignoreWinding s.root
  all_goals
    rw [beforeCleaning, hscene] at hmade
    simp [scene_stage, hoff, hnew] at hmade

/-- **Merged face sets stay two-sided.**  After a run by a plan that choices make, every face set
that merging made is there and is shown on both sides, whether it can be reached or not. -/
theorem isTwoSided_of_madeByMerging {c : Choices} (hplan : c.Makes plan)
    (hmade : s.MadeByMerging plan numberOf x) : (s.apply plan numberOf).scene.IsTwoSided x := by
  obtain ⟨hnew, hkind⟩ := hmade
  have hplace : (s.beforeMerging plan numberOf).scene.size ≤ x := by
    rw [← Nat.not_lt, ← node?_isSome_iff]
    intro hsome
    rw [kind?, Option.map_eq_none_iff] at hnew
    rw [hnew] at hsome
    cases hsome
  have hbefore := (s.addsTwoSided_beforeCleaning plan numberOf).new
  have hafter : (s.apply plan numberOf).scene.TwoSidedFrom
      (s.beforeMerging plan numberOf).scene.size ∧
      (s.apply plan numberOf).scene.kind? x = some .indexedFaceSet := by
    obtain hscene | ⟨_, -, hscene⟩ := scene_andThen (s.beforeCleaning plan numberOf) fun s _ =>
      s.stage plan.clean .cleanup fun s => s.clean plan.values .empty
    · rw [apply_eq, hscene]
      exact ⟨hbefore, hkind⟩
    · rw [apply_eq, hscene, scene_stage]
      split
      · next hclean =>
        have hmerges := MadeByMerging.mergeShapes_eq_true ⟨hnew, hkind⟩
        exact ⟨hbefore.clean (hplan.forceSolid_ne hmerges hclean), (kind?_clean ..).trans hkind⟩
      · exact ⟨hbefore, hkind⟩
  obtain ⟨n, hn, hk⟩ := Option.map_eq_some_iff.1 hafter.2
  exact ⟨n, hn, hk, hafter.1 x n hplace hn hk⟩

/-- A scene that shows a one-sided triangle twice. -/
def panes : Scene :=
  ⟨#[(Node.create .scene none).setChildren [1, 2], shapeNode none 3, shapeNode none 3,
    ((Node.create .indexedFaceSet none).set "coord" (.node (some 4))).set "coordIndex"
      (.many .int32 [0, 1, 2, -1]),
    coordinateNode [Vec3.zero, .diagonal .one, ⟨.one, .zero, .zero⟩]], 0⟩

/-- Merging besides cleaning, which then may not make face sets one-sided. -/
def mergingToo : Choices :=
  { Choices.unmade with
    foldTransforms := some false, mergeShapes := some true, ignoreWinding := some false,
    forceSolid := some none }

/-- The plan of these choices over a preset that cleans. -/
def mergingCleanup : Plan :=
  { fullPlan with dropJunk := false, foldTransforms := false, ignoreWinding := false, indent := 0 }

theorem mergeShapes_panes : panes.mergeShapes false panes.root =
    (panes.mergeGroups false [0]).andThen fun s n =>
      ⟨s, if n = 0 then [] else [.unified n 1], .ok n⟩ := by
  have hmergeable : panes.mergeable panes.root = [0] :=
    mergeable_eq_singleton rfl rfl (by decide +kernel)
  unfold mergeShapes
  rw [hmergeable]
  rfl

theorem result_beforeCleaning_panes (numberOf : NodeId → Option Nat) :
    (panes.beforeCleaning mergingCleanup numberOf).result = .ok () := by
  show (panes.mergeShapes false panes.root).result.map _ = .ok ()
  rw [mergeShapes_panes]
  decide +kernel

/-- The scene after the two stages that are on. -/
theorem scene_apply_panes (numberOf : NodeId → Option Nat) :
    (panes.apply mergingCleanup numberOf).scene =
      ((panes.mergeGroups false [0]).scene.clean mergingCleanup.values .empty).scene := by
  have hmerge :
      (panes.mergeShapes false panes.root).scene = (panes.mergeGroups false [0]).scene := by
    rw [mergeShapes_panes]
    rfl
  rw [apply_eq, Change.andThen_of_ok (result_beforeCleaning_panes numberOf), ← hmerge]
  rfl

theorem isTwoSided_of_madeByMerging_panes :
    ∃ plan, mergingToo.Makes plan ∧ plan.mergeShapes = true ∧ plan.clean = true ∧
      (panes.apply plan panes.numbers).result = .ok () ∧
      (panes.apply plan panes.numbers).scene.Reaches 0 6 ∧
      panes.MadeByMerging plan panes.numbers 6 ∧
      (panes.apply plan panes.numbers).scene.IsTwoSided 6 := by
  have hplan : mergingToo.Makes mergingCleanup := .ofPreset "cleanup" rfl
  have hok : (panes.apply mergingCleanup panes.numbers).result = .ok () := by
    rw [apply_eq, Change.andThen_of_ok (result_beforeCleaning_panes _)]
    rfl
  have hroot : 7 ∈ (panes.apply mergingCleanup panes.numbers).scene.refs 0 := by
    rw [scene_apply_panes]
    decide +kernel
  have hshape : 6 ∈ (panes.apply mergingCleanup panes.numbers).scene.refs 7 := by
    rw [scene_apply_panes]
    decide +kernel
  have hmade : panes.MadeByMerging mergingCleanup panes.numbers 6 := by
    refine ⟨rfl, ?_⟩
    show (panes.mergeShapes false panes.root).scene.kind? 6 = _
    rw [mergeShapes_panes]
    decide +kernel
  exact ⟨_, hplan, rfl, rfl, hok, (Relation.ReflTransGen.single hroot).tail hshape, hmade,
    isTwoSided_of_madeByMerging hplan hmade⟩

end Scene

end SceneTidy

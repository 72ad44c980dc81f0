import SceneTidy.Proofs.Scene.Copy
import SceneTidy.Proofs.Simplify.Drawing

/-!
# The node that cleaning leaves

Cleaning first prepares a node: it straightens its rotations and gives it fixed values, which
changes no reference (`Node.map_refs_get?_prepared`).  Then it puts other nodes in place of those
that the node refers to (`Node.Relinks`).  Both keep the kind, the parameters of a transform up to
rotations by no angle, and whether the node has to make way for its only child.
-/

namespace SceneTidy

namespace Node

variable {n m : Node} {field : String} {f : NodeId → NodeId}

/-! ### Straightening -/

theorem get?_straighten (n : Node) (field : String) :
    n.straighten.get? field = (n.get? field).map straightenValue := by
  show (n.mapValues straightenValue kind_straightenValue).get? field = _
  exact get?_mapValues n field

@[simp] theorem refs_straightenValue (v : FieldValue) : (straightenValue v).refs = v.refs := by
  unfold straightenValue
  split <;> rfl

theorem item_straighten_of_ne {k : ItemKind} (hk : k ≠ .rotation) :
    n.straighten.item field k = n.item field k := by
  unfold item
  rw [get?_straighten]
  cases hv : n.get? field with
  | none => rfl
  | some v =>
    cases v with
    | one l x =>
      by_cases hl : l = .rotation
      · subst hl
        show dite .. = dite ..
        rw [dif_neg hk.symm, dif_neg hk.symm]
      · have hsame : straightenValue (.one l x) = .one l x := by
          cases l <;> first | rfl | exact absurd rfl hl
        show _ = dite ..
        rw [Option.map_some, hsame]
    | many l xs => rfl
    | node t => rfl
    | nodes ts => rfl

theorem item_straighten_rotation (n : Node) (field : String) :
    n.straighten.item field .rotation = (n.item field .rotation).straightened := by
  unfold item
  rw [get?_straighten]
  cases hv : n.get? field with
  | none => rfl
  | some v =>
    cases v with
    | one l x => cases l <;> rfl
    | many l xs => rfl
    | node t => rfl
    | nodes ts => rfl

theorem placement_straighten (n : Node) : n.straighten.placement = n.placement.straightened := by
  simp only [placement, Placement.straightened, item_straighten_rotation,
    item_straighten_of_ne (by decide : ItemKind.vec3f ≠ .rotation)]

theorem targets_straighten (n : Node) (field : String) :
    n.straighten.targets field = n.targets field := by
  unfold targets
  rw [get?_straighten]
  cases hv : n.get? field with
  | none => rfl
  | some v =>
    cases v with
    | one l x => cases l <;> rfl
    | many l xs => rfl
    | node t => rfl
    | nodes ts => rfl

theorem target_straighten (n : Node) (field : String) :
    n.straighten.target field = n.target field := by
  unfold target
  rw [get?_straighten]
  cases hv : n.get? field with
  | none => rfl
  | some v =>
    cases v with
    | one l x => cases l <;> rfl
    | many l xs => rfl
    | node t => rfl
    | nodes ts => rfl

/-! ### Preparing -/

/-- The node as cleaning prepares it. -/
def prepared (values : CleanValues) (n : Node) : Node := n.straighten.applyValues values

variable {values : CleanValues}

theorem map_refs_get?_set (n : Node) (other : String) (k : ItemKind) (x : k.Value)
    (field : String) :
    ((n.set other (.one k x)).get? field).map FieldValue.refs =
      (n.get? field).map FieldValue.refs := by
  have hfst : ∀ p : FieldDecl × FieldValue,
      (if p.1.name = other ∧ FieldValue.kind (.one k x) = p.2.kind then (p.1, .one k x) else p).1 =
        p.1 := by
    intro p
    split <;> rfl
  have hrefs : ∀ p : FieldDecl × FieldValue,
      (if p.1.name = other ∧ FieldValue.kind (.one k x) = p.2.kind then (p.1, .one k x)
        else p).2.refs = p.2.refs := by
    intro p
    split
    · next h =>
      obtain ⟨d, v⟩ := p
      cases v with
      | one l y => rfl
      | many l ys => rfl
      | node t => simp [FieldValue.kind] at h
      | nodes ts => simp [FieldValue.kind] at h
    · rfl
  rw [get?, get?, slots_set, List.find?_map, Option.map_map, Option.map_map, Option.map_map]
  simp only [Function.comp_def, hfst, hrefs]

@[simp] theorem kind_applyValues (values : CleanValues) (n : Node) :
    (n.applyValues values).kind = n.kind := by
  unfold applyValues
  split
  · rfl
  · split <;> rfl
  · rfl

@[simp] theorem kind_prepared (values : CleanValues) (n : Node) :
    (n.prepared values).kind = n.kind := kind_applyValues ..

theorem prepared_eq_straighten (h : n.kind ≠ .material) (h' : n.kind ≠ .indexedFaceSet) :
    n.prepared values = n.straighten := by
  have hk : n.straighten.kind = n.kind := rfl
  unfold prepared applyValues
  split
  · next hm => exact absurd (hk ▸ hm) h
  · next hm => exact absurd (hk ▸ hm) h'
  · rfl

/-- Preparing a node changes none of its references. -/
theorem map_refs_get?_prepared (values : CleanValues) (n : Node) (field : String) :
    ((n.prepared values).get? field).map FieldValue.refs = (n.get? field).map FieldValue.refs := by
  have hstraighten : (n.straighten.get? field).map FieldValue.refs =
      (n.get? field).map FieldValue.refs := by
    rw [get?_straighten, Option.map_map]
    exact congrArg (fun g => (n.get? field).map g) (funext refs_straightenValue)
  rw [← hstraighten]
  unfold prepared applyValues
  split
  · rw [map_refs_get?_set, map_refs_get?_set, map_refs_get?_set]
  · split
    · exact map_refs_get?_set ..
    · rfl
  · rfl

theorem mem_refs_prepared {t : NodeId} : t ∈ (n.prepared values).refs ↔ t ∈ n.refs := by
  have key : ∀ a b : Node, (∀ field, (a.get? field).map FieldValue.refs =
      (b.get? field).map FieldValue.refs) → t ∈ a.refs → t ∈ b.refs := by
    intro a b hab ht
    obtain ⟨field, v, hv, ht⟩ := mem_refs_iff.1 ht
    have hb := hab field
    rw [hv] at hb
    obtain ⟨w, hw, hvw⟩ := Option.map_eq_some_iff.1 hb.symm
    exact mem_refs_iff.2 ⟨field, w, hw, hvw ▸ ht⟩
  exact ⟨key _ _ fun field => map_refs_get?_prepared values n field,
    key _ _ fun field => (map_refs_get?_prepared values n field).symm⟩

theorem prepared_of_isPassed (h : n.kind.isPassed = true) : n.prepared values = n.straighten := by
  refine prepared_eq_straighten ?_ ?_
  · rintro hk
    simp [hk, NodeKind.isPassed] at h
  · rintro hk
    simp [hk, NodeKind.isPassed] at h

theorem children_prepared (h : n.kind.isPassed = true) :
    (n.prepared values).children = n.children := by
  rw [prepared_of_isPassed h]
  exact n.targets_straighten _

theorem materialOf_prepared (values : CleanValues) (n : Node) :
    CleanState.materialOf (n.prepared values) = CleanState.materialOf n := by
  unfold CleanState.materialOf
  rw [kind_prepared]
  split
  · next h =>
    rw [prepared_eq_straighten (by rw [h]; decide) (by rw [h]; decide), target_straighten]
  · rfl

/-! ### Relinking -/

namespace Relinks

variable (h : Relinks f n m)

include h

theorem placement : m.placement = n.placement := by
  have hitem : ∀ field k, m.item field k = n.item field k := by
    intro field k
    rw [item, item, h.get?_eq]
    cases hv : n.get? field with
    | none => rfl
    | some v => cases v <;> rfl
  simp only [Node.placement, hitem]

theorem onlyChild? : m.onlyChild? = n.onlyChild?.map f := by
  rw [Node.onlyChild?, Node.onlyChild?, h.children, h.kind_eq, h.placement]
  cases n.children with
  | nil => rfl
  | cons c l =>
    cases l with
    | nil =>
      show ite .. = Option.map f (ite ..)
      split <;> rfl
    | cons d l => rfl

end Relinks

/-- The child that takes the place of a node is the only one of its children, and nothing is left
out but a transform that moves nothing. -/
theorem exists_of_onlyChild? {c : NodeId} (h : n.onlyChild? = some c) :
    n.kind.isPassed = true ∧ n.children = [c] ∧ ∀ d, n.outside d = d := by
  unfold onlyChild? at h
  split at h
  · next child hchild =>
    split at h
    · next hk =>
      obtain rfl := Option.some.inj h
      refine ⟨?_, hchild, fun d => if_neg ?_⟩
      · rcases hk with hk | ⟨hk, -⟩ <;> rw [hk] <;> rfl
      · rintro ⟨hk', hid⟩
        rcases hk with hk | ⟨-, hid'⟩
        · rw [hk] at hk'
          cases hk'
        · simp [hid'] at hid
    · cases h
  · cases h

theorem onlyChild?_of_not_isPassed (h : n.kind.isPassed = false) : n.onlyChild? = none := by
  rw [← Option.not_isSome_iff_eq_none, Option.isSome_iff_exists]
  rintro ⟨c, hc⟩
  rw [(exists_of_onlyChild? hc).1] at h
  cases h

theorem mem_refs_of_onlyChild? {c : NodeId} (h : n.onlyChild? = some c) : c ∈ n.refs := by
  have hmem : c ∈ n.children := by
    rw [(exists_of_onlyChild? h).2.1]
    exact List.mem_singleton_self c
  exact (n.targets_sublist_refs _).subset hmem

/-- A node that cleaning leaves hides what lies below it as before. -/
theorem outside_of_relinks (hk : n.kind.isPassed = true) (h : Relinks f (n.prepared values) m)
    (d : Drawing) : m.outside d = n.outside d := by
  have hplacement : m.placement = n.placement.straightened := by
    rw [h.placement, prepared_of_isPassed hk, placement_straighten]
  have hkind : m.kind = n.kind := h.kind_eq.trans (kind_prepared values n)
  unfold outside
  rw [hkind, hplacement, Placement.isIdentity_straightened, Placement.straightened_straightened]

theorem onlyChild?_prepared (values : CleanValues) (hk : n.kind.isPassed = true) :
    (n.prepared values).onlyChild? = n.onlyChild? := by
  have hplacement : (n.prepared values).placement.isIdentity = n.placement.isIdentity := by
    rw [prepared_of_isPassed hk, placement_straighten, Placement.isIdentity_straightened]
  unfold onlyChild?
  rw [children_prepared hk, kind_prepared, hplacement]

end Node

end SceneTidy

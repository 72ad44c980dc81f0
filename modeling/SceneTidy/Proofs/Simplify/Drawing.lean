import Mathlib.Data.List.Forall2
import Mathlib.Data.List.Perm.Subperm
import SceneTidy.Proofs.Scene.Reachable
import SceneTidy.Simplify.Cleaning

/-!
# What a reference draws

From a reference one descends through the children of groups and transforms, and stops at any other
node.  What is drawn is the list of the nodes stopped at, each with the parameters of the transforms
passed on the way to it that move something (`Draws`); a rotation by no angle is taken about the
usual axis.  A reference draws one list at most (`Draws.unique`), and a scene without cycles can be
proved about from the leaves up (`Acyclic.induction`).
-/

namespace SceneTidy

/-- The rotation, about the usual axis if it is by no angle. -/
def Rotation.straightened (r : Rotation) : Rotation :=
  if r.angle.same .zero then Rotation.identity else r

/-- The placement with its rotations by no angle about the usual axis. -/
def Placement.straightened (p : Placement) : Placement :=
  { p with
    rotation := p.rotation.straightened
    scaleOrientation := p.scaleOrientation.straightened }

theorem Rotation.angle_same_straightened (r : Rotation) :
    r.straightened.angle.same .zero = r.angle.same .zero := by
  unfold straightened
  split
  · next h => rw [h]; rfl
  · rfl

theorem Rotation.straightened_straightened (r : Rotation) :
    r.straightened.straightened = r.straightened := by
  by_cases h : r.angle.same .zero
  · have hr : r.straightened = Rotation.identity := if_pos h
    rw [hr]
    rfl
  · exact if_neg (by rwa [angle_same_straightened])

theorem Placement.straightened_straightened (p : Placement) :
    p.straightened.straightened = p.straightened := by
  simp only [straightened, Rotation.straightened_straightened]

theorem Placement.isIdentity_straightened (p : Placement) :
    p.straightened.isIdentity = p.isIdentity := by
  simp only [isIdentity, straightened, Rotation.angle_same_straightened]

/-- A node that is drawn, and the parameters of the transforms passed on the way to it. -/
structure Drawing where
  passed : List Placement
  stop : NodeId

/-- What is drawn below a node, as seen from outside it. -/
def Node.outside (n : Node) (d : Drawing) : Drawing :=
  if n.kind = .transform ∧ !n.placement.isIdentity then
    { d with passed := n.placement.straightened :: d.passed }
  else d

/-- Whether one descends through nodes of a kind. -/
def NodeKind.isPassed : NodeKind → Bool
  | group | transform => true
  | _ => false

namespace Scene

variable {s t : Scene} {start id : NodeId}

/-- What a reference to a node draws. -/
inductive Draws (s : Scene) : NodeId → List Drawing → Prop
  | stop {id : NodeId} (h : ∀ n, s.node? id = some n → n.kind.isPassed = false) :
      Draws s id [⟨[], id⟩]
  | pass {id : NodeId} {n : Node} (hn : s.node? id = some n) (hk : n.kind.isPassed = true)
      (f : NodeId → List Drawing) (h : ∀ c ∈ n.children, Draws s c (f c)) :
      Draws s id ((n.children.flatMap f).map n.outside)

/-- A reference draws one list at most. -/
theorem Draws.unique {r q : List Drawing} (hr : s.Draws id r) (hq : s.Draws id q) : r = q := by
  induction hr generalizing q with
  | @stop id h =>
    cases hq with
    | stop => rfl
    | pass hn hk => exact absurd ((h _ hn).symm.trans hk) (by decide)
  | @pass id n hn hk f h ih =>
    cases hq with
    | stop h' => exact absurd ((h' _ hn).symm.trans hk) (by decide)
    | @pass _ m hm _ g hg =>
      obtain rfl := Option.some.inj (hn.symm.trans hm)
      rw [List.flatMap_congr fun c hc => ih c hc (hg c hc)]

/-- A group or transform whose children are the images of others draws what those draw. -/
theorem Draws.pass_map {n : Node} (hn : s.node? id = some n) (hk : n.kind.isPassed = true)
    {cs : List NodeId} {f : NodeId → NodeId} {g : NodeId → List Drawing}
    (hchildren : n.children = cs.map f) (hg : ∀ c ∈ cs, s.Draws (f c) (g c)) :
    s.Draws id ((cs.flatMap g).map n.outside) := by
  have hex : ∀ y ∈ n.children, ∃ q, s.Draws y q := by
    intro y hy
    rw [hchildren] at hy
    obtain ⟨c, hc, rfl⟩ := List.mem_map.1 hy
    exact ⟨g c, hg c hc⟩
  choose! q hq using hex
  have hlist : n.children.flatMap q = cs.flatMap g := by
    rw [hchildren, List.flatMap_map]
    refine List.flatMap_congr fun c hc => ?_
    exact (hq _ (by rw [hchildren]; exact List.mem_map_of_mem hc)).unique (hg c hc)
  rw [← hlist]
  exact .pass hn hk q hq

/-! ### Scenes without cycles -/

/-- No node reachable from the start comes back to itself. -/
def Acyclic (s : Scene) (start : NodeId) : Prop :=
  ∀ a, s.Reaches start a → ¬ Relation.TransGen s.Refers a a

/-- In a scene without cycles, what leads to a node is not reached from those it refers to. -/
theorem Acyclic.not_reaches (h : s.Acyclic start) {pending : List NodeId}
    (hid : s.Reaches start id) (hp : ∀ p ∈ pending, ¬ s.Reaches id p) {a : NodeId}
    (ha : s.Refers id a) : ∀ p ∈ id :: pending, ¬ s.Reaches a p := by
  intro p hmem hap
  rcases List.mem_cons.1 hmem with rfl | hmem
  · exact h p hid (.head' ha hap)
  · exact hp p hmem (.head ha hap)

/-- In a scene without cycles, a walk gets shorter along every reference. -/
theorem Acyclic.length_walk_lt (h : s.Acyclic start) {a b : NodeId} (ha : s.Reaches start a)
    (hab : s.Refers a b) : (s.walk b).length < (s.walk a).length := by
  have hsub : a :: s.walk b ⊆ s.walk a := by
    refine List.cons_subset.2 ⟨start_mem_walk (node?_isSome_of_mem_refs hab), fun c hc => ?_⟩
    obtain ⟨hc, hbc⟩ := mem_walk_iff.1 hc
    exact mem_walk_iff.2 ⟨hc, .head hab hbc⟩
  have hnew : a ∉ s.walk b := fun hmem =>
    h a ha (.head' hab (mem_walk_iff.1 hmem).2)
  exact ((List.nodup_cons.2 ⟨hnew, s.nodup_walk b⟩).subperm hsub).length_le

/-- In a scene without cycles, what holds of all nodes that a node refers to may be used of it. -/
theorem Acyclic.induction (h : s.Acyclic start) {P : NodeId → Prop}
    (step : ∀ a, s.Reaches start a → (∀ b, s.Refers a b → P b) → P a) {a : NodeId}
    (ha : s.Reaches start a) : P a := by
  -- the induction is on the number of nodes reached
  induction hk : (s.walk a).length using Nat.strongRecOn generalizing a with
  | _ k ih =>
    refine step a ha fun b hab => ih _ ?_ (.tail ha hab) rfl
    exact hk ▸ h.length_walk_lt ha hab

/-- A scene in which every reference leads to a later place has no cycles. -/
theorem acyclic_of_lt (h : ∀ a b, s.Refers a b → a < b) : s.Acyclic start := by
  have hlt : ∀ a b, Relation.TransGen s.Refers a b → a < b := by
    intro a b hab
    induction hab with
    | single hab => exact h _ _ hab
    | tail _ hbc ih => exact Nat.lt_trans ih (h _ _ hbc)
  exact fun a _ ha => Nat.lt_irrefl a (hlt a a ha)

/-! ### Drawing alike -/

/-- Two nodes are appearances of one material. -/
def SharesMaterial (s : Scene) (a b : NodeId) : Prop :=
  ∃ n m material, s.node? a = some n ∧ s.node? b = some m ∧ n.kind = .appearance ∧
    m.kind = .appearance ∧ n.target "material" = some material ∧
    m.target "material" = some material

/-- Two drawings agree: the transforms passed are the same, and so is the node stopped at, unless
both are appearances of what was one material. -/
def Alike (s : Scene) (d e : Drawing) : Prop :=
  d.passed = e.passed ∧ (d.stop = e.stop ∨ s.SharesMaterial d.stop e.stop)

theorem Alike.outside (n : Node) {d e : Drawing} (h : s.Alike d e) :
    s.Alike (n.outside d) (n.outside e) := by
  obtain ⟨hpassed, hstop⟩ := h
  unfold Node.outside
  split
  · exact ⟨congrArg (n.placement.straightened :: ·) hpassed, hstop⟩
  · exact ⟨hpassed, hstop⟩

/-- Drawings made of those of some nodes agree if those do, one by one. -/
theorem forall₂_alike_outside (n : Node) {cs : List NodeId} {f g : NodeId → List Drawing}
    (h : ∀ c ∈ cs, List.Forall₂ s.Alike (f c) (g c)) :
    List.Forall₂ s.Alike ((cs.flatMap f).map n.outside) ((cs.flatMap g).map n.outside) := by
  rw [List.forall₂_map_left_iff, List.forall₂_map_right_iff]
  have hall : List.Forall₂ s.Alike (cs.flatMap f) (cs.flatMap g) := by
    induction cs with
    | nil => exact .nil
    | cons c cs ih =>
      obtain ⟨hc, hcs⟩ := List.forall_mem_cons.1 h
      exact List.rel_append hc (ih hcs)
  exact hall.imp fun d e hde => hde.outside n

/-- A reference in one scene draws what another one draws in a scene that came of it. -/
def DrawsAlike (s t : Scene) (a b : NodeId) : Prop :=
  ∃ r q, s.Draws a r ∧ t.Draws b q ∧ List.Forall₂ s.Alike r q

/-- The root stays, and every node that is still reachable keeps its kind and has as many references
in each field as before, which draw what they drew, position by position. -/
def KeepsDrawing (s t : Scene) : Prop :=
  t.root = s.root ∧ ∀ id, t.Reaches s.root id → ∀ n, s.node? id = some n → ∃ m,
    t.node? id = some m ∧ m.kind = n.kind ∧ ∀ field v, n.get? field = some v → ∃ w,
      m.get? field = some w ∧ List.Forall₂ (s.DrawsAlike t) v.refs w.refs

end Scene

end SceneTidy

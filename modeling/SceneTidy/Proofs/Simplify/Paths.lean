import Mathlib.Data.List.Flatten
import SceneTidy.Proofs.Numeric.SameValue
import SceneTidy.Proofs.Scene.Reachable
import SceneTidy.Proofs.Scene.Slots
import SceneTidy.Simplify.Folding

/-!
# Paths through a scene

A path follows references that files show.  Each step records the field, the position if a switch
picks by it, and the node come to: a transform is known by the values of its parameters, any other
node by its place (`Mark`).  Main statements: numbers with the same value are the same, unless they
are not numbers (`Placement.same_iff`); the steps out of a grouping node follow its children
(`Node.exists_exits_children`).
-/

namespace SceneTidy

/-! ### Values -/

/-- The numbers of a rotation. -/
def Rotation.numbers (r : Rotation) : List Binary64 := [r.x, r.y, r.z, r.angle]

namespace Placement

/-- All numbers of a placement. -/
def numbers (p : Placement) : List Binary64 :=
  p.center.numbers ++ p.rotation.numbers ++ p.scale.numbers ++ p.scaleOrientation.numbers ++
    p.shift.numbers

/-- A placement by the values of its numbers. -/
def key (p : Placement) : List (Option Int) := p.numbers.map Binary64.value?

/-- Placements are the same if their numbers have the same values and are numbers. -/
theorem same_iff {p q : Placement} :
    p.same q ↔ (∀ x ∈ p.numbers, x.isNaN = false) ∧ p.key = q.key := by
  simp only [same, Vec3.same, Rotation.same, Bool.and_eq_true, Binary64.same_iff, key, numbers,
    Vec3.numbers, Rotation.numbers, List.cons_append, List.nil_append, List.map_cons, List.map_nil,
    List.cons.injEq, List.forall_mem_cons, and_true]
  constructor
  · rintro ⟨⟨⟨⟨h₁, h₂⟩, h₃⟩, h₄⟩, h₅⟩
    simp_all
  · rintro ⟨h₁, h₂⟩
    simp_all

theorem key_eq_of_same {p q : Placement} (h : p.same q) : p.key = q.key := (same_iff.1 h).2

end Placement

theorem Node.placement_setChildren (n : Node) (ts : List NodeId) :
    (n.setChildren ts).placement = n.placement := by
  have hne : ∀ field, field ≠ "choice" → field ≠ "children" →
      (n.setChildren ts).get? field = n.get? field := by
    intro field h₁ h₂
    refine n.get?_set_of_ne ?_ _
    cases n.kind <;> first | exact h₁.symm | exact h₂.symm
  have hitem : ∀ field k, field ≠ "choice" → field ≠ "children" →
      (n.setChildren ts).item field k = n.item field k := by
    intro field k h₁ h₂
    rw [item, item, hne field h₁ h₂]
  simp only [placement, hitem _ _ (by decide : "center" ≠ "choice") (by decide),
    hitem _ _ (by decide : "rotation" ≠ "choice") (by decide),
    hitem _ _ (by decide : "scale" ≠ "choice") (by decide),
    hitem _ _ (by decide : "scaleOrientation" ≠ "choice") (by decide),
    hitem _ _ (by decide : "translation" ≠ "choice") (by decide)]

/-! ### Steps -/

/-- How a path knows a node: a transform by its values, any other by its place. -/
inductive Mark
  | transform (key : List (Option Int))
  | node (id : NodeId)
  deriving DecidableEq

/-- A way out of a node: a field that files show, the position if a switch picks by it, and the
node referred to. -/
structure Exit where
  field : String
  position : Option Nat
  target : NodeId

/-- A step of a path, as it is recorded. -/
structure Step where
  field : String
  position : Option Nat
  reached : Mark
  deriving DecidableEq

/-- The ways out by one field. -/
def exitsOfSlot (switch : Bool) (p : FieldDecl × FieldValue) : List Exit :=
  if p.1.exposed then
    p.2.refs.zipIdx.map fun t => ⟨p.1.name, if switch then some t.2 else none, t.1⟩
  else []

/-- The ways out of a node. -/
def Node.exits (n : Node) : List Exit := n.slots.flatMap (exitsOfSlot (n.kind = .switch))

namespace Scene

/-- The ways out of the node at a place. -/
def exits (s : Scene) (id : NodeId) : List Exit := ((s.node? id).map Node.exits).getD []

/-- How a path knows the node at a place. -/
def mark (s : Scene) (id : NodeId) : Mark :=
  match s.node? id with
  | some n => if n.kind = .transform then .transform n.placement.key else .node id
  | none => .node id

/-- The step by a way out. -/
def step (s : Scene) (e : Exit) : Step := ⟨e.field, e.position, s.mark e.target⟩

/-- The paths of a length from a node that end in a node other than a transform. -/
def paths (s : Scene) : Nat → NodeId → List (List Step)
  | 0, id => if s.isKind .transform id then [] else [[]]
  | n + 1, id => (s.exits id).flatMap fun e => (s.paths n e.target).map (s.step e :: ·)

end Scene

/-- A way out by a child. -/
def childExit (t : NodeId) : Exit := ⟨"children", none, t⟩

theorem exitsOfSlot_eq (p : FieldDecl × FieldValue) :
    exitsOfSlot false p =
      if p.1.exposed then p.2.refs.map fun t => ⟨p.1.name, none, t⟩ else [] := by
  unfold exitsOfSlot
  split
  · conv => rhs; rw [← List.zipIdx_map_fst 0 p.2.refs, List.map_map]
    rfl
  · rfl

namespace Node

variable {n : Node}

theorem childrenField_of_ne (h : n.kind ≠ .switch) : n.kind.childrenField = "children" := by
  revert h
  cases n.kind <;> first | exact fun _ => rfl | exact fun h => absurd rfl h

/-- The ways out of a grouping node follow its children, in their order. -/
theorem exists_exits_children (hg : n.kind.isGrouping) (hs : n.kind ≠ .switch) :
    ∃ l₁ l₂, n.exits = l₁ ++ n.children.map childExit ++ l₂ ∧
      ∀ ts, (n.setChildren ts).exits = l₁ ++ ts.map childExit ++ l₂ := by
  obtain ⟨l₁, d, l₂, hslots, hname, hx, hset⟩ := exists_slots_children hg
  have hfield : d.name = "children" := hname.trans (childrenField_of_ne hs)
  have hswitch : decide (n.kind = .switch) = false := decide_eq_false hs
  have hmid : ∀ ts : List NodeId, exitsOfSlot false (d, .nodes ts) = ts.map childExit := by
    intro ts
    rw [exitsOfSlot_eq, if_pos hx, hfield]
    rfl
  refine ⟨l₁.flatMap (exitsOfSlot false), l₂.flatMap (exitsOfSlot false), ?_, fun ts => ?_⟩
  · rw [exits, hslots, hswitch, List.flatMap_append, List.flatMap_cons, hmid, List.append_assoc]
  · have hkind : (n.setChildren ts).kind = n.kind := rfl
    rw [exits, hset, hkind, hswitch, List.flatMap_append, List.flatMap_cons, hmid,
      List.append_assoc]

/-- A transform has ways out by its children only. -/
theorem exits_transform (h : n.kind = .transform) : n.exits = n.children.map childExit := by
  have hg : n.kind.isGrouping := by rw [h]; rfl
  have hs : decide (n.kind = .switch) = false := by rw [h]; rfl
  obtain ⟨l₁, d, l₂, hslots, hname, hx, -⟩ := exists_slots_children hg
  have hfield : d.name = "children" := by rw [hname, h]; rfl
  have honly : ∀ e ∈ NodeKind.transform.fields, e.exposed = true → e.name ≠ "children" →
      e.kind ≠ .node ∧ e.kind ≠ .nodes := by decide +kernel
  have hnil : ∀ p ∈ l₁ ++ l₂, exitsOfSlot false p = [] := by
    rintro ⟨e, v⟩ hp
    have hmem : (e, v) ∈ n.slots := by
      rw [hslots]
      rcases List.mem_append.1 hp with hp | hp
      · exact List.mem_append_left _ hp
      · exact List.mem_append_right _ (List.mem_cons_of_mem _ hp)
    have hnames := n.nodup_slots_names
    rw [hslots, List.map_append, List.map_cons] at hnames
    have hne : e.name ≠ "children" := by
      intro he
      have hnot := (List.nodup_cons.1 (List.nodup_middle.1 hnames)).1
      rw [← List.map_append, hfield, ← he] at hnot
      exact hnot (List.mem_map.2 ⟨_, hp, rfl⟩)
    rw [exitsOfSlot_eq]
    split
    · next hex =>
      obtain ⟨h₁, h₂⟩ := honly e (h ▸ mem_fields_of_mem_slots hmem) hex hne
      rw [← kind_of_mem_slots hmem] at h₁ h₂
      cases v with
      | one k x => rfl
      | many k xs => rfl
      | node t => exact absurd rfl h₁
      | nodes ts => exact absurd rfl h₂
    · rfl
  have hall : ∀ l : List (FieldDecl × FieldValue), (∀ p ∈ l, exitsOfSlot false p = []) →
      l.flatMap (exitsOfSlot false) = [] := fun l hl => List.flatMap_eq_nil_iff.2 hl
  rw [exits, hslots, hs, List.flatMap_append, List.flatMap_cons,
    hall l₁ fun p hp => hnil p (List.mem_append_left _ hp),
    hall l₂ fun p hp => hnil p (List.mem_append_right _ hp), exitsOfSlot_eq, if_pos hx, hfield,
    List.nil_append, List.append_nil]
  rfl

/-- The ways out lead to nodes referred to, each as often as it is referred to at most. -/
theorem count_exits_le (n : Node) (t : NodeId) :
    (n.exits.map Exit.target).count t ≤ n.refs.count t := by
  rw [exits, refs_eq_flatMap_slots, List.map_flatMap]
  refine (List.Sublist.flatMap_right _ fun p _ => ?_).count_le t
  unfold exitsOfSlot
  split
  · rw [List.map_map]
    have htarget : ∀ b : Bool, (p.2.refs.zipIdx.map (Exit.target ∘ fun t =>
        (⟨p.1.name, if b then some t.2 else none, t.1⟩ : Exit))) = p.2.refs := fun b =>
      List.zipIdx_map_fst 0 p.2.refs
    rw [htarget]
  · exact List.nil_sublist _

end Node

namespace Scene

variable {s : Scene} {id : NodeId}

theorem exits_of_node? {n : Node} (h : s.node? id = some n) : s.exits id = n.exits := by
  simp [exits, h]

theorem mem_refs_of_mem_exits {e : Exit} (h : e ∈ s.exits id) : e.target ∈ s.refs id := by
  cases hn : s.node? id with
  | none => simp [exits, hn] at h
  | some n =>
    rw [exits_of_node? hn] at h
    rw [refs_of_node? hn]
    have hpos : 0 < (n.exits.map Exit.target).count e.target :=
      List.count_pos_iff.2 (List.mem_map_of_mem h)
    exact List.count_pos_iff.1 (Nat.lt_of_lt_of_le hpos (n.count_exits_le e.target))

@[simp] theorem kind?_setChildren (s : Scene) (id : NodeId) (ts : List NodeId) (x : NodeId) :
    (s.setChildren id ts).kind? x = s.kind? x := by
  rw [kind?, kind?, node?_setChildren]
  split
  · rw [Option.map_map]
    rfl
  · rfl

@[simp] theorem isKind_setChildren (s : Scene) (k : NodeKind) (id : NodeId) (ts : List NodeId)
    (x : NodeId) : (s.setChildren id ts).isKind k x = s.isKind k x := by
  rw [isKind, isKind, kind?_setChildren]

@[simp] theorem mark_setChildren (s : Scene) (id : NodeId) (ts : List NodeId) (x : NodeId) :
    (s.setChildren id ts).mark x = s.mark x := by
  by_cases h : id = x
  · cases hn : s.node? x with
    | none => simp [mark, node?_setChildren, hn]
    | some n =>
      have hkind : (n.setChildren ts).kind = n.kind := rfl
      simp [mark, node?_setChildren, hn, h, hkind, Node.placement_setChildren]
  · rw [mark, mark, node?_setChildren_of_ne h]

@[simp] theorem node?_isSome_setChildren (s : Scene) (id : NodeId) (ts : List NodeId) (x : NodeId) :
    ((s.setChildren id ts).node? x).isSome = (s.node? x).isSome := by
  rw [node?_setChildren]
  split
  · exact Option.isSome_map
  · rfl

end Scene

end SceneTidy

import SceneTidy.Proofs.Scene.Reachable
import SceneTidy.Proofs.Scene.Slots

/-!
# Lists beside the children

Grouping nodes have two more lists of nodes beside their children, which are meant for changes
while a scene is shown and which files do not keep.  In a scene where these lists are empty
(`Scene.NoneAside`) a group or transform refers to its children only
(`Node.NoneAside.refs_eq_children`).
-/

namespace SceneTidy

theorem NodeKind.name_of_nodes {k : NodeKind} {d : FieldDecl} (hd : d ∈ k.fields)
    (h : d.kind = .nodes) :
    d.name = k.childrenField ∨ d.name = "addChildren" ∨ d.name = "removeChildren" := by
  have hall : ∀ k : NodeKind, ∀ d ∈ k.fields, d.kind = .nodes →
      d.name = k.childrenField ∨ d.name = "addChildren" ∨ d.name = "removeChildren" := by
    intro k
    cases k <;> decide +kernel
  exact hall k d hd h

namespace Node

variable {n : Node}

/-- A grouping node refers to its children only, if no other field refers to anything. -/
theorem refs_eq_children (hg : n.kind.isGrouping)
    (h : ∀ p ∈ n.slots, p.1.name ≠ n.kind.childrenField → p.2.refs = []) :
    n.refs = n.children := by
  obtain ⟨l₁, d, l₂, hslots, hname, -, -⟩ := exists_slots_children hg
  have hnames := n.nodup_slots_names
  rw [hslots, List.map_append, List.map_cons] at hnames
  have hnot := (List.nodup_cons.1 (List.nodup_middle.1 hnames)).1
  rw [← List.map_append] at hnot
  have hnil : ∀ p ∈ l₁ ++ l₂, p.2.refs = [] := by
    intro p hp
    refine h p ?_ fun he => hnot ?_
    · rw [hslots]
      rcases List.mem_append.1 hp with hp | hp
      · exact List.mem_append_left _ hp
      · exact List.mem_append_right _ (List.mem_cons_of_mem _ hp)
    · rw [hname, ← he]
      exact List.mem_map_of_mem (f := fun p : FieldDecl × FieldValue => p.1.name) hp
  have hall : ∀ l : List (FieldDecl × FieldValue), (∀ p ∈ l, p.2.refs = []) →
      l.flatMap (·.2.refs) = [] := fun l hl => List.flatMap_eq_nil_iff.2 hl
  rw [refs_eq_flatMap_slots, hslots, List.flatMap_append, List.flatMap_cons,
    hall l₁ fun p hp => hnil p (List.mem_append_left _ hp),
    hall l₂ fun p hp => hnil p (List.mem_append_right _ hp), List.nil_append, List.append_nil]
  rfl

/-- The lists beside the children are empty. -/
def NoneAside (n : Node) : Prop :=
  n.targets "addChildren" = [] ∧ n.targets "removeChildren" = []

instance (n : Node) : Decidable n.NoneAside := inferInstanceAs (Decidable (_ ∧ _))

/-- With nothing beside the children, all other lists of a node are empty. -/
theorem NoneAside.name_eq_or_nil (h : n.NoneAside) {d : FieldDecl} {ts : List NodeId}
    (hd : (d, .nodes ts) ∈ n.slots) : d.name = n.kind.childrenField ∨ ts = [] := by
  have htargets : n.targets d.name = ts := by rw [targets, get?_of_mem_slots hd]
  refine (NodeKind.name_of_nodes (mem_fields_of_mem_slots hd) (kind_of_mem_slots hd).symm).imp_right
    fun hname => ?_
  rw [← htargets]
  rcases hname with he | he
  · rw [he, h.1]
  · rw [he, h.2]

theorem NoneAside.mem_children (h : n.NoneAside) {d : FieldDecl} {ts : List NodeId}
    (hd : (d, .nodes ts) ∈ n.slots) {x : NodeId} (hx : x ∈ ts) : x ∈ n.children := by
  rcases h.name_eq_or_nil hd with he | rfl
  · rwa [children, ← he, targets, get?_of_mem_slots hd]
  · exact absurd hx List.not_mem_nil

/-- A group or transform with nothing beside its children refers to them only. -/
theorem NoneAside.refs_eq_children (h : n.NoneAside) (hk : n.kind = .group ∨ n.kind = .transform) :
    n.refs = n.children := by
  have hfields : ∀ d ∈ n.kind.fields, d.kind ≠ .node := by
    rcases hk with hk | hk <;> rw [hk] <;> decide +kernel
  refine Node.refs_eq_children (by rcases hk with hk | hk <;> rw [hk] <;> rfl) fun p hp hne => ?_
  obtain ⟨d, v⟩ := p
  cases v with
  | one k x => rfl
  | many k xs => rfl
  | node t => exact absurd (kind_of_mem_slots hp).symm (hfields d (mem_fields_of_mem_slots hp))
  | nodes ts => exact (h.name_eq_or_nil hp).resolve_left hne

end Node

namespace Scene

/-- No node reached from a start has anything beside its children. -/
def NoneAside (s : Scene) (start : NodeId) : Prop :=
  ∀ x n, s.Reaches start x → s.node? x = some n → n.NoneAside

theorem noneAside_of_forall {s : Scene} {start : NodeId} (h : ∀ n ∈ s.nodes, n.NoneAside) :
    s.NoneAside start :=
  fun _ n _ hn => h n (Array.mem_of_getElem? hn)

end Scene

end SceneTidy

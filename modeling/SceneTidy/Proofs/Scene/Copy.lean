import Mathlib.Data.List.Flatten
import Mathlib.Data.Set.Function
import SceneTidy.Proofs.Scene.Reachable
import SceneTidy.Proofs.Scene.Slots
import SceneTidy.Vrml.Outline

/-!
# Copies of what a scene shows

A node shows another if a field of it that files show refers to the other.  A scene is a copy of
another if its nodes correspond one to one to the nodes shown from the other's root, with equal
kinds and with fields that agree (`IsCopy`).  The module also says what the written fields of a node
are (`Node.mem_written_iff`), what comes of giving a node several values (`Node.get?_setAll`), and
when a node is another one with other references (`Node.Relinks`).
-/

namespace SceneTidy

namespace FieldValue

/-- The value with other nodes in place of those that it refers to. -/
def relink (f : NodeId → NodeId) : FieldValue → FieldValue
  | node target => node (target.map f)
  | nodes targets => nodes (targets.map f)
  | v => v

/-- Two values are equal, or equal as numbers. -/
def Agrees (v w : FieldValue) : Prop := v = w ∨ v.same w

variable {f g : NodeId → NodeId} {v w : FieldValue}

@[simp] theorem kind_relink (f : NodeId → NodeId) (v : FieldValue) :
    (v.relink f).kind = v.kind := by
  cases v <;> rfl

theorem refs_relink (f : NodeId → NodeId) (v : FieldValue) :
    (v.relink f).refs = v.refs.map f := by
  cases v with
  | one k x => rfl
  | many k xs => rfl
  | node t => cases t <;> rfl
  | nodes ts => rfl

theorem relink_of_refs_nil (h : v.refs = []) : v.relink f = v := by
  cases v with
  | one k v => rfl
  | many k vs => rfl
  | node t =>
    obtain rfl : t = none := by simpa [refs] using h
    rfl
  | nodes ts =>
    obtain rfl : ts = [] := h
    rfl

theorem relink_congr (h : ∀ r ∈ v.refs, f r = g r) : v.relink f = v.relink g := by
  cases v with
  | one k v => rfl
  | many k vs => rfl
  | node t =>
    cases t with
    | none => rfl
    | some r =>
      show node (some (f r)) = node (some (g r))
      rw [h r (List.mem_singleton_self r)]
  | nodes ts => exact congrArg nodes (List.map_congr_left h)

theorem relink_of_fixed (h : ∀ r ∈ v.refs, f r = r) : v.relink f = v := by
  have hid : v.relink id = v := by
    cases v with
    | one k v => rfl
    | many k vs => rfl
    | node t => cases t <;> rfl
    | nodes ts => exact congrArg nodes (List.map_id ts)
  exact (relink_congr h).trans hid

theorem refs_of_same (h : v.same w) : v.refs = w.refs := by
  cases v <;> cases w <;> simp_all [same, refs]

end FieldValue

namespace Scene

/-- A field of one node that files show refers to another node. -/
def Shows (s : Scene) (a b : NodeId) : Prop :=
  ∃ n, s.node? a = some n ∧ ∃ p ∈ n.slots, p.1.exposed = true ∧ b ∈ p.2.refs

/-- A node is come to by following the references that files show. -/
def ShownFrom (s : Scene) : NodeId → NodeId → Prop := Relation.ReflTransGen s.Shows

theorem Shows.refers {s : Scene} {a b : NodeId} (h : s.Shows a b) : s.Refers a b := by
  obtain ⟨n, hn, p, hp, -, hb⟩ := h
  rw [Refers, refs_of_node? hn, Node.refs_eq_flatMap_slots]
  exact List.mem_flatMap.2 ⟨p, hp, hb⟩

theorem ShownFrom.reaches {s : Scene} {a b : NodeId} (h : s.ShownFrom a b) : s.Reaches a b := by
  induction h with
  | refl => exact .refl
  | tail _ hab ih => exact ih.tail hab.refers

/-- The nodes of one scene are copies of those shown from the root of another: they correspond one
to one, with equal kinds, and the fields that files show agree when references are followed along.
-/
structure IsCopy (s t : Scene) (f : NodeId → NodeId) : Prop where
  root : f s.root = t.root
  bijOn : Set.BijOn f {a | s.ShownFrom s.root a} {b | (t.node? b).isSome}
  kind : ∀ a, s.ShownFrom s.root a → t.kind? (f a) = s.kind? a
  fields : ∀ a n m, s.ShownFrom s.root a → s.node? a = some n → t.node? (f a) = some m →
    ∀ d ∈ n.kind.fields, d.exposed = true →
      ∃ v w, n.get? d.name = some v ∧ m.get? d.name = some w ∧ (v.relink f).Agrees w

end Scene

theorem NodeKind.refs_declared (k : NodeKind) : ∀ d ∈ k.fields, d.declared.refs = [] := by
  cases k <;> decide +kernel

namespace Node

variable {n m : Node} {field : String} {v : FieldValue} {f : NodeId → NodeId}

/-! ### Written fields -/

theorem perm_written (n : Node) : List.Perm n.written
    ((n.changed.filter (·.1.exposed)).map fun p => (p.1.name, p.2)) :=
  (List.mergeSort_perm ..).map _

/-- The written fields are those that files show and that do not hold what was declared. -/
theorem mem_written_iff : (field, v) ∈ n.written ↔
    ∃ d, (d, v) ∈ n.slots ∧ d.name = field ∧ d.exposed = true ∧ v.same d.declared = false := by
  rw [n.perm_written.mem_iff, List.mem_map]
  constructor
  · rintro ⟨⟨d, w⟩, hm, he⟩
    obtain ⟨rfl, rfl⟩ := Prod.mk.inj he
    obtain ⟨hc, hx⟩ := List.mem_filter.1 hm
    obtain ⟨hs, hd⟩ := List.mem_filter.1 hc
    exact ⟨d, hs, rfl, hx, by simpa using hd⟩
  · rintro ⟨d, hs, rfl, hx, hd⟩
    exact ⟨(d, v), List.mem_filter.2 ⟨List.mem_filter.2 ⟨hs, by simp [hd]⟩, hx⟩, rfl⟩

theorem nodup_written (n : Node) : (n.written.map Prod.fst).Nodup := by
  rw [(n.perm_written.map Prod.fst).nodup_iff, List.map_map]
  refine n.nodup_slots_names.sublist (List.Sublist.map _ ?_)
  exact List.filter_sublist.trans List.filter_sublist

/-- The references of the written fields are among those of the node. -/
theorem count_written_le (n : Node) (x : NodeId) :
    (n.written.flatMap (·.2.refs)).count x ≤ n.refs.count x := by
  rw [(n.perm_written.flatMap_right _).count_eq, List.flatMap_map, refs_eq_flatMap_slots]
  exact ((List.filter_sublist.trans List.filter_sublist).flatMap _).count_le x

/-! ### Giving a node several values -/

/-- Give fields values, one after the other. -/
def setAll (n : Node) (l : List (String × FieldValue)) : Node :=
  l.foldl (fun n p => n.set p.1 p.2) n

@[simp] theorem kind_setAll (n : Node) (l : List (String × FieldValue)) :
    (n.setAll l).kind = n.kind := by
  induction l generalizing n with
  | nil => rfl
  | cons p l ih => exact ih (n.set p.1 p.2)

theorem get?_setAll_of_not_mem {l : List (String × FieldValue)} (h : field ∉ l.map Prod.fst) :
    (n.setAll l).get? field = n.get? field := by
  induction l generalizing n with
  | nil => rfl
  | cons p l ih =>
    rw [List.map_cons, List.mem_cons, not_or] at h
    exact (ih (n := n.set p.1 p.2) h.2).trans (n.get?_set_of_ne (Ne.symm h.1) p.2)

theorem get?_setAll {l : List (String × FieldValue)} (hl : (l.map Prod.fst).Nodup)
    (hm : (field, v) ∈ l) {w : FieldValue} (hw : n.get? field = some w) (hk : v.kind = w.kind) :
    (n.setAll l).get? field = some v := by
  induction l generalizing n with
  | nil => exact absurd hm List.not_mem_nil
  | cons p l ih =>
    rw [List.map_cons, List.nodup_cons] at hl
    rcases List.mem_cons.1 hm with rfl | hm
    · exact (get?_setAll_of_not_mem (n := n.set field v) hl.1).trans (get?_set_self hw hk)
    · have hne : p.1 ≠ field := by
        rintro rfl
        exact hl.1 (List.mem_map.2 ⟨_, hm, rfl⟩)
      exact ih (n := n.set p.1 p.2) hl.2 hm ((n.get?_set_of_ne hne p.2).trans hw)

/-! ### Nodes with other references -/

/-- A node is another one with other nodes in place of those referred to. -/
structure Relinks (f : NodeId → NodeId) (n m : Node) : Prop where
  kind_eq : m.kind = n.kind
  get?_eq : ∀ field, m.get? field = (n.get? field).map (FieldValue.relink f)

namespace Relinks

variable (h : Relinks f n m)

include h

theorem children : m.children = n.children.map f := by
  rw [Node.children, Node.children, h.kind_eq, targets, targets, h.get?_eq]
  cases hv : n.get? n.kind.childrenField with
  | none => rfl
  | some v => cases v <;> rfl

theorem exists_of_mem_refs {t : NodeId} (ht : t ∈ m.refs) : ∃ c ∈ n.refs, f c = t := by
  obtain ⟨field, w, hw, ht⟩ := mem_refs_iff.1 ht
  rw [h.get?_eq] at hw
  obtain ⟨v, hv, rfl⟩ := Option.map_eq_some_iff.1 hw
  rw [FieldValue.refs_relink] at ht
  obtain ⟨c, hc, rfl⟩ := List.mem_map.1 ht
  exact ⟨c, mem_refs_iff.2 ⟨field, v, hv, hc⟩, rfl⟩

theorem congr {g : NodeId → NodeId} (hfg : ∀ t ∈ n.refs, f t = g t) : Relinks g n m where
  kind_eq := h.kind_eq
  get?_eq field := by
    rw [h.get?_eq]
    cases hv : n.get? field with
    | none => rfl
    | some v =>
      rw [Option.map_some, Option.map_some, FieldValue.relink_congr fun t ht =>
        hfg t (mem_refs_iff.2 ⟨field, v, hv, ht⟩)]

end Relinks

end Node

namespace Scene

variable {s : Scene} {a b : NodeId}

/-- A reference that files show is one of a written field. -/
theorem Shows.exists_written (h : s.Shows a b) :
    ∃ n, s.node? a = some n ∧ ∃ p ∈ n.written, b ∈ p.2.refs := by
  obtain ⟨n, hn, p, hp, hx, hb⟩ := h
  refine ⟨n, hn, (p.1.name, p.2), Node.mem_written_iff.2 ⟨p.1, hp, rfl, hx, ?_⟩, hb⟩
  cases hsame : p.2.same p.1.declared with
  | false => rfl
  | true =>
    have hnil := n.kind.refs_declared p.1 (Node.mem_fields_of_mem_slots hp)
    rw [FieldValue.refs_of_same hsame, hnil] at hb
    exact absurd hb List.not_mem_nil

theorem shows_of_mem_written {n : Node} (hn : s.node? a = some n) {p : String × FieldValue}
    (hp : p ∈ n.written) (hb : b ∈ p.2.refs) : s.Shows a b := by
  obtain ⟨d, hd, -, hx, -⟩ := Node.mem_written_iff.1 hp
  exact ⟨n, hn, (d, p.2), hd, hx, hb⟩

end Scene

end SceneTidy

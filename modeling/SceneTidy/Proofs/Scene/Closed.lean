import SceneTidy.Proofs.Scene.Copy
import SceneTidy.Proofs.Scene.Reachable

/-!
# Closed scenes

In a closed scene every reference leads to a node that has a place in files, so that no list holds
nothing, and nothing refers to the root.  Main statements: a scene stays closed when a node is added
or changed, provided that all that the node refers to has a place in files (`Closed.follows_push`,
`Closed.follows_modify`); then all other nodes keep their kinds (`Follows`).
-/

namespace SceneTidy

namespace Node

variable {n : Node} {field : String} {v : FieldValue} {y : NodeId}

/-- A field that is given a value brings no other references than those of the value. -/
theorem mem_refs_of_mem_refs_set (h : y ∈ (n.set field v).refs) : y ∈ n.refs ∨ y ∈ v.refs := by
  rw [refs_eq_flatMap_slots, slots_set] at h
  obtain ⟨p, hp, hy⟩ := List.mem_flatMap.1 h
  obtain ⟨q, hq, rfl⟩ := List.mem_map.1 hp
  split at hy
  · exact .inr hy
  · rw [refs_eq_flatMap_slots]
    exact .inl (List.mem_flatMap.2 ⟨q, hq, hy⟩)

/-- A new node refers to nothing. -/
@[simp] theorem refs_create (k : NodeKind) (name : Option String) : (create k name).refs = [] := by
  rw [refs, create, List.flatMap_map, List.flatMap_eq_nil_iff]
  exact k.refs_declared

theorem targets_create (k : NodeKind) (name : Option String) (field : String) :
    (create k name).targets field = [] := by
  have hsub := (create k name).targets_sublist_refs field
  rw [refs_create] at hsub
  exact List.sublist_nil.1 hsub

theorem target_create (k : NodeKind) (name : Option String) (field : String) :
    (create k name).target field = none := by
  cases ht : (create k name).target field with
  | none => rfl
  | some t =>
    have hmem := mem_refs_of_target ht
    rw [refs_create] at hmem
    exact absurd hmem List.not_mem_nil

/-- The fields of a new node that are given values bring no other references than those. -/
theorem mem_refs_of_mem_refs_setAll {l : List (String × FieldValue)}
    (h : y ∈ (n.setAll l).refs) : y ∈ n.refs ∨ ∃ p ∈ l, y ∈ p.2.refs := by
  induction l generalizing n with
  | nil => exact .inl h
  | cons p l ih =>
    rcases ih (n := n.set p.1 p.2) h with h | ⟨q, hq, hy⟩
    · exact (mem_refs_of_mem_refs_set h).imp_right fun hy => ⟨p, List.mem_cons_self .., hy⟩
    · exact .inr ⟨q, List.mem_cons_of_mem _ hq, hy⟩

end Node

namespace Scene

variable {s t u : Scene} {id x y : NodeId} {n : Node}

/-- A node that a file can list: it is there, and its kind has a place in files. -/
def Listable (s : Scene) (id : NodeId) : Prop :=
  ∃ k, s.kind? id = some k ∧ k.isRegistered = true

/-- Every reference leads to a node that a file can list; the root is none of them. -/
structure Closed (s : Scene) : Prop where
  root : s.kind? s.root = some .scene
  listable : ∀ a b, s.Refers a b → s.Listable b

theorem Listable.isSome (h : s.Listable id) : (s.node? id).isSome := by
  obtain ⟨k, hk, -⟩ := h
  rw [← Option.isSome_map, ← kind?, hk]
  rfl

theorem listable_of_node? (hn : s.node? id = some n) (hk : n.kind.isRegistered = true) :
    s.Listable id :=
  ⟨n.kind, kind?_of_node? hn, hk⟩

namespace Closed

theorem ne_root (h : s.Closed) (hx : s.Listable x) : x ≠ s.root := by
  rintro rfl
  obtain ⟨k, hk, hreg⟩ := hx
  rw [h.root] at hk
  obtain rfl := Option.some.inj hk
  exact absurd hreg (by decide)

theorem of_mem_refs (h : s.Closed) (hn : s.node? id = some n) (hy : y ∈ n.refs) :
    s.Listable y :=
  h.listable id y (by rwa [Refers, refs_of_node? hn])

theorem of_mem_children (h : s.Closed) (hy : y ∈ s.children id) : s.Listable y :=
  h.listable id y (mem_refs_of_mem_children hy)

end Closed

/-! ### Changes of closed scenes -/

/-- A closed scene that comes of another one, whose nodes all keep their kinds. -/
structure Follows (s t : Scene) : Prop where
  closed : t.Closed
  root : t.root = s.root
  kind : ∀ x k, s.kind? x = some k → t.kind? x = some k

namespace Follows

theorem refl (h : s.Closed) : Follows s s := ⟨h, rfl, fun _ _ hk => hk⟩

theorem trans (h : Follows s t) (h' : Follows t u) : Follows s u :=
  ⟨h'.closed, h'.root.trans h.root, fun x k hk => h'.kind x k (h.kind x k hk)⟩

theorem listable (h : Follows s t) (hx : s.Listable x) : t.Listable x := by
  obtain ⟨k, hk, hreg⟩ := hx
  exact ⟨k, h.kind x k hk, hreg⟩

end Follows

theorem kind?_modify {f : Node → Node} (hf : ∀ n, s.node? id = some n → (f n).kind = n.kind)
    (x : NodeId) : (s.modify id f).kind? x = s.kind? x := by
  rw [kind?, node?_modify, kind?]
  split
  · next h =>
    subst h
    cases hn : s.node? id with
    | none => rfl
    | some n => simp [hf n hn]
  · rfl

theorem listable_iff_of_kind? (h : ∀ x, t.kind? x = s.kind? x) : t.Listable x ↔ s.Listable x := by
  rw [Listable, Listable, h]

namespace Closed

/-- A scene with the same nodes, whose references were there before. -/
theorem follows_of_refs (h : s.Closed) (hroot : t.root = s.root)
    (hkind : ∀ x, t.kind? x = s.kind? x) (hrefs : ∀ x, ∀ y ∈ t.refs x, s.Listable y) :
    Follows s t := by
  refine ⟨⟨by rw [hroot, hkind, h.root], fun a b hab => ?_⟩, hroot, fun x k hk => ?_⟩
  · exact (listable_iff_of_kind? hkind).2 (hrefs a b hab)
  · rw [hkind, hk]

theorem follows_modify (h : s.Closed) {f : Node → Node}
    (hk : ∀ n, s.node? id = some n → (f n).kind = n.kind)
    (hf : ∀ n, s.node? id = some n → ∀ y ∈ (f n).refs, s.Listable y) :
    Follows s (s.modify id f) := by
  refine h.follows_of_refs rfl (kind?_modify hk) fun x y hy => ?_
  rw [refs, node?_modify] at hy
  split at hy
  · next hx =>
    subst hx
    cases hn : s.node? id with
    | none => simp [hn] at hy
    | some n => exact hf n hn y (by simpa [hn] using hy)
  · exact h.listable x y hy

theorem follows_set (h : s.Closed) {field : String} {v : FieldValue}
    (hv : ∀ y ∈ v.refs, s.Listable y) : Follows s (s.set id field v) :=
  h.follows_modify (fun _ _ => rfl) fun _ hn _ hy =>
    (Node.mem_refs_of_mem_refs_set hy).elim (h.of_mem_refs hn) (hv _)

theorem follows_setChildren (h : s.Closed) {ts : List NodeId} (hts : ∀ y ∈ ts, s.Listable y) :
    Follows s (s.setChildren id ts) :=
  h.follows_modify (fun _ _ => rfl) fun _ hn _ hy =>
    (Node.mem_refs_of_mem_refs_set hy).elim (h.of_mem_refs hn) (hts _)

theorem follows_push (h : s.Closed) (hn : ∀ y ∈ n.refs, s.Listable y) :
    Follows s (s.push n) := by
  have hkind : ∀ x k, s.kind? x = some k → (s.push n).kind? x = some k := by
    intro x k hk
    obtain ⟨m, hm, rfl⟩ := Option.map_eq_some_iff.1 hk
    have hne : x ≠ s.next := Nat.ne_of_lt (lt_size_of_node? hm)
    rw [kind?, node?_push, if_neg hne, hm, Option.map_some]
  have hlistable : ∀ y, s.Listable y → (s.push n).Listable y := by
    rintro y ⟨k, hk, hreg⟩
    exact ⟨k, hkind y k hk, hreg⟩
  refine ⟨⟨hkind _ _ h.root, fun a b hab => hlistable b ?_⟩, rfl, hkind⟩
  rw [Refers, refs, node?_push] at hab
  split at hab
  · exact hn b hab
  · exact h.listable a b hab

end Closed

theorem listable_push (s : Scene) (hk : n.kind.isRegistered = true) : (s.push n).Listable s.next :=
  listable_of_node? (by rw [node?_push, if_pos rfl]) hk

theorem closed_empty : Scene.empty.Closed := by
  refine ⟨rfl, fun a b hab => ?_⟩
  obtain ⟨n, hn⟩ := Option.isSome_iff_exists.1 (node?_isSome_of_mem_refs hab)
  rw [Refers, refs_of_node? hn] at hab
  obtain rfl : n = Node.create .scene none := by
    have hmem := Array.mem_of_getElem? hn
    simpa [Scene.empty] using hmem
  rw [Node.refs_create] at hab
  exact absurd hab List.not_mem_nil

end Scene

end SceneTidy

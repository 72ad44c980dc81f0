import Mathlib.Data.List.Nodup
import SceneTidy.Scene.Basic

/-!
# Slots of a node

The slots of a node pair its declarations with the values they hold.  The names of a kind's fields
are distinct, so that a field is looked up in one slot only, and giving it a value changes that slot
alone (`slots_set`, `exists_slots_of_get?`).
-/

namespace SceneTidy

/-- To leave out what contributes nothing changes nothing. -/
theorem flatMap_filter_of_nil {α β : Type} {p : α → Bool} {f : α → List β} {l : List α}
    (h : ∀ x ∈ l, p x = false → f x = []) : (l.filter p).flatMap f = l.flatMap f := by
  induction l with
  | nil => rfl
  | cons a l ih =>
    obtain ⟨ha, hl⟩ := List.forall_mem_cons.1 h
    cases hp : p a with
    | true => rw [List.filter_cons_of_pos hp, List.flatMap_cons, List.flatMap_cons, ih hl]
    | false =>
      rw [List.filter_cons_of_neg (by simp [hp]), List.flatMap_cons, ha hp, ih hl, List.nil_append]

theorem NodeKind.nodup_fields (k : NodeKind) : (k.fields.map FieldDecl.name).Nodup := by
  cases k <;> decide

theorem NodeKind.eq_of_name_eq {k : NodeKind} {d e : FieldDecl} (hd : d ∈ k.fields)
    (he : e ∈ k.fields) (h : d.name = e.name) : d = e :=
  List.inj_on_of_nodup_map k.nodup_fields hd he h

theorem NodeKind.field?_of_mem {k : NodeKind} {d : FieldDecl} (h : d ∈ k.fields) :
    k.field? d.name = some d := by
  obtain ⟨e, he⟩ := Option.isSome_iff_exists.1
    (List.find?_isSome (p := (·.name = d.name)).2 ⟨d, h, by simp⟩)
  have hed : e.name = d.name := by simpa using List.find?_some he
  rw [NodeKind.field?, he, k.eq_of_name_eq (List.mem_of_find?_eq_some he) h hed]

/-- Only grouping kinds have a field for children. -/
theorem NodeKind.name_ne_childrenField {k : NodeKind} (h : k.isGrouping = false) :
    ∀ d ∈ k.fields, d.name ≠ k.childrenField := by
  cases k <;> first | exact absurd h (by decide) | decide

/-- The children of a grouping kind stand in one field, which files show. -/
theorem NodeKind.exists_childrenField {k : NodeKind} (h : k.isGrouping) :
    ∃ d ∈ k.fields, d.name = k.childrenField ∧ d.kind = .nodes ∧ d.exposed := by
  cases k <;> first | exact absurd h (by decide) | exact ⟨_, List.mem_cons_self .., rfl, rfl, rfl⟩

namespace Node

variable {n : Node} {field : String} {v : FieldValue}

theorem map_fst_slots (n : Node) : n.slots.map Prod.fst = n.kind.fields :=
  List.map_fst_zip (Nat.le_of_eq n.length_values.symm)

theorem map_snd_slots (n : Node) : n.slots.map Prod.snd = n.values :=
  List.map_snd_zip (Nat.le_of_eq n.length_values)

theorem nodup_slots_names (n : Node) : (n.slots.map (·.1.name)).Nodup := by
  have : n.slots.map (·.1.name) = (n.slots.map Prod.fst).map FieldDecl.name := by simp
  rw [this, map_fst_slots]
  exact n.kind.nodup_fields

theorem mem_fields_of_mem_slots {d : FieldDecl} (h : (d, v) ∈ n.slots) : d ∈ n.kind.fields := by
  rw [← map_fst_slots]
  exact List.mem_map_of_mem (f := Prod.fst) h

theorem exists_mem_slots {d : FieldDecl} (h : d ∈ n.kind.fields) : ∃ v, (d, v) ∈ n.slots := by
  rw [← map_fst_slots] at h
  obtain ⟨⟨d, v⟩, hm, rfl⟩ := List.mem_map.1 h
  exact ⟨v, hm⟩

theorem refs_eq_flatMap_slots (n : Node) : n.refs = n.slots.flatMap (·.2.refs) := by
  rw [refs, ← map_snd_slots, List.flatMap_map]

/-- A slot holds a value of the declared kind. -/
theorem kind_of_mem_slots {d : FieldDecl} (h : (d, v) ∈ n.slots) : v.kind = d.kind := by
  have key : n.slots.map (fun p => p.2.kind) = n.slots.map (fun p => p.1.kind) := by
    have h1 : n.slots.map (fun p => p.2.kind) = (n.slots.map Prod.snd).map FieldValue.kind := by
      simp
    have h2 : n.slots.map (fun p => p.1.kind) = (n.slots.map Prod.fst).map FieldDecl.kind := by simp
    rw [h1, h2, map_snd_slots, map_fst_slots, n.kinds_eq]
  exact List.map_inj_left.1 key _ h

theorem get?_of_mem_slots {d : FieldDecl} (h : (d, v) ∈ n.slots) : n.get? d.name = some v := by
  obtain ⟨p, hp⟩ := Option.isSome_iff_exists.1
    (List.find?_isSome (p := (·.1.name = d.name)).2 ⟨(d, v), h, by simp⟩)
  have hn : p.1.name = d.name := by simpa using List.find?_some hp
  rw [get?, hp, List.inj_on_of_nodup_map n.nodup_slots_names (List.mem_of_find?_eq_some hp) h hn]
  rfl

theorem exists_mem_slots_of_get? (h : n.get? field = some v) :
    ∃ d, (d, v) ∈ n.slots ∧ d.name = field := by
  obtain ⟨⟨d, w⟩, hp, rfl⟩ := Option.map_eq_some_iff.1 h
  exact ⟨d, List.mem_of_find?_eq_some hp, by simpa using List.find?_some hp⟩

/-- A node belongs to the references of a node if it belongs to those of a field. -/
theorem mem_refs_iff {t : NodeId} : t ∈ n.refs ↔ ∃ field v, n.get? field = some v ∧ t ∈ v.refs := by
  rw [refs_eq_flatMap_slots, List.mem_flatMap]
  constructor
  · rintro ⟨p, hp, ht⟩
    exact ⟨p.1.name, p.2, get?_of_mem_slots hp, ht⟩
  · rintro ⟨field, v, hv, ht⟩
    obtain ⟨d, hd, -⟩ := exists_mem_slots_of_get? hv
    exact ⟨(d, v), hd, ht⟩

theorem mem_refs_of_target {t : NodeId} (h : n.target field = some t) : t ∈ n.refs := by
  unfold target at h
  split at h
  · next hget => exact mem_refs_iff.2 ⟨field, _, hget, Option.mem_toList.2 h⟩
  · cases h

/-- A node of one kind and name is determined by its slots. -/
theorem eq_of_slots_eq {m : Node} (hk : n.kind = m.kind) (hn : n.name = m.name)
    (hs : n.slots = m.slots) : n = m := by
  have hv : n.values = m.values := by rw [← map_snd_slots, ← map_snd_slots, hs]
  cases n
  cases m
  simp_all

/-- Two nodes of one kind and name are equal if their fields hold the same. -/
theorem eq_of_get?_eq {m : Node} (hk : n.kind = m.kind) (hn : n.name = m.name)
    (h : ∀ d ∈ n.kind.fields, n.get? d.name = m.get? d.name) : n = m := by
  have hs : n.slots = m.slots := by
    refine List.ext_getElem ?_ fun i h1 h2 => ?_
    · simp [slots, length_values, hk]
    · have hd : (n.slots[i]).1 = (m.slots[i]).1 := by simp [slots, hk]
      have h3 := get?_of_mem_slots (List.getElem_mem h1)
      have h4 := get?_of_mem_slots (List.getElem_mem h2)
      have h5 := h _ (mem_fields_of_mem_slots (List.getElem_mem h1))
      refine Prod.ext hd (Option.some.inj ?_)
      calc some n.slots[i].2 = n.get? n.slots[i].1.name := h3.symm
        _ = m.get? n.slots[i].1.name := h5
        _ = m.get? m.slots[i].1.name := by rw [hd]
        _ = some m.slots[i].2 := h4
  exact eq_of_slots_eq hk hn hs

/-- The value of a declared field. -/
def value (n : Node) (d : FieldDecl) : FieldValue := (n.get? d.name).getD d.declared

theorem value_of_get? {d : FieldDecl} (h : n.get? d.name = some v) : n.value d = v := by
  rw [value, h]
  rfl

theorem get?_eq_value {d : FieldDecl} (hd : d ∈ n.kind.fields) :
    n.get? d.name = some (n.value d) := by
  obtain ⟨v, hv⟩ := exists_mem_slots hd
  rw [value_of_get? (get?_of_mem_slots hv), get?_of_mem_slots hv]

theorem slots_eq_map (n : Node) : n.slots = n.kind.fields.map fun d => (d, n.value d) := by
  rw [← n.map_fst_slots, List.map_map]
  refine (List.map_id n.slots).symm.trans (List.map_congr_left fun p hp => ?_)
  rw [Function.comp_apply, value_of_get? (get?_of_mem_slots (v := p.2) hp)]
  rfl

theorem mem_slots_value {d : FieldDecl} (hd : d ∈ n.kind.fields) : (d, n.value d) ∈ n.slots := by
  rw [slots_eq_map]
  exact List.mem_map_of_mem hd

theorem get?_create (k : NodeKind) (name : Option String) {d : FieldDecl} (h : d ∈ k.fields) :
    (create k name).get? d.name = some d.declared := by
  refine get?_of_mem_slots (n := create k name) ?_
  rw [slots, create, List.zip_map_right, List.mem_map]
  exact ⟨(d, d), by simpa [List.mem_iff_getElem] using List.mem_iff_getElem.1 h, rfl⟩

/-! ### Giving a field a value -/

theorem zip_replaced (ds : List FieldDecl) (ws : List FieldValue) :
    ds.zip (replaced field v ds ws) = (ds.zip ws).map fun p =>
      if p.1.name = field ∧ v.kind = p.2.kind then (p.1, v) else p := by
  induction ds generalizing ws with
  | nil => rfl
  | cons d ds ih =>
    cases ws with
    | nil => rfl
    | cons w ws =>
      simp only [replaced, List.zip_cons_cons, List.map_cons, ih, List.cons.injEq, and_true]
      split <;> rfl

theorem slots_set (n : Node) (field : String) (v : FieldValue) :
    (n.set field v).slots = n.slots.map fun p =>
      if p.1.name = field ∧ v.kind = p.2.kind then (p.1, v) else p :=
  zip_replaced ..

/-- Giving a field a value changes its slot alone. -/
theorem slots_set_of_eq {l₁ l₂ : List (FieldDecl × FieldValue)} {d : FieldDecl}
    (h : n.slots = l₁ ++ (d, v) :: l₂) {w : FieldValue} (hw : w.kind = v.kind) :
    (n.set d.name w).slots = l₁ ++ (d, w) :: l₂ := by
  have hnd := n.nodup_slots_names
  rw [h, List.map_append, List.map_cons] at hnd
  have other : ∀ p ∈ l₁ ++ l₂, p.1.name ≠ d.name := by
    intro p hp he
    have := List.nodup_middle.1 hnd
    rw [List.nodup_cons, ← List.map_append] at this
    exact this.1 (he ▸ List.mem_map_of_mem (f := fun p : FieldDecl × FieldValue => p.1.name) hp)
  have keep : ∀ l : List (FieldDecl × FieldValue), (∀ p ∈ l, p.1.name ≠ d.name) →
      l.map (fun p => if p.1.name = d.name ∧ w.kind = p.2.kind then (p.1, w) else p) = l := by
    intro l hl
    refine (List.map_congr_left fun p hp => ?_).trans (List.map_id l)
    rw [if_neg fun h => hl p hp h.1, id]
  rw [slots_set, h, List.map_append, List.map_cons, if_pos ⟨rfl, hw⟩,
    keep l₁ fun p hp => other p (List.mem_append_left _ hp),
    keep l₂ fun p hp => other p (List.mem_append_right _ hp)]

/-- A field stands in one slot, and giving it a value changes that slot alone. -/
theorem exists_slots_of_get? (h : n.get? field = some v) :
    ∃ l₁ d l₂, n.slots = l₁ ++ (d, v) :: l₂ ∧ d.name = field ∧
      ∀ w, w.kind = v.kind → (n.set field w).slots = l₁ ++ (d, w) :: l₂ := by
  obtain ⟨d, hd, rfl⟩ := exists_mem_slots_of_get? h
  obtain ⟨l₁, l₂, hs⟩ := List.append_of_mem hd
  exact ⟨l₁, d, l₂, hs, rfl, fun w hw => slots_set_of_eq hs hw⟩

/-! ### Fields by their kind -/

section

variable {d : FieldDecl}

theorem exists_get? (h : d ∈ n.kind.fields) : ∃ v, n.get? d.name = some v ∧ v.kind = d.kind := by
  obtain ⟨v, hv⟩ := exists_mem_slots h
  exact ⟨v, get?_of_mem_slots hv, kind_of_mem_slots hv⟩

theorem get?_eq_nodes (h : d ∈ n.kind.fields) (hk : d.kind = .nodes) :
    n.get? d.name = some (.nodes (n.targets d.name)) := by
  obtain ⟨v, hv, hvk⟩ := exists_get? h
  cases v with
  | nodes ts => rw [targets, hv]
  | one k x => exact absurd (hvk.trans hk) nofun
  | many k xs => exact absurd (hvk.trans hk) nofun
  | node t => exact absurd (hvk.trans hk) nofun

theorem get?_eq_node (h : d ∈ n.kind.fields) (hk : d.kind = .node) :
    n.get? d.name = some (.node (n.target d.name)) := by
  obtain ⟨v, hv, hvk⟩ := exists_get? h
  cases v with
  | node t => rw [target, hv]
  | one k x => exact absurd (hvk.trans hk) nofun
  | many k xs => exact absurd (hvk.trans hk) nofun
  | nodes ts => exact absurd (hvk.trans hk) nofun

theorem get?_set_of_kind {v : FieldValue} (h : d ∈ n.kind.fields) (hk : v.kind = d.kind) :
    (n.set d.name v).get? d.name = some v := by
  obtain ⟨w, hw, hwk⟩ := exists_get? h
  exact get?_set_self hw (hk.trans hwk.symm)

theorem targets_of_not_mem (h : ∀ d ∈ n.kind.fields, d.name ≠ field) : n.targets field = [] := by
  rw [targets]
  split
  · next ts hget =>
    obtain ⟨d, hd, hname⟩ := exists_mem_slots_of_get? hget
    exact absurd hname (h d (mem_fields_of_mem_slots hd))
  · rfl

/-- The children of a grouping node are what its field for them holds. -/
theorem get?_childrenField (h : n.kind.isGrouping) :
    n.get? n.kind.childrenField = some (.nodes n.children) := by
  obtain ⟨d, hd, hname, hkind, -⟩ := NodeKind.exists_childrenField h
  rw [children, ← hname, get?_eq_nodes hd hkind]

end

/-! ### Changing every value -/

/-- The node with every value changed; a change keeps the kind of value. -/
def mapValues (f : FieldValue → FieldValue) (hf : ∀ v, (f v).kind = v.kind) (n : Node) : Node :=
  { n with
    values := n.values.map f
    kinds_eq := by
      rw [← n.kinds_eq, List.map_map]
      exact List.map_congr_left fun v _ => hf v }

variable {f : FieldValue → FieldValue} {hf : ∀ v, (f v).kind = v.kind}

@[simp] theorem kind_mapValues (n : Node) : (n.mapValues f hf).kind = n.kind := rfl

@[simp] theorem name_mapValues (n : Node) : (n.mapValues f hf).name = n.name := rfl

theorem slots_mapValues (n : Node) : (n.mapValues f hf).slots = n.slots.map (Prod.map id f) :=
  List.zip_map_right ..

theorem get?_mapValues (n : Node) (field : String) :
    (n.mapValues f hf).get? field = (n.get? field).map f := by
  rw [get?, get?, slots_mapValues, List.find?_map, Option.map_map, Option.map_map]
  rfl

/-! ### Children -/

theorem targets_sublist_refs (n : Node) (field : String) :
    List.Sublist (n.targets field) n.refs := by
  rw [targets, refs_eq_flatMap_slots]
  split
  · next ts h =>
    obtain ⟨d, hd, -⟩ := exists_mem_slots_of_get? h
    obtain ⟨l₁, l₂, hs⟩ := List.append_of_mem hd
    rw [hs, List.flatMap_append, List.flatMap_cons]
    exact (List.sublist_append_left ts _).trans (List.sublist_append_right _ _)
  · exact List.nil_sublist _

/-- The children of a grouping node stand in one slot, which files show, and can be replaced. -/
theorem exists_slots_children (h : n.kind.isGrouping) :
    ∃ l₁ d l₂, n.slots = l₁ ++ (d, .nodes n.children) :: l₂ ∧ d.name = n.kind.childrenField ∧
      d.exposed = true ∧ ∀ ts, (n.setChildren ts).slots = l₁ ++ (d, .nodes ts) :: l₂ := by
  obtain ⟨d, hd, hname, hkind, hx⟩ := NodeKind.exists_childrenField h
  obtain ⟨v, hv⟩ := exists_mem_slots hd
  have hget : n.get? n.kind.childrenField = some v := hname ▸ get?_of_mem_slots hv
  have hvk : v.kind = .nodes := (kind_of_mem_slots hv).trans hkind
  obtain ⟨ts, rfl⟩ : ∃ ts, v = .nodes ts := by
    cases v with
    | nodes ts => exact ⟨ts, rfl⟩
    | one k x => simp [FieldValue.kind] at hvk
    | many k xs => simp [FieldValue.kind] at hvk
    | node t => simp [FieldValue.kind] at hvk
  have hchildren : n.children = ts := by
    rw [children, targets, hget]
  obtain ⟨l₁, e, l₂, hs, he, hset⟩ := exists_slots_of_get? hget
  have hde : e = d := by
    have hmem : (e, .nodes ts) ∈ n.slots := by simp [hs]
    have hsome := NodeKind.field?_of_mem (mem_fields_of_mem_slots hmem)
    rw [he, ← hname, NodeKind.field?_of_mem hd] at hsome
    exact (Option.some.inj hsome).symm
  subst hde
  exact ⟨l₁, e, l₂, hchildren ▸ hs, hname, hx, fun us => hset (.nodes us) rfl⟩

theorem exists_refs_children (h : n.kind.isGrouping) :
    ∃ l₁ l₂, n.refs = l₁ ++ n.children ++ l₂ ∧ ∀ ts, (n.setChildren ts).refs = l₁ ++ ts ++ l₂ := by
  obtain ⟨l₁, d, l₂, hs, -, -, hset⟩ := exists_slots_children h
  refine ⟨l₁.flatMap (·.2.refs), l₂.flatMap (·.2.refs), ?_, fun ts => ?_⟩
  · rw [refs_eq_flatMap_slots, hs, List.flatMap_append, List.flatMap_cons, List.append_assoc]
    rfl
  · rw [refs_eq_flatMap_slots, hset, List.flatMap_append, List.flatMap_cons, List.append_assoc]
    rfl

theorem children_setChildren (h : n.kind.isGrouping) (ts : List NodeId) :
    (n.setChildren ts).children = ts := by
  obtain ⟨l₁, d, l₂, -, hname, -, hset⟩ := exists_slots_children h
  have hget : (n.setChildren ts).get? n.kind.childrenField = some (.nodes ts) := by
    rw [← hname]
    exact get?_of_mem_slots (by simp [hset ts])
  have hkind : (n.setChildren ts).kind = n.kind := rfl
  rw [children, targets, hkind, hget]

theorem setChildren_children (h : n.kind.isGrouping) : n.setChildren n.children = n := by
  obtain ⟨l₁, d, l₂, hslots, -, -, hset⟩ := exists_slots_children h
  exact eq_of_slots_eq rfl rfl ((hset n.children).trans hslots.symm)

theorem setChildren_setChildren (h : n.kind.isGrouping) (ts us : List NodeId) :
    (n.setChildren ts).setChildren us = n.setChildren us := by
  obtain ⟨l₁, d, l₂, -, hname, -, hset⟩ := exists_slots_children h
  have hkind : (n.setChildren ts).kind = n.kind := rfl
  have hslots : ((n.setChildren ts).set d.name (.nodes us)).slots = l₁ ++ (d, .nodes us) :: l₂ :=
    slots_set_of_eq (hset ts) rfl
  refine eq_of_slots_eq rfl rfl ?_
  rw [setChildren, hkind, ← hname, hslots, hset us]

end Node

namespace Scene

variable {s : Scene} {id : NodeId}

theorem ext_node? {t : Scene} (hroot : s.root = t.root) (h : ∀ x, s.node? x = t.node? x) :
    s = t := by
  have hnodes : s.nodes = t.nodes := Array.ext_getElem? h
  cases s
  cases t
  simp_all

theorem modify_modify (s : Scene) (id : NodeId) (f g : Node → Node) :
    (s.modify id f).modify id g = s.modify id fun n => g (f n) := by
  refine ext_node? rfl fun x => ?_
  simp only [node?_modify]
  split
  · rw [Option.map_map]
    rfl
  · rfl

theorem node?_setChildren (s : Scene) (id : NodeId) (ts : List NodeId) (x : NodeId) :
    (s.setChildren id ts).node? x =
      if id = x then (s.node? x).map (·.setChildren ts) else s.node? x :=
  s.node?_modify id _ x

theorem node?_setChildren_of_ne {x : NodeId} (h : id ≠ x) (ts : List NodeId) :
    (s.setChildren id ts).node? x = s.node? x := by
  rw [node?_setChildren, if_neg h]

theorem node?_setChildren_self {n : Node} (hn : s.node? id = some n) (ts : List NodeId) :
    (s.setChildren id ts).node? id = some (n.setChildren ts) := by
  rw [node?_setChildren, if_pos rfl, hn, Option.map_some]

theorem children_setChildren {n : Node} (hn : s.node? id = some n) (hk : n.kind.isGrouping)
    (ts : List NodeId) : (s.setChildren id ts).children id = ts := by
  rw [children, node?_setChildren_self hn, Option.map_some, Option.getD_some,
    Node.children_setChildren hk]

theorem children_setChildren_of_ne {x : NodeId} (h : id ≠ x) (ts : List NodeId) :
    (s.setChildren id ts).children x = s.children x := by
  rw [children, children, node?_setChildren_of_ne h]

theorem setChildren_children {n : Node} (hn : s.node? id = some n) (hk : n.kind.isGrouping) :
    s.setChildren id (s.children id) = s := by
  have hchildren : s.children id = n.children := by rw [children, hn, Option.map_some]; rfl
  refine ext_node? rfl fun x => ?_
  by_cases h : id = x
  · subst h
    rw [node?_setChildren_self hn, hchildren, Node.setChildren_children hk, hn]
  · rw [node?_setChildren_of_ne h]

theorem setChildren_setChildren {n : Node} (hn : s.node? id = some n) (hk : n.kind.isGrouping)
    (ts us : List NodeId) : (s.setChildren id ts).setChildren id us = s.setChildren id us := by
  refine ext_node? rfl fun x => ?_
  by_cases h : id = x
  · subst h
    rw [node?_setChildren_self (node?_setChildren_self hn ts), node?_setChildren_self hn,
      Node.setChildren_setChildren hk]
  · rw [node?_setChildren_of_ne h, node?_setChildren_of_ne h, node?_setChildren_of_ne h]

theorem children_sublist_refs (s : Scene) (id : NodeId) :
    List.Sublist (s.children id) (s.refs id) := by
  rw [children, refs]
  cases s.node? id with
  | none => exact .slnil
  | some n => exact n.targets_sublist_refs _

theorem mem_refs_of_mem_children {t : NodeId} (h : t ∈ s.children id) : t ∈ s.refs id :=
  (s.children_sublist_refs id).subset h

end Scene

end SceneTidy

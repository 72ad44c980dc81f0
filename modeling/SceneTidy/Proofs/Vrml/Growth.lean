import Mathlib.Data.List.Nodup
import SceneTidy.Proofs.Vrml.Reading
import SceneTidy.Vrml.Planting

/-!
# How a planted scene grows

Planting a block adds nodes at the end of the store and changes no node that was there before; the
fields of a node change that node only (`Block.node?_plant`, `Body.node?_plant`).  The names known
afterwards are those that the block defines.  Since the nodes are added in the order they are met,
a node's number among those met is its place (`place`).
-/

namespace SceneTidy.Vrml

variable {α : Type}

/-! ### Blocks without tags -/

mutual

theorem Block.plant_bare (b : Block α) (bed : Bed) : b.bare.plant bed = b.plant bed :=
  match b with
  | .use _ => rfl
  | .node _ name kind body => by
    rw [Block.bare, Block.plant, Block.plant, body.plant_bare]

theorem Body.plant_bare (b : Body α) (id : NodeId) (bed : Bed) :
    b.bare.plant id bed = b.plant id bed :=
  match b with
  | .done => rfl
  | .value field v rest => by
    rw [Body.bare, Body.plant, Body.plant, rest.plant_bare]
  | .single field b rest => by
    rw [Body.bare, Body.plant, Body.plant, b.plant_bare]
    exact rest.plant_bare id _
  | .list field bs rest => by
    rw [Body.bare, Body.plant, Body.plant, bs.plant_bare]
    exact rest.plant_bare id _

theorem Blocks.plant_bare (bs : Blocks α) (bed : Bed) : bs.bare.plant bed = bs.plant bed :=
  match bs with
  | .nil => rfl
  | .cons b bs => by
    rw [Blocks.bare, Blocks.plant, Blocks.plant, b.plant_bare]
    simp only [bs.plant_bare]

end

theorem Blocks.ofList_toList (bs : Blocks α) : Blocks.ofList bs.toList = bs := by
  match bs with
  | .nil => rfl
  | .cons b bs => rw [Blocks.toList, Blocks.ofList, Blocks.ofList_toList bs]

/-! ### What planting leaves alone -/

namespace Bed

variable (bed : Bed)

theorem node?_grow (kind : NodeKind) (name : Option String) (p : NodeId) :
    (bed.grow kind name).scene.node? p =
      if p = bed.scene.next then some (Node.create kind name) else bed.scene.node? p :=
  Scene.node?_push ..

@[simp] theorem size_grow (kind : NodeKind) (name : Option String) :
    (bed.grow kind name).scene.size = bed.scene.size + 1 := Scene.size_push ..

theorem map_fst_names_grow (kind : NodeKind) (name : Option String) :
    (bed.grow kind name).names.map Prod.fst = name.toList ++ bed.names.map Prod.fst := by
  cases name <;> rfl

@[simp] theorem root_grow (kind : NodeKind) (name : Option String) :
    (bed.grow kind name).scene.root = bed.scene.root := rfl

theorem node?_set (id : NodeId) (field : String) (v : FieldValue) (p : NodeId) :
    (bed.set id field v).scene.node? p =
      if id = p then (bed.scene.node? p).map (·.set field v) else bed.scene.node? p :=
  Scene.node?_modify ..

@[simp] theorem size_set (id : NodeId) (field : String) (v : FieldValue) :
    (bed.set id field v).scene.size = bed.scene.size := Scene.size_set ..

@[simp] theorem names_set (id : NodeId) (field : String) (v : FieldValue) :
    (bed.set id field v).names = bed.names := rfl

@[simp] theorem root_set (id : NodeId) (field : String) (v : FieldValue) :
    (bed.set id field v).scene.root = bed.scene.root := rfl

end Bed

/-- One bed comes from another by growth that changes none of the old nodes, but for some. -/
structure Bed.Outgrows (new old : Bed) (changes : NodeId → Prop) : Prop where
  size : old.scene.size ≤ new.scene.size
  root : new.scene.root = old.scene.root
  node? : ∀ p, p < old.scene.size → ¬changes p → new.scene.node? p = old.scene.node? p

namespace Bed.Outgrows

variable {a b c : Bed} {p q : NodeId → Prop}

theorem refl (a : Bed) (p : NodeId → Prop) : a.Outgrows a p :=
  ⟨Nat.le_refl _, rfl, fun _ _ _ => rfl⟩

theorem trans (hbc : c.Outgrows b p) (hab : b.Outgrows a p) : c.Outgrows a p where
  size := Nat.le_trans hab.size hbc.size
  root := hbc.root.trans hab.root
  node? x hx hp := (hbc.node? x (Nat.lt_of_lt_of_le hx hab.size) hp).trans (hab.node? x hx hp)

theorem mono (h : b.Outgrows a p) (hpq : ∀ x, x < a.scene.size → p x → q x) : b.Outgrows a q where
  size := h.size
  root := h.root
  node? x hx hq := h.node? x hx fun hp => hq (hpq x hx hp)

theorem set (a : Bed) (id : NodeId) (field : String) (v : FieldValue) :
    (a.set id field v).Outgrows a (· = id) where
  size := Nat.le_of_eq (a.size_set id field v).symm
  root := rfl
  node? x _ hx := by rw [Bed.node?_set, if_neg fun h => hx h.symm]

theorem grow (a : Bed) (kind : NodeKind) (name : Option String) :
    (a.grow kind name).Outgrows a fun _ => False where
  size := by simp
  root := rfl
  node? x hx _ := by
    have hne : x ≠ a.scene.next := Nat.ne_of_lt hx
    rw [Bed.node?_grow, if_neg hne]

end Bed.Outgrows

mutual

/-- Planting a block leaves the nodes that were there before as they are. -/
theorem Block.outgrows (b : Block α) (bed : Bed) : (b.plant bed).2.Outgrows bed fun _ => False :=
  match b with
  | .use _ => .refl bed _
  | .node _ name kind body => by
    have hbody := body.outgrows bed.scene.next (bed.grow kind name)
    refine ⟨Nat.le_trans (by simp) hbody.size, hbody.root, fun p hp _ => ?_⟩
    have hne : p ≠ bed.scene.next := Nat.ne_of_lt hp
    exact (hbody.node? p (by simp; omega) hne).trans
      ((Bed.Outgrows.grow bed kind name).node? p hp id)

/-- Planting the fields of a node changes no other node that was there before. -/
theorem Body.outgrows (b : Body α) (id : NodeId) (bed : Bed) :
    (b.plant id bed).Outgrows bed (· = id) :=
  match b with
  | .done => .refl bed _
  | .value field v rest => (rest.outgrows id _).trans (.set bed id field v)
  | .single field b rest =>
    (rest.outgrows id _).trans ((Bed.Outgrows.set _ id field _).trans
      ((b.outgrows bed).mono fun _ _ => False.elim))
  | .list field bs rest =>
    (rest.outgrows id _).trans ((Bed.Outgrows.set _ id field _).trans
      ((bs.outgrows bed).mono fun _ _ => False.elim))

theorem Blocks.outgrows (bs : Blocks α) (bed : Bed) :
    (bs.plant bed).2.Outgrows bed fun _ => False :=
  match bs with
  | .nil => .refl bed _
  | .cons b bs => (bs.outgrows _).trans (b.outgrows bed)

end

mutual

/-- The names known after a block are those it defines and those known before. -/
theorem Block.names_plant (b : Block α) (bed : Bed) :
    (b.plant bed).2.names.map Prod.fst = b.define (bed.names.map Prod.fst) :=
  match b with
  | .use _ => rfl
  | .node _ name kind body => by
    rw [Block.plant, Block.define, body.names_plant, Bed.map_fst_names_grow]

theorem Body.names_plant (b : Body α) (id : NodeId) (bed : Bed) :
    (b.plant id bed).names.map Prod.fst = b.define (bed.names.map Prod.fst) :=
  match b with
  | .done => rfl
  | .value field v rest => rest.names_plant id _
  | .single field b rest => by
    rw [Body.plant, Body.define, ← b.names_plant bed]
    exact rest.names_plant id _
  | .list field bs rest => by
    rw [Body.plant, Body.define, ← bs.names_plant bed]
    exact rest.names_plant id _

theorem Blocks.names_plant (bs : Blocks α) (bed : Bed) :
    (bs.plant bed).2.names.map Prod.fst = bs.define (bed.names.map Prod.fst) :=
  match bs with
  | .nil => rfl
  | .cons b bs => by
    rw [Blocks.plant, Blocks.define, ← b.names_plant bed]
    exact bs.names_plant _

end

/-! ### Places -/

/-- The number of a node among those met, which stand with the last one first; the first one met
has the number one, and a node not met has the number nought. -/
def place (met : List NodeId) (id : NodeId) : Nat := met.length - met.idxOf id

variable {met new : List NodeId} {a b : NodeId}

theorem place_cons_self (a : NodeId) (met : List NodeId) : place (a :: met) a = met.length + 1 := by
  simp [place]

theorem place_cons_of_ne (h : a ≠ b) : place (b :: met) a = place met a := by
  rw [place, place, List.idxOf_cons_ne met (Ne.symm h), List.length_cons]
  omega

theorem place_of_not_mem (h : a ∉ met) : place met a = 0 := by
  rw [place, List.idxOf_eq_length h, Nat.sub_self]

theorem place_pos (h : a ∈ met) : 0 < place met a := by
  have := List.idxOf_lt_length_of_mem h
  rw [place]
  omega

theorem place_le (met : List NodeId) (a : NodeId) : place met a ≤ met.length := Nat.sub_le ..

/-- Meeting more nodes changes no number. -/
theorem place_append (h : (new ++ met).Nodup) (ha : a ∈ met) :
    place (new ++ met) a = place met a := by
  induction new with
  | nil => rfl
  | cons b new ih =>
    rw [List.cons_append, List.nodup_cons] at h
    have hne : a ≠ b := by
      rintro rfl
      exact h.1 (List.mem_append_right _ ha)
    rw [List.cons_append, place_cons_of_ne hne, ih h.2]

/-- The nodes met later have greater numbers. -/
theorem lt_place_append (h : a ∈ new) : met.length < place (new ++ met) a := by
  have hlt := List.idxOf_lt_length_of_mem h
  rw [place, List.idxOf_append_of_mem h, List.length_append]
  omega

theorem place_injOn (ha : a ∈ met) (hb : b ∈ met) (h : place met a = place met b) : a = b := by
  have h₁ := List.idxOf_lt_length_of_mem ha
  have h₂ := List.idxOf_lt_length_of_mem hb
  have he : met.idxOf a = met.idxOf b := by
    rw [place, place] at h
    omega
  exact (List.idxOf_inj ha).1 he

theorem exists_place (hnd : met.Nodup) {p : Nat} (hp : 0 < p) (hle : p ≤ met.length) :
    ∃ a ∈ met, place met a = p := by
  have hi : met.length - p < met.length := by omega
  refine ⟨met[met.length - p], List.getElem_mem hi, ?_⟩
  rw [place, hnd.idxOf_getElem]
  omega

end SceneTidy.Vrml

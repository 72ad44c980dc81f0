import Mathlib.Logic.Relation
import SceneTidy.Scene.Walk

/-!
# Reachable nodes

One node refers to another if some field of it does, and reaches what it comes to by following
references.  Main statements: a walk lists the nodes reached from its start, each once
(`mem_walk_iff`, `nodup_walk`); the nodes that a traversal has not met get fewer as it goes on
(`unmet_le_of_subset`), which is why the size of the store bounds its depth.
-/

namespace SceneTidy.Scene

variable {s : Scene} {id : NodeId}

/-- Some field of one node refers to another. -/
def Refers (s : Scene) (a b : NodeId) : Prop := b ∈ s.refs a

/-- A node is come to by following references. -/
def Reaches (s : Scene) : NodeId → NodeId → Prop := Relation.ReflTransGen s.Refers

theorem refs_of_node? {n : Node} (h : s.node? id = some n) : s.refs id = n.refs := by
  simp [refs, h]

theorem refs_of_none (h : s.node? id = none) : s.refs id = [] := by
  simp [refs, h]

theorem kind?_of_node? {n : Node} (h : s.node? id = some n) : s.kind? id = some n.kind := by
  rw [kind?, h, Option.map_some]

theorem children_of_node? {n : Node} (h : s.node? id = some n) : s.children id = n.children := by
  simp [children, h]

theorem node?_isSome_of_mem_refs {t : NodeId} (h : t ∈ s.refs id) : (s.node? id).isSome := by
  cases hn : s.node? id with
  | none => simp [refs_of_none hn] at h
  | some n => rfl

theorem node?_isSome_iff : (s.node? id).isSome ↔ id < s.size := by
  simp [node?, size]

/-! ### The nodes still to meet -/

theorem unmet_le_of_subset {met met' : List NodeId} (h : met ⊆ met') :
    s.unmet met' ≤ s.unmet met := by
  refine List.countP_mono_left fun id _ hid => ?_
  have hn : id ∉ met' := by simpa using hid
  simpa using fun hm => hn (h hm)

@[simp] theorem unmet_nil : s.unmet [] = s.size := by
  simp [unmet]

/-- A traversal that meets a new node needs one level less below it. -/
theorem unmet_cons_lt_of_lt_succ {met : List NodeId} {bound : Nat} {n : Node}
    (hn : s.node? id = some n) (hid : id ∉ met) (h : s.unmet met < bound + 1) :
    s.unmet (id :: met) < bound := by
  have := unmet_cons_lt (lt_size_of_node? hn) hid
  omega

theorem unmet_append_lt_of_lt_succ {met : List NodeId} {bound : Nat} {n : Node}
    (hn : s.node? id = some n) (hid : id ∉ met) (h : s.unmet met < bound + 1) :
    s.unmet (met ++ [id]) < bound :=
  Nat.lt_of_le_of_lt (unmet_le_of_subset fun x hx => by simpa [or_comm] using hx)
    (unmet_cons_lt_of_lt_succ hn hid h)

/-! ### Walks -/

theorem walkFrom_of_mem {stack met : List NodeId} (h : id ∈ met) :
    s.walkFrom (id :: stack) met = s.walkFrom stack met := by
  rw [walkFrom, dif_pos h]

theorem walkFrom_of_node {stack met : List NodeId} {n : Node} (h : id ∉ met)
    (hn : s.node? id = some n) :
    s.walkFrom (id :: stack) met = id :: s.walkFrom (n.refs ++ stack) (id :: met) := by
  rw [walkFrom, dif_neg h]
  split
  · next hnone => cases hn.symm.trans hnone
  · next m hm => rw [Option.some.inj (hn.symm.trans hm)]

theorem not_mem_of_mem_walkFrom {stack met : List NodeId} (h : id ∈ s.walkFrom stack met) :
    id ∉ met := by
  fun_induction walkFrom s stack met with
  | case1 => simp at h
  | case2 met a rest ha ih => exact ih h
  | case3 met a rest ha hn ih => exact ih h
  | case4 met a rest ha n hn ih =>
    rcases List.mem_cons.1 h with rfl | h
    · exact ha
    · exact fun hm => ih h (List.mem_cons_of_mem _ hm)

theorem nodup_walkFrom (s : Scene) (stack met : List NodeId) : (s.walkFrom stack met).Nodup := by
  fun_induction walkFrom s stack met with
  | case1 => exact List.nodup_nil
  | case2 met a rest ha ih => exact ih
  | case3 met a rest ha hn ih => exact ih
  | case4 met a rest ha n hn ih =>
    exact List.nodup_cons.2 ⟨fun h => not_mem_of_mem_walkFrom h (List.mem_cons_self ..), ih⟩

theorem node?_isSome_of_mem_walkFrom {stack met : List NodeId} (h : id ∈ s.walkFrom stack met) :
    (s.node? id).isSome := by
  fun_induction walkFrom s stack met with
  | case1 => simp at h
  | case2 met a rest ha ih => exact ih h
  | case3 met a rest ha hn ih => exact ih h
  | case4 met a rest ha n hn ih =>
    rcases List.mem_cons.1 h with rfl | h
    · simp [hn]
    · exact ih h

theorem reaches_of_mem_walkFrom {stack met : List NodeId} (h : id ∈ s.walkFrom stack met) :
    ∃ a ∈ stack, s.Reaches a id := by
  fun_induction walkFrom s stack met with
  | case1 => simp at h
  | case2 met a rest ha ih =>
    obtain ⟨b, hb, hr⟩ := ih h
    exact ⟨b, List.mem_cons_of_mem _ hb, hr⟩
  | case3 met a rest ha hn ih =>
    obtain ⟨b, hb, hr⟩ := ih h
    exact ⟨b, List.mem_cons_of_mem _ hb, hr⟩
  | case4 met a rest ha n hn ih =>
    rcases List.mem_cons.1 h with rfl | h
    · exact ⟨id, List.mem_cons_self .., .refl⟩
    · obtain ⟨b, hb, hr⟩ := ih h
      rcases List.mem_append.1 hb with hb | hb
      · have hab : s.Refers a b := by rwa [Refers, refs_of_node? hn]
        exact ⟨a, List.mem_cons_self .., .head hab hr⟩
      · exact ⟨b, List.mem_cons_of_mem _ hb, hr⟩

/-- The walk comes to every node of its stack that was not met before. -/
theorem mem_walkFrom_of_mem_stack {stack met : List NodeId} (h : id ∈ stack)
    (hn : (s.node? id).isSome) : id ∈ met ∨ id ∈ s.walkFrom stack met := by
  fun_induction walkFrom s stack met with
  | case1 => simp at h
  | case2 met a rest ha ih =>
    rcases List.mem_cons.1 h with rfl | h
    · exact .inl ha
    · exact ih h
  | case3 met a rest ha hna ih =>
    rcases List.mem_cons.1 h with rfl | h
    · simp [hna] at hn
    · exact ih h
  | case4 met a rest ha n hna ih =>
    rcases List.mem_cons.1 h with rfl | h
    · exact .inr (List.mem_cons_self ..)
    · rcases ih (List.mem_append_right _ h) with h | h
      · rcases List.mem_cons.1 h with rfl | h
        · exact .inr (List.mem_cons_self ..)
        · exact .inl h
      · exact .inr (List.mem_cons_of_mem _ h)

/-- The walk follows every reference of the nodes it comes to. -/
theorem mem_walkFrom_of_refers {stack met : List NodeId} {a b : NodeId}
    (ha : a ∈ s.walkFrom stack met) (hab : s.Refers a b) (hn : (s.node? b).isSome) :
    b ∈ met ∨ b ∈ s.walkFrom stack met := by
  fun_induction walkFrom s stack met with
  | case1 => simp at ha
  | case2 met c rest hc ih => exact ih ha
  | case3 met c rest hc hnc ih => exact ih ha
  | case4 met c rest hc n hnc ih =>
    have key : b ∈ c :: met ∨ b ∈ s.walkFrom (n.refs ++ rest) (c :: met) := by
      rcases List.mem_cons.1 ha with rfl | ha
      · rw [Refers, refs_of_node? hnc] at hab
        exact mem_walkFrom_of_mem_stack (List.mem_append_left _ hab) hn
      · exact ih ha
    rcases key with h | h
    · rcases List.mem_cons.1 h with rfl | h
      · exact .inr (List.mem_cons_self ..)
      · exact .inl h
    · exact .inr (List.mem_cons_of_mem _ h)

theorem nodup_walk (s : Scene) (start : NodeId) : (s.walk start).Nodup := nodup_walkFrom s _ _

theorem start_mem_walk (h : (s.node? id).isSome) : id ∈ s.walk id := by
  have hmet : id ∈ [] ∨ id ∈ s.walkFrom [id] [] :=
    mem_walkFrom_of_mem_stack (List.mem_singleton_self id) h
  exact hmet.resolve_left List.not_mem_nil

theorem mem_walk_of_refers {start a b : NodeId} (ha : a ∈ s.walk start) (hab : s.Refers a b)
    (hn : (s.node? b).isSome) : b ∈ s.walk start := by
  simpa [walk] using mem_walkFrom_of_refers ha hab hn

/-- **A walk lists the nodes reached from its start.** -/
theorem mem_walk_iff {start : NodeId} :
    id ∈ s.walk start ↔ (s.node? id).isSome ∧ s.Reaches start id := by
  constructor
  · intro h
    obtain ⟨a, ha, hr⟩ := reaches_of_mem_walkFrom h
    obtain rfl := List.mem_singleton.1 ha
    exact ⟨node?_isSome_of_mem_walkFrom h, hr⟩
  · rintro ⟨hn, hr⟩
    induction hr with
    | refl => exact start_mem_walk hn
    | tail _ hab ih => exact mem_walk_of_refers (ih (node?_isSome_of_mem_refs hab)) hab hn

theorem reaches_of_mem_references {start : NodeId} (hid : id ∈ s.references start) :
    s.Reaches start id := by
  rcases List.mem_cons.1 hid with rfl | h
  · exact .refl
  · obtain ⟨a, ha, hab⟩ := List.mem_flatMap.1 h
    exact (mem_walk_iff.1 ha).2.tail hab

theorem mem_walk_of_mem_references {start : NodeId} (hid : id ∈ s.references start)
    (hn : (s.node? id).isSome) : id ∈ s.walk start :=
  mem_walk_iff.2 ⟨hn, reaches_of_mem_references hid⟩

theorem mem_references_of_mem_walk {start : NodeId} (hid : id ∈ s.walk start) :
    id ∈ s.references start := by
  obtain ⟨-, hr⟩ := mem_walk_iff.1 hid
  cases hr with
  | refl => exact List.mem_cons_self ..
  | @tail a _ hra hab =>
    have ha : a ∈ s.walk start := mem_walk_iff.2 ⟨node?_isSome_of_mem_refs hab, hra⟩
    exact List.mem_cons_of_mem _ (List.mem_flatMap.2 ⟨a, ha, hab⟩)

theorem count_references_eq (s : Scene) (start x : NodeId) : (s.references start).count x =
    [start].count x + ((s.walk start).flatMap s.refs).count x := by
  have hrefs : s.references start = [start] ++ (s.walk start).flatMap s.refs := rfl
  rw [hrefs, List.count_append]

theorem exists_node_of_isGrouping (h : s.isGrouping id = true) :
    ∃ n, s.node? id = some n ∧ n.kind.isGrouping = true := by
  cases hn : s.node? id with
  | none => simp [isGrouping, kind?, hn] at h
  | some n => exact ⟨n, rfl, by simpa [isGrouping, kind?, hn] using h⟩

theorem mem_groupings_iff {start : NodeId} :
    id ∈ s.groupings start ↔ s.Reaches start id ∧ s.isGrouping id := by
  rw [groupings, List.mem_filter, mem_walk_iff]
  constructor
  · rintro ⟨⟨-, hr⟩, hg⟩
    exact ⟨hr, hg⟩
  · rintro ⟨hr, hg⟩
    obtain ⟨n, hn, -⟩ := exists_node_of_isGrouping hg
    exact ⟨⟨Option.isSome_iff_exists.2 ⟨n, hn⟩, hr⟩, hg⟩

end SceneTidy.Scene

import Mathlib.Data.List.Perm.Basic
import SceneTidy.Proofs.Simplify.Paths

/-!
# Folding keeps the paths

While a scene is folded, the nodes that were reachable at first never get more references than were
counted, and a node that was referred to once does not come to refer to itself (`Bounded`).  So a
transform that is folded has one place only, among the children of the node at hand.  When it hands
its children over, each path through it goes through the survivor instead, and afterwards no path
that counts goes through it (`paths_handOver`).  Main statement: the paths of every length stay the
same but for their order (`paths_foldTransforms`).
-/

namespace SceneTidy.Scene

variable {s : Scene}

/-! ### Paths along some ways out -/

/-- The paths of a length that start with given ways out. -/
def pathsBy (s : Scene) (n : Nat) (l : List Exit) : List (List Step) :=
  l.flatMap fun e => (s.paths n e.target).map (s.step e :: ·)

theorem paths_succ (s : Scene) (n : Nat) (id : NodeId) :
    s.paths (n + 1) id = s.pathsBy n (s.exits id) := rfl

theorem pathsBy_append (s : Scene) (n : Nat) (l m : List Exit) :
    s.pathsBy n (l ++ m) = s.pathsBy n l ++ s.pathsBy n m := List.flatMap_append

theorem pathsBy_cons (s : Scene) (n : Nat) (e : Exit) (l : List Exit) :
    s.pathsBy n (e :: l) = (s.paths n e.target).map (s.step e :: ·) ++ s.pathsBy n l := rfl

theorem perm_pathsBy_of_perm (s : Scene) (n : Nat) {l m : List Exit} (h : List.Perm l m) :
    List.Perm (s.pathsBy n l) (s.pathsBy n m) := h.flatMap_right _

/-- Paths stay the same if the marks do and the paths from the next nodes. -/
theorem perm_pathsBy {t : Scene} {n : Nat} {l : List Exit} (hmark : ∀ x, t.mark x = s.mark x)
    (h : ∀ e ∈ l, List.Perm (t.paths n e.target) (s.paths n e.target)) :
    List.Perm (t.pathsBy n l) (s.pathsBy n l) := by
  refine List.Perm.flatMap_left _ fun e he => ?_
  have hstep : t.step e = s.step e := by rw [step, step, hmark]
  rw [hstep]
  exact (h e he).map _

/-! ### Handing children over -/

/-- Two transforms of equal parameters that stand once among the children of one node, and are
referred to from nowhere else within a set of nodes that is closed under references. -/
structure Siblings (s : Scene) (within : List NodeId) (group survivor other : NodeId) : Prop where
  closed : ∀ x ∈ within, ∀ t ∈ s.refs x, t ∈ within ∨ s.node? t = none
  group_mem : group ∈ within
  grouping : ∃ n, s.node? group = some n ∧ n.kind.isGrouping = true ∧ n.kind ≠ .switch
  mem : survivor ∈ s.children group ∧ other ∈ s.children group
  transform : s.isKind .transform survivor = true ∧ s.isKind .transform other = true
  mark : s.mark survivor = s.mark other
  ne : survivor ≠ other
  ne_group : survivor ≠ group ∧ other ≠ group
  sole : ∀ x ∈ within, ∀ t, t = survivor ∨ t = other →
    (s.refs x).count t ≤ 1 ∧ (t ∈ s.refs x → x = group)

theorem exists_node_of_isKind {k : NodeKind} {id : NodeId} (h : s.isKind k id = true) :
    ∃ n, s.node? id = some n ∧ n.kind = k := by
  have hk : s.kind? id = some k := by simpa [isKind] using h
  exact Option.map_eq_some_iff.1 hk

theorem exits_of_transform {id : NodeId} (h : s.isKind .transform id = true) :
    s.exits id = (s.children id).map childExit := by
  obtain ⟨n, hn, hk⟩ := exists_node_of_isKind h
  rw [exits_of_node? hn, children_of_node? hn, Node.exits_transform hk]

section HandOver

variable {within : List NodeId} {group survivor other : NodeId}

theorem node?_handOver {x : NodeId} (h₁ : x ≠ survivor) (h₂ : x ≠ other) :
    (handOver survivor s other).node? x = s.node? x := by
  rw [handOver, node?_setChildren_of_ne h₂.symm, node?_setChildren_of_ne h₁.symm]

theorem isKind_handOver (k : NodeKind) (x : NodeId) :
    (handOver survivor s other).isKind k x = s.isKind k x := by
  rw [handOver, isKind_setChildren, isKind_setChildren]

theorem mark_handOver (x : NodeId) : (handOver survivor s other).mark x = s.mark x := by
  rw [handOver, mark_setChildren, mark_setChildren]

theorem node?_isSome_handOver (x : NodeId) :
    ((handOver survivor s other).node? x).isSome = (s.node? x).isSome := by
  rw [handOver, node?_isSome_setChildren, node?_isSome_setChildren]

theorem node?_handOver_survivor {n : Node} (hne : survivor ≠ other)
    (hn : s.node? survivor = some n) : (handOver survivor s other).node? survivor =
      some (n.setChildren (s.children survivor ++ s.children other)) := by
  rw [handOver, node?_setChildren_of_ne hne.symm, node?_setChildren_self hn]

theorem node?_handOver_other {n : Node} (hne : survivor ≠ other) (hn : s.node? other = some n) :
    (handOver survivor s other).node? other = some (n.setChildren []) := by
  rw [handOver]
  exact node?_setChildren_self ((node?_setChildren_of_ne hne _).trans hn) []

/-- The paths of a length after a hand-over: away from the two they are as before, the survivor has
those of both, and none are left for the other. -/
structure Rerouted (s : Scene) (within : List NodeId) (survivor other : NodeId) (n : Nat) :
    Prop where
  away : ∀ x, x ∈ within ∨ s.node? x = none → x ≠ survivor → x ≠ other →
    List.Perm ((handOver survivor s other).paths n x) (s.paths n x)
  joined : List.Perm ((handOver survivor s other).paths n survivor)
    (s.paths n survivor ++ s.paths n other)
  gone : (handOver survivor s other).paths n other = []

/-- Ways out that do not lead to the two keep their paths. -/
theorem Rerouted.pathsBy {n : Nat} (hr : Rerouted s within survivor other n) {l : List Exit}
    (hl : ∀ e ∈ l, (e.target ∈ within ∨ s.node? e.target = none) ∧ e.target ≠ survivor ∧
      e.target ≠ other) : List.Perm ((handOver survivor s other).pathsBy n l) (s.pathsBy n l) :=
  perm_pathsBy mark_handOver fun e he => hr.away e.target (hl e he).1 (hl e he).2.1 (hl e he).2.2

namespace Siblings

variable (h : Siblings s within group survivor other)

include h

theorem exits_other : (handOver survivor s other).exits other = [] := by
  obtain ⟨n, hn, hk⟩ := exists_node_of_isKind h.transform.2
  have hg : n.kind.isGrouping := by rw [hk]; rfl
  rw [exits_of_transform ((isKind_handOver ..).trans h.transform.2),
    children_of_node? (node?_handOver_other h.ne hn), Node.children_setChildren hg]
  rfl

theorem exits_survivor :
    (handOver survivor s other).exits survivor = s.exits survivor ++ s.exits other := by
  obtain ⟨n, hn, hk⟩ := exists_node_of_isKind h.transform.1
  have hg : n.kind.isGrouping := by rw [hk]; rfl
  rw [exits_of_transform ((isKind_handOver ..).trans h.transform.1),
    exits_of_transform h.transform.1, exits_of_transform h.transform.2,
    children_of_node? (node?_handOver_survivor h.ne hn), Node.children_setChildren hg,
    List.map_append]

/-- The node at hand has one way out to each of the two. -/
theorem exists_exits_group : ∃ rest, List.Perm (s.exits group)
      (childExit survivor :: childExit other :: rest) ∧
    ∀ e ∈ rest, e.target ≠ survivor ∧ e.target ≠ other := by
  obtain ⟨n, hn, hg, hs⟩ := h.grouping
  obtain ⟨l₁, l₂, hexits, -⟩ := Node.exists_exits_children hg hs
  have hmem := h.mem
  rw [children_of_node? hn] at hmem
  have hperm₁ := List.perm_cons_erase hmem.1
  have hperm₂ := List.perm_cons_erase ((List.mem_erase_of_ne h.ne.symm).2 hmem.2)
  have hperm := hperm₁.trans (hperm₂.cons survivor)
  have hmid := ((hperm.map childExit).append_right l₂).append_left l₁
  rw [List.map_cons, List.map_cons, List.cons_append, List.cons_append] at hmid
  have hfirst := hmid.trans (List.perm_middle.trans (List.perm_middle.cons _))
  have hall : List.Perm (s.exits group) (childExit survivor :: childExit other ::
      (l₁ ++ (((n.children.erase survivor).erase other).map childExit ++ l₂))) := by
    rw [exits_of_node? hn, hexits, List.append_assoc]
    exact hfirst
  generalize l₁ ++ (((n.children.erase survivor).erase other).map childExit ++ l₂) = rest at hall
  have honce : ∀ t, t = survivor ∨ t = other →
      (survivor :: other :: rest.map Exit.target).count t ≤ 1 := by
    intro t ht
    have hle := Nat.le_trans (n.count_exits_le t)
      (refs_of_node? hn ▸ (h.sole group h.group_mem t ht).1)
    rw [← exits_of_node? hn, (hall.map Exit.target).count_eq] at hle
    exact hle
  refine ⟨rest, hall, fun e he => ⟨fun ht => ?_, fun ht => ?_⟩⟩
  · have hpos := List.count_pos_iff.2 (ht ▸ List.mem_map_of_mem (f := Exit.target) he)
    have hle := honce survivor (.inl rfl)
    rw [List.count_cons_self, List.count_cons_of_ne h.ne.symm] at hle
    omega
  · have hpos := List.count_pos_iff.2 (ht ▸ List.mem_map_of_mem (f := Exit.target) he)
    have hle := honce other (.inr rfl)
    rw [List.count_cons_of_ne h.ne, List.count_cons_self] at hle
    omega

/-- The nodes referred to from a node of the set, other than the one at hand, are not the two. -/
theorem target_ne {x : NodeId} (hx : x ∈ within ∨ s.node? x = none) (hne : x ≠ group) {e : Exit}
    (he : e ∈ s.exits x) : e.target ≠ survivor ∧ e.target ≠ other := by
  have hrefs := mem_refs_of_mem_exits he
  rcases hx with hx | hx
  · refine ⟨fun ht => hne ?_, fun ht => hne ?_⟩
    · exact (h.sole x hx e.target (.inl ht)).2 hrefs
    · exact (h.sole x hx e.target (.inr ht)).2 hrefs
  · rw [refs_of_none hx] at hrefs
    exact absurd hrefs List.not_mem_nil

theorem target_mem {x : NodeId} (hx : x ∈ within ∨ s.node? x = none) {e : Exit}
    (he : e ∈ s.exits x) : e.target ∈ within ∨ s.node? e.target = none := by
  have hrefs := mem_refs_of_mem_exits he
  rcases hx with hx | hx
  · exact h.closed x hx _ hrefs
  · rw [refs_of_none hx] at hrefs
    exact absurd hrefs List.not_mem_nil

theorem survivor_mem : survivor ∈ within ∧ other ∈ within := by
  have hmem : ∀ t, s.isKind .transform t = true → t ∈ s.children group → t ∈ within := by
    intro t hk ht
    obtain ⟨m, hm, -⟩ := exists_node_of_isKind hk
    refine (h.closed group h.group_mem t (mem_refs_of_mem_children ht)).resolve_right ?_
    simp [hm]
  exact ⟨hmem _ h.transform.1 h.mem.1, hmem _ h.transform.2 h.mem.2⟩

/-- The node at hand keeps its paths, since the two are known by one mark. -/
theorem pathsBy_group {n : Nat} (hr : Rerouted s within survivor other n) :
    List.Perm ((handOver survivor s other).pathsBy n (s.exits group))
      (s.pathsBy n (s.exits group)) := by
  obtain ⟨rest, hperm, hrest⟩ := h.exists_exits_group
  have hmem : ∀ e ∈ rest, e ∈ s.exits group := fun e he =>
    hperm.mem_iff.2 (List.mem_cons_of_mem _ (List.mem_cons_of_mem _ he))
  have hstep : ∀ t, (handOver survivor s other).step (childExit t) = s.step (childExit t) := by
    intro t
    rw [step, step, mark_handOver]
  have hlabel : s.step (childExit other) = s.step (childExit survivor) :=
    congrArg (Step.mk "children" none) h.mark.symm
  have htarget : ∀ t, (childExit t).target = t := fun _ => rfl
  -- the way to the survivor takes over the paths by the way to the other
  have hfirst : List.Perm
      (((handOver survivor s other).paths n survivor).map
        ((handOver survivor s other).step (childExit survivor) :: ·))
      ((s.paths n survivor).map (s.step (childExit survivor) :: ·) ++
        (s.paths n other).map (s.step (childExit other) :: ·)) := by
    rw [hstep, hlabel, ← List.map_append]
    exact hr.joined.map _
  have hsecond : ((handOver survivor s other).paths n other).map
      ((handOver survivor s other).step (childExit other) :: ·) = [] := by
    rw [hr.gone, List.map_nil]
  refine (perm_pathsBy_of_perm _ n hperm).trans
    (List.Perm.trans ?_ (perm_pathsBy_of_perm s n hperm).symm)
  rw [pathsBy_cons, pathsBy_cons, pathsBy_cons, pathsBy_cons, htarget, htarget, hsecond,
    List.nil_append, ← List.append_assoc]
  exact hfirst.append (hr.pathsBy fun e he =>
    ⟨h.target_mem (.inl h.group_mem) (hmem e he), hrest e he⟩)

/-- **Handing children over reroutes the paths through the survivor.** -/
theorem paths_handOver (n : Nat) : Rerouted s within survivor other n := by
  induction n with
  | zero =>
    have hkind : ∀ x, (handOver survivor s other).paths 0 x = s.paths 0 x := fun x => by
      rw [paths, paths, isKind_handOver]
    -- no path ends in a transform
    have hnil : ∀ x, s.isKind .transform x = true → s.paths 0 x = [] := fun x hx => if_pos hx
    constructor
    · exact fun x _ _ _ => hkind x ▸ .refl _
    · rw [hkind, hnil _ h.transform.1, hnil _ h.transform.2]
      exact .refl _
    · rw [hkind, hnil _ h.transform.2]
  | succ n ih =>
    have hmem := h.survivor_mem
    have haway : ∀ x, x ∈ within ∨ s.node? x = none → x ≠ group → ∀ e ∈ s.exits x,
        (e.target ∈ within ∨ s.node? e.target = none) ∧ e.target ≠ survivor ∧ e.target ≠ other :=
      fun x hx hne e he => ⟨h.target_mem hx he, h.target_ne hx hne he⟩
    constructor
    · intro x hx h₁ h₂
      have hexits : (handOver survivor s other).exits x = s.exits x := by
        rw [exits, exits, node?_handOver h₁ h₂]
      rw [paths_succ, paths_succ, hexits]
      by_cases hg : x = group
      · rw [hg]
        exact h.pathsBy_group ih
      · exact ih.pathsBy (haway x hx hg)
    · rw [paths_succ, paths_succ, paths_succ, h.exits_survivor, pathsBy_append]
      apply List.Perm.append
      · exact ih.pathsBy (haway _ (.inl hmem.1) h.ne_group.1)
      · exact ih.pathsBy (haway _ (.inl hmem.2) h.ne_group.2)
    · rw [paths_succ, h.exits_other]
      rfl

end Siblings

end HandOver

/-! ### What folding keeps -/

/-- The nodes that were reachable at first refer to no node more often than was counted, and a node
that was referred to once does not refer to itself. -/
structure Bounded (first : Scene) (start : NodeId) (s : Scene) : Prop where
  known : ∀ x, (s.node? x).isSome = (first.node? x).isSome
  count_le : ∀ t, [start].count t + ((first.walk start).flatMap s.refs).count t ≤
    (first.references start).count t
  loopless : ∀ x ∈ first.walk start, (first.references start).count x = 1 → x ∉ s.refs x

variable {first : Scene} {start : NodeId}

theorem Bounded.node?_eq_none_iff (hb : Bounded first start s) {x : NodeId} :
    s.node? x = none ↔ first.node? x = none := by
  rw [← Option.not_isSome_iff_eq_none, ← Option.not_isSome_iff_eq_none, hb.known]

/-- A reachable node other than the start is referred to by a node other than itself. -/
theorem exists_refers_ne {x : NodeId} (h : s.Reaches start x) (hne : x ≠ start) :
    ∃ y, y ≠ x ∧ s.Reaches start y ∧ s.Refers y x := by
  induction h with
  | refl => exact absurd rfl hne
  | @tail y x hy hyx ih =>
    by_cases he : y = x
    · subst he
      exact ih hne
    · exact ⟨y, he, hy, hyx⟩

theorem count_flatMap_le {l : List NodeId} {x : NodeId} (hx : x ∈ l) (f : NodeId → List NodeId)
    (t : NodeId) : (f x).count t ≤ (l.flatMap f).count t := by
  rw [((List.perm_cons_erase hx).flatMap_right f).count_eq, List.flatMap_cons, List.count_append]
  exact Nat.le_add_right ..

theorem count_flatMap_two {l : List NodeId} {x y : NodeId} (hx : x ∈ l) (hy : y ∈ l) (hne : x ≠ y)
    (t : NodeId) : ∃ rest, l.Perm (x :: y :: rest) ∧ ∀ f : NodeId → List NodeId,
      (l.flatMap f).count t = (f x).count t + (f y).count t + (rest.flatMap f).count t := by
  have hperm := (List.perm_cons_erase hx).trans
    ((List.perm_cons_erase ((List.mem_erase_of_ne hne.symm).2 hy)).cons x)
  refine ⟨_, hperm, fun f => ?_⟩
  rw [(hperm.flatMap_right f).count_eq, List.flatMap_cons, List.flatMap_cons, List.count_append,
    List.count_append, Nat.add_assoc]

theorem bounded_self (s : Scene) (start : NodeId) : Bounded s start s where
  known _ := rfl
  count_le t := by
    have hrefs : s.references start = [start] ++ (s.walk start).flatMap s.refs := rfl
    exact Nat.le_of_eq ((congrArg _ hrefs).trans List.count_append).symm
  loopless x hx hone hmem := by
    have hle := count_flatMap_le hx s.refs x
    have hpos : 0 < (s.refs x).count x := List.count_pos_iff.2 hmem
    rw [references, ← List.singleton_append, List.count_append] at hone
    by_cases he : x = start
    · subst he
      rw [List.count_singleton_self] at hone
      omega
    · obtain ⟨y, hne, hy, hyx⟩ := exists_refers_ne (mem_walk_iff.1 hx).2 he
      have hyw : y ∈ s.walk start := mem_walk_iff.2 ⟨node?_isSome_of_mem_refs hyx, hy⟩
      obtain ⟨rest, -, hcount⟩ := count_flatMap_two hx hyw hne.symm x
      have hposy : 0 < (s.refs y).count x := List.count_pos_iff.2 hyx
      rw [hcount] at hone
      omega

namespace Bounded

variable (h : Bounded first start s)

include h

theorem closed {x t : NodeId} (hx : x ∈ first.walk start) (ht : t ∈ s.refs x) :
    t ∈ first.walk start ∨ s.node? t = none := by
  cases hn : s.node? t with
  | none => exact .inr rfl
  | some n =>
    refine .inl (mem_walk_of_mem_references (List.count_pos_iff.1 ?_) ?_)
    · have hpos : 0 < (s.refs x).count t := List.count_pos_iff.2 ht
      have hle := count_flatMap_le hx s.refs t
      have := h.count_le t
      omega
    · rw [← h.known, hn]
      rfl

/-- What was referred to once has one referrer at most, and is not the start. -/
theorem sole {g t : NodeId} (hg : g ∈ first.walk start)
    (hone : (first.references start).count t = 1) (ht : t ∈ s.refs g) :
    t ≠ start ∧ t ≠ g ∧
      ∀ x ∈ first.walk start, (s.refs x).count t ≤ 1 ∧ (t ∈ s.refs x → x = g) := by
  have hall := h.count_le t
  have hpos : 0 < (s.refs g).count t := List.count_pos_iff.2 ht
  have hle := count_flatMap_le hg s.refs t
  refine ⟨?_, ?_, fun x hx => ⟨?_, fun hxt => ?_⟩⟩
  · rintro rfl
    rw [List.count_singleton_self] at hall
    omega
  · rintro rfl
    exact h.loopless t hg hone ht
  · have := count_flatMap_le hx s.refs t
    omega
  · by_cases he : x = g
    · exact he
    · obtain ⟨rest, -, hcount⟩ := count_flatMap_two hx hg he t
      have hposx : 0 < (s.refs x).count t := List.count_pos_iff.2 hxt
      rw [hcount] at hall
      omega

/-- To drop references keeps the bounds. -/
theorem sublist {t : Scene} (hknown : ∀ x, (t.node? x).isSome = (s.node? x).isSome)
    (hrefs : ∀ x, List.Sublist (t.refs x) (s.refs x)) : Bounded first start t where
  known x := (hknown x).trans (h.known x)
  count_le x := by
    have hle : ((first.walk start).flatMap t.refs).count x ≤
        ((first.walk start).flatMap s.refs).count x :=
      (List.Sublist.flatMap_right _ fun y _ => hrefs y).count_le x
    have := h.count_le x
    omega
  loopless x hx hone hmem := h.loopless x hx hone ((hrefs x).subset hmem)

end Bounded

section HandOver

variable {within : List NodeId} {group survivor other : NodeId}

theorem refs_handOver {x : NodeId} (h₁ : x ≠ survivor) (h₂ : x ≠ other) :
    (handOver survivor s other).refs x = s.refs x := by
  rw [refs, refs, node?_handOver h₁ h₂]

namespace Siblings

variable (h : Siblings s within group survivor other)

include h

theorem perm_refs_survivor : List.Perm ((handOver survivor s other).refs survivor)
    (s.refs survivor ++ s.children other) := by
  obtain ⟨n, hn, hk⟩ := exists_node_of_isKind h.transform.1
  obtain ⟨l₁, l₂, hrefs, hset⟩ := Node.exists_refs_children (n := n) (by rw [hk]; rfl)
  rw [refs_of_node? (node?_handOver_survivor h.ne hn), refs_of_node? hn, hset, hrefs,
    children_of_node? hn]
  simp only [List.append_assoc]
  exact (List.perm_append_comm.append_left _).append_left _

theorem perm_refs_other : List.Perm (s.refs other)
    ((handOver survivor s other).refs other ++ s.children other) := by
  obtain ⟨n, hn, hk⟩ := exists_node_of_isKind h.transform.2
  obtain ⟨l₁, l₂, hrefs, hset⟩ := Node.exists_refs_children (n := n) (by rw [hk]; rfl)
  rw [refs_of_node? (node?_handOver_other h.ne hn), refs_of_node? hn, hset, hrefs,
    children_of_node? hn, List.append_nil, List.append_assoc, List.append_assoc]
  exact List.perm_append_comm.append_left _

/-- The nodes of the set refer to every node as often as before, all together. -/
theorem count_handOver (hnd : within.Nodup) (t : NodeId) :
    (within.flatMap (handOver survivor s other).refs).count t =
      (within.flatMap s.refs).count t := by
  obtain ⟨hsm, hom⟩ := h.survivor_mem
  obtain ⟨rest, hperm, hcount⟩ := count_flatMap_two hsm hom h.ne t
  have hnd' := hperm.nodup_iff.1 hnd
  simp only [List.nodup_cons, List.mem_cons, not_or] at hnd'
  have hrest : rest.flatMap (handOver survivor s other).refs = rest.flatMap s.refs := by
    refine List.flatMap_congr fun x hx => refs_handOver ?_ ?_
    · rintro rfl
      exact hnd'.1.2 hx
    · rintro rfl
      exact hnd'.2.1 hx
  have h₁ := h.perm_refs_survivor.count_eq t
  have h₂ := h.perm_refs_other.count_eq t
  rw [List.count_append] at h₁ h₂
  rw [hcount, hcount, hrest]
  omega

end Siblings

/-- Handing children over keeps the bounds. -/
theorem Bounded.handOver (h : Bounded first start s)
    (hs : Siblings s (first.walk start) group survivor other) :
    Bounded first start (handOver survivor s other) := by
  obtain ⟨-, hom⟩ := hs.survivor_mem
  have hsurvivor := hs.perm_refs_survivor
  have hother := hs.perm_refs_other
  refine ⟨fun x => (node?_isSome_handOver x).trans (h.known x), fun t => ?_, fun x hx hone => ?_⟩
  · rw [hs.count_handOver (first.nodup_walk start) t]
    exact h.count_le t
  · by_cases h₁ : x = survivor
    · subst h₁
      rw [hsurvivor.mem_iff, List.mem_append, not_or]
      refine ⟨h.loopless x hx hone, fun hmem => hs.ne_group.2 ?_⟩
      have hrefs : x ∈ s.refs other := hother.mem_iff.2 (List.mem_append_right _ hmem)
      exact (hs.sole other hom x (.inl rfl)).2 hrefs
    · by_cases h₂ : x = other
      · subst h₂
        exact fun hmem => h.loopless x hx hone (hother.mem_iff.2 (List.mem_append_left _ hmem))
      · rw [refs_handOver h₁ h₂]
        exact h.loopless x hx hone

end HandOver

/-! ### Rows -/

/-- The transforms of some rows. -/
def members (rows : List FoldRow) : List NodeId := rows.flatMap fun r => r.survivor :: r.others

/-- A row holds transforms that may be folded, with parameters the same as those of the first. -/
def RowFits (s : Scene) (references : List NodeId) (r : FoldRow) : Prop :=
  s.foldable? references r.survivor = some r.placement ∧
    ∀ o ∈ r.others, ∃ q, s.foldable? references o = some q ∧ (o = r.survivor ∨ r.placement.same q)

variable {references : List NodeId}

theorem members_addToRow (id : NodeId) (p : Placement) (rows : List FoldRow) :
    List.Perm (members (addToRow id p rows)) (members rows ++ [id]) := by
  induction rows with
  | nil => exact .refl _
  | cons r rows ih =>
    rw [addToRow]
    split
    · simp only [members, List.flatMap_cons, List.cons_append, List.append_assoc, List.nil_append]
      exact ((List.perm_append_singleton id _).symm.append_left _).cons _
    · simp only [members, List.flatMap_cons, List.append_assoc] at ih ⊢
      exact ih.append_left _

theorem rowFits_addToRow {id : NodeId} {p : Placement} (hp : s.foldable? references id = some p)
    {rows : List FoldRow} (h : ∀ r ∈ rows, s.RowFits references r) :
    ∀ r ∈ addToRow id p rows, s.RowFits references r := by
  induction rows with
  | nil =>
    intro r hr
    obtain rfl := List.mem_singleton.1 hr
    exact ⟨hp, fun o ho => absurd ho List.not_mem_nil⟩
  | cons row rows ih =>
    obtain ⟨hrow, hrows⟩ := List.forall_mem_cons.1 h
    rw [addToRow]
    split
    · next hsame =>
      refine List.forall_mem_cons.2 ⟨⟨hrow.1, fun o ho => ?_⟩, hrows⟩
      rcases List.mem_append.1 ho with ho | ho
      · exact hrow.2 o ho
      · obtain rfl := List.mem_singleton.1 ho
        refine ⟨p, hp, ?_⟩
        simp only [Bool.or_eq_true, decide_eq_true_eq] at hsame
        exact hsame.imp Eq.symm id
    · exact List.forall_mem_cons.2 ⟨hrow, ih hrows⟩

/-- The rows of a node hold its children that may be folded. -/
theorem foldRows_spec (s : Scene) (references : List NodeId) (group : NodeId) :
    (∀ r ∈ s.foldRows references group, s.RowFits references r) ∧
      List.Perm (members (s.foldRows references group))
        ((s.children group).filter fun id => (s.foldable? references id).isSome) := by
  have key : ∀ f : List FoldRow → NodeId → List FoldRow,
      (∀ rows id, s.foldable? references id = none → f rows id = rows) →
      (∀ rows id p, s.foldable? references id = some p → f rows id = addToRow id p rows) →
      ∀ (l : List NodeId) (rows : List FoldRow), (∀ r ∈ rows, s.RowFits references r) →
        (∀ r ∈ l.foldl f rows, s.RowFits references r) ∧ List.Perm (members (l.foldl f rows))
          (members rows ++ l.filter fun id => (s.foldable? references id).isSome) := by
    intro f hnone hsome l
    induction l with
    | nil => exact fun rows h => ⟨h, by simp⟩
    | cons id l ih =>
      intro rows h
      rw [List.foldl_cons]
      cases hp : s.foldable? references id with
      | none =>
        rw [List.filter_cons_of_neg (by simp [hp]), hnone rows id hp]
        exact ih rows h
      | some p =>
        rw [List.filter_cons_of_pos (by simp [hp]), hsome rows id p hp]
        obtain ⟨h₁, h₂⟩ := ih _ (rowFits_addToRow hp h)
        refine ⟨h₁, h₂.trans ?_⟩
        have := (members_addToRow id p rows).append_right
          (l.filter fun id => (s.foldable? references id).isSome)
        rwa [List.append_assoc, List.singleton_append] at this
  exact key _ (fun _ _ h => by rw [h]) (fun _ _ _ h => by rw [h]) _ []
    fun r hr => absurd hr List.not_mem_nil

theorem foldable?_eq_some {id : NodeId} {p : Placement}
    (h : s.foldable? references id = some p) :
    s.isKind .transform id = true ∧ references.count id = 1 ∧ s.mark id = .transform p.key := by
  unfold foldable? at h
  split at h
  · next n hn =>
    split at h
    · next hk =>
      obtain rfl := Option.some.inj h
      refine ⟨by simp [isKind, kind?, hn, hk.1], hk.2, ?_⟩
      simp [mark, hn, hk.1]
    · cases h
  · cases h

/-! ### Folding the children of a node -/

/-- The hand-overs of some rows: the survivor and another of its row. -/
def handOvers (rows : List FoldRow) : List (NodeId × NodeId) :=
  rows.flatMap fun r => r.others.map (r.survivor, ·)

theorem foldl_handOvers (rows : List FoldRow) (s : Scene) :
    rows.foldl (fun s row => row.others.foldl (handOver row.survivor) s) s =
      (handOvers rows).foldl (fun s p => handOver p.1 s p.2) s := by
  rw [handOvers, List.foldl_flatMap]
  simp only [List.foldl_map]

/-- Hand-overs among the children of one node that do not disturb one another. -/
structure Apart (s : Scene) (references : List NodeId) (group : NodeId)
    (l : List (NodeId × NodeId)) : Prop where
  nodup : (l.map Prod.snd).Nodup
  ne : ∀ p ∈ l, ∀ q ∈ l, p.1 ≠ q.2
  mem : ∀ p ∈ l, p.1 ∈ s.children group ∧ p.2 ∈ s.children group
  once : ∀ p ∈ l, references.count p.1 = 1 ∧ references.count p.2 = 1
  transform : ∀ p ∈ l, s.isKind .transform p.1 = true ∧ s.isKind .transform p.2 = true
  mark : ∀ p ∈ l, s.mark p.1 = s.mark p.2

theorem Apart.siblings {group : NodeId} {p : NodeId × NodeId} {l : List (NodeId × NodeId)}
    (h : s.Apart (first.references start) group (p :: l)) (hb : Bounded first start s)
    (hg : group ∈ first.walk start)
    (hn : ∃ n, s.node? group = some n ∧ n.kind.isGrouping = true ∧ n.kind ≠ .switch) :
    Siblings s (first.walk start) group p.1 p.2 := by
  have hp : p ∈ p :: l := List.mem_cons_self ..
  obtain ⟨h₁, h₂⟩ := h.mem p hp
  obtain ⟨-, hne₁, hsole₁⟩ := hb.sole hg (h.once p hp).1 (mem_refs_of_mem_children h₁)
  obtain ⟨-, hne₂, hsole₂⟩ := hb.sole hg (h.once p hp).2 (mem_refs_of_mem_children h₂)
  refine ⟨fun x hx t ht => hb.closed hx ht, hg, hn, ⟨h₁, h₂⟩, h.transform p hp, h.mark p hp,
    h.ne p hp p hp, ⟨hne₁, hne₂⟩, fun x hx t ht => ?_⟩
  rcases ht with rfl | rfl
  · exact hsole₁ x hx
  · exact hsole₂ x hx

/-- The other hand-overs do not disturb one another either when the first has been made. -/
theorem Apart.tail {group : NodeId} {p : NodeId × NodeId} {l : List (NodeId × NodeId)}
    (h : s.Apart references group (p :: l))
    (hgroup : (handOver p.1 s p.2).node? group = s.node? group) :
    (handOver p.1 s p.2).Apart references group l := by
  have hchildren : (handOver p.1 s p.2).children group = s.children group := by
    rw [children, children, hgroup]
  refine ⟨(List.nodup_cons.1 h.nodup).2, fun q hq r hr => ?_, fun q hq => ?_, fun q hq => ?_,
    fun q hq => ?_, fun q hq => ?_⟩
  · exact h.ne q (List.mem_cons_of_mem _ hq) r (List.mem_cons_of_mem _ hr)
  · rw [hchildren]
    exact h.mem q (List.mem_cons_of_mem _ hq)
  · exact h.once q (List.mem_cons_of_mem _ hq)
  · rw [isKind_handOver, isKind_handOver]
    exact h.transform q (List.mem_cons_of_mem _ hq)
  · rw [mark_handOver, mark_handOver]
    exact h.mark q (List.mem_cons_of_mem _ hq)

/-- The node that hands its children over first has no part in the later hand-overs. -/
theorem Apart.other_ne {group : NodeId} {p : NodeId × NodeId} {l : List (NodeId × NodeId)}
    (h : s.Apart references group (p :: l)) : ∀ q ∈ l, p.2 ≠ q.1 ∧ p.2 ≠ q.2 := by
  intro q hq
  refine ⟨(h.ne q (List.mem_cons_of_mem _ hq) p (List.mem_cons_self ..)).symm, fun he => ?_⟩
  exact (List.nodup_cons.1 h.nodup).1 (he ▸ List.mem_map_of_mem (f := Prod.snd) hq)

/-- Several hand-overs keep the bounds and the paths from nodes that have no part in them, and no
path that counts goes through a node that has handed over its children. -/
theorem Apart.foldl {group : NodeId} {l : List (NodeId × NodeId)}
    (h : s.Apart (first.references start) group l) (hb : Bounded first start s)
    (hg : group ∈ first.walk start)
    (hn : ∃ n, s.node? group = some n ∧ n.kind.isGrouping = true ∧ n.kind ≠ .switch) :
    Bounded first start (l.foldl (fun s p => handOver p.1 s p.2) s) ∧
    (∀ n x, x ∈ first.walk start ∨ s.node? x = none → (∀ p ∈ l, x ≠ p.1 ∧ x ≠ p.2) →
      List.Perm ((l.foldl (fun s p => handOver p.1 s p.2) s).paths n x) (s.paths n x)) ∧
    (∀ p ∈ l, ∀ n, (l.foldl (fun s p => handOver p.1 s p.2) s).paths n p.2 = []) ∧
    (l.foldl (fun s p => handOver p.1 s p.2) s).node? group = s.node? group := by
  induction l generalizing s with
  | nil => exact ⟨hb, fun n x _ _ => .refl _, fun p hp => absurd hp List.not_mem_nil, rfl⟩
  | cons p l ih =>
    have hsib := h.siblings hb hg hn
    have hgroup : (handOver p.1 s p.2).node? group = s.node? group :=
      node?_handOver hsib.ne_group.1.symm hsib.ne_group.2.symm
    obtain ⟨hbound, hpaths, hgone, hsame⟩ := ih (h.tail hgroup) (hb.handOver hsib) (hgroup ▸ hn)
    have hnone : ∀ x, s.node? x = none → (handOver p.1 s p.2).node? x = none := by
      intro x hx
      rw [← Option.not_isSome_iff_eq_none, node?_isSome_handOver, hx]
      exact Bool.false_ne_true
    refine ⟨hbound, fun n x hx hne => ?_, List.forall_mem_cons.2 ⟨fun n => ?_, hgone⟩,
      hsame.trans hgroup⟩
    · obtain ⟨⟨hne₁, hne₂⟩, hrest⟩ := List.forall_mem_cons.1 hne
      exact (hpaths n x (hx.imp_right (hnone x)) hrest).trans
        ((hsib.paths_handOver n).away x hx hne₁ hne₂)
    · have hperm := hpaths n p.2 (.inl hsib.survivor_mem.2) h.other_ne
      rw [(hsib.paths_handOver n).gone] at hperm
      exact hperm.eq_nil

/-- To drop children that no path that counts goes through changes no path. -/
theorem paths_setChildren_filter {group : NodeId} {p : NodeId → Bool}
    (hn : ∃ n, s.node? group = some n ∧ n.kind.isGrouping = true ∧ n.kind ≠ .switch)
    (hp : ∀ x, p x = false → ∀ n, s.paths n x = []) (n : Nat) (x : NodeId) :
    (s.setChildren group ((s.children group).filter p)).paths n x = s.paths n x := by
  obtain ⟨m, hm, hg, hs⟩ := hn
  obtain ⟨l₁, l₂, hexits, hset⟩ := Node.exists_exits_children hg hs
  induction n generalizing x with
  | zero => rw [paths, paths, isKind_setChildren]
  | succ n ih =>
    have hby : ∀ l : List Exit,
        (s.setChildren group ((s.children group).filter p)).pathsBy n l = s.pathsBy n l := by
      intro l
      refine List.flatMap_congr fun e _ => ?_
      rw [ih e.target, step, step, mark_setChildren]
    rw [paths_succ, paths_succ, hby]
    by_cases hx : group = x
    · subst hx
      have hkept : ∀ l : List NodeId,
          s.pathsBy n ((l.filter p).map childExit) = s.pathsBy n (l.map childExit) := by
        intro l
        induction l with
        | nil => rfl
        | cons t l ihl =>
          cases ht : p t with
          | false =>
            rw [List.filter_cons_of_neg (by simp [ht]), ihl, List.map_cons, pathsBy_cons,
              show s.paths n (childExit t).target = [] from hp t ht n]
            rfl
          | true =>
            rw [List.filter_cons_of_pos ht, List.map_cons, List.map_cons, pathsBy_cons,
              pathsBy_cons, ihl]
      rw [exits_of_node? (node?_setChildren_self hm _), exits_of_node? hm, hset, hexits,
        children_of_node? hm]
      simp only [pathsBy_append, hkept]
    · rw [exits, exits, node?_setChildren_of_ne hx]

theorem sublist_refs_filter (s : Scene) (group : NodeId) (p : NodeId → Bool) (x : NodeId)
    (hg : s.isGrouping group = true) :
    List.Sublist ((s.setChildren group ((s.children group).filter p)).refs x) (s.refs x) := by
  by_cases hx : group = x
  · subst hx
    obtain ⟨n, hn, hk⟩ := exists_node_of_isGrouping hg
    obtain ⟨l₁, l₂, hrefs, hset⟩ := Node.exists_refs_children hk
    rw [refs_of_node? (node?_setChildren_self hn _), refs_of_node? hn, hset, hrefs,
      children_of_node? hn]
    exact (List.filter_sublist.append_left _).append_right _
  · rw [refs, refs, node?_setChildren_of_ne hx]

theorem survivor_not_mem_others {rows : List FoldRow} (h : (members rows).Nodup) :
    ∀ r ∈ rows, ∀ r' ∈ rows, r.survivor ∉ r'.others := by
  have hmem : ∀ rows : List FoldRow, ∀ r ∈ rows, r.survivor ∈ members rows ∧
      ∀ o ∈ r.others, o ∈ members rows := fun rows r hr =>
    ⟨List.mem_flatMap.2 ⟨r, hr, List.mem_cons_self ..⟩,
      fun o ho => List.mem_flatMap.2 ⟨r, hr, List.mem_cons_of_mem _ ho⟩⟩
  induction rows with
  | nil => exact fun r hr => absurd hr List.not_mem_nil
  | cons row rows ih =>
    rw [members, List.flatMap_cons, List.nodup_append] at h
    obtain ⟨hrow, hrows, hdisj⟩ := h
    intro r hr r' hr' hmem'
    rcases List.mem_cons.1 hr with hr₁ | hr₁ <;> rcases List.mem_cons.1 hr' with hr₂ | hr₂
    · subst hr₁
      subst hr₂
      exact (List.nodup_cons.1 hrow).1 hmem'
    · subst hr₁
      exact hdisj _ (List.mem_cons_self ..) _ ((hmem rows r' hr₂).2 _ hmem') rfl
    · subst hr₂
      exact hdisj _ (List.mem_cons_of_mem _ hmem') _ (hmem rows r hr₁).1 rfl
    · exact ih hrows r hr₁ r' hr₂ hmem'

/-- The members of rows are children that may be folded. -/
theorem foldable_of_mem_members {group t : NodeId}
    (ht : t ∈ members (s.foldRows references group)) :
    t ∈ s.children group ∧ ∃ p, s.foldable? references t = some p := by
  obtain ⟨h₁, h₂⟩ := List.mem_filter.1 ((s.foldRows_spec references group).2.mem_iff.1 ht)
  exact ⟨h₁, Option.isSome_iff_exists.1 h₂⟩

theorem nodup_members_foldRows (hb : Bounded first start s) {group : NodeId}
    (hg : group ∈ first.walk start) :
    (members (s.foldRows (first.references start) group)).Nodup := by
  rw [(s.foldRows_spec _ group).2.nodup_iff, List.nodup_iff_count_le_one]
  intro t
  by_cases ht : t ∈ (s.children group).filter fun id =>
      (s.foldable? (first.references start) id).isSome
  · obtain ⟨h₁, h₂⟩ := List.mem_filter.1 ht
    obtain ⟨p, hp⟩ := Option.isSome_iff_exists.1 h₂
    -- what may be folded is referred to once, and so it is one child only
    obtain ⟨-, -, hsole⟩ := hb.sole hg (foldable?_eq_some hp).2.1 (mem_refs_of_mem_children h₁)
    have hle : ((s.children group).filter fun id =>
        (s.foldable? (first.references start) id).isSome).count t ≤ (s.children group).count t :=
      List.filter_sublist.count_le t
    have hrefs : (s.children group).count t ≤ (s.refs group).count t :=
      (s.children_sublist_refs group).count_le t
    have := (hsole group hg).1
    omega
  · rw [List.count_eq_zero_of_not_mem ht]
    exact Nat.zero_le _

theorem exists_row_of_mem_handOvers {rows : List FoldRow} {p : NodeId × NodeId}
    (hp : p ∈ handOvers rows) : ∃ r ∈ rows, p.1 = r.survivor ∧ p.2 ∈ r.others := by
  obtain ⟨r, hr, hp⟩ := List.mem_flatMap.1 hp
  obtain ⟨o, ho, rfl⟩ := List.mem_map.1 hp
  exact ⟨r, hr, rfl, ho⟩

theorem mem_members_of_mem_handOvers {rows : List FoldRow} {p : NodeId × NodeId}
    (hp : p ∈ handOvers rows) : p.1 ∈ members rows ∧ p.2 ∈ members rows := by
  obtain ⟨r, hr, h₁, h₂⟩ := exists_row_of_mem_handOvers hp
  constructor
  · exact List.mem_flatMap.2 ⟨r, hr, h₁ ▸ List.mem_cons_self ..⟩
  · exact List.mem_flatMap.2 ⟨r, hr, List.mem_cons_of_mem _ h₂⟩

theorem map_snd_handOvers (rows : List FoldRow) :
    (handOvers rows).map Prod.snd = rows.flatMap (·.others) := by
  rw [handOvers, List.map_flatMap]
  simp only [List.map_map, Function.comp_def, List.map_id']

/-- The hand-overs among the children of a node do not disturb one another. -/
theorem apart_handOvers (hb : Bounded first start s) {group : NodeId}
    (hg : group ∈ first.walk start) : s.Apart (first.references start) group
      (handOvers (s.foldRows (first.references start) group)) := by
  have hfits := (s.foldRows_spec (first.references start) group).1
  have hnodup := nodup_members_foldRows hb hg
  constructor
  · rw [map_snd_handOvers]
    exact hnodup.sublist (List.Sublist.flatMap_right _ fun r _ => List.sublist_cons_self ..)
  · intro p hp q hq he
    obtain ⟨r, hr, h₁, -⟩ := exists_row_of_mem_handOvers hp
    obtain ⟨r', hr', -, h₂⟩ := exists_row_of_mem_handOvers hq
    exact survivor_not_mem_others hnodup r hr r' hr' (h₁ ▸ he ▸ h₂)
  · intro p hp
    obtain ⟨h₁, h₂⟩ := mem_members_of_mem_handOvers hp
    exact ⟨(foldable_of_mem_members h₁).1, (foldable_of_mem_members h₂).1⟩
  · intro p hp
    obtain ⟨h₁, h₂⟩ := mem_members_of_mem_handOvers hp
    obtain ⟨-, q₁, hq₁⟩ := foldable_of_mem_members h₁
    obtain ⟨-, q₂, hq₂⟩ := foldable_of_mem_members h₂
    exact ⟨(foldable?_eq_some hq₁).2.1, (foldable?_eq_some hq₂).2.1⟩
  · intro p hp
    obtain ⟨h₁, h₂⟩ := mem_members_of_mem_handOvers hp
    obtain ⟨-, q₁, hq₁⟩ := foldable_of_mem_members h₁
    obtain ⟨-, q₂, hq₂⟩ := foldable_of_mem_members h₂
    exact ⟨(foldable?_eq_some hq₁).1, (foldable?_eq_some hq₂).1⟩
  · intro p hp
    obtain ⟨r, hr, h₁, h₂⟩ := exists_row_of_mem_handOvers hp
    obtain ⟨hsurvivor, hothers⟩ := hfits r hr
    obtain ⟨q, hq, hsame⟩ := hothers p.2 h₂
    have hkey : r.placement.key = q.key := by
      refine Placement.key_eq_of_same (hsame.resolve_left fun he => ?_)
      exact survivor_not_mem_others hnodup r hr r hr (he ▸ h₂)
    rw [h₁, (foldable?_eq_some hsurvivor).2.2, (foldable?_eq_some hq).2.2, hkey]

theorem exists_node_of_mayFold {id : NodeId} (h : s.mayFold id = true) :
    ∃ n, s.node? id = some n ∧ n.kind.isGrouping = true ∧ n.kind ≠ .switch := by
  obtain ⟨hg, hs⟩ := Bool.and_eq_true_iff.1 h
  obtain ⟨n, hn, hk⟩ := exists_node_of_isGrouping hg
  refine ⟨n, hn, hk, fun hswitch => ?_⟩
  simp [isKind, kind?, hn, hswitch] at hs

/-- **Folding the children of one node keeps the bounds and the paths from the start.** -/
theorem foldChildren_spec (hb : Bounded first start s) {group : NodeId}
    (hg : group ∈ first.walk start) (hm : s.mayFold group = true) :
    Bounded first start (s.foldChildren (first.references start) group).1 ∧
      ∀ n, List.Perm ((s.foldChildren (first.references start) group).1.paths n start)
        (s.paths n start) := by
  have hn := exists_node_of_mayFold hm
  have hapart := apart_handOvers hb hg
  obtain ⟨hbound, hpaths, hgone, hsame⟩ := hapart.foldl hb hg hn
  have hstart : start ∈ first.walk start ∨ s.node? start = none := by
    cases hs : s.node? start with
    | none => exact .inr rfl
    | some m => exact .inl (start_mem_walk (by rw [← hb.known, hs]; rfl))
  have hne : ∀ p ∈ handOvers (s.foldRows (first.references start) group),
      start ≠ p.1 ∧ start ≠ p.2 := fun p hp =>
    ⟨(hb.sole hg (hapart.once p hp).1 (mem_refs_of_mem_children (hapart.mem p hp).1)).1.symm,
      (hb.sole hg (hapart.once p hp).2 (mem_refs_of_mem_children (hapart.mem p hp).2)).1.symm⟩
  rw [foldChildren]
  simp only [foldl_handOvers]
  generalize (handOvers (s.foldRows (first.references start) group)).foldl
    (fun s p => handOver p.1 s p.2) s = t at hbound hpaths hgone hsame ⊢
  split
  · exact ⟨hbound, fun n => hpaths n start hstart hne⟩
  · have hgrouping : t.isGrouping group = true := by
      obtain ⟨n, hn, hk, -⟩ := hn
      simp [isGrouping, kind?, hsame, hn, hk]
    refine ⟨hbound.sublist (node?_isSome_setChildren t group _) fun x =>
      t.sublist_refs_filter group _ x hgrouping, fun n => ?_⟩
    rw [paths_setChildren_filter (hsame.symm ▸ hn)]
    · exact hpaths n start hstart hne
    · -- what is dropped has handed over its children
      intro x hx
      have hmem : x ∈ (s.foldRows (first.references start) group).flatMap (·.others) := by
        rw [← List.mem_eraseDups]
        simpa using hx
      obtain ⟨r, hr, ho⟩ := List.mem_flatMap.1 hmem
      exact hgone (r.survivor, x) (List.mem_flatMap.2 ⟨r, hr, List.mem_map_of_mem ho⟩)

/-! ### Folding everywhere -/

/-- A visit keeps the bounds and the paths from the start. -/
theorem visit_spec (bound : Nat) {st : FoldState} {id : NodeId}
    (hb : Bounded first start st.scene) (hid : id ∈ first.walk start ∨ first.node? id = none) :
    Bounded first start (FoldState.visit (first.references start) bound st id).scene ∧
      ∀ n, List.Perm ((FoldState.visit (first.references start) bound st id).scene.paths n start)
        (st.scene.paths n start) := by
  induction bound generalizing st id with
  | zero => exact ⟨hb, fun n => .refl _⟩
  | succ bound ih =>
    have hlist : ∀ (l : List NodeId) (st : FoldState), Bounded first start st.scene →
        (∀ t ∈ l, t ∈ first.walk start ∨ first.node? t = none) →
        Bounded first start (l.foldl (FoldState.visit (first.references start) bound) st).scene ∧
          ∀ n, List.Perm
            ((l.foldl (FoldState.visit (first.references start) bound) st).scene.paths n start)
            (st.scene.paths n start) := by
      intro l
      induction l with
      | nil => exact fun st hb _ => ⟨hb, fun n => .refl _⟩
      | cons t l ihl =>
        intro st hb hl
        obtain ⟨ht, hl⟩ := List.forall_mem_cons.1 hl
        obtain ⟨hb₁, hp₁⟩ := ih hb ht
        obtain ⟨hb₂, hp₂⟩ := ihl _ hb₁ hl
        exact ⟨hb₂, fun n => (hp₂ n).trans (hp₁ n)⟩
    rw [FoldState.visit]
    split
    · exact ⟨hb, fun n => .refl _⟩
    · next hnew =>
      have hmem : id ∈ first.walk start := by
        refine hid.resolve_right fun hnone => hnew ?_
        rw [hb.node?_eq_none_iff.2 hnone, Option.isNone_none, Bool.or_true]
      -- the node itself first, then what it refers to by now
      have hhere : Bounded first start
            (if st.scene.mayFold id then st.scene.foldChildren (first.references start) id
              else (st.scene, 0)).1 ∧
          ∀ n, List.Perm ((if st.scene.mayFold id then
            st.scene.foldChildren (first.references start) id else (st.scene, 0)).1.paths n start)
            (st.scene.paths n start) := by
        split
        · next hm => exact foldChildren_spec hb hmem hm
        · exact ⟨hb, fun n => .refl _⟩
      obtain ⟨hb₁, hp₁⟩ := hhere
      obtain ⟨hb₂, hp₂⟩ := hlist _ ⟨_, id :: st.visited, st.removed + _⟩ hb₁ fun t ht =>
        (hb₁.closed hmem ht).imp_right hb₁.node?_eq_none_iff.1
      exact ⟨hb₂, fun n => (hp₂ n).trans (hp₁ n)⟩

/-- **Folding transforms keeps what is drawn**: the paths of every length from the start, each as
often as before. -/
theorem paths_foldTransforms (s : Scene) (start : NodeId) (n : Nat) :
    List.Perm ((s.foldTransforms start).scene.paths n start) (s.paths n start) := by
  refine (visit_spec _ (bounded_self s start) ?_).2 n
  cases hs : s.node? start with
  | none => exact .inr rfl
  | some m => exact .inl (start_mem_walk (by rw [hs]; rfl))

end SceneTidy.Scene

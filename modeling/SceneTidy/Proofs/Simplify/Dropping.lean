import SceneTidy.Proofs.Scene.Aside
import SceneTidy.Proofs.Simplify.FoldSteps

/-!
# Transforms that are dropped

Where transforms refer to their children only, a transform that hands its children over is left
empty, and is then dropped from the one list that it stood in.  So the nodes that were reachable at
first are still reachable but for those dropped, and are referred to as often as before
(`Dropping`).  Main statements: handing children over drops nothing (`Dropping.foldl`), and what has
been left empty may be dropped (`Dropping.drop`).
-/

namespace SceneTidy

theorem Node.refs_setChildren_of_eq {n : Node} (hg : n.kind.isGrouping) (h : n.refs = n.children)
    (ts : List NodeId) : (n.setChildren ts).refs = ts := by
  obtain ⟨l₁, l₂, hrefs, hset⟩ := exists_refs_children hg
  rw [hrefs, List.append_assoc] at h
  have hlength := congrArg List.length h
  simp only [List.length_append] at hlength
  obtain rfl : l₁ = [] := List.length_eq_zero_iff.1 (by omega)
  obtain rfl : l₂ = [] := List.length_eq_zero_iff.1 (by omega)
  rw [hset, List.nil_append, List.append_nil]

namespace Scene

variable {s s' first : Scene} {start x t group survivor other : NodeId}
  {references dropped : List NodeId}

/-! ### What every step keeps -/

theorem FoldStep.foldable?_eq (h : FoldStep s s') (references : List NodeId)
    (x : NodeId) : s'.foldable? references x = s.foldable? references x := by
  cases h with
  | @setChildren y ts hy hts =>
    by_cases he : y = x
    · subst he
      cases hn : s.node? y with
      | none => simp [foldable?, node?_setChildren, hn]
      | some n =>
        have hkind : (n.setChildren ts).kind = n.kind := rfl
        simp [foldable?, node?_setChildren, hn, hkind, Node.placement_setChildren]
    · rw [foldable?, foldable?, node?_setChildren_of_ne he]

theorem Folds.foldable?_eq (h : Folds s s') (references : List NodeId) (x : NodeId) :
    s'.foldable? references x = s.foldable? references x := by
  induction h with
  | refl => rfl
  | tail _ hstep ih => exact (hstep.foldable?_eq references x).trans ih

theorem Folds.isKind_eq (h : Folds s s') (k : NodeKind) (x : NodeId) :
    s'.isKind k x = s.isKind k x := by
  rw [isKind, isKind, h.kind?_eq]

theorem Folds.mayFold_eq (h : Folds s s') (x : NodeId) : s'.mayFold x = s.mayFold x := by
  rw [mayFold, mayFold, isGrouping, isGrouping, h.kind?_eq, h.isKind_eq]

/-- A transform that refers to its children only keeps doing so. -/
theorem FoldStep.refs_eq_children (h : FoldStep s s') (hk : s.isKind .transform x = true)
    (hx : s.refs x = s.children x) : s'.refs x = s'.children x := by
  cases h with
  | @setChildren y ts hy hts =>
    by_cases he : y = x
    · subst he
      obtain ⟨n, hn, hkind⟩ := exists_node_of_isKind hk
      have hg : n.kind.isGrouping := by rw [hkind]; rfl
      rw [refs_of_node? hn, children_of_node? hn] at hx
      rw [children_setChildren hn hg, refs_of_node? (node?_setChildren_self hn ts),
        Node.refs_setChildren_of_eq hg hx]
    · rw [refs, children, node?_setChildren_of_ne he]
      exact hx

theorem Folds.refs_eq_children (h : Folds s s') (hk : s.isKind .transform x = true)
    (hx : s.refs x = s.children x) : s'.refs x = s'.children x := by
  induction h with
  | refl => exact hx
  | tail hsteps hstep ih =>
    exact hstep.refs_eq_children ((Folds.isKind_eq hsteps .transform x).trans hk) ih

/-! ### Nodes that are dropped -/

/-- A scene in which some transforms have been dropped, which were reachable at first: they are
empty and nothing refers to them; the other nodes are reachable, and referred to as often as before.
-/
structure Dropping (first : Scene) (start : NodeId) (dropped : List NodeId) (s : Scene) : Prop where
  bounded : Bounded first start s
  folds : Folds first s
  plain : ∀ x ∈ first.walk start, s.isKind .transform x = true → s.refs x = s.children x
  nodup : dropped.Nodup
  mem : ∀ d ∈ dropped, d ∈ first.walk start ∧ first.isKind .transform d = true ∧ d ≠ start
  empty : ∀ d ∈ dropped, s.refs d = []
  apart : ∀ d ∈ dropped, ∀ x ∈ first.walk start, d ∉ s.refs x
  count : ∀ t ∉ dropped, [start].count t + ((first.walk start).flatMap s.refs).count t =
    (first.references start).count t
  reach : ∀ x ∈ first.walk start, x ∉ dropped → s.Reaches start x

/-- What can be come to was reachable at first. -/
theorem Bounded.mem_of_reaches (hb : Bounded first start s) (hx : s.Reaches start x) :
    x ∈ first.walk start ∨ s.node? x = none := by
  induction hx with
  | refl =>
    cases hn : s.node? start with
    | none => exact .inr rfl
    | some n => exact .inl (start_mem_walk (by rw [← hb.known, hn]; rfl))
  | @tail y x _ hyx ih =>
    refine hb.closed (ih.resolve_right fun hnone => ?_) hyx
    rw [Refers, refs_of_none hnone] at hyx
    exact List.not_mem_nil hyx

theorem Bounded.mem_of_refers {y : NodeId} (hb : Bounded first start s) (hy : s.Reaches start y)
    (hyx : s.Refers y x) : y ∈ first.walk start := by
  refine (hb.mem_of_reaches hy).resolve_right fun hnone => ?_
  rw [Refers, refs_of_none hnone] at hyx
  exact List.not_mem_nil hyx

theorem dropping_self (h : s.NoneAside start) : Dropping s start [] s where
  bounded := bounded_self s start
  folds := .refl
  plain x hx hk := by
    obtain ⟨n, hn, hkind⟩ := exists_node_of_isKind hk
    rw [refs_of_node? hn, children_of_node? hn]
    exact (h x n (mem_walk_iff.1 hx).2 hn).refs_eq_children (.inr hkind)
  nodup := List.nodup_nil
  mem _ hd := absurd hd List.not_mem_nil
  empty _ hd := absurd hd List.not_mem_nil
  apart _ hd := absurd hd List.not_mem_nil
  count t _ := (s.count_references_eq start t).symm
  reach x hx _ := (mem_walk_iff.1 hx).2

namespace Dropping

variable (h : Dropping first start dropped s)

include h

/-- What can be come to has not been dropped. -/
theorem not_mem_of_reaches (hx : s.Reaches start x) : x ∉ dropped := by
  rcases Relation.ReflTransGen.cases_tail hx with rfl | ⟨y, hy, hyx⟩
  · exact fun hd => (h.mem x hd).2.2 rfl
  · exact fun hd => h.apart x hd y (h.bounded.mem_of_refers hy hyx) hyx

theorem mem_walk_iff : x ∈ s.walk start ↔ x ∈ first.walk start ∧ x ∉ dropped := by
  constructor
  · intro hx
    obtain ⟨hn, hr⟩ := Scene.mem_walk_iff.1 hx
    refine ⟨(h.bounded.mem_of_reaches hr).resolve_right fun hnone => ?_, h.not_mem_of_reaches hr⟩
    rw [hnone] at hn
    cases hn
  · rintro ⟨hx, hd⟩
    refine Scene.mem_walk_iff.2 ⟨?_, h.reach x hx hd⟩
    rw [h.bounded.known]
    exact (Scene.mem_walk_iff.1 hx).1

/-- What has not been dropped is referred to as often as before. -/
theorem count_references (hx : x ∉ dropped) :
    (s.references start).count x = (first.references start).count x := by
  have hperm : List.Perm (s.walk start) ((first.walk start).filter (!dropped.contains ·)) := by
    refine (List.perm_ext_iff_of_nodup (s.nodup_walk start)
      ((first.nodup_walk start).filter _)).2 fun y => ?_
    rw [h.mem_walk_iff, List.mem_filter]
    simp
  have hall : ((first.walk start).filter (!dropped.contains ·)).flatMap s.refs =
      (first.walk start).flatMap s.refs := by
    refine flatMap_filter_of_nil fun y _ hy => h.empty y ?_
    simpa using hy
  have hcount := (hperm.flatMap_right s.refs).count_eq x
  rw [hall] at hcount
  rw [count_references_eq, hcount, h.count x hx]

/-! ### Handing children over and dropping them -/

section HandOver

variable (hs : Siblings s (first.walk start) group survivor other)

include hs

/-- The other one is left empty, and the survivor takes over what it referred to. -/
theorem refs_handOver : (handOver survivor s other).refs other = [] ∧
    List.Perm ((handOver survivor s other).refs survivor) (s.refs survivor ++ s.refs other) := by
  have hplain := h.plain other hs.survivor_mem.2 hs.transform.2
  have hother := hs.perm_refs_other
  have hsurvivor := hs.perm_refs_survivor
  rw [← hplain] at hother hsurvivor
  refine ⟨List.length_eq_zero_iff.1 ?_, hsurvivor⟩
  have hlength := hother.length_eq
  rw [List.length_append] at hlength
  omega

/-- What was reachable is still reachable, by way of the survivor if need be. -/
theorem reaches_handOver (hone : (first.references start).count other = 1)
    (hx : s.Reaches start x) : (handOver survivor s other).Reaches start x := by
  have hb := h.bounded.handOver hs
  obtain ⟨-, hperm⟩ := h.refs_handOver hs
  have hgroup : (handOver survivor s other).refs group = s.refs group :=
    Scene.refs_handOver hs.ne_group.1.symm hs.ne_group.2.symm
  have hsurvivor : (handOver survivor s other).Refers group survivor := by
    rw [Refers, hgroup]
    exact mem_refs_of_mem_children hs.mem.1
  have hother : other ∈ (handOver survivor s other).refs group := by
    rw [hgroup]
    exact mem_refs_of_mem_children hs.mem.2
  obtain ⟨hne, -, hsole⟩ := hb.sole hs.group_mem hone hother
  induction hx with
  | refl => exact .refl
  | @tail y x hy hyx ih =>
    by_cases h₁ : y = survivor
    · subst h₁
      exact ih.tail (hperm.mem_iff.2 (List.mem_append_left _ hyx))
    · by_cases h₂ : y = other
      · subst h₂
        -- the one node that refers to the other one refers to the survivor as well
        rcases Relation.ReflTransGen.cases_tail ih with he | ⟨z, hz, hzy⟩
        · exact absurd he hne
        · obtain rfl := (hsole z (hb.mem_of_refers hz hzy)).2 hzy
          exact (hz.tail hsurvivor).tail (hperm.mem_iff.2 (List.mem_append_right _ hyx))
      · refine ih.tail ?_
        rw [Refers, Scene.refs_handOver h₁ h₂]
        exact hyx

/-- Handing children over drops nothing. -/
theorem handOver (hone : (first.references start).count other = 1) :
    Dropping first start dropped (handOver survivor s other) := by
  obtain ⟨hempty, hperm⟩ := h.refs_handOver hs
  obtain ⟨hsurvivor, hother⟩ := hs.survivor_mem
  have hkind : ∀ x, s.isKind .transform x = true → s.kind? x = some .transform := fun x hx => by
    rwa [isKind, beq_iff_eq] at hx
  have hfolds := folds_handOver (hkind survivor hs.transform.1) (hkind other hs.transform.2)
  have hrefs : ∀ x ∈ first.walk start, ∀ d ∈ (Scene.handOver survivor s other).refs x,
      ∃ y ∈ first.walk start, d ∈ s.refs y := by
    intro x hx d hd
    by_cases h₁ : x = survivor
    · subst h₁
      rcases List.mem_append.1 (hperm.mem_iff.1 hd) with hd | hd
      · exact ⟨x, hx, hd⟩
      · exact ⟨other, hother, hd⟩
    · by_cases h₂ : x = other
      · subst h₂
        rw [hempty] at hd
        exact absurd hd List.not_mem_nil
      · rw [Scene.refs_handOver h₁ h₂] at hd
        exact ⟨x, hx, hd⟩
  refine ⟨h.bounded.handOver hs, h.folds.trans hfolds, fun x hx hk => ?_, h.nodup, h.mem,
    fun d hd => ?_, fun d hd x hx hmem => ?_, fun t ht => ?_, fun x hx hd => ?_⟩
  · rw [hfolds.isKind_eq] at hk
    exact hfolds.refs_eq_children hk (h.plain x hx hk)
  -- what has been dropped stands in no list, unlike the two
  · have hne : ∀ t ∈ s.children group, d ≠ t := by
      rintro t ht rfl
      exact h.apart d hd group hs.group_mem (mem_refs_of_mem_children ht)
    rw [Scene.refs_handOver (hne _ hs.mem.1) (hne _ hs.mem.2)]
    exact h.empty d hd
  · obtain ⟨y, hy, hmem⟩ := hrefs x hx d hmem
    exact h.apart d hd y hy hmem
  · rw [hs.count_handOver (first.nodup_walk start)]
    exact h.count t ht
  · exact h.reaches_handOver hs hone (h.reach x hx hd)

end HandOver

omit h in
/-- What is not left out of the children of a node is referred to as often as before. -/
theorem count_refs_filter (hg : s.isGrouping group = true) {p : NodeId → Bool} (ht : p t = true)
    (x : NodeId) : ((s.setChildren group ((s.children group).filter p)).refs x).count t =
      (s.refs x).count t := by
  by_cases hx : group = x
  · subst hx
    obtain ⟨n, hn, hk⟩ := exists_node_of_isGrouping hg
    obtain ⟨l₁, l₂, hrefs, hset⟩ := Node.exists_refs_children hk
    rw [refs_of_node? (node?_setChildren_self hn _), refs_of_node? hn, hset, hrefs,
      children_of_node? hn]
    simp only [List.count_append, List.count_filter ht]
  · rw [refs, refs, node?_setChildren_of_ne hx]

omit h in
/-- What is left out of the children of a node is no more referred to from it, if it stood there
once. -/
theorem not_mem_refs_filter (hg : s.isGrouping group = true) {p : NodeId → Bool} (ht : p t = false)
    (hmem : t ∈ s.children group) (hle : (s.refs group).count t ≤ 1) :
    t ∉ (s.setChildren group ((s.children group).filter p)).refs group := by
  obtain ⟨n, hn, hk⟩ := exists_node_of_isGrouping hg
  obtain ⟨l₁, l₂, hrefs, hset⟩ := Node.exists_refs_children hk
  rw [children_of_node? hn] at hmem ⊢
  rw [refs_of_node? hn, hrefs] at hle
  rw [refs_of_node? (node?_setChildren_self hn _), hset, ← List.count_eq_zero]
  have hpos : 0 < n.children.count t := List.count_pos_iff.2 hmem
  have hzero : (n.children.filter p).count t = 0 :=
    List.count_eq_zero.2 fun hf => by simp [ht] at hf
  simp only [List.count_append] at hle ⊢
  omega

/-- Several hand-overs among the children of a node drop nothing, leave those empty that have handed
over their children, and change no node that has no part in them. -/
theorem foldl {l : List (NodeId × NodeId)} (ha : s.Apart (first.references start) group l)
    (hg : group ∈ first.walk start)
    (hn : ∃ n, s.node? group = some n ∧ n.kind.isGrouping = true ∧ n.kind ≠ .switch) :
    Dropping first start dropped (l.foldl (fun s p => Scene.handOver p.1 s p.2) s) ∧
      (∀ p ∈ l, (l.foldl (fun s p => Scene.handOver p.1 s p.2) s).refs p.2 = []) ∧
      ∀ x, (∀ p ∈ l, x ≠ p.1 ∧ x ≠ p.2) →
        (l.foldl (fun s p => Scene.handOver p.1 s p.2) s).node? x = s.node? x := by
  induction l generalizing s with
  | nil => exact ⟨h, fun p hp => absurd hp List.not_mem_nil, fun _ _ => rfl⟩
  | cons p l ih =>
    have hsib := ha.siblings h.bounded hg hn
    have hgroup : (Scene.handOver p.1 s p.2).node? group = s.node? group :=
      node?_handOver hsib.ne_group.1.symm hsib.ne_group.2.symm
    have hone := (ha.once p (List.mem_cons_self ..)).2
    obtain ⟨hlast, hempty, hsame⟩ := ih (h.handOver hsib hone) (ha.tail hgroup) (hgroup ▸ hn)
    refine ⟨hlast, List.forall_mem_cons.2 ⟨?_, hempty⟩, fun x hx => ?_⟩
    · rw [refs, List.foldl_cons, hsame p.2 ha.other_ne, ← refs]
      exact (h.refs_handOver hsib).1
    · obtain ⟨⟨h₁, h₂⟩, hrest⟩ := List.forall_mem_cons.1 hx
      exact (hsame x hrest).trans (node?_handOver h₁ h₂)

/-- Children that nothing else refers to are referred to no more when they are left out. -/
theorem not_mem_refs_without (hg : group ∈ first.walk start) (hgroup : s.isGrouping group = true)
    {l : List NodeId} {o : NodeId} (ho : o ∈ l) (hchild : o ∈ s.children group)
    (hone : (first.references start).count o = 1) (hx : x ∈ first.walk start) :
    o ∉ (s.setChildren group ((s.children group).filter (!l.contains ·))).refs x := by
  obtain ⟨-, -, hsole⟩ := h.bounded.sole hg hone (mem_refs_of_mem_children hchild)
  by_cases he : x = group
  · rw [he]
    exact not_mem_refs_filter hgroup (by simpa using ho) hchild (hsole group hg).1
  · exact fun hox =>
      he ((hsole x hx).2 ((s.sublist_refs_filter group (!l.contains ·) x hgroup).subset hox))

omit h in
/-- No way leads through what refers to nothing, so that all else stays reachable without it. -/
theorem reaches_without {t : Scene} {l : List NodeId} (hempty : ∀ y ∈ l, s.refs y = [])
    (hkept : ∀ y z, z ∉ l → s.Refers y z → t.Refers y z) (hx : s.Reaches start x) (hl : x ∉ l) :
    t.Reaches start x := by
  induction hx with
  | refl => exact .refl
  | @tail y z _ hyz ih =>
    refine (ih fun hy => ?_).tail (hkept y z hl hyz)
    rw [Refers, hempty y hy] at hyz
    exact List.not_mem_nil hyz

/-- **Transforms that have been left empty may be dropped** from the one list they stand in. -/
theorem drop (hg : group ∈ first.walk start) (hm : s.mayFold group = true) {l : List NodeId}
    (hl : l.Nodup) (hmem : ∀ o ∈ l, o ∈ s.children group ∧ (first.references start).count o = 1 ∧
      s.isKind .transform o = true ∧ s.refs o = []) :
    Dropping first start (dropped ++ l)
      (s.setChildren group ((s.children group).filter (!l.contains ·))) := by
  obtain ⟨n, hn, hk, -⟩ := exists_node_of_mayFold hm
  have hgrouping : s.isGrouping group = true := by rw [isGrouping, kind?_of_node? hn]; exact hk
  have hsub := fun x => s.sublist_refs_filter group (!l.contains ·) x hgrouping
  have hcount : ∀ x y, y ∉ l →
      ((s.setChildren group ((s.children group).filter (!l.contains ·))).refs x).count y =
        (s.refs x).count y := fun x y hy => count_refs_filter hgrouping (by simpa using hy) x
  have hgone := fun o ho x (hx : x ∈ first.walk start) =>
    h.not_mem_refs_without hg hgrouping ho (hmem o ho).1 (hmem o ho).2.1 hx
  have hstep : FoldStep s (s.setChildren group ((s.children group).filter (!l.contains ·))) :=
    .setChildren (kind?_ne_switch_of_mayFold hm) fun y hy => ⟨group, (List.mem_filter.1 hy).1⟩
  have hknown := s.node?_isSome_setChildren group ((s.children group).filter (!l.contains ·))
  generalize s.setChildren group ((s.children group).filter (!l.contains ·)) = t
    at hsub hcount hgone hstep hknown ⊢
  have hfolds : Folds s t := .single hstep
  have hempty : ∀ x, s.refs x = [] → t.refs x = [] := fun x hx =>
    List.sublist_nil.1 (hx ▸ hsub x)
  have hkept : ∀ y z, z ∉ l → s.Refers y z → t.Refers y z := fun y z hz hyz => by
    rw [Refers, ← List.count_pos_iff, hcount y z hz]
    exact List.count_pos_iff.2 hyz
  refine ⟨h.bounded.sublist hknown hsub, h.folds.trans hfolds, fun x hx hk => ?_, ?_,
    fun d hd => ?_, fun d hd => ?_, fun d hd => ?_, fun y hy => ?_, fun x hx hd => ?_⟩
  · rw [hfolds.isKind_eq] at hk
    exact hfolds.refs_eq_children hk (h.plain x hx hk)
  · refine List.nodup_append.2 ⟨h.nodup, hl, fun d hd o ho he => ?_⟩
    exact h.apart d hd group hg (mem_refs_of_mem_children (he ▸ (hmem o ho).1))
  · rcases List.mem_append.1 hd with hd | hd
    · exact h.mem d hd
    · obtain ⟨hchild, hone, hkind, -⟩ := hmem d hd
      obtain ⟨m, hm, -⟩ := exists_node_of_isKind hkind
      have hrefs := mem_refs_of_mem_children hchild
      refine ⟨(h.bounded.closed hg hrefs).resolve_right (by simp [hm]), ?_,
        (h.bounded.sole hg hone hrefs).1⟩
      rwa [← h.folds.isKind_eq]
  · rcases List.mem_append.1 hd with hd | hd
    · exact hempty d (h.empty d hd)
    · exact hempty d (hmem d hd).2.2.2
  · rcases List.mem_append.1 hd with hd | hd
    · exact fun x hx hmem => h.apart d hd x hx ((hsub x).subset hmem)
    · exact hgone d hd
  · rw [List.mem_append, not_or] at hy
    have hall : (first.walk start).map (List.count y ∘ t.refs) =
        (first.walk start).map (List.count y ∘ s.refs) :=
      List.map_congr_left fun x _ => hcount x y hy.2
    rw [← h.count y hy.1, List.count_flatMap, List.count_flatMap, hall]
  · rw [List.mem_append, not_or] at hd
    exact reaches_without (fun o ho => (hmem o ho).2.2.2) hkept (h.reach x hx hd.1) hd.2

end Dropping

end Scene

end SceneTidy

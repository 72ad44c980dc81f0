import SceneTidy.Proofs.Simplify.Keeping

/-!
# The kept group survives

A search that does not find the target leaves no node with the verdict that it leads there
(`lookup_of_leadsTo_false`), so that the start of a search has that verdict if the target can be
reached at all (`confirmed_start`), be there cycles or not.  From the start, nodes of that verdict
lead down to the kept group.  Where groups stand in lists of children only, the judgement looks into
all of these nodes, and none of them loses the next one: that would have to be junk, and the kept
group at the end is none.  Main statement: the kept group is still reachable when junk has been
dropped (`reaches_kept_dropJunk`).
-/

namespace SceneTidy.Scene

open Judging

variable {s : Scene} {numberOf : NodeId → Option Nat} {rules : JunkRules} {number : Option Int}
  {start target kept id x y : NodeId} {n : Node} {vs : Verdicts} {st : Judging}

/-! ### What the search for a target finds above it -/

/-- A search that does not find the target finds no node above it. -/
theorem lookup_of_leadsTo_false (s : Scene) (target : NodeId) (bound : Nat) (id : NodeId)
    (vs : Verdicts) (h : (s.leadsTo target bound id vs).1 = false) :
    ∀ x, (s.leadsTo target bound id vs).2.lookup x = some true → vs.lookup x = some true := by
  induction bound generalizing id vs with
  | zero => exact fun _ hx => hx
  | succ bound ih =>
    have hlist : ∀ (ids : List NodeId) (r : Bool × Verdicts),
        (ids.foldl (s.searchStep target bound) r).1 = false →
        r.1 = false ∧ ∀ x, (ids.foldl (s.searchStep target bound) r).2.lookup x = some true →
          r.2.lookup x = some true := by
      intro ids
      induction ids with
      | nil => exact fun r h => ⟨h, fun _ hx => hx⟩
      | cons a ids ihl =>
        intro r h
        obtain ⟨hstep, hrest⟩ := ihl _ h
        obtain ⟨hr, ha⟩ := Bool.or_eq_false_iff.1 hstep
        exact ⟨hr, fun x hx => ih a r.2 ha x (hrest x hx)⟩
    intro x hx
    by_cases hne : id = target
    · subst hne
      rw [leadsTo_target] at h
      cases h
    cases hv : vs.lookup id with
    | some v =>
      rwa [leadsTo_of_some hne hv] at hx
    | none =>
      rw [leadsTo_of_none hne hv] at h hx
      have hfound := (hlist _ _ h).2
      dsimp only at h hx
      rw [h] at hx
      by_cases hxid : x = id
      · simp [hxid] at hx
      · rw [lookup_cons_of_ne hxid] at hx
        have hfirst := hfound x hx
        rwa [lookup_cons_of_ne hxid] at hfirst

/-- What can be reached is reached without passing the target, or the target is. -/
theorem reachesBefore_or (h : s.Reaches start x) :
    s.ReachesBefore target start x ∨ s.ReachesBefore target start target := by
  induction h with
  | refl => exact .inl .refl
  | @tail a b _ hab ih =>
    rcases ih with ha | ht
    · by_cases he : a = target
      · exact .inr (he ▸ ha)
      · exact .inl (ha.tail ⟨he, hab⟩)
    · exact .inr ht

/-- **The search from a start finds a way to the target if there is one.** -/
theorem confirmed_start (h : s.Reaches start target) :
    s.Confirmed target (s.searchVerdicts start target) start := by
  have hsearch := s.answered_start start target
  rcases hsearch.answer with ⟨rfl, -⟩ | ⟨hne, hv⟩
  · exact .refl
  cases hfound : (s.leadsTo target (s.size + 1) start []).1 with
  | true => exact hsearch.searched.yes start (hfound ▸ hv)
  | false =>
    -- the search has a verdict on the node before the target, but neither of the two is possible
    exfalso
    have hway : s.ReachesBefore target start target := (reachesBefore_or h).elim id id
    rcases Relation.ReflTransGen.cases_tail hway with he | ⟨a, ha, hat, hrefers⟩
    · exact hne he.symm
    obtain ⟨v, hv⟩ := Option.isSome_iff_exists.1
      ((isSome_of_reachesBefore ha).resolve_left hat)
    cases v with
    | true =>
      have hnone := s.lookup_of_leadsTo_false target (s.size + 1) start [] hfound a hv
      cases hnone
    | false => exact (hsearch.searched.no a hv List.not_mem_nil target hrefers).1 rfl

/-! ### The way down to the kept group -/

/-- Grouping nodes stand in the lists of children of grouping nodes only. -/
def GroupsListed (s : Scene) (start : NodeId) : Prop :=
  ∀ x n, s.Reaches start x → s.node? x = some n → ∀ p ∈ n.slots, ∀ y ∈ p.2.refs,
    s.isGrouping y = true → n.kind.isGrouping = true ∧ p.1.name = n.kind.childrenField

theorem groupsListed_of_forall (h : ∀ n ∈ s.nodes, ∀ p ∈ n.slots, ∀ y ∈ p.2.refs,
    s.isGrouping y = true → n.kind.isGrouping = true ∧ p.1.name = n.kind.childrenField) :
    s.GroupsListed start :=
  fun _ n _ hn => h n (Array.mem_of_getElem? hn)

/-- A grouping node is referred to as a child of a grouping node. -/
theorem GroupsListed.mem_children (h : s.GroupsListed start) (hx : s.Reaches start x)
    (hn : s.node? x = some n) (hy : y ∈ n.refs) (hg : s.isGrouping y = true) :
    n.kind.isGrouping = true ∧ y ∈ n.children := by
  rw [Node.refs_eq_flatMap_slots] at hy
  obtain ⟨⟨d, v⟩, hp, hyv⟩ := List.mem_flatMap.1 hy
  obtain ⟨hk, hname⟩ := h x n hx hn _ hp y hyv hg
  have hget : n.get? n.kind.childrenField = some v := hname ▸ Node.get?_of_mem_slots hp
  obtain rfl := Option.some.inj ((Node.get?_childrenField hk).symm.trans hget)
  exact ⟨hk, hyv⟩

/-- The case in which a group is kept, with what is found above it and what is below it. -/
def keepCase (s : Scene) (numberOf : NodeId → Option Nat) (rules : JunkRules)
    (start kept : NodeId) : JunkCase :=
  ⟨numberOf, rules, some ⟨kept, s.above start kept ++ s.walk kept⟩⟩

/-- What leads to the kept group is spared. -/
theorem isUnrelated_of_confirmed (hx : s.Reaches start x) (hn : s.node? x = some n)
    (hway : s.Confirmed kept (s.searchVerdicts start kept) x) :
    (s.keepCase numberOf rules start kept).isUnrelated x n = false := by
  have hsome : (s.node? x).isSome := by rw [hn]; rfl
  have hmem : x ∈ s.above start kept ++ s.walk kept := by
    rcases Relation.ReflTransGen.cases_head hway with rfl | ⟨y, ⟨hv, -⟩, -⟩
    · exact List.mem_append_right _ (start_mem_walk hsome)
    · refine List.mem_append_left _ (List.mem_filter.2 ⟨mem_walk_iff.2 ⟨hsome, hx⟩, ?_⟩)
      show ((s.searchVerdicts start kept).lookup x).getD false = true
      rw [hv]
      rfl
  simp [keepCase, JunkCase.isUnrelated, hmem]

/-- The judgement looks into a grouping node that leads to the kept group. -/
theorem isShut_of_confirmed (hx : s.Reaches start x) (hn : s.node? x = some n)
    (hk : n.kind.isGrouping = true) (hway : s.Confirmed kept (s.searchVerdicts start kept) x) :
    (s.keepCase numberOf rules start kept).isShut x n = false := by
  have hshape : n.kind ≠ .shape := by
    intro he
    rw [he] at hk
    cases hk
  rw [JunkCase.isShut, isUnrelated_of_confirmed hx hn hway, decide_eq_false hshape, Bool.false_or]

/-- The kept group is never junk. -/
theorem verdictLeft_kept : (s.keepCase numberOf rules start kept).verdictLeft kept n = false := by
  simp [keepCase, JunkCase.verdictLeft, JunkCase.isKept]

/-- All that leads to the kept group are grouping nodes, to which the judgement comes. -/
theorem isGrouping_of_confirmed (hlisted : s.GroupsListed start) (hgroup : s.isGrouping kept = true)
    (hway : s.Confirmed kept (s.searchVerdicts start kept) x) (hx : s.Reaches start x) :
    s.isGrouping x = true := by
  induction hway using Relation.ReflTransGen.head_induction_on with
  | refl => exact hgroup
  | @head x y hxy _ ih =>
    obtain ⟨-, hxy⟩ := hxy
    obtain ⟨n, hn⟩ := Option.isSome_iff_exists.1 (node?_isSome_of_mem_refs hxy)
    have hy := ih (hx.tail hxy)
    obtain ⟨hk, -⟩ := hlisted.mem_children hx hn (refs_of_node? hn ▸ hxy) hy
    rw [isGrouping, kind?_of_node? hn]
    exact hk

section Judged

variable (hlisted : s.GroupsListed start) (hgroup : s.isGrouping kept = true)
  (hs : (s.keepCase numberOf rules start kept).Sound s start [] st) (hstart : Met s st start)

include hlisted hgroup hs hstart

/-- A node that leads to the kept group has lost the junk from its lists, and is judged by what is
left of its children. -/
theorem sifted_of_confirmed (hway : s.Confirmed kept (s.searchVerdicts start kept) x)
    (hx : (s.keepCase numberOf rules start kept).ComesTo s start x) :
    ∃ n q, s.node? x = some n ∧ n.kind.isGrouping = true ∧
      (s.keepCase numberOf rules start kept).isShut x n = false ∧
      st.scene.node? x = some (n.thin q) ∧
      st.verdict? x = some ((s.keepCase numberOf rules start kept).verdictLeft x (n.thin q)) ∧
      ∀ y ∈ n.refs, q y = true → st.verdict? y = some true := by
  have hkind := isGrouping_of_confirmed hlisted hgroup hway hx.reaches
  obtain ⟨n, hn, hk⟩ := exists_node_of_isGrouping hkind
  have hsome := (hs.met_of_comesTo hstart hx).resolve_right (by simp [hn])
  have hopen : (s.keepCase numberOf rules start kept).isShut x n = false :=
    isShut_of_confirmed hx.reaches hn hk hway
  obtain ⟨m, hdone⟩ := hs.finished x hsome List.not_mem_nil
  cases hdone with
  | shut hm hshut =>
    obtain rfl := Option.some.inj (hn.symm.trans hm)
    rw [hopen] at hshut
    cases hshut
  | sifted q hm _ hnow hv _ hlost =>
    obtain rfl := Option.some.inj (hn.symm.trans hm)
    exact ⟨n, q, hn, hk, hopen, hnow, hv, hlost⟩

/-- **No node on the way down to the kept group loses the next one.** -/
theorem reaches_of_confirmed (hway : s.Confirmed kept (s.searchVerdicts start kept) x)
    (hx : (s.keepCase numberOf rules start kept).ComesTo s start x) :
    st.verdict? x ≠ some true ∧ st.scene.Reaches x kept := by
  -- the induction goes up from the kept group, which is no junk
  induction hway using Relation.ReflTransGen.head_induction_on with
  | refl =>
    obtain ⟨n, q, -, -, -, -, hv, -⟩ :=
      sifted_of_confirmed hlisted hgroup hs hstart .refl hx
    refine ⟨?_, .refl⟩
    rw [hv, verdictLeft_kept]
    simp
  | @head x y hxy hway ih =>
    obtain ⟨n, q, hn, -, hopen, hnow, hv, hlost⟩ :=
      sifted_of_confirmed hlisted hgroup hs hstart (.head hxy hway) hx
    obtain ⟨-, hxy⟩ := hxy
    obtain ⟨hy, hreach⟩ := ih (hx.tail ⟨⟨n, hn, hopen⟩, hxy⟩)
    have hmem : y ∈ n.refs := refs_of_node? hn ▸ hxy
    have hq : q y = false := Bool.eq_false_iff.2 fun hq => hy (hlost y hmem hq)
    have hgrouping := isGrouping_of_confirmed hlisted hgroup hway (hx.reaches.tail hxy)
    obtain ⟨-, hchild⟩ := hlisted.mem_children hx.reaches hn hmem hgrouping
    have hleft : y ∈ (n.thin q).children := by
      rw [Node.children_thin]
      exact List.mem_filter.2 ⟨hchild, by simp [hq]⟩
    refine ⟨fun hyes => ?_, .head ?_ hreach⟩
    · rw [hv, Option.some.injEq, JunkCase.verdictLeft, Bool.and_eq_true, List.isEmpty_iff] at hyes
      rw [hyes.2] at hleft
      exact List.not_mem_nil hleft
    · exact mem_refs_of_mem_children (children_of_node? hnow ▸ hleft)

end Judged

/-- **The kept group survives.**  The rules may ask for any group that is found, and may drop all
that is in it: if groups stand in lists of children only, then dropping junk succeeds, and from the
start there still is a way to the group. -/
theorem reaches_kept_dropJunk (hlisted : s.GroupsListed start) (hkeep : rules.keep = some number)
    (hkept : s.findGroup numberOf start number = .ok kept) :
    ∃ t notices count, s.dropJunk numberOf rules start = ⟨t, notices, .ok count⟩ ∧
      t.kind? kept = some .group ∧ t.Reaches start kept := by
  obtain ⟨hreach, hkind, -⟩ := namesGroup_of_findGroup hkept
  have hgroup : s.isGrouping kept = true := by rw [isGrouping, hkind]; rfl
  obtain ⟨hs, -, hstart⟩ := judgeJunk_spec (s.keepCase numberOf rules start kept) s start
  have hcase : s.keptGroup numberOf rules start =
      .ok (s.keepCase numberOf rules start kept).kept := by
    rw [keptGroup, hkeep]
    simp only [hkept]
    rfl
  have hdrop : ∃ notices count, s.dropJunk numberOf rules start =
      ⟨(s.judgeJunk (s.keepCase numberOf rules start kept) start).2.scene, notices,
        .ok count⟩ := by
    rw [dropJunk, hcase]
    exact ⟨_, _, rfl⟩
  obtain ⟨notices, count, hdrop⟩ := hdrop
  exact ⟨_, notices, count, hdrop, (hs.kind kept).trans hkind,
    (reaches_of_confirmed hlisted hgroup hs hstart (confirmed_start hreach) .refl).2⟩

/-- A scene of two groups that refer to each other; the inner one also refers to a shape, and the
outer one to a group with nothing but lines. -/
def gallery : Scene :=
  ⟨#[(Node.create .scene none).setChildren [1], (Node.create .group none).setChildren [2, 3],
    (Node.create .group none).setChildren [1, 4], (Node.create .group none).setChildren [5],
    Node.create .shape none, (Node.create .shape none).set "geometry" (.node (some 6)),
    Node.create .indexedLineSet none], 0⟩

theorem reaches_kept_dropJunk_gallery : gallery.GroupsListed 0 ∧
    gallery.findGroup some 0 (some 3) = .ok 3 ∧
    ∃ t notices count, gallery.dropJunk some ⟨[4], true, some (some 3)⟩ 0 =
        ⟨t, notices, .ok count⟩ ∧
      t.kind? 3 = some .group ∧ t.Reaches 0 3 := by
  have hlisted : gallery.GroupsListed 0 :=
    groupsListed_of_forall (by decide +kernel)
  have hfound : gallery.findGroup some 0 (some 3) = .ok 3 := by
    refine findGroup_of_namesGroup some_inj ⟨?_, by decide +kernel, 3, rfl, rfl⟩
    have hroot : 1 ∈ gallery.refs 0 := by decide +kernel
    have hgroup : 3 ∈ gallery.refs 1 := by decide +kernel
    exact (Relation.ReflTransGen.single hroot).tail hgroup
  exact ⟨hlisted, hfound, reaches_kept_dropJunk hlisted rfl hfound⟩

end SceneTidy.Scene

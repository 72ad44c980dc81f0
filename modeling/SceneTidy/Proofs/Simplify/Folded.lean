import Mathlib.Data.List.Pairwise
import SceneTidy.Proofs.Simplify.FoldRuns

/-!
# Folding is complete

When the children of a node have been folded, no two transforms among them are left that could be
(`folded_of_not_mem`).  A node that has been visited is left alone from then on, since what is
folded later has a single place, in a list of a node that had not been visited
(`Attended.onward_enter`).  Main statement: at the end nothing is left to fold, the nodes that are
left are referred to as often as before, and folding once more changes nothing
(`exists_isFolding_foldTransforms`).
-/

namespace SceneTidy

theorem eraseDups_of_nodup {l : List NodeId} (h : l.Nodup) : l.eraseDups = l := by
  induction l with
  | nil => rfl
  | cons a l ih =>
    obtain ⟨ha, hl⟩ := List.nodup_cons.1 h
    have hfilter : l.filter (fun b => !b == a) = l :=
      List.filter_eq_self.2 fun b hb => by simpa using ne_of_mem_of_not_mem hb ha
    rw [List.eraseDups_cons, hfilter, ih hl]

theorem Placement.same_comm (p q : Placement) : p.same q = q.same p := by
  simp only [same, Rotation.same, Vec3.same_comm, Binary64.same_comm]

namespace Scene

variable {s first : Scene} {start x group : NodeId} {references dropped : List NodeId}

/-! ### Rows -/

/-- A transform goes into a row, or opens a new one if it fits none. -/
theorem map_placement_addToRow (id : NodeId) (p : Placement) (rows : List FoldRow) :
    (addToRow id p rows).map FoldRow.placement = rows.map FoldRow.placement ∨
      (addToRow id p rows).map FoldRow.placement = rows.map FoldRow.placement ++ [p] ∧
        ∀ r ∈ rows, r.placement.same p = false := by
  induction rows with
  | nil => exact .inr ⟨rfl, fun r hr => absurd hr List.not_mem_nil⟩
  | cons row rows ih =>
    rw [addToRow]
    split
    · exact .inl rfl
    · next hno =>
      rw [Bool.or_eq_true, not_or, Bool.not_eq_true, Bool.not_eq_true] at hno
      rcases ih with ih | ⟨ih, hall⟩
      · exact .inl (by rw [List.map_cons, List.map_cons, ih])
      · exact .inr ⟨by rw [List.map_cons, List.map_cons, ih]; rfl,
          List.forall_mem_cons.2 ⟨hno.2, hall⟩⟩

/-- No two rows have the same parameters. -/
theorem pairwise_foldRows (s : Scene) (references : List NodeId) (group : NodeId) :
    (s.foldRows references group).Pairwise fun r r' => r.placement.same r'.placement = false := by
  have hstep : ∀ rows id p,
      (rows.map FoldRow.placement).Pairwise (fun p q => p.same q = false) →
        ((addToRow id p rows).map FoldRow.placement).Pairwise fun p q => p.same q = false := by
    intro rows id p h
    rcases map_placement_addToRow id p rows with he | ⟨he, hall⟩
    · rwa [he]
    · rw [he, List.pairwise_append]
      refine ⟨h, List.pairwise_singleton _ p, fun q hq q' hq' => ?_⟩
      obtain ⟨r, hr, rfl⟩ := List.mem_map.1 hq
      obtain rfl := List.mem_singleton.1 hq'
      exact hall r hr
  have hall : ∀ f : List FoldRow → NodeId → List FoldRow,
      (∀ rows id, s.foldable? references id = none → f rows id = rows) →
      (∀ rows id p, s.foldable? references id = some p → f rows id = addToRow id p rows) →
      ∀ (l : List NodeId) (rows : List FoldRow),
        (rows.map FoldRow.placement).Pairwise (fun p q => p.same q = false) →
          ((l.foldl f rows).map FoldRow.placement).Pairwise fun p q => p.same q = false := by
    intro f hnone hsome l
    induction l with
    | nil => exact fun rows h => h
    | cons id l ih =>
      intro rows h
      refine ih _ ?_
      cases hx : s.foldable? references id with
      | none => rwa [hnone rows id hx]
      | some p =>
        rw [hsome rows id p hx]
        exact hstep rows id p h
  exact List.pairwise_map.1
    (hall _ (fun _ _ h => by rw [h]) (fun _ _ _ h => by rw [h]) _ [] List.Pairwise.nil)

/-! ### Folding the children of a node -/

/-- The transforms that folding the children of a node drops. -/
def foldedAway (s : Scene) (references : List NodeId) (group : NodeId) : List NodeId :=
  (s.foldRows references group).flatMap (·.others)

/-- No two children of a node could be folded. -/
def Folded (s : Scene) (references : List NodeId) (group : NodeId) : Prop :=
  ∀ a ∈ s.children group, ∀ b ∈ s.children group, a ≠ b → ∀ p q,
    s.foldable? references a = some p → s.foldable? references b = some q → p.same q = false

/-- A child that may be folded is the first of its row or is dropped. -/
theorem exists_row_of_foldable? {p : Placement} (hx : x ∈ s.children group)
    (hp : s.foldable? references x = some p) (hkept : x ∉ s.foldedAway references group) :
    ∃ r ∈ s.foldRows references group, r.survivor = x ∧ r.placement = p := by
  obtain ⟨hfits, hmembers⟩ := s.foldRows_spec references group
  have hmem : x ∈ members (s.foldRows references group) :=
    hmembers.mem_iff.2 (List.mem_filter.2 ⟨hx, by rw [hp]; rfl⟩)
  obtain ⟨r, hr, hxr⟩ := List.mem_flatMap.1 hmem
  rcases List.mem_cons.1 hxr with rfl | ho
  · exact ⟨r, hr, rfl, Option.some.inj ((hfits r hr).1.symm.trans hp)⟩
  · exact absurd (List.mem_flatMap.2 ⟨r, hr, ho⟩) hkept

/-- **Children that are left can no more be folded.** -/
theorem folded_of_not_mem {t : Scene}
    (hsame : ∀ x, t.foldable? references x = s.foldable? references x)
    (h : ∀ c ∈ t.children group, c ∈ s.children group ∧ c ∉ s.foldedAway references group) :
    t.Folded references group := by
  intro a ha b hb hab p q hp hq
  rw [hsame] at hp hq
  obtain ⟨r, hr, rfl, rfl⟩ := exists_row_of_foldable? (h a ha).1 hp (h a ha).2
  obtain ⟨r', hr', rfl, rfl⟩ := exists_row_of_foldable? (h b hb).1 hq (h b hb).2
  have : Std.Symm fun r r' : FoldRow => r.placement.same r'.placement = false :=
    ⟨fun r r' hrr => (Placement.same_comm ..).trans hrr⟩
  exact (s.pairwise_foldRows references group).forall hr hr' fun he => hab (he ▸ rfl)

/-- What folding the children of a node comes to. -/
structure ChildrenFolded (first : Scene) (start : NodeId) (dropped : List NodeId) (s : Scene)
    (group : NodeId) (out : Scene × Nat) : Prop where
  dropping : ∃ l, out.2 = l.length ∧ Dropping first start (dropped ++ l) out.1 ∧
    ∀ o ∈ l, o ∈ s.children group ∧ (first.references start).count o = 1
  folded : out.1.Folded (first.references start) group
  node : ∀ x, x ≠ group → (x ∈ s.children group → (first.references start).count x ≠ 1) →
    out.1.node? x = s.node? x

/-- What is dropped has a single place, and it is among the children. -/
theorem once_of_mem_foldedAway {o : NodeId} (h : o ∈ s.foldedAway references group) :
    o ∈ s.children group ∧ references.count o = 1 := by
  obtain ⟨r, hr, ho⟩ := List.mem_flatMap.1 h
  obtain ⟨hchild, p, hp⟩ :=
    foldable_of_mem_members (List.mem_flatMap.2 ⟨r, hr, List.mem_cons_of_mem _ ho⟩)
  exact ⟨hchild, (foldable?_eq_some hp).2.1⟩

theorem exists_mem_handOvers {o : NodeId} (h : o ∈ s.foldedAway references group) :
    ∃ p ∈ handOvers (s.foldRows references group), p.2 = o := by
  rwa [foldedAway, ← map_snd_handOvers, List.mem_map] at h

/-- Only children with a single place have part in hand-overs. -/
theorem Apart.ne_of_count {l : List (NodeId × NodeId)} (h : s.Apart references group l)
    (hx : x ∈ s.children group → references.count x ≠ 1) : ∀ p ∈ l, x ≠ p.1 ∧ x ≠ p.2 := by
  refine fun p hp => ⟨?_, ?_⟩
  · rintro rfl
    exact hx (h.mem p hp).1 (h.once p hp).1
  · rintro rfl
    exact hx (h.mem p hp).2 (h.once p hp).2

theorem Dropping.foldChildren (h : Dropping first start dropped s) (hg : group ∈ first.walk start)
    (hm : s.mayFold group = true) : ChildrenFolded first start dropped s group
      (s.foldChildren (first.references start) group) := by
  have hn := exists_node_of_mayFold hm
  have hapart := apart_handOvers h.bounded hg
  obtain ⟨hlast, hempty, hnode⟩ := h.foldl hapart hg hn
  have hnodup : (s.foldedAway (first.references start) group).Nodup := by
    rw [foldedAway, ← map_snd_handOvers]
    exact hapart.nodup
  have hgroup : group ∈ s.children group → (first.references start).count group ≠ 1 :=
    fun ht hone => (h.bounded.sole hg hone (mem_refs_of_mem_children ht)).2.1 rfl
  rw [Scene.foldChildren]
  simp only [foldl_handOvers]
  rw [← foldedAway, eraseDups_of_nodup hnodup]
  generalize (handOvers (s.foldRows (first.references start) group)).foldl
    (fun s p => Scene.handOver p.1 s p.2) s = u at hlast hempty hnode ⊢
  have hsame : u.node? group = s.node? group := hnode group (hapart.ne_of_count hgroup)
  have hchildren : u.children group = s.children group := by rw [children, children, hsame]
  have hfoldable : ∀ t, Folds first t → ∀ x,
      t.foldable? (first.references start) x = s.foldable? (first.references start) x :=
    fun t ht x => (ht.foldable?_eq _ x).trans (h.folds.foldable?_eq _ x).symm
  split
  · next hnone =>
    have hnil : s.foldedAway (first.references start) group = [] := List.isEmpty_iff.1 hnone
    refine ⟨⟨[], rfl, by rwa [List.append_nil], fun o ho => absurd ho List.not_mem_nil⟩,
      folded_of_not_mem (hfoldable u hlast.folds) fun c hc => ⟨hchildren ▸ hc, ?_⟩,
      fun x _ hx => hnode x (hapart.ne_of_count hx)⟩
    rw [hnil]
    exact List.not_mem_nil
  · have hmay : u.mayFold group = true := by
      rw [hlast.folds.mayFold_eq, ← h.folds.mayFold_eq, hm]
    have hdrop := hlast.drop hg hmay hnodup fun o ho => ?_
    · refine ⟨⟨_, rfl, hdrop, fun o ho => once_of_mem_foldedAway ho⟩,
        folded_of_not_mem (hfoldable _ hdrop.folds) fun c hc => ?_, fun x hx hone => ?_⟩
      · obtain ⟨m, hm', hk, -⟩ := exists_node_of_mayFold hmay
        rw [children_setChildren hm' hk, List.mem_filter, hchildren] at hc
        exact ⟨hc.1, by simpa using hc.2⟩
      · rw [node?_setChildren_of_ne hx.symm]
        exact hnode x (hapart.ne_of_count hone)
    · obtain ⟨hchild, hone⟩ := once_of_mem_foldedAway ho
      obtain ⟨p, hp, rfl⟩ := exists_mem_handOvers ho
      refine ⟨hchildren ▸ hchild, hone, ?_, hempty p hp⟩
      rw [hlast.folds.isKind_eq, ← h.folds.isKind_eq]
      exact (hapart.transform p hp).2

theorem foldable?_congr {references' : List NodeId} (h : references.count x = references'.count x) :
    s.foldable? references x = s.foldable? references' x := by
  rw [foldable?, foldable?, h]

/-- Whether children could be folded depends on them only. -/
theorem Folded.congr {t : Scene} {references' : List NodeId} (h : s.Folded references group)
    (hchildren : t.children group = s.children group)
    (hfoldable : ∀ c ∈ s.children group, t.foldable? references' c = s.foldable? references c) :
    t.Folded references' group := by
  intro a ha b hb hab p q hp hq
  rw [hchildren] at ha hb
  rw [hfoldable _ ha] at hp
  rw [hfoldable _ hb] at hq
  exact h a ha b hb hab p q hp hq

/-! ### Folding everywhere -/

/-- What holds while a scene is folded: each visited node but the start is referred to by another
one, and no two children of a visited node could be folded. -/
structure Visiting (first : Scene) (start : NodeId) (st : FoldState) : Prop where
  dropping : ∃ l, st.removed = l.length ∧ Dropping first start l st.scene
  mem : ∀ x ∈ st.visited, x ∈ first.walk start
  parent : ∀ x ∈ st.visited, x = start ∨ ∃ z ∈ st.visited, st.scene.Refers z x
  folded : ∀ g ∈ st.visited, st.scene.mayFold g = true →
    st.scene.Folded (first.references start) g

variable {st st₁ st₂ : FoldState} {id : NodeId}

theorem Visiting.attended (h : Visiting first start st) : Attended first start st := by
  obtain ⟨l, -, hd⟩ := h.dropping
  exact ⟨hd.bounded, h.mem, h.parent⟩

/-- What a visit comes to: all that newly visited nodes refer to has been visited. -/
structure VisitOutcome (first : Scene) (start : NodeId) (st st' : FoldState) : Prop where
  visiting : Visiting first start st'
  onward : Onward st st'
  closed : ∀ x ∈ st'.visited, x ∉ st.visited → ∀ y, st'.scene.Refers x y →
    y ∈ st'.visited ∨ first.node? y = none

theorem Visiting.refl (h : Visiting first start st) : VisitOutcome first start st st :=
  ⟨h, .refl st, fun _ hx hno => absurd hx hno⟩

theorem VisitOutcome.trans (h₁ : VisitOutcome first start st st₁)
    (h₂ : VisitOutcome first start st₁ st₂) : VisitOutcome first start st st₂ := by
  refine ⟨h₂.visiting, h₁.onward.trans h₂.onward, fun x hx hno y hy => ?_⟩
  by_cases hx₁ : x ∈ st₁.visited
  · rw [Refers, h₂.onward.refs hx₁] at hy
    exact (h₁.closed x hx₁ hno y hy).imp_left fun hy => h₂.onward.visited hy
  · exact h₂.closed x hx hx₁ y hy

theorem Visiting.enter (h : Visiting first start st) (hnew : id ∉ st.visited)
    (hid : id ∈ first.walk start) (hdue : Due start st id) :
    Visiting first start (st.enter (first.references start) id) := by
  have honward := h.attended.onward_enter hnew hid
  have hattended := h.attended.enter hnew hid hdue
  obtain ⟨l, hl, hd⟩ := h.dropping
  have hdropping : ∃ l', (st.enter (first.references start) id).removed = l'.length ∧
      Dropping first start l' (st.enter (first.references start) id).scene := by
    rw [FoldState.enter]
    dsimp only
    split
    · next hm =>
      obtain ⟨l', hl', hd', -⟩ := (hd.foldChildren hid hm).dropping
      exact ⟨l ++ l', by rw [hl, hl', List.length_append], hd'⟩
    · exact ⟨l, by rw [hl]; rfl, hd⟩
  refine ⟨hdropping, hattended.mem, hattended.parent,
    List.forall_mem_cons.2 ⟨fun hm => ?_, fun g hg hm => ?_⟩⟩
  · obtain ⟨l', -, hd'⟩ := hdropping
    have hmay : st.scene.mayFold id = true := by
      rw [← hm, hd'.folds.mayFold_eq, hd.folds.mayFold_eq]
    have hscene : (st.enter (first.references start) id).scene =
        (st.scene.foldChildren (first.references start) id).1 := by
      rw [FoldState.enter, if_pos hmay]
    rw [hscene]
    exact (hd.foldChildren hid hmay).folded
  · obtain ⟨l', -, hd'⟩ := hdropping
    have hmay : st.scene.mayFold g = true := by
      rw [← hm, hd'.folds.mayFold_eq, hd.folds.mayFold_eq]
    refine (h.folded g hg hmay).congr ?_ fun c _ => ?_
    · rw [children, children, honward.node g hg]
    · rw [hd'.folds.foldable?_eq, hd.folds.foldable?_eq]

/-- A way to visit nodes, as long as less than a bound are left, that folds at all nodes that it
comes to and then leaves them alone. -/
def Visits (first : Scene) (start : NodeId) (bound : Nat)
    (visit : FoldState → NodeId → FoldState) : Prop :=
  ∀ st id, Visiting first start st → Due start st id → first.unmet st.visited < bound →
    VisitOutcome first start st (visit st id) ∧
      (id ∈ (visit st id).visited ∨ first.node? id = none)

/-- Several visits in a row. -/
theorem Visits.foldl {bound : Nat} {visit : FoldState → NodeId → FoldState}
    (hv : Visits first start bound visit) {l : List NodeId} (h : Visiting first start st)
    (hdue : ∀ t ∈ l, Due start st t) (hb : first.unmet st.visited < bound) :
    VisitOutcome first start st (l.foldl visit st) ∧
      ∀ t ∈ l, t ∈ (l.foldl visit st).visited ∨ first.node? t = none := by
  induction l generalizing st with
  | nil => exact ⟨h.refl, fun t ht => absurd ht List.not_mem_nil⟩
  | cons t l ih =>
    obtain ⟨ht, hl⟩ := List.forall_mem_cons.1 hdue
    obtain ⟨h₁, hmet⟩ := hv st t h ht hb
    obtain ⟨h₂, hall⟩ := ih h₁.visiting (fun t ht => (hl t ht).onward h₁.onward)
      (Nat.lt_of_le_of_lt (unmet_le_of_subset h₁.onward.visited) hb)
    exact ⟨h₁.trans h₂,
      List.forall_mem_cons.2 ⟨hmet.imp_left fun ht => h₂.onward.visited ht, hall⟩⟩

/-- **A visit** folds at all nodes that it comes to, and then leaves them alone. -/
theorem visits_visit (bound : Nat) :
    Visits first start bound (FoldState.visit (first.references start) bound) := by
  -- the induction is on the number of nodes left to visit
  induction bound with
  | zero => exact fun st id _ _ hb => absurd hb (Nat.not_lt_zero _)
  | succ bound ih =>
    intro st id h hdue hb
    obtain ⟨l, -, hd⟩ := h.dropping
    rw [FoldState.visit_succ]
    split
    · next hold =>
      rw [Bool.or_eq_true, List.contains_iff_mem, Option.isNone_iff_eq_none,
        hd.bounded.node?_eq_none_iff] at hold
      exact ⟨h.refl, hold⟩
    · next hnew =>
      rw [Bool.or_eq_true, not_or, List.contains_iff_mem, Option.isNone_iff_eq_none,
        hd.bounded.node?_eq_none_iff] at hnew
      obtain ⟨hnew, hthere⟩ := hnew
      obtain ⟨n, hn⟩ := Option.ne_none_iff_exists'.1 hthere
      have hid := (h.attended.mem_of_due hdue).resolve_right hthere
      have henter := h.enter hnew hid hdue
      have hself : id ∈ (st.enter (first.references start) id).visited := List.mem_cons_self ..
      obtain ⟨hout, hall⟩ := ih.foldl henter (fun t ht => .inr ⟨id, hself, ht⟩)
        (unmet_cons_lt_of_lt_succ hn hnew hb)
      refine ⟨⟨hout.visiting, (h.attended.onward_enter hnew hid).trans hout.onward,
        fun x hx hno y hy => ?_⟩, .inl (hout.onward.visited hself)⟩
      by_cases hx' : x ∈ (st.enter (first.references start) id).visited
      · obtain rfl := (List.mem_cons.1 hx').resolve_right hno
        rw [Refers, hout.onward.refs hx'] at hy
        exact hall y hy
      · exact hout.closed x hx hx' y hy

/-! ### Folding once more -/

/-- A node whose children could not be folded is left as it is. -/
theorem foldChildren_of_folded (hg : group ∈ s.walk start)
    (h : s.Folded (s.references start) group) :
    s.foldChildren (s.references start) group = (s, 0) := by
  have hnodup := nodup_members_foldRows (bounded_self s start) hg
  have hnil : s.foldedAway (s.references start) group = [] := by
    rw [List.eq_nil_iff_forall_not_mem]
    intro o ho
    obtain ⟨r, hr, ho⟩ := List.mem_flatMap.1 ho
    obtain ⟨hsurvivor, hothers⟩ := (s.foldRows_spec (s.references start) group).1 r hr
    obtain ⟨q, hq, hsame⟩ := hothers o ho
    have hne : o ≠ r.survivor := fun he =>
      survivor_not_mem_others hnodup r hr r hr (he ▸ ho)
    have hchild : ∀ t ∈ r.survivor :: r.others, t ∈ s.children group := fun t ht =>
      (foldable_of_mem_members (List.mem_flatMap.2 ⟨r, hr, ht⟩)).1
    have hdiffer := h r.survivor (hchild _ (List.mem_cons_self ..)) o
      (hchild _ (List.mem_cons_of_mem _ ho)) hne.symm _ _ hsurvivor hq
    rw [hsame.resolve_left hne] at hdiffer
    cases hdiffer
  have hovers : handOvers (s.foldRows (s.references start) group) = [] := by
    rw [← List.map_eq_nil_iff, map_snd_handOvers]
    exact hnil
  rw [foldChildren]
  simp only [foldl_handOvers]
  rw [← foldedAway, hnil, hovers]
  rfl

/-- A scene in which no children could be folded is left as it is. -/
theorem visit_of_folded
    (h : ∀ g ∈ s.walk start, s.mayFold g = true → s.Folded (s.references start) g) (bound : Nat)
    (hscene : st.scene = s) (hremoved : st.removed = 0)
    (hid : id ∈ s.walk start ∨ s.node? id = none) :
    (FoldState.visit (s.references start) bound st id).scene = s ∧
      (FoldState.visit (s.references start) bound st id).removed = 0 := by
  induction bound generalizing st id with
  | zero => exact ⟨hscene, hremoved⟩
  | succ bound ih =>
    rw [FoldState.visit_succ]
    split
    · exact ⟨hscene, hremoved⟩
    · next hnew =>
      rw [Bool.or_eq_true, not_or, Option.isNone_iff_eq_none, hscene] at hnew
      have hmem := hid.resolve_right hnew.2
      have henter : (if st.scene.mayFold id then
          st.scene.foldChildren (s.references start) id else (st.scene, 0)) = (s, 0) := by
        rw [hscene]
        split
        · next hm => exact foldChildren_of_folded hmem (h id hmem hm)
        · rfl
      rw [FoldState.enter, henter, hremoved]
      exact List.foldlRecOn (motive := fun st : FoldState => st.scene = s ∧ st.removed = 0)
        (s.refs id) (FoldState.visit (s.references start) bound) ⟨rfl, rfl⟩
        fun st hst t ht => ih hst.1 hst.2 ((bounded_self s start).closed hmem ht)

/-! ### The whole scene -/

/-- How a scene is folded into another one, from a start: no two children of a node that could be
folded are left, the nodes that are still reachable are referred to as often as before, and as many
transforms as are said are no longer reachable, but no other node. -/
structure IsFolding (s : Scene) (start : NodeId) (t : Scene) (k : Nat) : Prop where
  complete : ∀ g ∈ t.walk start, t.mayFold g = true → ∀ a ∈ t.children g, ∀ b ∈ t.children g,
    a ≠ b → ∀ n m, t.node? a = some n → t.node? b = some m → n.kind = .transform →
      m.kind = .transform → (t.references start).count a = 1 → (t.references start).count b = 1 →
        n.placement.same m.placement = false
  reachable : ∀ x ∈ t.walk start, x ∈ s.walk start
  count : ∀ x ∈ t.walk start, (t.references start).count x = (s.references start).count x
  dropped : ∀ x ∈ s.walk start, x ∉ t.walk start → s.kind? x = some .transform
  number : ((s.walk start).filter (!(t.walk start).contains ·)).length = k

/-- What holds of a scene when all nodes that can be come to have been visited. -/
theorem exists_dropping_foldTransforms (h : s.NoneAside start) :
    ∃ l k, (s.foldTransforms start).result = .ok k ∧ k = l.length ∧
      Dropping s start l (s.foldTransforms start).scene ∧
      ∀ g ∈ (s.foldTransforms start).scene.walk start,
        (s.foldTransforms start).scene.mayFold g = true →
          (s.foldTransforms start).scene.Folded (s.references start) g := by
  have hbegin : Visiting s start ⟨s, [], 0⟩ :=
    ⟨⟨[], rfl, dropping_self h⟩, fun x hx => absurd hx List.not_mem_nil,
      fun x hx => absurd hx List.not_mem_nil, fun g hg => absurd hg List.not_mem_nil⟩
  have hbound : s.unmet [] < s.size + 1 := by
    rw [unmet_nil]
    exact Nat.lt_succ_self _
  obtain ⟨hout, hstart⟩ := visits_visit (s.size + 1) _ start hbegin (.inl rfl) hbound
  have hscene : (s.foldTransforms start).scene =
      (FoldState.visit (s.references start) (s.size + 1) ⟨s, [], 0⟩ start).scene := rfl
  obtain ⟨l, hl, hd⟩ := hout.visiting.dropping
  refine ⟨l, _, rfl, hl, hscene ▸ hd, ?_⟩
  rw [hscene]
  generalize FoldState.visit (s.references start) (s.size + 1) ⟨s, [], 0⟩ start = st
    at hout hstart hd ⊢
  -- what has been visited is closed under references
  have hall : ∀ x, st.scene.Reaches start x → x ∈ st.visited ∨ s.node? x = none := by
    intro x hx
    induction hx with
    | refl => exact hstart
    | @tail y x hy hyx ih =>
      refine hout.closed y (ih.resolve_right fun hnone => ?_) List.not_mem_nil x hyx
      rw [← hd.bounded.node?_eq_none_iff] at hnone
      rw [Refers, refs_of_none hnone] at hyx
      exact List.not_mem_nil hyx
  intro g hg hm
  obtain ⟨hthere, hreach⟩ := Scene.mem_walk_iff.1 hg
  refine hout.visiting.folded g ((hall g hreach).resolve_right fun hnone => ?_) hm
  rw [← hd.bounded.node?_eq_none_iff] at hnone
  rw [hnone] at hthere
  cases hthere

/-- **Folding is complete**, and folding once more changes nothing. -/
theorem exists_isFolding_foldTransforms (h : s.NoneAside start) :
    ∃ k, (s.foldTransforms start).result = .ok k ∧
      s.IsFolding start (s.foldTransforms start).scene k ∧
      (s.foldTransforms start).scene.foldTransforms start =
        ⟨(s.foldTransforms start).scene, [], .ok 0⟩ := by
  obtain ⟨l, k, hresult, hk, hd, hfolded⟩ := exists_dropping_foldTransforms h
  refine ⟨k, hresult, ?_⟩
  generalize (s.foldTransforms start).scene = t at hd hfolded ⊢
  have hcount : ∀ x, t.Reaches start x →
      (t.references start).count x = (s.references start).count x := fun x hx =>
    hd.count_references (hd.not_mem_of_reaches hx)
  have hself : ∀ g ∈ t.walk start, t.mayFold g = true → t.Folded (t.references start) g := by
    intro g hg hm
    refine (hfolded g hg hm).congr rfl fun c hc => foldable?_congr (hcount c ?_)
    exact (Scene.mem_walk_iff.1 hg).2.tail (mem_refs_of_mem_children hc)
  have hgone : ∀ x ∈ s.walk start, x ∉ t.walk start → x ∈ l := by
    intro x hx hno
    by_contra hl
    exact hno (hd.mem_walk_iff.2 ⟨hx, hl⟩)
  refine ⟨⟨fun g hg hm a ha b hb hab n m hn hm' hnk hmk hna hmb => ?_,
    fun x hx => (hd.mem_walk_iff.1 hx).1, fun x hx => hcount x (Scene.mem_walk_iff.1 hx).2,
    fun x hx hno => ?_, ?_⟩, ?_⟩
  · refine hself g hg hm a ha b hb hab _ _ ?_ ?_
    · rw [foldable?, hn]
      exact if_pos ⟨hnk, hna⟩
    · rw [foldable?, hm']
      exact if_pos ⟨hmk, hmb⟩
  · have hkind := (hd.mem x (hgone x hx hno)).2.1
    rwa [isKind, beq_iff_eq] at hkind
  · have hperm : List.Perm ((s.walk start).filter (!(t.walk start).contains ·)) l := by
      refine (List.perm_ext_iff_of_nodup ((s.nodup_walk start).filter _) hd.nodup).2 fun x => ?_
      rw [List.mem_filter]
      refine ⟨fun hx => hgone x hx.1 (by simpa using hx.2), fun hx => ⟨(hd.mem x hx).1, ?_⟩⟩
      have hno : x ∉ t.walk start := fun hw => (hd.mem_walk_iff.1 hw).2 hx
      simpa using hno
    rw [hk, hperm.length_eq]
  · have hstart : start ∈ t.walk start ∨ t.node? start = none := by
      cases hn : t.node? start with
      | none => exact .inr rfl
      | some n => exact .inl (start_mem_walk (by rw [hn]; rfl))
    have hbegin : (FoldState.mk t [] 0).scene = t := rfl
    obtain ⟨hscene, hremoved⟩ := visit_of_folded hself (t.size + 1) hbegin rfl hstart
    rw [foldTransforms, hscene, hremoved]
    rfl

/-- A scene with two transforms that move nothing, each with another such transform for its child,
and with a shape in each of these.  The second transform is folded into the first, and then its
child into the one that it has come to stand beside. -/
def nested : Scene :=
  ⟨#[(Node.create .scene none).setChildren [1, 2], (Node.create .transform none).setChildren [3],
    (Node.create .transform none).setChildren [4], (Node.create .transform none).setChildren [5],
    (Node.create .transform none).setChildren [6], Node.create .shape none,
    Node.create .shape none], 0⟩

theorem noneAside_nested : nested.NoneAside nested.root := noneAside_of_forall (by decide +kernel)

theorem exists_isFolding_nested : nested.NoneAside nested.root ∧
    ∃ k, (nested.foldTransforms nested.root).result = .ok k ∧
      nested.IsFolding nested.root (nested.foldTransforms nested.root).scene k ∧
      (nested.foldTransforms nested.root).scene.foldTransforms nested.root =
        ⟨(nested.foldTransforms nested.root).scene, [], .ok 0⟩ :=
  ⟨noneAside_nested, exists_isFolding_foldTransforms noneAside_nested⟩

end Scene

end SceneTidy

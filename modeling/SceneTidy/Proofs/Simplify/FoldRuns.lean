import Mathlib.Computability.StateTransition
import SceneTidy.Proofs.Simplify.Dropping

/-!
# Folding one step at a time

Transforms are folded by the references as they were before any folding, while lists of children are
rewritten all along.  Here the folding of a scene is a run without bounds (`FoldRun.step`), in which
a list may be read on while it changes; so is the growth of a survivor's list of children
(`extendStep`), which never ends if the list that is read is the list that grows
(`eval_extendStep_self`).  On every step references become fewer (`Bounded.count_references_le`),
and what has been visited is left alone (`Attended.onward_enter`).  Main statement: each call to
fold the children of a node is safe, and the run ends with what folding is defined to be
(`safeCall_and_mem_eval`).
-/

namespace SceneTidy

namespace FoldState

/-- The state after a node has been visited, before what it refers to is. -/
def enter (references : List NodeId) (id : NodeId) (st : FoldState) : FoldState :=
  let r := if st.scene.mayFold id then st.scene.foldChildren references id else (st.scene, 0)
  ⟨r.1, id :: st.visited, st.removed + r.2⟩

theorem visit_succ (references : List NodeId) (bound : Nat) (st : FoldState) (id : NodeId) :
    visit references (bound + 1) st id =
      if st.visited.contains id || (st.scene.node? id).isNone then st
      else ((st.enter references id).scene.refs id).foldl (visit references bound)
        (st.enter references id) := rfl

end FoldState

namespace Scene

variable {s u first : Scene} {start x group survivor other : NodeId} {references : List NodeId}
  {n : Node}

/-! ### The growth of a list -/

/-- One step of putting the children of one node behind those of another: the next one is read from
the list as it is by then. -/
def extendStep (survivor other : NodeId) (r : Scene × Nat) : Option (Scene × Nat) :=
  ((r.1.children other)[r.2]?).map fun child =>
    (r.1.setChildren survivor (r.1.children survivor ++ [child]), r.2 + 1)

theorem reaches_extendStep (hne : survivor ≠ other) (hn : s.node? survivor = some n)
    (hk : n.kind.isGrouping = true) {k : Nat} (hle : k ≤ (s.children other).length) :
    StateTransition.Reaches (extendStep survivor other) (s, 0)
      (s.setChildren survivor (s.children survivor ++ (s.children other).take k), k) := by
  induction k with
  | zero =>
    rw [List.take_zero, List.append_nil, setChildren_children hn hk]
    exact .refl
  | succ k ih =>
    refine (ih (Nat.le_of_succ_le hle)).tail ?_
    have hread : (s.children other)[k]? = some ((s.children other).get ⟨k, hle⟩) :=
      List.getElem?_eq_getElem hle
    show extendStep survivor other _ = _
    rw [extendStep, children_setChildren_of_ne hne, hread, Option.map_some,
      children_setChildren hn hk, setChildren_setChildren hn hk, List.append_assoc,
      List.get_eq_getElem, List.take_concat_get']

/-- **The list of another node is read to its end.** -/
theorem mem_eval_extendStep (hne : survivor ≠ other) (hn : s.node? survivor = some n)
    (hk : n.kind.isGrouping = true) :
    (s.setChildren survivor (s.children survivor ++ s.children other), (s.children other).length) ∈
      StateTransition.eval (extendStep survivor other) (s, 0) := by
  have hreaches := reaches_extendStep hne hn hk (Nat.le_refl (s.children other).length)
  rw [List.take_length] at hreaches
  refine StateTransition.mem_eval.2 ⟨hreaches, ?_⟩
  rw [extendStep, children_setChildren_of_ne hne, List.getElem?_eq_none (Nat.le_refl _),
    Option.map_none]

/-- A list that is read while it grows is never read to its end. -/
theorem eval_extendStep_self (hn : s.node? x = some n) (hk : n.kind.isGrouping = true)
    (hsome : s.children x ≠ []) : ¬(StateTransition.eval (extendStep x x) (s, 0)).Dom := by
  intro hdom
  obtain ⟨hreaches, hend⟩ := StateTransition.mem_eval.1 (Part.get_mem hdom)
  -- the place at which the list is read stays inside it
  have hinside : ∀ r, StateTransition.Reaches (extendStep x x) (s, 0) r →
      (∃ m, r.1.node? x = some m ∧ m.kind.isGrouping = true) ∧ r.2 < (r.1.children x).length := by
    intro r hr
    induction hr with
    | refl => exact ⟨⟨n, hn, hk⟩, List.length_pos_iff.2 hsome⟩
    | @tail r r' _ hstep ih =>
      obtain ⟨⟨m, hm, hmk⟩, hlt⟩ := ih
      obtain ⟨child, -, rfl⟩ := Option.map_eq_some_iff.1 hstep
      refine ⟨⟨_, node?_setChildren_self hm _, hmk⟩, ?_⟩
      rw [children_setChildren hm hmk, List.length_append, List.length_singleton]
      exact Nat.succ_lt_succ hlt
  obtain ⟨-, hlt⟩ := hinside _ hreaches
  rw [extendStep, List.getElem?_eq_getElem hlt] at hend
  cases hend

/-- A node takes over the children of another one: it is another one, and to read its list to the
end, one child after the other, comes to what is put behind the children that were there. -/
structure TakesOver (s : Scene) (survivor other : NodeId) : Prop where
  ne : survivor ≠ other
  ends : (s.setChildren survivor (s.children survivor ++ s.children other),
      (s.children other).length) ∈ StateTransition.eval (extendStep survivor other) (s, 0)

/-! ### What a call changes -/

/-- References become fewer. -/
theorem Bounded.count_references_le (hb : Bounded first start s) (x : NodeId) :
    (s.references start).count x ≤ (first.references start).count x := by
  have hsub : s.walk start ⊆ first.walk start := by
    intro y hy
    obtain ⟨hthere, hreach⟩ := mem_walk_iff.1 hy
    refine (hb.mem_of_reaches hreach).resolve_right fun hnone => ?_
    rw [hnone] at hthere
    cases hthere
  obtain ⟨l, hperm, hl⟩ := List.subperm_of_subset (s.nodup_walk start) hsub
  have hle : ((s.walk start).flatMap s.refs).count x ≤
      ((first.walk start).flatMap s.refs).count x := by
    rw [← (hperm.flatMap_right s.refs).count_eq]
    exact (hl.flatMap s.refs).count_le x
  rw [count_references_eq]
  have := hb.count_le x
  omega

theorem node?_foldl_handOver {l : List (NodeId × NodeId)} (h : ∀ p ∈ l, x ≠ p.1 ∧ x ≠ p.2) :
    (l.foldl (fun s p => handOver p.1 s p.2) s).node? x = s.node? x := by
  induction l generalizing s with
  | nil => rfl
  | cons p l ih =>
    obtain ⟨⟨h₁, h₂⟩, hl⟩ := List.forall_mem_cons.1 h
    exact (ih hl).trans (node?_handOver h₁ h₂)

/-- What is neither a member of a row nor the node itself is left alone. -/
theorem node?_foldChildren (hx : x ≠ group) (h : x ∉ members (s.foldRows references group)) :
    (s.foldChildren references group).1.node? x = s.node? x := by
  have hsame : ((handOvers (s.foldRows references group)).foldl
      (fun s p => handOver p.1 s p.2) s).node? x = s.node? x := by
    refine node?_foldl_handOver fun p hp => ?_
    obtain ⟨h₁, h₂⟩ := mem_members_of_mem_handOvers hp
    exact ⟨fun he => h (he ▸ h₁), fun he => h (he ▸ h₂)⟩
  rw [foldChildren]
  simp only [foldl_handOvers]
  split
  · exact hsame
  · rw [node?_setChildren_of_ne hx.symm, hsame]

/-- A transform that was not referred to once is in no row. -/
theorem not_mem_members_of_count (h : x ∈ s.children group → references.count x ≠ 1) :
    x ∉ members (s.foldRows references group) := by
  intro hx
  obtain ⟨hchild, p, hp⟩ := foldable_of_mem_members hx
  exact h hchild (foldable?_eq_some hp).2.1

/-- A node is no member of the rows of its children. -/
theorem Bounded.group_not_mem (hb : Bounded first start s) (hg : group ∈ first.walk start) :
    group ∉ members (s.foldRows (first.references start) group) := by
  refine not_mem_members_of_count fun hchild hone => ?_
  exact (hb.sole hg hone (mem_refs_of_mem_children hchild)).2.1 rfl

/-- A node whose children are folded keeps the first of each row. -/
theorem Bounded.children_foldChildren (hb : Bounded first start s) (hg : group ∈ first.walk start)
    (hm : s.mayFold group = true) (hne : s.children group ≠ []) :
    (s.foldChildren (first.references start) group).1.children group ≠ [] := by
  obtain ⟨n, hn, hk, -⟩ := exists_node_of_mayFold hm
  have hself := hb.group_not_mem hg
  have hsame : ((handOvers (s.foldRows (first.references start) group)).foldl
      (fun s p => Scene.handOver p.1 s p.2) s).node? group = s.node? group := by
    refine node?_foldl_handOver fun p hp => ?_
    obtain ⟨h₁, h₂⟩ := mem_members_of_mem_handOvers hp
    exact ⟨fun he => hself (he ▸ h₁), fun he => hself (he ▸ h₂)⟩
  rw [foldChildren]
  simp only [foldl_handOvers]
  split
  · rwa [children, hsame]
  · next hsome =>
    rw [children_setChildren (hsame.trans hn) hk]
    obtain ⟨o, ho⟩ := List.exists_mem_of_ne_nil _ (mt List.isEmpty_iff.2 hsome)
    obtain ⟨r, hr, -⟩ := List.mem_flatMap.1 (List.mem_eraseDups.1 ho)
    have hkept := survivor_not_mem_others (nodup_members_foldRows hb hg) r hr
    have hchild := (foldable_of_mem_members
      (List.mem_flatMap.2 ⟨r, hr, List.mem_cons_self ..⟩)).1
    refine List.ne_nil_of_mem (a := r.survivor) (List.mem_filter.2 ⟨?_, ?_⟩)
    · rwa [children, hsame]
    · simpa using fun r' hr' => hkept r' hr'

/-! ### What holds while nodes are visited -/

/-- What holds while nodes are visited: the bounds on references, and each visited node but the
start is referred to by another one. -/
structure Attended (first : Scene) (start : NodeId) (st : FoldState) : Prop where
  bounded : Bounded first start st.scene
  mem : ∀ x ∈ st.visited, x ∈ first.walk start
  parent : ∀ x ∈ st.visited, x = start ∨ ∃ z ∈ st.visited, st.scene.Refers z x

/-- Visited nodes stay as they are. -/
structure Onward (st st' : FoldState) : Prop where
  visited : st.visited ⊆ st'.visited
  node : ∀ x ∈ st.visited, st'.scene.node? x = st.scene.node? x

theorem Onward.refl (st : FoldState) : Onward st st := ⟨fun _ h => h, fun _ _ => rfl⟩

variable {st st₁ st₂ : FoldState} {id : NodeId}

theorem Onward.trans (h₁ : Onward st st₁) (h₂ : Onward st₁ st₂) : Onward st st₂ where
  visited _ h := h₂.visited (h₁.visited h)
  node x hx := (h₂.node x (h₁.visited hx)).trans (h₁.node x hx)

theorem Onward.refs (h : Onward st st₁) (hx : x ∈ st.visited) :
    st₁.scene.refs x = st.scene.refs x := by
  rw [Scene.refs, Scene.refs, h.node x hx]

/-- A node is visited that is the start or is referred to by a visited one. -/
def Due (start : NodeId) (st : FoldState) (id : NodeId) : Prop :=
  id = start ∨ ∃ z ∈ st.visited, st.scene.Refers z id

theorem Due.onward (h : Due start st id) (ho : Onward st st₁) : Due start st₁ id := by
  refine h.imp_right fun ⟨z, hz, hzid⟩ => ⟨z, ho.visited hz, ?_⟩
  rwa [Refers, ho.refs hz]

namespace Attended

theorem begin (s : Scene) (start : NodeId) : Attended s start ⟨s, [], 0⟩ where
  bounded := bounded_self s start
  mem _ hx := absurd hx List.not_mem_nil
  parent _ hx := absurd hx List.not_mem_nil

variable (h : Attended first start st)

include h

/-- What is due is there and was reachable at first, unless it is not in the store. -/
theorem mem_of_due (hdue : Due start st id) : id ∈ first.walk start ∨ first.node? id = none := by
  rcases hdue with rfl | ⟨z, hz, hzid⟩
  · cases hn : first.node? id with
    | none => exact .inr rfl
    | some n => exact .inl (start_mem_walk (by rw [hn]; rfl))
  · exact (h.bounded.closed (h.mem z hz) hzid).imp_right h.bounded.node?_eq_none_iff.1

/-- **What has been visited is no more changed**, since what is folded has no other place. -/
theorem count_ne_one (hnew : id ∉ st.visited) (hid : id ∈ first.walk start) (hx : x ∈ st.visited)
    (hchild : x ∈ st.scene.children id) : (first.references start).count x ≠ 1 := by
  intro hone
  obtain ⟨hne, -, hsole⟩ := h.bounded.sole hid hone (mem_refs_of_mem_children hchild)
  rcases h.parent x hx with he | ⟨z, hz, hzx⟩
  · exact hne he
  · obtain rfl := (hsole z (h.mem z hz)).2 hzx
    exact hnew hz

theorem onward_enter (hnew : id ∉ st.visited) (hid : id ∈ first.walk start) :
    Onward st (st.enter (first.references start) id) := by
  refine ⟨fun x hx => List.mem_cons_of_mem _ hx, fun x hx => ?_⟩
  rw [FoldState.enter]
  dsimp only
  split
  · exact node?_foldChildren (ne_of_mem_of_not_mem hx hnew)
      (not_mem_members_of_count fun hchild => h.count_ne_one hnew hid hx hchild)
  · rfl

theorem enter (hnew : id ∉ st.visited) (hid : id ∈ first.walk start) (hdue : Due start st id) :
    Attended first start (st.enter (first.references start) id) := by
  have honward := h.onward_enter hnew hid
  refine ⟨?_, List.forall_mem_cons.2 ⟨hid, h.mem⟩,
    List.forall_mem_cons.2 ⟨hdue.onward honward, fun x hx => Due.onward (h.parent x hx) honward⟩⟩
  rw [FoldState.enter]
  dsimp only
  split
  · next hm => exact (foldChildren_spec h.bounded hid hm).1
  · exact h.bounded

end Attended

end Scene

/-! ### Runs -/

/-- A run of folding: the state so far, the node that is to be visited next, and the nodes that are
being gone through, with the number of their references that have been followed. -/
structure FoldRun where
  state : FoldState
  next : Option NodeId
  trail : List (NodeId × Nat)

namespace FoldRun

open StateTransition

/-- The run that begins at a node. -/
def begin (s : Scene) (start : NodeId) : FoldRun := ⟨⟨s, [], 0⟩, some start, []⟩

/-- One step of a run: visit the next node, if it has not been visited; or follow the next reference
of the last node, in the scene as it is by then; or return from that node. -/
def step (references : List NodeId) : FoldRun → Option FoldRun
  | ⟨st, some id, trail⟩ =>
    if st.visited.contains id || (st.scene.node? id).isNone then some ⟨st, none, trail⟩
    else some ⟨st.enter references id, none, (id, 0) :: trail⟩
  | ⟨st, none, (id, k) :: trail⟩ =>
    match (st.scene.refs id)[k]? with
    | some child => some ⟨st, some child, (id, k + 1) :: trail⟩
    | none => some ⟨st, none, trail⟩
  | ⟨_, none, []⟩ => none

/-- The next step folds the children of a node. -/
structure Calls (r : FoldRun) (group : NodeId) : Prop where
  next : r.next = some group
  new : group ∉ r.state.visited
  may : r.state.scene.mayFold group = true

/-- What holds on every run: the state is sound, the next node is due, and what is being gone
through has been visited. -/
structure Sound (first : Scene) (start : NodeId) (r : FoldRun) : Prop where
  attended : Scene.Attended first start r.state
  due : ∀ id ∈ r.next, Scene.Due start r.state id
  trail : ∀ p ∈ r.trail, p.1 ∈ r.state.visited

variable {s first : Scene} {start : NodeId} {r r' : FoldRun}

theorem sound_begin (s : Scene) (start : NodeId) : Sound s start (begin s start) where
  attended := .begin s start
  due _ h := .inl (Option.some.inj h).symm
  trail _ h := absurd h List.not_mem_nil

/-- A step keeps what holds on runs, and leaves visited nodes alone. -/
theorem Sound.of_step (h : Sound first start r)
    (hstep : r.step (first.references start) = some r') :
    Sound first start r' ∧ Scene.Onward r.state r'.state := by
  obtain ⟨st, next, trail⟩ := r
  cases next with
  | some id =>
    rw [FoldRun.step] at hstep
    split at hstep
    · obtain rfl := Option.some.inj hstep
      exact ⟨⟨h.attended, nofun, h.trail⟩, .refl st⟩
    · next hnew =>
      obtain rfl := Option.some.inj hstep
      rw [Bool.or_eq_true, not_or, List.contains_iff_mem, Option.isNone_iff_eq_none,
        h.attended.bounded.node?_eq_none_iff] at hnew
      have hdue := h.due id rfl
      have hid := (h.attended.mem_of_due hdue).resolve_right hnew.2
      have honward := h.attended.onward_enter hnew.1 hid
      exact ⟨⟨h.attended.enter hnew.1 hid hdue, nofun, List.forall_mem_cons.2
        ⟨List.mem_cons_self .., fun p hp => honward.visited (h.trail p hp)⟩⟩, honward⟩
  | none =>
    cases trail with
    | nil => cases hstep
    | cons p trail =>
      obtain ⟨id, k⟩ := p
      obtain ⟨hid, htrail⟩ := List.forall_mem_cons.1 h.trail
      rw [FoldRun.step] at hstep
      split at hstep
      · next child hchild =>
        obtain rfl := Option.some.inj hstep
        refine ⟨⟨h.attended, fun x hx => ?_, List.forall_mem_cons.2 ⟨hid, htrail⟩⟩, .refl st⟩
        obtain rfl := Option.some.inj hx
        exact .inr ⟨id, hid, List.mem_of_getElem? hchild⟩
      · obtain rfl := Option.some.inj hstep
        exact ⟨⟨h.attended, nofun, htrail⟩, .refl st⟩

/-- So does a run of any length. -/
theorem Sound.of_reaches (h : Sound first start r)
    (hr : Reaches (step (first.references start)) r r') :
    Sound first start r' ∧ Scene.Onward r.state r'.state := by
  induction hr with
  | refl => exact ⟨h, .refl _⟩
  | tail _ hstep ih =>
    obtain ⟨hs, ho⟩ := ih.1.of_step hstep
    exact ⟨hs, ih.2.trans ho⟩

/-- **A run does what a visit is defined to do**, as long as less than a bound of nodes are left. -/
theorem Sound.reaches_visit (bound : Nat) {st : FoldState} {id : NodeId}
    {trail : List (NodeId × Nat)} (h : Sound first start ⟨st, some id, trail⟩)
    (hb : first.unmet st.visited < bound) :
    Reaches (step (first.references start)) ⟨st, some id, trail⟩
      ⟨FoldState.visit (first.references start) bound st id, none, trail⟩ := by
  induction bound generalizing st id trail with
  | zero => exact absurd hb (Nat.not_lt_zero _)
  | succ bound ih =>
    -- the references of a node that is being gone through stay as they are
    have hlist : ∀ (l : List NodeId) (k : Nat) (st : FoldState) (trail : List (NodeId × Nat)),
        Sound first start ⟨st, none, (id, k) :: trail⟩ → (st.scene.refs id).drop k = l →
        first.unmet st.visited < bound →
        Reaches (step (first.references start)) ⟨st, none, (id, k) :: trail⟩
          ⟨l.foldl (FoldState.visit (first.references start) bound) st, none, trail⟩ := by
      intro l
      induction l with
      | nil =>
        intro k st trail h hl hb
        refine .single ?_
        have hend : (st.scene.refs id)[k]? = none :=
          List.getElem?_eq_none (List.drop_eq_nil_iff.1 hl)
        show step _ _ = _
        rw [step, hend]
        rfl
      | cons t l ihl =>
        intro k st trail h hl hb
        have hread : (st.scene.refs id)[k]? = some t := by
          rw [← List.head?_drop, hl, List.head?_cons]
        have hstep : step (first.references start) ⟨st, none, (id, k) :: trail⟩ =
            some ⟨st, some t, (id, k + 1) :: trail⟩ := by
          rw [step, hread]
        have hnext := (h.of_step hstep).1
        have hvisit := ih hnext hb
        obtain ⟨hs, ho⟩ := hnext.of_reaches hvisit
        have hfollow : Reaches (step (first.references start)) ⟨st, none, (id, k) :: trail⟩
            ⟨st, some t, (id, k + 1) :: trail⟩ := .single hstep
        refine (hfollow.trans hvisit).trans
          (ihl (k + 1) _ trail hs ?_ (Nat.lt_of_le_of_lt (Scene.unmet_le_of_subset ho.visited) hb))
        have hself : id ∈ st.visited := h.trail (id, k) (List.mem_cons_self ..)
        rw [ho.refs hself, ← List.tail_drop, hl, List.tail_cons]
    rw [FoldState.visit_succ]
    split
    · next hold =>
      refine .single ?_
      show step _ _ = _
      rw [step, if_pos hold]
    · next hnew =>
      have hstep : step (first.references start) ⟨st, some id, trail⟩ =
          some ⟨st.enter (first.references start) id, none, (id, 0) :: trail⟩ := by
        rw [step, if_neg hnew]
      rw [Bool.or_eq_true, not_or, List.contains_iff_mem, Option.isNone_iff_eq_none,
        h.attended.bounded.node?_eq_none_iff] at hnew
      obtain ⟨n, hn⟩ := Option.ne_none_iff_exists'.1 hnew.2
      exact .head hstep (hlist _ 0 _ trail (h.of_step hstep).1 rfl
        (Scene.unmet_cons_lt_of_lt_succ hn hnew.1 hb))

/-- What is due when the children of a node are folded: no node is referred to more often than was
counted; a node with several references by then is no member of a row, is left alone and does not
lose all children; the members of the rows are distinct nodes, none of them the node itself; and no
survivor takes over children from itself, so that each list that grows is read from another one, and
to its end. -/
structure SafeCall (s : Scene) (start : NodeId) (u : Scene) (group : NodeId) : Prop where
  count_le : ∀ x, (u.references start).count x ≤ (s.references start).count x
  spared : ∀ x, 2 ≤ (u.references start).count x →
    x ∉ Scene.members (u.foldRows (s.references start) group) ∧
    (x ≠ group → (u.foldChildren (s.references start) group).1.node? x = u.node? x) ∧
    (u.children x ≠ [] → (u.foldChildren (s.references start) group).1.children x ≠ [])
  nodup : (Scene.members (u.foldRows (s.references start) group)).Nodup
  not_mem : group ∉ Scene.members (u.foldRows (s.references start) group)
  takesOver : ∀ l p l', Scene.handOvers (u.foldRows (s.references start) group) = l ++ p :: l' →
    (l.foldl (fun v q => Scene.handOver q.1 v q.2) u).TakesOver p.1 p.2

theorem isKind_foldl_handOver (k : NodeKind) (u : Scene) (l : List (NodeId × NodeId)) (x : NodeId) :
    (l.foldl (fun v q => Scene.handOver q.1 v q.2) u).isKind k x = u.isKind k x := by
  induction l generalizing u with
  | nil => rfl
  | cons p l ih => exact (ih _).trans (Scene.isKind_handOver k x)

/-- While the bounds hold, it is safe to fold the children of a node. -/
theorem safeCall_of_bounded {u : Scene} {group : NodeId} (hb : Scene.Bounded s start u)
    (hg : group ∈ s.walk start) (hm : u.mayFold group = true) : SafeCall s start u group := by
  have hself := hb.group_not_mem hg
  have hapart := Scene.apart_handOvers hb hg
  refine ⟨hb.count_references_le, fun x hx => ?_, Scene.nodup_members_foldRows hb hg, hself,
    fun l p l' hl => ?_⟩
  · have hnot : x ∉ Scene.members (u.foldRows (s.references start) group) := by
      refine Scene.not_mem_members_of_count fun _ hone => ?_
      have := hb.count_references_le x
      omega
    refine ⟨hnot, fun hne => Scene.node?_foldChildren hne hnot, fun hne => ?_⟩
    by_cases he : x = group
    · subst he
      exact hb.children_foldChildren hg hm hne
    · rwa [Scene.children, Scene.node?_foldChildren he hnot]
  · have hp : p ∈ Scene.handOvers (u.foldRows (s.references start) group) := by simp [hl]
    have hne := hapart.ne p hp p hp
    have hkind :
        (l.foldl (fun v q => Scene.handOver q.1 v q.2) u).isKind .transform p.1 = true := by
      rw [isKind_foldl_handOver]
      exact (hapart.transform p hp).1
    obtain ⟨n, hn, hk⟩ := Scene.exists_node_of_isKind hkind
    exact ⟨hne, Scene.mem_eval_extendStep hne hn (by rw [hk]; rfl)⟩

/-- **Each call to fold the children of a node is safe, and folding ends.**  This holds of every
scene, whatever nodes are shared and whatever references form cycles: the calls go by the references
as they were at first, and a run without bounds comes to an end, with what folding is defined to
be. -/
theorem safeCall_and_mem_eval (s : Scene) (start : NodeId) :
    (∀ r group, Reaches (step (s.references start)) (begin s start) r → r.Calls group →
      SafeCall s start r.state.scene group) ∧
    ∃ r ∈ eval (step (s.references start)) (begin s start),
      s.foldTransforms start = ⟨r.state.scene,
        if r.state.removed = 0 then [] else [.folded r.state.removed], .ok r.state.removed⟩ := by
  constructor
  · intro r group hr hcall
    obtain ⟨hs, -⟩ := (sound_begin s start).of_reaches hr
    obtain ⟨n, hn, -⟩ := Scene.exists_node_of_mayFold hcall.may
    refine safeCall_of_bounded hs.attended.bounded ?_ hcall.may
    refine (hs.attended.mem_of_due (hs.due group hcall.next)).resolve_right fun hnone => ?_
    rw [← hs.attended.bounded.node?_eq_none_iff, hn] at hnone
    cases hnone
  · have hbound : s.unmet [] < s.size + 1 := by
      rw [Scene.unmet_nil]
      exact Nat.lt_succ_self _
    exact ⟨_, mem_eval.2 ⟨(sound_begin s start).reaches_visit (s.size + 1) hbound, rfl⟩, rfl⟩

end FoldRun

end SceneTidy

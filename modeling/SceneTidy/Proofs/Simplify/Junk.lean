import Mathlib.Algebra.Order.BigOperators.Group.Finset
import SceneTidy.Proofs.Simplify.Judging
import SceneTidy.Proofs.Simplify.KeptGroup

/-!
# Dropping junk drops what junk is defined to be

Junk is defined from the leaves up (`Scene.IsJunk`).  In a scene without cycles the verdict on each
node that is judged says whether it is junk, since no node is pending when another goes by it
(`Scene.verdict_iff`).  Main statement: the rules are refused if they name no reachable group; and
else every list of the nodes looked into loses its junk, nothing else changes, and the result is the
number of entries lost (`Scene.dropJunk_spec`).
-/

namespace SceneTidy

namespace Scene

variable {s : Scene} {numberOf : NodeId → Option Nat} {rules : JunkRules} {kept : Option NodeId}
  {start id x y : NodeId} {n : Node}

/-- A group that is neither the kept one nor below it nor above it. -/
def Unrelated (s : Scene) (kept : Option NodeId) (id : NodeId) : Prop :=
  s.kind? id = some .group ∧ ∃ k, kept = some k ∧ id ≠ k ∧ ¬s.Reaches k id ∧ ¬s.Reaches id k

/-- What counts as junk when some group is kept. -/
inductive IsJunk (s : Scene) (numberOf : NodeId → Option Nat) (rules : JunkRules)
    (kept : Option NodeId) : NodeId → Prop
  | lineSet {id : NodeId} {n : Node} {g : NodeId} (hn : s.node? id = some n)
      (hk : n.kind = .shape) (hr : rules.lineSets = true) (hg : n.target "geometry" = some g)
      (hl : s.kind? g = some .indexedLineSet) : IsJunk s numberOf rules kept id
  | excluded {id : NodeId} {n : Node} {k : Nat} (hn : s.node? id = some n) (hk : n.kind = .shape)
      (hnum : numberOf id = some k) (he : (k : Int) ∈ rules.excluded) :
      IsJunk s numberOf rules kept id
  | unrelated {id : NodeId} (h : s.Unrelated kept id) : IsJunk s numberOf rules kept id
  | emptied {id : NodeId} {n : Node} (hn : s.node? id = some n)
      (hk : n.kind = .group ∨ n.kind = .transform) (hkept : kept ≠ some id)
      (h : ∀ y ∈ n.children, IsJunk s numberOf rules kept y) :
      IsJunk s numberOf rules kept id

/-- A node that one descends into: no shape, and no group dropped for the sake of the kept one. -/
def IsOpen (s : Scene) (kept : Option NodeId) (id : NodeId) : Prop :=
  s.kind? id ≠ some .shape ∧ ¬s.Unrelated kept id

/-- A node that one comes to, and then into, by descending from a start. -/
def Opened (s : Scene) (kept : Option NodeId) (start x : NodeId) : Prop :=
  Relation.ReflTransGen (fun a b => s.IsOpen kept a ∧ s.Refers a b) start x ∧ s.IsOpen kept x

theorem IsJunk.isSome (h : s.IsJunk numberOf rules kept id) : (s.node? id).isSome := by
  cases h with
  | lineSet hn | excluded hn | emptied hn => simp [hn]
  | unrelated h =>
    cases hn : s.node? id with
    | none => simp [Unrelated, kind?, hn] at h
    | some n => rfl

section Case

variable {k : Option KeptGroup}

theorem isJunkShape_iff (hn : s.node? x = some n) (hshape : n.kind = .shape) :
    JunkCase.isJunkShape ⟨numberOf, rules, k⟩ s x n = true ↔ s.IsJunk numberOf rules kept x := by
  have hlines : ((n.target "geometry").map (s.isKind .indexedLineSet)).getD false = true ↔
      ∃ g, n.target "geometry" = some g ∧ s.kind? g = some .indexedLineSet := by
    cases n.target "geometry" with
    | none => simp
    | some g => simp [isKind_iff]
  have hnumbers : (∃ l : Nat, numberOf x = some l ∧ (l : Int) ∈ rules.excluded) ↔
      ((numberOf x).any fun l => rules.excluded.contains (l : Int)) = true := by
    cases numberOf x <;> simp
  rw [JunkCase.isJunkShape, Bool.or_eq_true, Bool.and_eq_true, hlines, ← hnumbers]
  constructor
  · rintro (⟨hr, g, hg, hl⟩ | ⟨l, hl, he⟩)
    · exact .lineSet hn hshape hr hg hl
    · exact .excluded hn hshape hl he
  · intro h
    cases h with
    | lineSet hm _ hr hg hl =>
      obtain rfl := Option.some.inj (hn.symm.trans hm)
      exact .inl ⟨hr, _, hg, hl⟩
    | excluded _ _ hl he => exact .inr ⟨_, hl, he⟩
    | unrelated h => simp [Unrelated, kind?_of_node? hn, hshape] at h
    | emptied hm hk =>
      obtain rfl := Option.some.inj (hn.symm.trans hm)
      simp [hshape] at hk

/-- What a node has lost, and else nothing that it refers to, is junk. -/
theorem lost_iff {st : Judging} (hs : s.Acyclic start) (hx : s.Reaches start x)
    (hbelow : ∀ y ∈ n.refs, (st.verdict? y).isSome →
      (st.verdict? y = some true ↔ s.IsJunk numberOf rules kept y))
    (hn : s.node? x = some n) {q : NodeId → Bool}
    (hlost : ∀ y ∈ n.refs, q y = true → st.verdict? y = some true)
    (hleft : ∀ y ∈ n.refs, q y = false → JunkCase.ComesTo ⟨numberOf, rules, k⟩ s y x ∨
      s.node? y = none ∨ st.verdict? y = some false ∧ y ∉ []) :
    ∀ y ∈ n.refs, (q y = true ↔ s.IsJunk numberOf rules kept y) := by
  intro y hy
  have hxy : s.Refers x y := by rwa [Refers, refs_of_node? hn]
  constructor
  · intro hq
    have hyes := hlost y hy hq
    exact (hbelow y hy (by simp [hyes])).1 hyes
  · intro hjunk
    cases hq : q y with
    | true => rfl
    | false =>
      rcases hleft y hy hq with hback | hgone | ⟨hno, -⟩
      · exact absurd (Relation.TransGen.head' hxy hback.reaches) (hs x hx)
      · have hsome := hjunk.isSome
        rw [hgone] at hsome
        cases hsome
      · have hyes := (hbelow y hy (by simp [hno])).2 hjunk
        rw [hno] at hyes
        cases hyes

/-! ### What is looked into -/

section Kept

variable (hk : s.Spares start kept k)

include hk

theorem isUnrelated_iff (hx : s.Reaches start x) (hn : s.node? x = some n) :
    JunkCase.isUnrelated ⟨numberOf, rules, k⟩ x n = true ↔ s.Unrelated kept x := by
  have hgroup := hk.group
  cases k with
  | none =>
    obtain rfl : none = kept := hgroup
    simp [JunkCase.isUnrelated, Unrelated]
  | some g =>
    obtain rfl : some g.group = kept := hgroup
    have hspared := hk.spared g rfl x hx (by simp [hn])
    have hkind := kind?_of_node? hn
    simp only [JunkCase.isUnrelated, Bool.and_eq_true, beq_iff_eq, Bool.not_eq_true',
      List.contains_eq_mem, decide_eq_false_iff_not, hspared, Unrelated, hkind, Option.some.injEq,
      exists_eq_left', not_or]
    constructor
    · rintro ⟨hgroup, habove, hbelow⟩
      refine ⟨hgroup, fun he => ?_, hbelow, habove⟩
      exact hbelow (he ▸ .refl)
    · rintro ⟨hgroup, -, hbelow, habove⟩
      exact ⟨hgroup, habove, hbelow⟩

theorem isShut_iff (hx : s.Reaches start x) (hn : s.node? x = some n) :
    JunkCase.isShut ⟨numberOf, rules, k⟩ x n = false ↔ s.IsOpen kept x := by
  rw [← Bool.not_eq_true, JunkCase.isShut, Bool.or_eq_true, decide_eq_true_eq,
    isUnrelated_iff hk hx hn, IsOpen, kind?_of_node? hn]
  simp

theorem comesTo_iff : JunkCase.ComesTo ⟨numberOf, rules, k⟩ s start x ↔
    Relation.ReflTransGen (fun a b => s.IsOpen kept a ∧ s.Refers a b) start x := by
  constructor
  · intro h
    induction h with
    | refl => exact .refl
    | tail hr hab ih =>
      obtain ⟨⟨n, hn, hopen⟩, hab⟩ := hab
      exact ih.tail ⟨(isShut_iff hk (JunkCase.ComesTo.reaches hr) hn).1 hopen, hab⟩
  · intro h
    induction h with
    | refl => exact .refl
    | tail hr hab ih =>
      obtain ⟨hopen, hab⟩ := hab
      obtain ⟨n, hn⟩ := Option.isSome_iff_exists.1 (node?_isSome_of_mem_refs hab)
      exact ih.tail ⟨⟨n, hn, (isShut_iff hk (JunkCase.ComesTo.reaches ih) hn).2 hopen⟩, hab⟩

theorem isKept_iff : JunkCase.isKept ⟨numberOf, rules, k⟩ x = true ↔ kept = some x := by
  have hgroup := hk.group
  cases k with
  | none =>
    obtain rfl : none = kept := hgroup
    simp [JunkCase.isKept]
  | some g =>
    obtain rfl : some g.group = kept := hgroup
    simp [JunkCase.isKept]

/-! ### Verdicts -/

/-- A group or transform is junk if that is all that its children are. -/
theorem verdictLeft_iff (hn : s.node? x = some n) (hopen : s.IsOpen kept x) {q : NodeId → Bool}
    (hq : ∀ y ∈ n.refs, (q y = true ↔ s.IsJunk numberOf rules kept y)) :
    JunkCase.verdictLeft ⟨numberOf, rules, k⟩ x (n.thin q) = true ↔
      s.IsJunk numberOf rules kept x := by
  have hchildren : (n.thin q).children.isEmpty = true ↔
      ∀ y ∈ n.children, s.IsJunk numberOf rules kept y := by
    rw [Node.children_thin, List.isEmpty_iff, List.filter_eq_nil_iff]
    refine forall₂_congr fun y hy => ?_
    rw [Bool.not_eq_true', Bool.not_eq_false, hq y ((n.targets_sublist_refs _).subset hy)]
  have hkept : JunkCase.isKept ⟨numberOf, rules, k⟩ x = false ↔ kept ≠ some x := by
    rw [← Bool.not_eq_true, isKept_iff hk]
  have hlists : decide ((n.thin q).kind = .group) = true ∨
      decide ((n.thin q).kind = .transform) = true ↔ n.kind = .group ∨ n.kind = .transform := by
    rw [decide_eq_true_eq, decide_eq_true_eq, Node.kind_thin]
  rw [JunkCase.verdictLeft, Bool.and_eq_true, Bool.and_eq_true, Bool.not_eq_true', hkept,
    Bool.or_eq_true, hlists, hchildren]
  constructor
  · rintro ⟨⟨hkept, hkind⟩, hall⟩
    exact .emptied hn hkind hkept hall
  · intro h
    have hno := hopen.1
    rw [kind?_of_node? hn] at hno
    cases h with
    | lineSet hm hs | excluded hm hs =>
      obtain rfl := Option.some.inj (hn.symm.trans hm)
      exact absurd (congrArg some hs) hno
    | unrelated h => exact absurd h hopen.2
    | emptied hm hkind hkept hall =>
      obtain rfl := Option.some.inj (hn.symm.trans hm)
      exact ⟨⟨hkept, hkind⟩, hall⟩

variable {st : Judging} (hs : s.Acyclic start)
  (hsound : JunkCase.Sound ⟨numberOf, rules, k⟩ s start [] st)

include hs hsound

/-- **The verdict on each node that is judged says whether it is junk.** -/
theorem verdict_iff (hx : s.Reaches start x) (hv : (st.verdict? x).isSome) :
    st.verdict? x = some true ↔ s.IsJunk numberOf rules kept x := by
  refine hs.induction (P := fun x => (st.verdict? x).isSome →
    (st.verdict? x = some true ↔ s.IsJunk numberOf rules kept x)) (fun x hx ih hv => ?_) hx hv
  obtain ⟨n, hdone⟩ := hsound.finished x hv List.not_mem_nil
  cases hdone with
  | shut hn hshut _ hv =>
    rw [hv, Option.some.injEq]
    by_cases hshape : n.kind = .shape
    · rw [if_pos hshape, isJunkShape_iff hn hshape]
    · have hunrelated : s.Unrelated kept x := by
        rw [JunkCase.isShut, decide_eq_false hshape, Bool.false_or] at hshut
        exact (isUnrelated_iff hk hx hn).1 hshut
      rw [if_neg hshape]
      exact ⟨fun _ => .unrelated hunrelated, fun _ => rfl⟩
  | sifted q hn hopen _ hv _ hlost hleft =>
    have hbelow : ∀ y ∈ n.refs, (st.verdict? y).isSome →
        (st.verdict? y = some true ↔ s.IsJunk numberOf rules kept y) := fun y hy =>
      ih y (by rwa [Refers, refs_of_node? hn])
    rw [hv, Option.some.injEq]
    exact verdictLeft_iff hk hn ((isShut_iff hk hx hn).1 hopen)
      (lost_iff hs hx hbelow hn hlost hleft)

open Classical in
/-- Each node that is opened has lost its junk, and any other is as it was. -/
theorem node?_judged (hstart : Judging.Met s st start) (x : NodeId) :
    st.scene.node? x = (s.node? x).map fun n =>
      if s.Opened kept start x then n.thin fun y => decide (s.IsJunk numberOf rules kept y)
      else n := by
  cases hv : st.verdict? x with
  | none =>
    rw [hsound.untouched x hv]
    cases hn : s.node? x with
    | none => rfl
    | some n =>
      have hshut : ¬s.Opened kept start x := by
        rintro ⟨hcome, -⟩
        rcases hsound.met_of_comesTo hstart ((comesTo_iff hk).2 hcome) with hsome | hgone
        · rw [hv] at hsome
          cases hsome
        · rw [hn] at hgone
          cases hgone
      rw [Option.map_some, if_neg hshut]
  | some v =>
    have hsome : (st.verdict? x).isSome := by simp [hv]
    have hcome := hsound.reached x hsome
    have hx := hcome.reaches
    obtain ⟨n, hdone⟩ := hsound.finished x hsome List.not_mem_nil
    cases hdone with
    | shut hn hshut hnow _ =>
      have hno : ¬s.Opened kept start x := by
        rintro ⟨-, hopen⟩
        rw [(isShut_iff hk hx hn).2 hopen] at hshut
        cases hshut
      rw [hnow, hn, Option.map_some, if_neg hno]
    | sifted q hn hopen hnow _ _ hlost hleft =>
      have hyes : s.Opened kept start x := ⟨(comesTo_iff hk).1 hcome, (isShut_iff hk hx hn).1 hopen⟩
      have hq := lost_iff hs hx (fun y hy hv => verdict_iff hk hs hsound
        (hx.tail (by rwa [Refers, refs_of_node? hn])) hv) hn hlost hleft
      rw [hnow, hn, Option.map_some, if_pos hyes]
      refine congrArg some (Node.thin_congr fun y hy => ?_)
      rw [Bool.eq_iff_iff, hq y hy, decide_eq_true_iff]

end Kept

end Case

/-- References that are lost one by one make up what all references became fewer by. -/
theorem linkCount_sub {t : Scene} (hsize : t.size = s.size)
    (h : ∀ x, (t.refs x).length ≤ (s.refs x).length) :
    ∑ x ∈ Finset.range s.size, ((s.refs x).length - (t.refs x).length) =
      s.linkCount - t.linkCount := by
  rw [linkCount, linkCount, hsize]
  exact Finset.sum_tsub_distrib _ fun x _ => h x

open Classical in
/-- **Dropping junk drops what junk is defined to be.**  If the rules ask for a group that is not
there, they are refused, and nothing changes.  Else each list of a node that is opened keeps the
entries that are no junk, in order; no other field changes, of no node; and the result is the number
of list entries lost, single references being kept. -/
theorem dropJunk_spec (s : Scene) (numberOf : NodeId → Option Nat) (rules : JunkRules)
    (start : NodeId) (hs : s.Acyclic start)
    (hnum : ∀ a b k, numberOf a = some k → numberOf b = some k → a = b) :
    (∀ number, rules.keep = some number → (∀ id, ¬s.NamesGroup numberOf start number id) →
      s.dropJunk numberOf rules start = ⟨s, [], .error (.notReachableGroup number)⟩) ∧
    ∀ kept, s.KeepsGroup numberOf rules start kept → ∃ t notices count,
      s.dropJunk numberOf rules start = ⟨t, notices, .ok count⟩ ∧ t.root = s.root ∧
      (∀ x, t.node? x = (s.node? x).map fun n =>
        if s.Opened kept start x then n.thin fun y => decide (s.IsJunk numberOf rules kept y)
        else n) ∧
      count = ∑ x ∈ Finset.range s.size, ((s.refs x).length - (t.refs x).length) := by
  constructor
  · intro number hkeep hno
    rw [dropJunk, keptGroup_of_not hkeep hno]
  · intro kept hkeep
    obtain ⟨k, hok, hk⟩ := keptGroup_spec hs hnum hkeep
    obtain ⟨hsound, hgrows, hmet⟩ := judgeJunk_spec ⟨numberOf, rules, k⟩ s start
    have hdrop : s.dropJunk numberOf rules start =
        ⟨(s.judgeJunk ⟨numberOf, rules, k⟩ start).2.scene,
          if (s.judgeJunk ⟨numberOf, rules, k⟩ start).2.dropped = 0 then []
            else [.pruned (s.judgeJunk ⟨numberOf, rules, k⟩ start).2.dropped],
          .ok (s.judgeJunk ⟨numberOf, rules, k⟩ start).2.dropped⟩ := by
      rw [dropJunk, hok]
    have hnode := node?_judged hk hs hsound hmet
    refine ⟨_, _, _, hdrop, hsound.root, hnode, ?_⟩
    rw [linkCount_sub hsound.size fun x => ?_]
    · exact Nat.eq_sub_of_add_eq (hgrows.balance.trans (Nat.zero_add _))
    · rw [refs, refs, hnode]
      cases s.node? x with
      | none => exact Nat.le_refl _
      | some n =>
        rw [Option.map_some]
        split
        · exact (n.refs_thin_sublist _).length_le
        · exact Nat.le_refl _

/-- A scene with three groups, the last of them in a transform; in the first two are lines only. -/
def floor : Scene :=
  ⟨#[(Node.create .scene none).setChildren [1, 2, 3], (Node.create .group none).setChildren [5],
    (Node.create .group none).setChildren [5, 5], (Node.create .transform none).setChildren [4, 5],
    (Node.create .group none).setChildren [7],
    (Node.create .shape none).set "geometry" (.node (some 6)), Node.create .indexedLineSet none,
    Node.create .shape none], 0⟩

theorem acyclic_floor : floor.Acyclic 0 := by
  refine acyclic_of_lt fun a b hab => ?_
  have hsize : a < 8 := node?_isSome_iff.1 (node?_isSome_of_mem_refs hab)
  have hall : ∀ a < 8, ∀ b ∈ floor.refs a, a < b := by decide +kernel
  exact hall a hsize b hab

open Classical in
theorem dropJunk_spec_floor : floor.Acyclic 0 ∧
    floor.dropJunk some ⟨[], true, some (some 5)⟩ 0 =
      ⟨floor, [], .error (.notReachableGroup (some 5))⟩ ∧
    ∃ t notices count, floor.dropJunk some ⟨[], true, some (some 2)⟩ 0 = ⟨t, notices, .ok count⟩ ∧
      t.root = 0 ∧
      (∀ x, t.node? x = (floor.node? x).map fun n =>
        if floor.Opened (some 2) 0 x
          then n.thin fun y => decide (floor.IsJunk some ⟨[], true, some (some 2)⟩ (some 2) y)
          else n) ∧
      count = ∑ x ∈ Finset.range floor.size, ((floor.refs x).length - (t.refs x).length) := by
  have hnum : ∀ a b k : Nat, some a = some k → some b = some k → a = b := by
    rintro a b k ⟨⟩ ⟨⟩
    rfl
  refine ⟨acyclic_floor, ?_, ?_⟩
  · refine (dropJunk_spec floor some _ 0 acyclic_floor hnum).1 (some 5) rfl fun id h => ?_
    obtain ⟨-, hkind, k, ⟨⟩, hk⟩ := h
    obtain rfl : id = 5 := Int.ofNat.inj (Option.some.inj hk).symm
    exact absurd hkind (by decide +kernel)
  · refine (dropJunk_spec floor some _ 0 acyclic_floor hnum).2 (some 2) ?_
    have hroot : 2 ∈ floor.refs 0 := by decide +kernel
    exact ⟨some 2, rfl, .single hroot, by decide +kernel, 2, rfl, rfl⟩

-- without a kept group, the groups that lose their lines go
example : (floor.dropJunk some .standard 0).scene.children 0 = [3] ∧
    (floor.dropJunk some .standard 0).result = .ok 6 := by
  decide +kernel

end Scene

end SceneTidy

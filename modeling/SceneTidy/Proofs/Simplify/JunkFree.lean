import SceneTidy.Proofs.Scene.Aside
import SceneTidy.Proofs.Simplify.Judging

/-!
# Scenes that are free of junk

Where no group is kept, what is junk by itself is a shape that the rules drop and a group or
transform without children (`JunkCase.Bare`).  A scene is free of junk if the nodes that the
judgement looks into have no such children (`JunkCase.Freed`).  Dropping junk frees a scene of it,
even where references form cycles: a node that was pending when a reference to it was kept is no
junk in the end, since what leads from it to that reference is kept as well
(`JunkCase.Sound.freed`).  From a scene that is free of junk nothing is dropped
(`dropJunk_of_freed`).  Main statement: there is nothing left to drop once junk has been dropped
(`dropJunk_dropJunk`).
-/

namespace SceneTidy

open Judging

namespace JunkCase

variable {c : JunkCase} {s : Scene} {start id x y : NodeId} {n m : Node} {st : Judging}

/-- What is junk by itself: a shape that the rules drop, and a group or transform without
children. -/
inductive Bare (c : JunkCase) (s : Scene) (id : NodeId) : Prop
  | shape {n : Node} (hn : s.node? id = some n) (hk : n.kind = .shape)
      (hdrop : c.isJunkShape s id n = true)
  | empty {n : Node} (hn : s.node? id = some n) (hk : n.kind = .group ∨ n.kind = .transform)
      (hc : n.children = [])

/-- No node that is looked into has children that are junk by themselves. -/
def Freed (c : JunkCase) (s : Scene) (start : NodeId) : Prop :=
  ∀ a n, c.ComesTo s start a → s.node? a = some n → n.kind ≠ .shape → ∀ y ∈ n.children, ¬c.Bare s y

/-! ### Without a group to keep -/

section NoneKept

variable (hkept : c.kept = none)

include hkept

theorem isUnrelated_of_noneKept (id : NodeId) (n : Node) : c.isUnrelated id n = false := by
  rw [isUnrelated, hkept]

theorem isShut_of_noneKept (id : NodeId) (n : Node) : c.isShut id n = decide (n.kind = .shape) := by
  rw [isShut, isUnrelated_of_noneKept hkept, Bool.or_false]

theorem isKept_of_noneKept (id : NodeId) : c.isKept id = false := by
  rw [isKept, hkept]

theorem verdictLeft_iff_of_noneKept : c.verdictLeft id n = true ↔
    (n.kind = .group ∨ n.kind = .transform) ∧ n.children = [] := by
  simp [verdictLeft, isKept_of_noneKept hkept]

theorem judgeMet_of_noneKept (judge : Judge) (id : NodeId) (n : Node) (st : Judging) :
    c.judgeMet judge id n st =
      if n.kind = .shape then (c.isJunkShape st.scene id n, st)
      else (isEmptied (n.slots.foldl (siftField judge id) st).scene id,
        n.slots.foldl (siftField judge id) st) := by
  rw [judgeMet, isUnrelated_of_noneKept hkept, isKept_of_noneKept hkept]
  rfl

theorem ComesTo.step (h : c.ComesTo s start x) (hn : s.node? x = some n) (hk : n.kind ≠ .shape)
    (hy : y ∈ n.refs) : c.ComesTo s start y := by
  refine h.tail ⟨⟨n, hn, ?_⟩, by rwa [Scene.Refers, Scene.refs_of_node? hn]⟩
  rw [isShut_of_noneKept hkept, decide_eq_false hk]

end NoneKept

/-! ### Judging a scene that is free of junk -/

/-- So far nothing has been dropped, and what was found to be junk is so by itself. -/
structure AtRest (c : JunkCase) (s : Scene) (st : Judging) : Prop where
  scene : st.scene = s
  dropped : st.dropped = 0
  bare : ∀ x, st.verdict? x = some true → c.Bare s x

theorem AtRest.record (h : AtRest c s st) {v : Bool} (hv : v = true → c.Bare s id) :
    AtRest c s (st.record id v) := by
  refine ⟨h.scene, h.dropped, fun x hx => ?_⟩
  rw [verdict?_record] at hx
  split at hx
  · next he => exact he ▸ hv (Option.some.inj hx)
  · exact h.bare x hx

/-- A judgement that drops nothing from a scene. -/
def Rests (c : JunkCase) (s : Scene) (start : NodeId) (judge : Judge) : Prop :=
  ∀ id st, c.ComesTo s start id → AtRest c s st →
    AtRest c s (judge id st).2 ∧ ((judge id st).1 = true → c.Bare s id)

namespace Rests

variable {judge : Judge} (h : Rests c s start judge)

include h

theorem sift {ids : List NodeId} (hids : ∀ y ∈ ids, c.ComesTo s start y ∧ ¬c.Bare s y)
    (hst : AtRest c s st) :
    AtRest c s (JunkCase.sift judge ids st).2 ∧ (JunkCase.sift judge ids st).1 = ids := by
  induction ids generalizing st with
  | nil => exact ⟨hst, rfl⟩
  | cons a ids ih =>
    obtain ⟨⟨hcome, hbare⟩, hrest⟩ := List.forall_mem_cons.1 hids
    obtain ⟨hst₁, hjunk⟩ := h a st hcome hst
    obtain ⟨hst₂, hkept⟩ := ih hrest hst₁
    refine ⟨hst₂, ?_⟩
    show (if (judge a st).1 = true then _ else _) = _
    rw [if_neg fun hyes => hbare (hjunk hyes), hkept]

theorem fields (hkept : c.kept = none) (hfree : c.Freed s start) (hnone : s.NoneAside start)
    (hcome : c.ComesTo s start id) (hn : s.node? id = some n) (hk : n.kind ≠ .shape)
    (hst : AtRest c s st) : AtRest c s (n.slots.foldl (siftField judge id) st) := by
  refine List.foldlRecOn n.slots (siftField judge id) hst fun st hst p hp => ?_
  obtain ⟨d, v⟩ := p
  have hnext : ∀ y ∈ v.refs, c.ComesTo s start y := fun y hy => by
    refine hcome.step hkept hn hk ?_
    rw [Node.refs_eq_flatMap_slots]
    exact List.mem_flatMap.2 ⟨(d, v), hp, hy⟩
  cases v with
  | one k x => exact hst
  | many k xs => exact hst
  | node target =>
    cases target with
    | none => exact hst
    | some t => exact (h t st (hnext t (List.mem_singleton_self t)) hst).1
  | nodes ts =>
    have hts : ∀ y ∈ ts, c.ComesTo s start y ∧ ¬c.Bare s y := fun y hy =>
      ⟨hnext y hy, hfree id n hcome hn hk y ((hnone id n hcome.reaches hn).mem_children hp hy)⟩
    obtain ⟨hst₁, hleft⟩ := h.sift hts hst
    show AtRest c s (if (JunkCase.sift judge ts st).1.length = ts.length then _ else _)
    rw [if_pos (congrArg List.length hleft)]
    exact hst₁

end Rests

/-- The verdict on a node of which nothing was dropped. -/
theorem bare_of_isEmptied (hn : s.node? id = some n) (h : isEmptied s id = true) : c.Bare s id := by
  rw [isEmptied_of_node? hn, Bool.and_eq_true, Bool.or_eq_true, decide_eq_true_eq,
    decide_eq_true_eq, List.isEmpty_iff] at h
  exact .empty hn h.1 h.2

theorem rests_judge (hkept : c.kept = none) (hfree : c.Freed s start) (hnone : s.NoneAside start)
    (bound : Nat) : Rests c s start (c.judge bound) := by
  induction bound with
  | zero => exact fun _ _ _ hst => ⟨hst, nofun⟩
  | succ bound ih =>
    intro id st hcome hst
    cases hv : st.verdict? id with
    | some v =>
      rw [judge_of_some hv]
      exact ⟨hst, fun hyes => hst.bare id (by rw [hv, show v = true from hyes])⟩
    | none =>
      cases hn : st.scene.node? id with
      | none =>
        rw [judge_of_gone hv hn]
        exact ⟨hst, nofun⟩
      | some n =>
        rw [judge_of_new hv hn]
        have hold : s.node? id = some n := hst.scene ▸ hn
        have hst₀ : AtRest c s (st.record id false) := hst.record nofun
        have hdone : AtRest c s (c.judgeMet (c.judge bound) id n (st.record id false)).2 ∧
            ((c.judgeMet (c.judge bound) id n (st.record id false)).1 = true → c.Bare s id) := by
          rw [judgeMet_of_noneKept hkept]
          by_cases hk : n.kind = .shape
          · rw [if_pos hk]
            refine ⟨hst₀, fun hyes => ?_⟩
            rw [hst₀.scene] at hyes
            exact .shape hold hk hyes
          · rw [if_neg hk]
            have hst₁ := ih.fields hkept hfree hnone hcome hold hk hst₀
            exact ⟨hst₁, fun hyes => bare_of_isEmptied hold (hst₁.scene ▸ hyes)⟩
        exact ⟨hdone.1.record hdone.2, hdone.2⟩

/-! ### Dropping junk frees a scene of it -/

namespace Sound

theorem noneAside (h : c.Sound s start [] st) (hnone : s.NoneAside start) :
    st.scene.NoneAside start := by
  intro x m hx hm
  obtain ⟨n, q, hn, rfl⟩ := h.exists_thin hm
  obtain ⟨hadd, hremove⟩ := hnone x n (h.reaches hx) hn
  rw [Node.NoneAside, Node.targets_thin, Node.targets_thin, hadd, hremove]
  exact ⟨rfl, rfl⟩

variable (h : c.Sound s start [] st) (hkept : c.kept = none)

include h hkept

theorem comesTo (hx : c.ComesTo st.scene start x) : c.ComesTo s start x := by
  induction hx with
  | refl => exact .refl
  | tail _ hab ih =>
    obtain ⟨⟨m, hm, hopen⟩, hab⟩ := hab
    obtain ⟨n, q, hn, rfl⟩ := h.exists_thin hm
    rw [isShut_of_noneKept hkept, decide_eq_false_iff_not, Node.kind_thin] at hopen
    exact ih.step hkept hn hopen (Scene.refs_of_node? hn ▸ h.refers hab)

/-- A node that is looked into is junk only if all that it refers to is. -/
theorem verdict_of_refers (hnone : s.NoneAside start) (hx : st.verdict? x = some true)
    (hn : s.node? x = some n) (hk : n.kind ≠ .shape) (hy : y ∈ n.refs) :
    st.verdict? y = some true := by
  obtain ⟨m, hdone⟩ := h.finished x (by simp [hx]) List.not_mem_nil
  cases hdone with
  | shut hm hshut =>
    obtain rfl := Option.some.inj (hn.symm.trans hm)
    rw [isShut_of_noneKept hkept] at hshut
    exact absurd (of_decide_eq_true hshut) hk
  | sifted q hm _ _ hv _ hlost =>
    obtain rfl := Option.some.inj (hn.symm.trans hm)
    obtain ⟨hgroup, hempty⟩ :=
      (verdictLeft_iff_of_noneKept hkept).1 (Option.some.inj (hv.symm.trans hx))
    rw [Node.children_thin, List.filter_eq_nil_iff] at hempty
    have hreach := (h.reached x (by simp [hx])).reaches
    have hchild := (hnone x n hreach hn).refs_eq_children hgroup ▸ hy
    exact hlost y hy (by simpa using hempty y hchild)

/-- All that the judgement comes to from junk is junk. -/
theorem verdict_of_comesTo (hnone : s.NoneAside start) (hx : st.verdict? x = some true)
    (hxy : c.ComesTo s x y) : st.verdict? y = some true := by
  induction hxy with
  | refl => exact hx
  | tail _ hab ih =>
    obtain ⟨⟨n, hn, hopen⟩, hab⟩ := hab
    rw [isShut_of_noneKept hkept, decide_eq_false_iff_not] at hopen
    exact h.verdict_of_refers hkept hnone ih hn hopen (Scene.refs_of_node? hn ▸ hab)

/-- What is kept is no junk.  It was met before or is pending, and in the second case it leads to a
node that keeps something, which could not be if it were junk. -/
theorem verdict_of_kept (hnone : s.NoneAside start) (hmet : Met s st start)
    (hx : c.ComesTo s start x) (hm : st.scene.node? x = some m) (hk : m.kind ≠ .shape)
    (hy : y ∈ m.children) : Met s st y ∧ st.verdict? y ≠ some true := by
  obtain ⟨n, q, hn, rfl⟩ := h.exists_thin hm
  have hsome := (h.met_of_comesTo hmet hx).resolve_right (by simp [hn])
  obtain ⟨n', hdone⟩ := h.finished x hsome List.not_mem_nil
  cases hdone with
  | shut hn' hshut =>
    obtain rfl := Option.some.inj (hn.symm.trans hn')
    rw [isShut_of_noneKept hkept] at hshut
    exact absurd (of_decide_eq_true hshut) hk
  | sifted q' hn' _ hnow hv hbelow _ hleft =>
    obtain rfl := Option.some.inj (hn.symm.trans hn')
    rw [Option.some.inj (hm.symm.trans hnow), Node.children_thin] at hy
    obtain ⟨hchild, hq⟩ := List.mem_filter.1 hy
    have href := (n.targets_sublist_refs _).subset hchild
    refine ⟨hbelow y href, fun hyes => ?_⟩
    rcases hleft y href (by simpa using hq) with hback | hgone | ⟨hno, -⟩
    · have hself := h.verdict_of_comesTo hkept hnone hyes hback
      obtain ⟨-, hempty⟩ :=
        (verdictLeft_iff_of_noneKept hkept).1 (Option.some.inj (hv.symm.trans hself))
      rw [Node.children_thin] at hempty
      rw [hempty] at hy
      exact List.not_mem_nil hy
    · have hthere := h.known y (by simp [hyes])
      rw [hgone] at hthere
      cases hthere
    · cases hyes.symm.trans hno

/-- What was found to be no junk is none by itself, now that the junk has been dropped. -/
theorem not_bare (hmet : Met s st y) (hno : st.verdict? y ≠ some true) : ¬c.Bare st.scene y := by
  intro hbare
  obtain ⟨m, hm⟩ : ∃ m, st.scene.node? y = some m := by cases hbare <;> exact ⟨_, ‹_›⟩
  obtain ⟨n, q, hn, rfl⟩ := h.exists_thin hm
  obtain ⟨n', hdone⟩ := h.finished y (hmet.resolve_right (by simp [hn])) List.not_mem_nil
  cases hdone with
  | shut hn' hshut hnow hv =>
    obtain rfl := Option.some.inj (hn.symm.trans hn')
    rw [isShut_of_noneKept hkept, decide_eq_true_eq] at hshut
    rw [if_pos hshut] at hv
    cases hbare with
    | shape hm' _ hdrop =>
      obtain rfl := Option.some.inj (hnow.symm.trans hm')
      exact hno (hv.trans (congrArg some ((isJunkShape_congr h.kind n).symm.trans hdrop)))
    | empty hm' hk =>
      obtain rfl := Option.some.inj (hnow.symm.trans hm')
      rcases hk with hk | hk <;> cases hshut.symm.trans hk
  | sifted q' hn' hopen hnow hv =>
    obtain rfl := Option.some.inj (hn.symm.trans hn')
    rw [isShut_of_noneKept hkept, decide_eq_false_iff_not] at hopen
    cases hbare with
    | shape hm' hk =>
      obtain rfl := Option.some.inj (hnow.symm.trans hm')
      exact hopen hk
    | empty hm' hk hc =>
      obtain rfl := Option.some.inj (hnow.symm.trans hm')
      exact hno (hv.trans (congrArg some ((verdictLeft_iff_of_noneKept hkept).2 ⟨hk, hc⟩)))

/-- **Dropping junk frees a scene of it.** -/
theorem freed (hnone : s.NoneAside start) (hmet : Met s st start) : c.Freed st.scene start := by
  intro x m hcome hm hk y hy
  obtain ⟨hy, hno⟩ := h.verdict_of_kept hkept hnone hmet (h.comesTo hkept hcome) hm hk hy
  exact h.not_bare hkept hy hno

end Sound

end JunkCase

namespace Scene

variable {s : Scene} {numberOf : NodeId → Option Nat} {rules : JunkRules} {start : NodeId}

/-- Dropping junk when no group is to be kept. -/
theorem dropJunk_of_noneKept (s : Scene) (numberOf : NodeId → Option Nat) (start : NodeId)
    (hkeep : rules.keep = none) : s.dropJunk numberOf rules start =
      ⟨(s.judgeJunk ⟨numberOf, rules, none⟩ start).2.scene,
        if (s.judgeJunk ⟨numberOf, rules, none⟩ start).2.dropped = 0 then []
          else [.pruned (s.judgeJunk ⟨numberOf, rules, none⟩ start).2.dropped],
        .ok (s.judgeJunk ⟨numberOf, rules, none⟩ start).2.dropped⟩ := by
  rw [dropJunk, keptGroup, hkeep]

/-- From a scene that is free of junk nothing is dropped. -/
theorem dropJunk_of_freed (hkeep : rules.keep = none)
    (hfree : JunkCase.Freed ⟨numberOf, rules, none⟩ s start) (hnone : s.NoneAside start) :
    s.dropJunk numberOf rules start = ⟨s, [], .ok 0⟩ := by
  have hstart : JunkCase.AtRest ⟨numberOf, rules, none⟩ s ⟨s, [], 0⟩ :=
    ⟨rfl, rfl, fun x hx => by cases hx⟩
  obtain ⟨hrest, -⟩ :=
    JunkCase.rests_judge rfl hfree hnone (s.size + 1) start ⟨s, [], 0⟩ .refl hstart
  rw [dropJunk_of_noneKept s numberOf start hkeep, judgeJunk, hrest.scene, hrest.dropped]
  rfl

/-- **There is nothing left to drop once junk has been dropped.**  The rules keep no group and may
exclude any numbers, however the nodes are numbered; dropping junk by the same rules again leaves
the scene as it is. -/
theorem dropJunk_dropJunk (hnone : s.NoneAside start) (hkeep : rules.keep = none)
    (numberOf : NodeId → Option Nat) :
    ∃ t notices count, s.dropJunk numberOf rules start = ⟨t, notices, .ok count⟩ ∧
      t.dropJunk numberOf rules start = ⟨t, [], .ok 0⟩ := by
  obtain ⟨hs, -, hmet⟩ := judgeJunk_spec ⟨numberOf, rules, none⟩ s start
  exact ⟨_, _, _, dropJunk_of_noneKept s numberOf start hkeep,
    dropJunk_of_freed hkeep (hs.freed rfl hnone hmet) (hs.noneAside hnone)⟩

/-- A scene of two groups that refer to each other; the outer one also refers to a transform with
nothing but a shape, which is the fifth node. -/
def arbour : Scene :=
  ⟨#[(Node.create .scene none).setChildren [1, 3], (Node.create .group none).setChildren [3, 2, 4],
    (Node.create .group none).setChildren [1], (Node.create .transform none).setChildren [4],
    Node.create .shape none], 0⟩

theorem dropJunk_dropJunk_arbour : arbour.NoneAside 0 ∧
    ∃ t notices count, arbour.dropJunk some ⟨[4], true, none⟩ 0 = ⟨t, notices, .ok count⟩ ∧
      t.dropJunk some ⟨[4], true, none⟩ 0 = ⟨t, [], .ok 0⟩ := by
  have hnone : arbour.NoneAside 0 := noneAside_of_forall (by decide +kernel)
  exact ⟨hnone, dropJunk_dropJunk hnone rfl some⟩

-- the two groups refer to each other, so that neither is empty
example : (arbour.dropJunk some ⟨[4], true, none⟩ 0).scene.children 0 = [1] ∧
    (arbour.dropJunk some ⟨[4], true, none⟩ 0).scene.children 1 = [2] ∧
    (arbour.dropJunk some ⟨[4], true, none⟩ 0).result = .ok 4 := by
  decide +kernel

end Scene

end SceneTidy

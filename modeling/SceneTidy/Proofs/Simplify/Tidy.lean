import SceneTidy.Proofs.Simplify.JunkFree
import SceneTidy.Proofs.Simplify.MergedScene

/-!
# Tidy scenes

If no numbers are excluded and no group is kept, what is junk by itself is a shape that shows a line
set and a group or transform without children (`Bare`), whatever the numbers of the nodes.  A scene
is tidy if it is free of such junk (`Tidy`).  Dropping junk makes a scene tidy (`Sound.tidy`), a
tidy scene has nothing to drop (`dropJunk_of_tidy`), and it stays tidy when its shapes are merged
(`Merged.tidy`).
-/

namespace SceneTidy

open Judging

/-- The case in which no numbers are excluded and no group is kept. -/
def JunkCase.plain (lineSets : Bool) : JunkCase := ⟨fun _ => none, ⟨[], lineSets, none⟩, none⟩

namespace Scene

/-- What is junk by itself: a shape that shows a line set, if those are junk, and a group or
transform without children. -/
inductive Bare (s : Scene) (lineSets : Bool) (id : NodeId) : Prop
  | lines {n : Node} {g : NodeId} (hn : s.node? id = some n) (hk : n.kind = .shape)
      (hl : lineSets = true) (hg : n.target "geometry" = some g)
      (hgk : s.kind? g = some .indexedLineSet)
  | empty {n : Node} (hn : s.node? id = some n) (hk : n.kind = .group ∨ n.kind = .transform)
      (hc : n.children = [])

/-- No node that is looked into has children that are junk by themselves. -/
def Tidy (s : Scene) (lineSets : Bool) (start : NodeId) : Prop :=
  ∀ a n, (JunkCase.plain lineSets).ComesTo s start a → s.node? a = some n → n.kind ≠ .shape →
    ∀ y ∈ n.children, ¬s.Bare lineSets y

end Scene

namespace JunkCase

variable {s : Scene} {lineSets : Bool} {start id x y : NodeId} {n : Node} {st : Judging}

theorem isShut_plain (id : NodeId) (n : Node) :
    (plain lineSets).isShut id n = decide (n.kind = .shape) :=
  isShut_of_noneKept rfl id n

theorem isJunkShape_plain : (plain lineSets).isJunkShape s id n = true ↔
    lineSets = true ∧ ∃ g, n.target "geometry" = some g ∧ s.kind? g = some .indexedLineSet := by
  rw [isJunkShape]
  cases n.target "geometry" <;> simp [plain, Scene.isKind]

/-- Numbers do not matter as long as none is excluded. -/
theorem judge_eq_plain (numberOf : NodeId → Option Nat) (lineSets : Bool) (bound : Nat) :
    judge ⟨numberOf, ⟨[], lineSets, none⟩, none⟩ bound = (plain lineSets).judge bound := by
  have hshape : ∀ s id n, isJunkShape ⟨numberOf, ⟨[], lineSets, none⟩, none⟩ s id n =
      (plain lineSets).isJunkShape s id n := by
    intro s id n
    simp [isJunkShape, plain]
  induction bound with
  | zero => rfl
  | succ bound ih =>
    funext id st
    simp only [judge, ih, hshape]
    rfl

/-- In the plain case, what is junk by itself depends on the kinds of nodes only. -/
theorem bare_plain_iff : (plain lineSets).Bare s id ↔ s.Bare lineSets id := by
  constructor
  · rintro (⟨hn, hk, hdrop⟩ | ⟨hn, hk, hc⟩)
    · obtain ⟨hl, g, hg, hgk⟩ := isJunkShape_plain.1 hdrop
      exact .lines hn hk hl hg hgk
    · exact .empty hn hk hc
  · rintro (⟨hn, hk, hl, hg, hgk⟩ | ⟨hn, hk, hc⟩)
    · exact .shape hn hk (isJunkShape_plain.2 ⟨hl, _, hg, hgk⟩)
    · exact .empty hn hk hc

theorem freed_plain_iff : (plain lineSets).Freed s start ↔ s.Tidy lineSets start := by
  simp only [Freed, Scene.Tidy, bare_plain_iff]

end JunkCase

namespace Scene

variable {s t : Scene} {lineSets w : Bool} {start x y : NodeId} {n : Node}

theorem dropJunk_plain (s : Scene) (numberOf : NodeId → Option Nat) (lineSets : Bool)
    (start : NodeId) : s.dropJunk numberOf ⟨[], lineSets, none⟩ start =
      ⟨(s.judgeJunk (.plain lineSets) start).2.scene,
        if (s.judgeJunk (.plain lineSets) start).2.dropped = 0 then []
          else [.pruned (s.judgeJunk (.plain lineSets) start).2.dropped],
        .ok (s.judgeJunk (.plain lineSets) start).2.dropped⟩ := by
  rw [judgeJunk, ← JunkCase.judge_eq_plain numberOf]
  rfl

/-- **A tidy scene has nothing to drop.** -/
theorem dropJunk_of_tidy (h : s.Tidy lineSets start) (hnone : s.NoneAside start)
    (numberOf : NodeId → Option Nat) :
    s.dropJunk numberOf ⟨[], lineSets, none⟩ start = ⟨s, [], .ok 0⟩ := by
  rw [dropJunk_plain s numberOf, ← dropJunk_plain s fun _ => none]
  exact dropJunk_of_freed rfl (JunkCase.freed_plain_iff.2 h) hnone

end Scene

/-! ### Dropping junk makes a scene tidy -/

namespace JunkCase.Sound

variable {c : JunkCase} {s : Scene} {lineSets : Bool} {start : NodeId} {st : Judging}

theorem numberPoints (h : c.Sound s start [] st) (hnum : s.NumberPoints start) :
    st.scene.NumberPoints start := by
  intro x m hx hm hk p hp
  obtain ⟨n, q, hn, rfl⟩ := h.exists_thin hm
  exact hnum x n (h.reaches hx) hn hk p (n.items_thin q .. ▸ hp)

theorem tidy (h : (plain lineSets).Sound s start [] st) (hnone : s.NoneAside start)
    (hmet : Met s st start) : st.scene.Tidy lineSets start :=
  freed_plain_iff.1 (h.freed rfl hnone hmet)

end JunkCase.Sound

/-! ### Merging keeps a scene tidy -/

namespace Scene.Merged

variable {s t : Scene} {w lineSets : Bool} {start x y : NodeId} {n : Node}
  {new : NodeId → Option NodeId → NodeId} (h : s.Merged w start t new) (hw : s.Whole start)
  (hstart : start < s.size)

include h hw

/-- A reference between nodes that were there was there itself. -/
theorem refers_of_lt (hr : s.Reaches start x) (hr' : t.Reaches start x) (hx : x < s.size)
    (hy : y < s.size) (hxy : t.Refers x y) : s.Refers x y := by
  obtain ⟨n, hn⟩ := Option.isSome_iff_exists.1 (node?_isSome_of_mem_refs hxy)
  rw [Refers, refs_of_node? hn] at hxy
  obtain ⟨field, v, hv, hyv⟩ := Node.mem_refs_iff.1 hxy
  by_cases hfield : ¬s.MergesAt start x ∨ field ≠ n.kind.childrenField
  · exact h.refers_of_mem_refs hx hn hfield hv hyv
  · obtain ⟨hg, rfl⟩ := not_or.1 hfield |>.imp Classical.not_not.1 Classical.not_not.1
    obtain ⟨m, hm, hgroup⟩ :=
      exists_node_of_isGrouping ((h.mergesAt_iff hx hr' hr).2 hg).2.1
    obtain rfl := Option.some.inj (hm.symm.trans hn)
    obtain rfl := Option.some.inj ((Node.get?_childrenField hgroup).symm.trans hv)
    rcases h.exists_of_mem_children hw hg (children_of_node? hn ▸ hyv) with ⟨hold, -⟩ | ⟨a, ha, rfl⟩
    · exact mem_refs_of_mem_children hold
    · obtain ⟨base, -, hle, -, hid, -, -⟩ := h.exists_shown hg ha
      rw [hid] at hy
      exact absurd (Nat.le_add_right_of_le hle) (Nat.not_le.2 hy)

/-- What is no junk by itself does not become so. -/
theorem not_bare (hr : s.Reaches start y) (hlt : y < s.size) (hno : ¬s.Bare lineSets y) :
    ¬t.Bare lineSets y := by
  obtain ⟨m, hm⟩ := Option.isSome_iff_exists.1 (node?_isSome_iff.2 hlt)
  obtain ⟨n, hn, hkind, -⟩ := h.untouched.node y m hm
  have hold : ¬s.MergesAt start y → n = m := fun hg =>
    Option.some.inj (hn.symm.trans (h.untouched.node?_eq (mt mem_mergeable_iff.1 hg) hm))
  intro hbare
  cases hbare with
  | lines hn' hk hl hg hgk =>
    obtain rfl := Option.some.inj (hn.symm.trans hn')
    obtain rfl := hold fun hg => by
      have hgroup := hg.2.1
      rw [isGrouping, kind?_of_node? hm, ← hkind, hk] at hgroup
      cases hgroup
    have hrefers := refers_of_target hm hg
    rw [h.kind?_eq (node?_isSome_iff.1 (hw y _ hr hrefers))] at hgk
    exact hno (.lines hm hk hl hg hgk)
  | empty hn' hk hc =>
    obtain rfl := Option.some.inj (hn.symm.trans hn')
    refine hno (.empty hm (hkind ▸ hk) ?_)
    by_cases hg : s.MergesAt start y
    · have hchildren := h.children hg
      rw [children_of_node? hn, hc, children_of_node? hm] at hchildren
      by_contra hne
      exact mergedChildren_ne_nil hne _ hchildren.symm
    · exact hold hg ▸ hc

include hstart

/-- An old node that the judgement comes to after merging is one that it came to before. -/
theorem comesTo (hx : (JunkCase.plain lineSets).ComesTo t start x) (hlt : x < s.size) :
    (JunkCase.plain lineSets).ComesTo s start x := by
  induction hx with
  | refl => exact .refl
  | @tail x y hcome hxy ih =>
    obtain ⟨⟨n, hn, hopen⟩, hxy⟩ := hxy
    rw [JunkCase.isShut_plain, decide_eq_false_iff_not] at hopen
    have hr := JunkCase.ComesTo.reaches hcome
    rcases h.standing hw hstart hr with ⟨hreached, hx⟩ | ⟨g, a, base, hparts, j, hj, rfl⟩
    · obtain ⟨m, hm⟩ := Option.isSome_iff_exists.1 (node?_isSome_iff.2 hx)
      have hkind := h.kind?_eq hx
      rw [kind?_of_node? hn, kind?_of_node? hm, Option.some.injEq] at hkind
      refine (ih hx).step rfl hm (hkind ▸ hopen) ?_
      rw [← refs_of_node? hm]
      exact h.refers_of_lt hw hreached hr hx hlt hxy
    · obtain ⟨ha, -⟩ := h.mem_mergedAppearances_of hw hparts.before hparts.appearance
      obtain ⟨hle, -, faces, -, hshown⟩ := h.shown_of_shape hparts.before ha hparts.shape
      rcases hshown.eq_of_refers hj hxy with ⟨i, -, rfl⟩ | ⟨rfl, -⟩
      · exact absurd (Nat.le_add_right_of_le hle) (Nat.not_le.2 hlt)
      -- the judgement does not look into shapes
      · obtain rfl := Option.some.inj (hshown.shape.symm.trans hn)
        exact absurd rfl hopen

/-- **Merging shapes keeps a scene tidy.** -/
theorem tidy (hs : s.Tidy lineSets start) : t.Tidy lineSets start := by
  intro x n hcome hn hk y hy
  have hr := hcome.reaches
  rcases h.standing hw hstart hr with ⟨hreached, hx⟩ | ⟨g, a, base, hparts, j, hj, rfl⟩
  · obtain ⟨m, hm⟩ := Option.isSome_iff_exists.1 (node?_isSome_iff.2 hx)
    have hkind := h.kind?_eq hx
    rw [kind?_of_node? hn, kind?_of_node? hm, Option.some.injEq] at hkind
    have hkept : y ∈ m.children → ¬t.Bare lineSets y := fun hy => by
      have hxy : s.Refers x y := mem_refs_of_mem_children (children_of_node? hm ▸ hy)
      exact h.not_bare hw (hreached.tail hxy) (node?_isSome_iff.1 (hw x y hreached hxy))
        (hs x m (h.comesTo hw hstart hcome hx) hm (hkind ▸ hk) y hy)
    by_cases hg : s.MergesAt start x
    · rcases h.exists_of_mem_children hw hg (children_of_node? hn ▸ hy) with
        ⟨hold, -⟩ | ⟨a, ha, rfl⟩
      · exact hkept (children_of_node? hm ▸ hold)
      · obtain ⟨base, faces, -, -, hid, -, hshown⟩ := h.exists_shown hg ha
        rw [hid]
        intro hbare
        cases hbare with
        | lines hn' _ _ hgeometry hgk =>
          obtain rfl := Option.some.inj (hshown.shape.symm.trans hn')
          obtain rfl := Option.some.inj hgeometry
          cases (hshown.kind?_eq (j := 1) (by decide)).symm.trans hgk
        | empty hn' hk =>
          obtain rfl := Option.some.inj (hshown.shape.symm.trans hn')
          rcases hk with hk | hk <;> cases hk
    · have hsame := h.untouched.node?_eq (mt mem_mergeable_iff.1 hg) hm
      obtain rfl := Option.some.inj (hsame.symm.trans hn)
      exact hkept hy
  · have hkind := h.kind?_part hw hparts hj
    rw [kind?_of_node? hn, Option.some.injEq] at hkind
    have hnil : n.children = [] :=
      n.targets_of_not_mem (NodeKind.name_ne_childrenField (hkind ▸ isGrouping_partKind j))
    rw [hnil] at hy
    exact absurd hy List.not_mem_nil

theorem noneAside (hs : s.NoneAside start) : t.NoneAside start := by
  intro x n hr hn
  rcases h.standing hw hstart hr with ⟨hreached, hx⟩ | ⟨g, a, base, hparts, j, hj, rfl⟩
  · obtain ⟨m, hm⟩ := Option.isSome_iff_exists.1 (node?_isSome_iff.2 hx)
    obtain ⟨n', hn', -, -, hfields⟩ := h.untouched.node x m hm
    obtain rfl := Option.some.inj (hn'.symm.trans hn)
    have hne : ∀ k : NodeKind, "addChildren" ≠ k.childrenField ∧
        "removeChildren" ≠ k.childrenField := by
      intro k
      cases k <;> decide
    rw [Node.NoneAside, Node.targets, Node.targets, hfields _ (.inr (hne _).1),
      hfields _ (.inr (hne _).2)]
    exact hs x m hreached hm
  · have hnone : ∀ i < 3, ∀ d ∈ (partKind i).fields,
        d.name ≠ "addChildren" ∧ d.name ≠ "removeChildren" := by decide +kernel
    have hkind := h.kind?_part hw hparts hj
    rw [kind?_of_node? hn, Option.some.injEq] at hkind
    exact ⟨n.targets_of_not_mem fun d hd => (hnone j hj d (hkind ▸ hd)).1,
      n.targets_of_not_mem fun d hd => (hnone j hj d (hkind ▸ hd)).2⟩

end Scene.Merged

end SceneTidy

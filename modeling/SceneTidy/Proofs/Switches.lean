import SceneTidy.Proofs.Pipeline
import SceneTidy.Proofs.Simplify.FoldSteps
import SceneTidy.Proofs.Simplify.Junk

/-!
# What a switch shows

A switch shows the choice at a position.  Folding and merging leave switches alone
(`SameSwitches`), and cleaning puts other nodes in the places of the choices.  But the choices that
are found to be junk are taken out of the list, so that all that come after them move up: a switch
then shows another choice than before, though the one that it showed is still there
(`not_keepsShown_lantern`).  Main statement: the position never changes, and the choices after a run
are those that were left, in order (`exists_choices_apply`); so what is shown stays if neither it
nor a choice before it is junk.
-/

namespace SceneTidy

/-- The position of the choice that a switch shows. -/
def Node.position (n : Node) : Int := n.item "whichChoice" .int32

/-- The choice that a switch shows; none if its position is negative or past the end. -/
def Node.shownChoice? (n : Node) : Option NodeId :=
  if 0 ≤ n.position then n.children[n.position.toNat]? else none

theorem Node.mem_of_shownChoice? {n : Node} {c : NodeId} (h : n.shownChoice? = some c) :
    c ∈ n.children := by
  unfold shownChoice? at h
  split at h
  · exact List.mem_of_getElem? h
  · cases h

namespace Scene

variable {s t u : Scene} {plan : Plan} {numberOf : NodeId → Option Nat} {w x y : NodeId} {n : Node}

/-- The choice that a switch of a scene shows. -/
def shown? (s : Scene) (w : NodeId) : Option NodeId := (s.node? w).bind Node.shownChoice?

/-! ### Stages that leave switches alone -/

/-- All nodes keep their kinds, and switches are left alone. -/
structure SameSwitches (s t : Scene) : Prop where
  kind : ∀ x k, s.kind? x = some k → t.kind? x = some k
  node : ∀ x n, s.node? x = some n → n.kind = .switch → t.node? x = some n

namespace SameSwitches

theorem refl (s : Scene) : SameSwitches s s := ⟨fun _ _ h => h, fun _ _ h _ => h⟩

theorem trans (h : SameSwitches s t) (h' : SameSwitches t u) : SameSwitches s u :=
  ⟨fun x k hk => h'.kind x k (h.kind x k hk), fun x n hn hk => h'.node x n (h.node x n hn hk) hk⟩

theorem andThen {α β : Type} {c : Change α} {f : Scene → α → Change β}
    (hc : SameSwitches s c.scene) (hf : ∀ a, SameSwitches c.scene (f c.scene a).scene) :
    SameSwitches s (c.andThen f).scene :=
  of_scene_andThen (P := SameSwitches s) hc fun a _ => hc.trans (hf a)

end SameSwitches

theorem SameSwitches.stage {α : Type} {on : Bool} {stage : Stage} {run : Scene → Change α}
    (h : SameSwitches s (run s).scene) : SameSwitches s (s.stage on stage run).scene := by
  rw [scene_stage]
  split
  · exact h
  · exact .refl s

theorem FoldStep.sameSwitches (h : FoldStep s t) : SameSwitches s t := by
  refine ⟨fun y k hk => (h.kind?_eq y).trans hk, fun y n hn hk => ?_⟩
  cases h with
  | setChildren hx _ =>
    refine (node?_setChildren_of_ne ?_ _).trans hn
    rintro rfl
    exact hx (by rw [kind?_of_node? hn, hk])

theorem Folds.sameSwitches (h : Folds s t) : SameSwitches s t := by
  induction h with
  | refl => exact .refl s
  | tail _ hstep ih => exact ih.trans hstep.sameSwitches

/-! ### Merging -/

theorem Untouched.sameSwitches {changed : List NodeId} (h : Untouched s changed t)
    (hchanged : ∀ x ∈ changed, s.kind? x ≠ some .switch) : SameSwitches s t := by
  refine ⟨fun x k hk => ?_, fun x n hn hk => h.node?_eq (fun hx => ?_) hn⟩
  · obtain ⟨n, hn, -⟩ := Option.map_eq_some_iff.1 hk
    rw [h.kind?_eq (by simp [hn]), hk]
  · exact hchanged x hx (by rw [kind?_of_node? hn, hk])

theorem sameSwitches_mergeShapes (s : Scene) (ignoreWinding : Bool) (start : NodeId) :
    SameSwitches s (s.mergeShapes ignoreWinding start).scene := by
  have hgroups : SameSwitches s (s.mergeGroups ignoreWinding (s.mergeable start)).scene := by
    refine (s.untouched_mergeGroups ignoreWinding _).sameSwitches fun x hx => ?_
    have hx := (List.mem_filter.1 hx).2
    rwa [Bool.not_eq_true', isKind, beq_eq_false_iff_ne] at hx
  rw [mergeShapes]
  exact hgroups.andThen fun _ => .refl _

/-- The stages between dropping junk and cleaning leave switches alone. -/
theorem sameSwitches_beforeCleaning (s : Scene) (plan : Plan) (numberOf : NodeId → Option Nat) :
    SameSwitches (s.afterDropping plan numberOf).scene (s.beforeCleaning plan numberOf).scene := by
  have hfold : SameSwitches (s.afterDropping plan numberOf).scene
      (s.beforeMerging plan numberOf).scene :=
    (SameSwitches.refl _).andThen fun _ => .stage (folds_foldTransforms ..).sameSwitches
  exact hfold.andThen fun _ => .stage (sameSwitches_mergeShapes ..)

/-! ### Choices that are junk -/

/-- A node that a plan finds to be junk. -/
def FoundJunk (s : Scene) (plan : Plan) (numberOf : NodeId → Option Nat) (y : NodeId) : Prop :=
  plan.dropJunk = true ∧ ∃ k, s.keptGroup numberOf plan.rules s.root = .ok k ∧
    (s.judgeJunk ⟨numberOf, plan.rules, k⟩ s.root).2.verdict? y = some true

theorem FoundJunk.verdict {k : Option KeptGroup} (h : s.FoundJunk plan numberOf y)
    (hk : s.keptGroup numberOf plan.rules s.root = .ok k) :
    (s.judgeJunk ⟨numberOf, plan.rules, k⟩ s.root).2.verdict? y = some true := by
  obtain ⟨-, k', hk', hv⟩ := h
  obtain rfl : k = k' := Except.ok.inj (hk.symm.trans hk')
  exact hv

/-- Where references form no cycles, what is found to be junk is junk by definition. -/
theorem FoundJunk.isJunk {kept : Option NodeId} (h : s.FoundJunk plan numberOf y)
    (hs : s.Acyclic s.root) (hnum : ∀ a b k, numberOf a = some k → numberOf b = some k → a = b)
    (hkept : s.KeepsGroup numberOf plan.rules s.root kept) :
    s.IsJunk numberOf plan.rules kept y := by
  obtain ⟨k, hk, hspares⟩ := keptGroup_spec hs hnum hkept
  obtain ⟨hsound, -, -⟩ := judgeJunk_spec ⟨numberOf, plan.rules, k⟩ s s.root
  have hv := h.verdict hk
  have hsome : ((s.judgeJunk ⟨numberOf, plan.rules, k⟩ s.root).2.verdict? y).isSome := by
    rw [hv]
    rfl
  exact (verdict_iff hspares hs hsound (hsound.reached y hsome).reaches hsome).1 hv

/-- A node whose lists a plan looks through for junk. -/
def LooksInto (s : Scene) (plan : Plan) (numberOf : NodeId → Option Nat) (w : NodeId) : Prop :=
  plan.dropJunk = true ∧ ∃ k n, s.keptGroup numberOf plan.rules s.root = .ok k ∧
    s.node? w = some n ∧ JunkCase.isShut ⟨numberOf, plan.rules, k⟩ w n = false ∧
    JunkCase.ComesTo ⟨numberOf, plan.rules, k⟩ s s.root w

/-- The judgement meets what it looks into. -/
theorem LooksInto.met {k : Option KeptGroup} (h : s.LooksInto plan numberOf w)
    (hn : s.node? w = some n) (hk : s.keptGroup numberOf plan.rules s.root = .ok k) :
    JunkCase.isShut ⟨numberOf, plan.rules, k⟩ w n = false ∧
      ((s.judgeJunk ⟨numberOf, plan.rules, k⟩ s.root).2.verdict? w).isSome := by
  obtain ⟨-, k', m, hk', hm, hopen, hcome⟩ := h
  obtain rfl : k = k' := Except.ok.inj (hk.symm.trans hk')
  obtain rfl := Option.some.inj (hn.symm.trans hm)
  obtain ⟨hsound, -, hstart⟩ := judgeJunk_spec ⟨numberOf, plan.rules, k⟩ s s.root
  exact ⟨hopen, (hsound.met_of_comesTo hstart hcome).resolve_right (by simp [hn])⟩

/-- What a node loses of its list entries has been found to be junk; and if the node is looked into,
it loses all junk that does not lead back to it. -/
structure LosesJunk (s : Scene) (plan : Plan) (numberOf : NodeId → Option Nat) (w : NodeId)
    (entries : List NodeId) (lost : NodeId → Bool) : Prop where
  found : ∀ y ∈ entries, lost y = true → s.FoundJunk plan numberOf y
  all : s.LooksInto plan numberOf w → ∀ y ∈ entries, s.FoundJunk plan numberOf y →
    ¬s.Reaches y w → lost y = true

namespace LosesJunk

variable {entries fewer : List NodeId} {lost : NodeId → Bool}

theorem mono (h : s.LosesJunk plan numberOf w entries lost) (hsub : fewer ⊆ entries) :
    s.LosesJunk plan numberOf w fewer lost :=
  ⟨fun y hy => h.found y (hsub hy), fun hlooks y hy => h.all hlooks y (hsub hy)⟩

/-- A node that is not looked into loses nothing. -/
theorem nothing (h : ¬s.LooksInto plan numberOf w) :
    s.LosesJunk plan numberOf w entries fun _ => false :=
  ⟨fun _ _ => nofun, fun hyes => absurd hyes h⟩

theorem of_sifted {k : Option KeptGroup} (hon : plan.dropJunk = true)
    (hk : s.keptGroup numberOf plan.rules s.root = .ok k)
    (hlost : ∀ y ∈ entries, lost y = true →
      (s.judgeJunk ⟨numberOf, plan.rules, k⟩ s.root).2.verdict? y = some true)
    (hleft : ∀ y ∈ entries, lost y = false →
      JunkCase.ComesTo ⟨numberOf, plan.rules, k⟩ s y w ∨ s.node? y = none ∨
      (s.judgeJunk ⟨numberOf, plan.rules, k⟩ s.root).2.verdict? y = some false ∧ y ∉ []) :
    s.LosesJunk plan numberOf w entries lost := by
  refine ⟨fun y hy hq => ⟨hon, k, hk, hlost y hy hq⟩, fun _ y hy hjunk hback => ?_⟩
  obtain ⟨hsound, -, -⟩ := judgeJunk_spec ⟨numberOf, plan.rules, k⟩ s s.root
  have hyes := hjunk.verdict hk
  rw [← Bool.not_eq_false]
  intro hq
  rcases hleft y hy hq with hreach | hgone | ⟨hno, -⟩
  · exact hback hreach.reaches
  · have hthere := hsound.known y (by rw [hyes]; rfl)
    rw [hgone] at hthere
    cases hthere
  · cases hyes.symm.trans hno

end LosesJunk

/-- Dropping junk takes out of the lists of a node what is found to be junk, and nothing else. -/
theorem exists_thin_afterDropping (plan : Plan) (numberOf : NodeId → Option Nat)
    (hn : s.node? w = some n) : ∃ lost : NodeId → Bool,
      s.LosesJunk plan numberOf w n.refs lost ∧
      (s.afterDropping plan numberOf).scene.node? w = some (n.thin lost) := by
  have hnone : ∀ {u : Scene}, ¬s.LooksInto plan numberOf w → u.node? w = some n →
      ∃ lost : NodeId → Bool, s.LosesJunk plan numberOf w n.refs lost ∧
        u.node? w = some (n.thin lost) := fun hno hu =>
    ⟨_, .nothing hno, by rw [Node.thin_none, hu]⟩
  rw [afterDropping, scene_stage]
  split
  · next hon =>
    unfold dropJunk
    cases hk : s.keptGroup numberOf plan.rules s.root with
    | error e =>
      refine hnone ?_ hn
      rintro ⟨-, k, _, hok, -⟩
      cases hk.symm.trans hok
    | ok k =>
      obtain ⟨hsound, -, -⟩ := judgeJunk_spec ⟨numberOf, plan.rules, k⟩ s s.root
      cases hv : (s.judgeJunk ⟨numberOf, plan.rules, k⟩ s.root).2.verdict? w with
      | none =>
        refine hnone (fun hlooks => ?_) ((hsound.untouched w hv).trans hn)
        have hsome := (hlooks.met hn hk).2
        rw [hv] at hsome
        cases hsome
      | some v =>
        obtain ⟨m, hdone⟩ := hsound.finished w (by simp [hv]) List.not_mem_nil
        cases hdone with
        | shut hm hshut hnow =>
          obtain rfl := Option.some.inj (hn.symm.trans hm)
          refine hnone (fun hlooks => ?_) hnow
          rw [(hlooks.met hn hk).1] at hshut
          cases hshut
        | sifted lost hm _ hnow _ _ hlost hleft =>
          obtain rfl := Option.some.inj (hn.symm.trans hm)
          exact ⟨lost, .of_sifted hon hk hlost hleft, hnow⟩
  · next hoff => exact hnone (fun hlooks => hoff hlooks.1) hn

/-! ### Choices that are replaced -/

/-- After a plan a node stands in the place of another one: it is that one, or what cleaning has put
there. -/
def TakesPlace (s : Scene) (plan : Plan) (numberOf : NodeId → Option Nat) (c r : NodeId) : Prop :=
  r = c ∨ plan.clean = true ∧ ∃ memory,
    ((s.beforeCleaning plan numberOf).scene.clean plan.values .empty).result = .ok memory ∧
      memory.replacements.lookup c = some r

/-- Cleaning leaves a switch its position and its choices, but for replacements. -/
theorem exists_cleaned_switch (values : CleanValues) (hn : s.node? w = some n)
    (hk : n.kind = .switch) : ∃ memory m, (s.clean values .empty).result = .ok memory ∧
      (s.clean values .empty).scene.node? w = some m ∧ m.kind = .switch ∧
      m.position = n.position ∧ List.Forall₂
        (fun c r => r = c ∨ memory.replacements.lookup c = some r) n.children m.children := by
  obtain ⟨st, hscene, hresult, hs⟩ := s.loose_clean values
  refine ⟨st.memory, ?_⟩
  rw [hscene]
  cases hr : st.replacement? w with
  | none =>
    exact ⟨n, hresult, (hs.untouched w hr).trans hn, hk, rfl,
      List.forall₂_same.2 fun _ _ => .inl rfl⟩
  | some r =>
    obtain ⟨n', m, hn', hm, hswap⟩ := hs.done w (by simp [hr]) List.not_mem_nil
    obtain rfl := Option.some.inj (hn.symm.trans hn')
    rw [Node.prepared_eq_straighten (by rw [hk]; decide) (by rw [hk]; decide)] at hswap
    have hkind : m.kind = n.kind := hswap.kind
    refine ⟨m, hresult, hm, hkind.trans hk, ?_, ?_⟩
    · exact (hswap.item _ _).trans (Node.item_straighten_of_ne (by decide))
    · have hchildren := hswap.targets n.kind.childrenField
      rw [Node.targets_straighten] at hchildren
      rw [Node.children, Node.children, hkind]
      exact hchildren.imp fun _ _ hcr => hcr.imp_right And.right

/-- A switch keeps its position and its choices from before cleaning, but for replacements. -/
theorem exists_switch_apply (hn : (s.beforeCleaning plan numberOf).scene.node? w = some n)
    (hk : n.kind = .switch) : ∃ m, (s.apply plan numberOf).scene.node? w = some m ∧
      m.kind = .switch ∧ m.position = n.position ∧
      List.Forall₂ (s.TakesPlace plan numberOf) n.children m.children := by
  have hsame : List.Forall₂ (s.TakesPlace plan numberOf) n.children n.children :=
    List.forall₂_same.2 fun _ _ => .inl rfl
  obtain hscene | ⟨_, -, hscene⟩ := scene_andThen (s.beforeCleaning plan numberOf) fun s _ =>
    s.stage plan.clean .cleanup fun s => s.clean plan.values .empty
  · rw [apply_eq, hscene]
    exact ⟨n, hn, hk, rfl, hsame⟩
  · rw [apply_eq, hscene, scene_stage]
    split
    · next hon =>
      obtain ⟨memory, m, hok, hm, hkind, hposition, hchildren⟩ :=
        exists_cleaned_switch plan.values hn hk
      exact ⟨m, hm, hkind, hposition,
        hchildren.imp fun _ _ hcr => hcr.imp_right fun h => ⟨hon, memory, hok, h⟩⟩
    · exact ⟨n, hn, hk, rfl, hsame⟩

/-! ### A whole plan -/

/-- An entry of a list keeps its place if nothing up to it is taken out. -/
theorem getElem?_filter_of_take {α : Type} {p : α → Bool} {l : List α} {k : Nat} {a : α}
    (ha : l[k]? = some a) (hp : ∀ b ∈ l.take (k + 1), p b = true) :
    (l.filter p)[k]? = some a := by
  have hk : k < l.length := (List.getElem?_eq_some_iff.1 ha).1
  have hsplit : l.filter p = l.take (k + 1) ++ (l.drop (k + 1)).filter p := by
    conv_lhs => rw [← List.take_append_drop (k + 1) l, List.filter_append]
    rw [List.filter_eq_self.2 hp]
  rw [hsplit, List.getElem?_append_left (by rw [List.length_take]; omega), List.getElem?_take,
    if_pos (Nat.lt_succ_self k), ha]

/-- A choice that is shown stays shown if the choices up to it are left. -/
theorem exists_shownChoice? {R : NodeId → NodeId → Prop} {m : Node} {lost : NodeId → Bool}
    {c : NodeId} (hposition : m.position = n.position)
    (hchildren : List.Forall₂ R (n.children.filter (!lost ·)) m.children)
    (hc : n.shownChoice? = some c) (hself : lost c = false)
    (hbefore : ∀ y ∈ n.children.take n.position.toNat, lost y = false) :
    ∃ r, m.shownChoice? = some r ∧ R c r := by
  unfold Node.shownChoice? at hc ⊢
  rw [hposition]
  split at hc
  · next hnonneg =>
    rw [if_pos hnonneg]
    have hstays : (n.children.filter (!lost ·))[n.position.toNat]? = some c := by
      refine getElem?_filter_of_take hc fun y hy => ?_
      rw [List.take_add_one, hc] at hy
      rcases List.mem_append.1 hy with hy | hy
      · simp [hbefore y hy]
      · obtain rfl := List.mem_singleton.1 hy
        simp [hself]
    obtain ⟨hk, rfl⟩ := List.getElem?_eq_some_iff.1 hstays
    have hk' : n.position.toNat < m.children.length := hchildren.length_eq ▸ hk
    exact ⟨m.children[n.position.toNat], List.getElem?_eq_getElem hk', hchildren.get hk hk'⟩
  · cases hc

/-- A switch shows the same choice as before a run, or what cleaning has put in its place, unless
that choice is junk. -/
def KeepsShown (s : Scene) (plan : Plan) (numberOf : NodeId → Option Nat) (w : NodeId) : Prop :=
  ∀ c, s.shown? w = some c → ¬s.FoundJunk plan numberOf c →
    ∃ r, (s.apply plan numberOf).scene.shown? w = some r ∧ s.TakesPlace plan numberOf c r

/-- **The choices of a switch after a run.**  The position stays.  The choices that are found to be
junk are lost, and those that are left come in the same order, each of them or what cleaning has put
in its place; so if no choice before the shown one is junk, the switch shows the same. -/
theorem exists_choices_apply (s : Scene) (plan : Plan) (numberOf : NodeId → Option Nat)
    (hn : s.node? w = some n) (hk : n.kind = .switch) : ∃ (lost : NodeId → Bool) (m : Node),
      (s.apply plan numberOf).scene.node? w = some m ∧ m.kind = .switch ∧
      m.position = n.position ∧
      s.LosesJunk plan numberOf w n.children lost ∧
      List.Forall₂ (s.TakesPlace plan numberOf) (n.children.filter (!lost ·)) m.children ∧
      ((∀ y ∈ n.children.take n.position.toNat, ¬s.FoundJunk plan numberOf y) →
        s.KeepsShown plan numberOf w) := by
  obtain ⟨lost, hlost, hdropped⟩ := exists_thin_afterDropping plan numberOf hn
  have hbefore : (s.beforeCleaning plan numberOf).scene.node? w = some (n.thin lost) :=
    (s.sameSwitches_beforeCleaning plan numberOf).node w _ hdropped hk
  obtain ⟨m, hm, hkind, hposition, hchildren⟩ := exists_switch_apply hbefore hk
  rw [Node.children_thin] at hchildren
  have hposition : m.position = n.position := hposition.trans (n.item_thin ..)
  have hjunk := hlost.mono (n.targets_sublist_refs n.kind.childrenField).subset
  refine ⟨lost, m, hm, hkind, hposition, hjunk, hchildren, fun hnot c hc hself => ?_⟩
  rw [shown?, hn, Option.bind_some] at hc
  rw [shown?, hm, Option.bind_some]
  have hleft : ∀ y ∈ n.children, ¬s.FoundJunk plan numberOf y → lost y = false := by
    intro y hy hno
    rw [← Bool.not_eq_true]
    exact fun hyes => hno (hjunk.found y hy hyes)
  exact exists_shownChoice? hposition hchildren hc (hleft c (Node.mem_of_shownChoice? hc) hself)
    fun y hy => hleft y (List.mem_of_mem_take hy) (hnot y hy)

/-- A switch between lines, a box and a sphere, which shows the box. -/
def lantern : Scene :=
  ⟨#[(Node.create .scene none).setChildren [1],
    ((Node.create .switch none).setChildren [2, 4, 6]).set "whichChoice" (.one .int32 1),
    (Node.create .shape none).set "geometry" (.node (some 3)), Node.create .indexedLineSet none,
    (Node.create .shape none).set "geometry" (.node (some 5)), Node.create .box none,
    (Node.create .shape none).set "geometry" (.node (some 7)), Node.create .sphere none], 0⟩

theorem exists_choices_apply_lantern : ∃ n, lantern.node? 1 = some n ∧ n.kind = .switch ∧
    ∃ (lost : NodeId → Bool) (m : Node),
      (lantern.apply fullPlan lantern.numbers).scene.node? 1 = some m ∧ m.kind = .switch ∧
      m.position = n.position ∧
      lantern.LosesJunk fullPlan lantern.numbers 1 n.children lost ∧
      List.Forall₂ (lantern.TakesPlace fullPlan lantern.numbers) (n.children.filter (!lost ·))
        m.children ∧
      ((∀ y ∈ n.children.take n.position.toNat, ¬lantern.FoundJunk fullPlan lantern.numbers y) →
        lantern.KeepsShown fullPlan lantern.numbers 1) := by
  have hkind : lantern.kind? 1 = some .switch := by decide +kernel
  obtain ⟨n, hn, hk⟩ := Option.map_eq_some_iff.1 hkind
  exact ⟨n, hn, hk, exists_choices_apply lantern fullPlan lantern.numbers hn hk⟩

/-- A plan that only drops junk, by the usual rules. -/
def droppingPlan : Plan :=
  ⟨true, false, false, false, .standard, true, CleanValues.standard, 0, nofun⟩

/-- The lantern after its junk was dropped; the rules speak of no numbers. -/
def litLantern : Change Unit := lantern.apply droppingPlan Numbering.empty.number?

/-- The box is no junk and stays among the choices, but the switch shows the sphere, since the lines
before the box are taken out. -/
theorem not_keepsShown_lantern : litLantern.result = .ok () ∧
    lantern.kind? 1 = some .switch ∧ lantern.Reaches lantern.root 1 ∧
    litLantern.scene.Reaches litLantern.scene.root 1 ∧
    lantern.children 1 = [2, 4, 6] ∧ lantern.shown? 1 = some 4 ∧
    litLantern.scene.children 1 = [4, 6] ∧ litLantern.scene.shown? 1 = some 6 ∧
    ¬lantern.FoundJunk droppingPlan Numbering.empty.number? 4 ∧
    ¬lantern.KeepsShown droppingPlan Numbering.empty.number? 1 := by
  have hbefore : lantern.shown? 1 = some 4 := by decide +kernel
  have hafter : litLantern.scene.shown? 1 = some 6 := by decide +kernel
  have hroot : 1 ∈ lantern.refs lantern.root := by decide +kernel
  have hroot' : 1 ∈ litLantern.scene.refs litLantern.scene.root := by decide +kernel
  have hbox : ¬lantern.FoundJunk droppingPlan Numbering.empty.number? 4 := by
    rintro ⟨-, k, hk, hv⟩
    obtain rfl : none = k := Except.ok.inj hk
    revert hv
    decide +kernel
  refine ⟨by decide +kernel, by decide +kernel, .single hroot, .single hroot',
    by decide +kernel, hbefore, by decide +kernel, hafter, hbox, fun hkeeps => ?_⟩
  obtain ⟨r, hr, hplace⟩ := hkeeps 4 hbefore hbox
  obtain rfl : 6 = r := Option.some.inj (hafter.symm.trans hr)
  rcases hplace with hsame | ⟨hclean, -⟩
  · exact absurd hsame (by decide)
  · exact absurd hclean (by decide)

end Scene

end SceneTidy

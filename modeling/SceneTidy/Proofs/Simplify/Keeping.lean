import SceneTidy.Proofs.Simplify.Junk

/-!
# Groups dropped for the sake of the group to keep

Of the groups that are judged, those that have nothing to do with the kept one should be dropped:
they are not the kept group, nor below it, nor above it.  But a group above it is dropped as well if
the search for the kept group overlooks the references that lead there, which may happen where they
form a cycle (`not_droppedToKeep_iff_hall`).  Main statement: the groups dropped are those that are
not the kept one, nor below it, nor above it by references that are not overlooked
(`exists_overlooked_droppedToKeep`).
-/

namespace SceneTidy.Scene

variable {s : Scene} {numberOf : NodeId → Option Nat} {rules : JunkRules} {number : Option Int}
  {start x y kept : NodeId} {n : Node} {c : JunkCase}

/-- The judgement of a scene comes to a verdict on a node. -/
def Judged (s : Scene) (c : JunkCase) (start x : NodeId) : Prop :=
  ((s.judgeJunk c start).2.verdict? x).isSome

/-- A node that is judged to be junk since it has nothing to do with the kept group. -/
structure DroppedToKeep (s : Scene) (c : JunkCase) (start x : NodeId) : Prop where
  verdict : (s.judgeJunk c start).2.verdict? x = some true
  unrelated : ∃ n, s.node? x = some n ∧ c.isUnrelated x n = true

theorem isShut_of_isUnrelated (h : c.isUnrelated x n = true) : c.isShut x n = true := by
  rw [JunkCase.isShut, h, Bool.or_true]

theorem kind_of_isUnrelated (h : c.isUnrelated x n = true) : n.kind = .group := by
  rw [JunkCase.isUnrelated] at h
  split at h
  · cases h
  · exact eq_of_beq (Bool.and_eq_true_iff.1 h).1

/-- What is judged and has nothing to do with the kept group is junk. -/
theorem Judged.droppedToKeep_iff (h : s.Judged c start x) (hn : s.node? x = some n) :
    s.DroppedToKeep c start x ↔ c.isUnrelated x n = true := by
  refine ⟨?_, fun hyes => ⟨?_, n, hn, hyes⟩⟩
  · rintro ⟨-, m, hm, hyes⟩
    rwa [Option.some.inj (hn.symm.trans hm)]
  · obtain ⟨hsound, -, -⟩ := judgeJunk_spec c s start
    obtain ⟨m, hdone⟩ := hsound.finished x h List.not_mem_nil
    cases hdone with
    | shut hm _ _ hv =>
      obtain rfl := Option.some.inj (hn.symm.trans hm)
      rw [hv, if_neg (by rw [kind_of_isUnrelated hyes]; decide)]
    | sifted q hm hopen =>
      obtain rfl := Option.some.inj (hn.symm.trans hm)
      rw [isShut_of_isUnrelated hyes] at hopen
      cases hopen

/-- A node that is dropped is left as it was, and is gone from all lists that are looked through. -/
structure IsGone (s t : Scene) (c : JunkCase) (start x : NodeId) : Prop where
  node : t.node? x = s.node? x
  lists : ∀ w n, s.Judged c start w → s.node? w = some n → c.isShut w n = false →
    ∀ m, t.node? w = some m → ∀ field ts, m.get? field = some (.nodes ts) → x ∉ ts

/-- What is dropped to keep the group is never pending, so that every list loses it. -/
theorem DroppedToKeep.isGone (h : s.DroppedToKeep c start x) :
    s.IsGone (s.judgeJunk c start).2.scene c start x := by
  obtain ⟨hv, n, hn, hyes⟩ := h
  have hshut := isShut_of_isUnrelated hyes
  obtain ⟨hsound, -, -⟩ := judgeJunk_spec c s start
  constructor
  · obtain ⟨m, hdone⟩ := hsound.finished x (by rw [hv]; rfl) List.not_mem_nil
    cases hdone with
    | shut hm _ hnow => rw [hnow, hm]
    | sifted q hm hopen =>
      obtain rfl := Option.some.inj (hn.symm.trans hm)
      rw [hshut] at hopen
      cases hopen
  · intro w k hw hk hopen m hm field ts hts hx
    obtain ⟨k', hdone⟩ := hsound.finished w hw List.not_mem_nil
    cases hdone with
    | shut hk' hshut' =>
      obtain rfl := Option.some.inj (hk.symm.trans hk')
      rw [hopen] at hshut'
      cases hshut'
    | sifted q hk' _ hnow _ _ _ hleft =>
      obtain rfl := Option.some.inj (hk.symm.trans hk')
      obtain rfl := Option.some.inj (hnow.symm.trans hm)
      rw [Node.get?_thin] at hts
      obtain ⟨v, hget, hthin⟩ := Option.map_eq_some_iff.1 hts
      obtain ⟨us, rfl, rfl⟩ : ∃ us, v = .nodes us ∧ us.filter (!q ·) = ts := by
        cases v with
        | nodes us => exact ⟨us, rfl, FieldValue.nodes.inj hthin⟩
        | _ => cases hthin
      obtain ⟨hmem, hq⟩ := List.mem_filter.1 hx
      rcases hleft x (Node.mem_refs_iff.2 ⟨field, _, hget, hmem⟩) (by simpa using hq) with
        hback | hgone | ⟨hno, -⟩
      -- the judgement comes from nowhere that it does not look into
      · rcases Relation.ReflTransGen.cases_head hback with rfl | ⟨y, ⟨⟨n', hn', hopen'⟩, -⟩, -⟩
        · obtain rfl := Option.some.inj (hn.symm.trans hk)
          rw [hshut] at hopen
          cases hopen
        · obtain rfl := Option.some.inj (hn.symm.trans hn')
          rw [hshut] at hopen'
          cases hopen'
      · rw [hn] at hgone
        cases hgone
      · rw [hv] at hno
        cases hno

/-- No references form a cycle from where they lead from a node to the kept group, but for cycles
that pass that group. -/
def AcyclicTo (s : Scene) (kept x : NodeId) : Prop :=
  ∀ a, s.Reaches x a → s.Reaches a kept →
    ¬Relation.TransGen (fun a b => a ≠ kept ∧ s.Refers a b) a a

/-- What the search for the kept group overlooks is that a reference closes a cycle. -/
def ClosesCycle (s : Scene) (kept a b : NodeId) : Prop :=
  a ≠ kept ∧ s.Refers a b ∧ s.ReachesBefore kept b a

/-- **The groups dropped for the sake of the group to keep.**  Some references are overlooked, each
of which closes a cycle.  A group that is judged is dropped just if it is not the kept one, nor
below it, nor above it by references that are not overlooked; so where no cycle leads to the kept
group, it is dropped just if it has nothing to do with that.  What is dropped is gone from all lists
that are looked through. -/
theorem exists_overlooked_droppedToKeep
    (hnum : ∀ a b k, numberOf a = some k → numberOf b = some k → a = b)
    (hkeep : rules.keep = some number) (hkept : s.NamesGroup numberOf start number kept) :
    ∃ (k : KeptGroup) (overlooked : NodeId → NodeId → Prop),
      s.keptGroup numberOf rules start = .ok (some k) ∧ k.group = kept ∧
      (∀ a b, overlooked a b → s.ClosesCycle kept a b) ∧
      ∀ x, s.kind? x = some .group → s.Judged ⟨numberOf, rules, some k⟩ start x →
        (s.DroppedToKeep ⟨numberOf, rules, some k⟩ start x ↔
          x ≠ kept ∧ ¬s.Reaches kept x ∧ ¬s.ReachesSeen overlooked x kept) ∧
        (s.AcyclicTo kept x →
          (s.DroppedToKeep ⟨numberOf, rules, some k⟩ start x ↔
            x ≠ kept ∧ ¬s.Reaches kept x ∧ ¬s.Reaches x kept)) ∧
        (s.DroppedToKeep ⟨numberOf, rules, some k⟩ start x →
          s.IsGone (s.dropJunk numberOf rules start).scene ⟨numberOf, rules, some k⟩ start x) := by
  have hok := keptGroup_of_namesGroup hnum hkeep hkept
  refine ⟨_, s.Overlooks start kept, hok, rfl, fun a b hab => ?_, fun x hx hjudged => ?_⟩
  · exact ⟨hab.reachesBefore.1, hab.refers, hab.reachesBefore.2⟩
  obtain ⟨n, hn, hk⟩ := Option.map_eq_some_iff.1 hx
  have hsome : (s.node? x).isSome := by rw [hn]; rfl
  obtain ⟨hsound, -, -⟩ :=
    judgeJunk_spec ⟨numberOf, rules, some ⟨kept, s.above start kept ++ s.walk kept⟩⟩ s start
  have hreach : s.Reaches start x := (hsound.reached x hjudged).reaches
  have hdropped : s.DroppedToKeep
      ⟨numberOf, rules, some ⟨kept, s.above start kept ++ s.walk kept⟩⟩ start x ↔
      x ≠ kept ∧ ¬s.Reaches kept x ∧ ¬s.ReachesSeen (s.Overlooks start kept) x kept := by
    rw [hjudged.droppedToKeep_iff hn]
    simp only [JunkCase.isUnrelated, Bool.and_eq_true, beq_iff_eq, hk, true_and,
      Bool.not_eq_true', List.contains_eq_mem, decide_eq_false_iff_not, List.mem_append,
      mem_walk_iff, hsome, not_or]
    constructor
    · rintro ⟨habove, hbelow⟩
      refine ⟨?_, hbelow, fun hseen => habove ((mem_above_iff hreach hsome hbelow).2 hseen)⟩
      rintro rfl
      exact hbelow .refl
    · rintro ⟨-, hbelow, hseen⟩
      exact ⟨fun habove => hseen (reachesSeen_of_mem_above habove), hbelow⟩
  refine ⟨hdropped, fun hac => hdropped.trans ?_, fun hdrop => ?_⟩
  · have hsame : s.ReachesSeen (s.Overlooks start kept) x kept ↔ s.Reaches x kept :=
      ⟨ReachesSeen.reaches, reachesSeen_of_reaches hac⟩
    rw [hsame]
  · have hscene : (s.dropJunk numberOf rules start).scene =
        (s.judgeJunk ⟨numberOf, rules, some ⟨kept, s.above start kept ++ s.walk kept⟩⟩
          start).2.scene := by
      rw [dropJunk, hok]
    rw [hscene]
    exact hdrop.isGone

/-- A scene with a group of two groups: the first leads back to the group that it is in, the second
is to be kept. -/
def hall : Scene :=
  ⟨#[(Node.create .scene none).setChildren [1], (Node.create .group none).setChildren [2, 4],
    (Node.create .group none).setChildren [1, 3], Node.create .shape none,
    (Node.create .group none).setChildren [5], Node.create .shape none], 0⟩

/-- The rules that ask for the second group of the hall. -/
def hallRules : JunkRules := ⟨[], true, some (some 4)⟩

theorem namesGroup_hall : hall.NamesGroup some 0 (some 4) 4 := by
  have hroot : 1 ∈ hall.refs 0 := by decide +kernel
  have hgroup : 4 ∈ hall.refs 1 := by decide +kernel
  exact ⟨(Relation.ReflTransGen.single hroot).tail hgroup, by decide +kernel, 4, rfl, rfl⟩

theorem some_inj : ∀ a b k : Nat, some a = some k → some b = some k → a = b := by
  rintro a b k ⟨⟩ ⟨⟩
  rfl

theorem exists_overlooked_droppedToKeep_hall : hallRules.keep = some (some 4) ∧
    hall.NamesGroup some 0 (some 4) 4 ∧
    ∃ (k : KeptGroup) (overlooked : NodeId → NodeId → Prop),
      hall.keptGroup some hallRules 0 = .ok (some k) ∧ k.group = 4 ∧
      (∀ a b, overlooked a b → hall.ClosesCycle 4 a b) ∧
      ∀ x, hall.kind? x = some .group → hall.Judged ⟨some, hallRules, some k⟩ 0 x →
        (hall.DroppedToKeep ⟨some, hallRules, some k⟩ 0 x ↔
          x ≠ 4 ∧ ¬hall.Reaches 4 x ∧ ¬hall.ReachesSeen overlooked x 4) ∧
        (hall.AcyclicTo 4 x →
          (hall.DroppedToKeep ⟨some, hallRules, some k⟩ 0 x ↔
            x ≠ 4 ∧ ¬hall.Reaches 4 x ∧ ¬hall.Reaches x 4)) ∧
        (hall.DroppedToKeep ⟨some, hallRules, some k⟩ 0 x →
          hall.IsGone (hall.dropJunk some hallRules 0).scene ⟨some, hallRules, some k⟩ 0 x) :=
  ⟨rfl, namesGroup_hall, exists_overlooked_droppedToKeep some_inj rfl namesGroup_hall⟩

/-- The search from the root finds that the kept group is below the outer group, but not that it is
below the inner one. -/
theorem lookup_searchVerdicts_hall : (hall.searchVerdicts 0 4).lookup 1 = some true ∧
    (hall.searchVerdicts 0 4).lookup 2 = some false := by
  decide +kernel

theorem mem_spared_hall : 1 ∈ hall.above 0 4 ∧ 2 ∉ hall.above 0 4 ++ hall.walk 4 := by
  obtain ⟨hyes, hno⟩ := lookup_searchVerdicts_hall
  have hroot : 1 ∈ hall.refs 0 := by decide +kernel
  have hbelow : ∀ x, hall.Reaches 4 x → x = 4 ∨ x = 5 := by
    intro x hx
    have hstep : ∀ a, a = 4 ∨ a = 5 → ∀ b ∈ hall.refs a, b = 4 ∨ b = 5 := by
      rintro a (rfl | rfl) <;> decide +kernel
    induction hx with
    | refl => exact .inl rfl
    | tail _ hab ih => exact hstep _ ih _ hab
  constructor
  · refine List.mem_filter.2 ⟨mem_walk_iff.2 ⟨by decide +kernel, .single hroot⟩, ?_⟩
    show ((hall.searchVerdicts 0 4).lookup 1).getD false = true
    rw [hyes]
    rfl
  · rw [List.mem_append, not_or]
    refine ⟨fun habove => ?_, fun hwalk => ?_⟩
    · have hv : ((hall.searchVerdicts 0 4).lookup 2).getD false = true :=
        (List.mem_filter.1 habove).2
      rw [hno] at hv
      cases hv
    · exact absurd (hbelow 2 (mem_walk_iff.1 hwalk).2) (by decide)

/-- The inner group of the hall is dropped, though the group to keep can be reached from it: its
reference to the group that it is in is overlooked. -/
theorem not_droppedToKeep_iff_hall : hall.NamesGroup some 0 (some 4) 4 ∧
    ∃ k, hall.keptGroup some hallRules 0 = .ok (some k) ∧ k.group = 4 ∧
      hall.kind? 2 = some .group ∧ hall.Judged ⟨some, hallRules, some k⟩ 0 2 ∧
      hall.Reaches 2 4 ∧
      ¬(hall.DroppedToKeep ⟨some, hallRules, some k⟩ 0 2 ↔
        2 ≠ 4 ∧ ¬hall.Reaches 4 2 ∧ ¬hall.Reaches 2 4) := by
  obtain ⟨habove, hspared⟩ := mem_spared_hall
  have hroot : 1 ∈ hall.refs 0 := by decide +kernel
  have hinner : 2 ∈ hall.refs 1 := by decide +kernel
  have hback : 1 ∈ hall.refs 2 := by decide +kernel
  have hgroup : 4 ∈ hall.refs 1 := by decide +kernel
  have hreach : hall.Reaches 2 4 := (Relation.ReflTransGen.single hback).tail hgroup
  have hkind : hall.kind? 2 = some .group := by decide +kernel
  have hjudged : hall.Judged ⟨some, hallRules, some ⟨4, hall.above 0 4 ++ hall.walk 4⟩⟩ 0 2 := by
    obtain ⟨hsound, -, hstart⟩ := judgeJunk_spec
      ⟨some, hallRules, some ⟨4, hall.above 0 4 ++ hall.walk 4⟩⟩ hall 0
    have hthere : (hall.node? 2).isSome := by decide +kernel
    have houter : hall.kind? 1 = some .group := by decide +kernel
    obtain ⟨outer, houter, hk⟩ := Option.map_eq_some_iff.1 houter
    refine (hsound.met_of_comesTo hstart (.tail (.single ⟨⟨_, rfl, rfl⟩, hroot⟩)
      ⟨⟨outer, houter, ?_⟩, hinner⟩)).resolve_right (Option.isSome_iff_ne_none.1 hthere)
    have hmem : 1 ∈ hall.above 0 4 ++ hall.walk 4 := List.mem_append_left _ habove
    simp [JunkCase.isShut, JunkCase.isUnrelated, hmem, hk]
  refine ⟨namesGroup_hall, _, keptGroup_of_namesGroup some_inj rfl namesGroup_hall, rfl, hkind,
    hjudged, hreach, fun hiff => ?_⟩
  obtain ⟨n, hn, hk⟩ := Option.map_eq_some_iff.1 hkind
  refine (hiff.1 ((hjudged.droppedToKeep_iff hn).2 ?_)).2.2 hreach
  simpa [JunkCase.isUnrelated, hk] using hspared

end SceneTidy.Scene

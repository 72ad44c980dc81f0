import SceneTidy.Proofs.Simplify.MergedAlike
import SceneTidy.Proofs.Simplify.Tidy
import SceneTidy.Proofs.Vrml.Fixpoint

/-!
# Processing what was processed

The unifying preset drops junk and merges shapes.  If no node is excluded and no group is kept, what
it leaves is settled: there is nothing more to drop, and merging once more only makes the merged
shapes anew (`settled_apply`).  A settled scene is written as a text that is read as a scene which
mirrors it, and both stages do with the mirror what they do with the scene itself, so that the text
comes out again (`Settled.processes`).  A text that does not name the lists beside the children is
read as a scene in which they are empty (`noneAside_readVrml`).  Main statement: the output of the
unifying preset is reproduced when it is processed again, character by character, and nothing is
dropped then (`processes_written`).
-/

namespace SceneTidy

open Vrml

/-! ### Fields that files do not show -/

namespace NodeKind

variable {k : NodeKind} {d : FieldDecl}

theorem hidden_iff (hd : d ∈ k.fields) :
    d.exposed = false ↔ d.name = "addChildren" ∨ d.name = "removeChildren" := by
  have hall : ∀ k : NodeKind, ∀ d ∈ k.fields,
      d.exposed = false ↔ d.name = "addChildren" ∨ d.name = "removeChildren" := by
    intro k
    cases k <;> decide +kernel
  exact hall k d hd

theorem kind_of_hidden (hd : d ∈ k.fields) (hx : d.exposed = false) : d.kind = .nodes := by
  have hall : ∀ k : NodeKind, ∀ d ∈ k.fields, d.exposed = false → d.kind = .nodes := by
    intro k
    cases k <;> decide +kernel
  exact hall k d hd hx

end NodeKind

namespace Node

variable {n : Node} {d : FieldDecl}

theorem refs_of_hidden (hd : d ∈ n.kind.fields) (hx : d.exposed = false) :
    (n.value d).refs = n.targets d.name := by
  rw [value_of_get? (get?_eq_nodes hd (NodeKind.kind_of_hidden hd hx))]
  rfl

/-- The lists beside the children are what files do not show. -/
theorem noneAside_iff :
    n.NoneAside ↔ ∀ d ∈ n.kind.fields, d.exposed = false → (n.value d).refs = [] := by
  constructor
  · intro h d hd hx
    rw [refs_of_hidden hd hx]
    rcases (NodeKind.hidden_iff hd).1 hx with he | he
    · rw [he, h.1]
    · rw [he, h.2]
  · intro h
    have hnil : ∀ name, name = "addChildren" ∨ name = "removeChildren" → n.targets name = [] := by
      intro name hname
      by_cases hd : ∃ d ∈ n.kind.fields, d.name = name
      · obtain ⟨d, hd, rfl⟩ := hd
        have hx := (NodeKind.hidden_iff hd).2 hname
        rw [← refs_of_hidden hd hx, h d hd hx]
      · exact n.targets_of_not_mem fun d hd' he => hd ⟨d, hd', he⟩
    exact ⟨hnil _ (.inl rfl), hnil _ (.inr rfl)⟩

/-- The fields that are given no value keep theirs. -/
theorem get?_setAll_of_ne {l : List (String × FieldValue)} {field : String}
    (h : ∀ p ∈ l, p.1 ≠ field) : (n.setAll l).get? field = n.get? field := by
  induction l generalizing n with
  | nil => rfl
  | cons p l ih =>
    obtain ⟨hp, hl⟩ := List.forall_mem_cons.1 h
    show ((n.set p.1 p.2).setAll l).get? field = n.get? field
    rw [ih hl, n.get?_set_of_ne hp]

/-- A scene's root has no lists beside its children. -/
theorem noneAside_of_kind_scene (h : n.kind = .scene) : n.NoneAside := by
  have hfields : ∀ d ∈ n.kind.fields, d.name ≠ "addChildren" ∧ d.name ≠ "removeChildren" := by
    rw [h]
    decide
  exact ⟨n.targets_of_not_mem fun d hd => (hfields d hd).1,
    n.targets_of_not_mem fun d hd => (hfields d hd).2⟩

/-- A new node that is given neither list has nothing beside its children. -/
theorem noneAside_setAll_create {k : NodeKind} {name : Option String}
    {l : List (String × FieldValue)}
    (h : ∀ p ∈ l, p.1 ≠ "addChildren" ∧ p.1 ≠ "removeChildren") :
    ((create k name).setAll l).NoneAside := by
  rw [NoneAside, targets, targets, get?_setAll_of_ne fun p hp => (h p hp).1,
    get?_setAll_of_ne fun p hp => (h p hp).2]
  exact ⟨targets_create k name _, targets_create k name _⟩

end Node

namespace Scene

variable {s t : Scene} {lineSets w : Bool} {f : NodeId → NodeId} {x y : NodeId}

theorem NoneAside.hidesNothing (h : s.NoneAside s.root) : s.HidesNothing :=
  fun x n hx hn => Node.noneAside_iff.1 (h x n hx.reaches hn)

theorem HidesNothing.noneAside (h : s.HidesNothing) : s.NoneAside s.root :=
  fun x n hx hn => Node.noneAside_iff.2 (h x n (h.shownFrom hx) hn)

/-- A file that names neither list beside the children is read as a scene in which these are
empty. -/
theorem noneAside_readVrml {text : String} (hok : (Scene.empty.readVrml text).result = .ok ())
    (h : ∀ t ∈ fileTokens text,
      t.sign ≠ (.word, "addChildren") ∧ t.sign ≠ (.word, "removeChildren")) :
    (Scene.empty.readVrml text).scene.NoneAside (Scene.empty.readVrml text).scene.root := by
  obtain ⟨targets, made, hlist, hscene⟩ := exists_isStatements_of_readVrml hok
  have hgiven : ∀ m ∈ made, ∀ p ∈ m.given, p.1 ≠ "addChildren" ∧ p.1 ≠ "removeChildren" := by
    intro m hm p hp
    obtain ⟨t, ht, hsign⟩ := List.mem_map.1 (hlist.word_mem m hm p hp)
    exact ⟨fun he => (h t ht).1 (he ▸ hsign), fun he => (h t ht).2 (he ▸ hsign)⟩
  intro x n _ hn
  rw [hscene, appendTop, setChildren, node?_modify, node?_pushAll] at hn
  by_cases hx : x < Scene.empty.size
  · obtain rfl : x = 0 := Nat.lt_one_iff.1 hx
    obtain rfl := Option.some.inj hn
    exact Node.noneAside_of_kind_scene rfl
  · have hroot : (Scene.empty.pushAll (made.map Made.node)).root ≠ x := by
      rintro rfl
      exact hx Nat.zero_lt_one
    rw [if_neg hroot, if_neg hx] at hn
    obtain ⟨m, hm, rfl⟩ := List.mem_map.1 (List.mem_of_getElem? hn)
    exact Node.noneAside_setAll_create (hgiven m hm)

/-! ### Mirrors of tidy scenes -/

/-- What is junk by itself in a mirror is so in the scene. -/
theorem Mirrors.bare (h : s.Mirrors t f) (hx : s.Reaches s.root x) (hbare : t.Bare lineSets (f x)) :
    s.Bare lineSets x := by
  obtain ⟨n, m, hn, hm, hnode⟩ := h.node x hx
  cases hbare with
  | lines hm' hk hl hg hgk =>
    obtain rfl := Option.some.inj (hm.symm.trans hm')
    have hkind := hnode.kind.symm.trans hk
    rw [hnode.target_eq (by simp [hkind, NodeKind.fields])] at hg
    obtain ⟨g, htarget, rfl⟩ := Option.map_eq_some_iff.1 hg
    rw [h.kind?_eq (hx.tail (refers_of_target hn htarget))] at hgk
    exact .lines hn hkind hl htarget hgk
  | empty hm' hk hc =>
    obtain rfl := Option.some.inj (hm.symm.trans hm')
    rw [hnode.mirrors.children, List.map_eq_nil_iff] at hc
    exact .empty hn (hnode.kind ▸ hk) hc

/-- The judgement comes to the same nodes in a mirror. -/
theorem Mirrors.exists_comesTo (h : s.Mirrors t f)
    (hy : (JunkCase.plain lineSets).ComesTo t t.root y) :
    ∃ x, (JunkCase.plain lineSets).ComesTo s s.root x ∧ f x = y := by
  induction hy with
  | refl => exact ⟨s.root, .refl, h.root⟩
  | tail _ hyz ih =>
    obtain ⟨x, hx, rfl⟩ := ih
    obtain ⟨⟨m, hm, hopen⟩, hyz⟩ := hyz
    obtain ⟨n, m', hn, hm', hnode⟩ := h.node x hx.reaches
    obtain rfl := Option.some.inj (hm.symm.trans hm')
    rw [JunkCase.isShut_plain, decide_eq_false_iff_not, hnode.kind] at hopen
    rw [Refers, refs_of_node? hm, hnode.mirrors.refs] at hyz
    obtain ⟨z, hz, rfl⟩ := List.mem_map.1 hyz
    exact ⟨z, hx.step rfl hn hopen hz, rfl⟩

/-- A scene that mirrors a tidy one is tidy. -/
theorem Mirrors.tidy (h : s.Mirrors t f) (hs : s.Tidy lineSets s.root) :
    t.Tidy lineSets t.root := by
  intro y m hy hm hk z hz hbare
  obtain ⟨x, hx, rfl⟩ := h.exists_comesTo hy
  obtain ⟨n, m', hn, hm', hnode⟩ := h.node x hx.reaches
  obtain rfl := Option.some.inj (hm.symm.trans hm')
  rw [hnode.mirrors.children] at hz
  obtain ⟨c, hc, rfl⟩ := List.mem_map.1 hz
  have hxc : s.Refers x c := mem_refs_of_mem_children (children_of_node? hn ▸ hc)
  exact hs x n hx hn (hnode.kind ▸ hk) c hc (h.bare (hx.reaches.tail hxc) hbare)

/-! ### Settled scenes -/

/-- A scene that dropping junk leaves alone, and in which merging shapes makes nodes anew that stand
for those that were there. -/
structure Settled (s : Scene) (lineSets w : Bool) : Prop where
  closed : s.Closed
  noneAside : s.NoneAside s.root
  tidy : s.Tidy lineSets s.root
  mergeable : ∃ k, (s.mergeShapes w s.root).result = .ok k
  again : ∃ f, s.Mirrors (s.mergeShapes w s.root).scene f

/-- Merging shapes a second time gives a scene that mirrors what there was after the first time. -/
theorem Merged.again {new : NodeId → Option NodeId → NodeId} (h : s.Merged w s.root t new)
    (hw : s.Whole s.root) (hlt : s.root < s.size) (hnum : s.NumberPoints s.root) :
    (∃ k, (t.mergeShapes w t.root).result = .ok k) ∧
      ∃ f, t.Mirrors (t.mergeShapes w t.root).scene f := by
  have hroot : t.root = s.root := h.untouched.root
  have ht : t.Whole s.root := h.whole hw hlt
  obtain ⟨k, hk⟩ := h.exists_ok hw hlt hnum
  obtain ⟨-, new', hagain⟩ := exists_merged_mergeShapes ht hk
  obtain ⟨f, hf⟩ := (MergedTwice.mk hw hlt hnum h hagain).exists_renews
  rw [hroot]
  exact ⟨⟨k, hk⟩, f, hf.mirrors (hroot ▸ node?_isSome_iff.2 hlt) (hroot ▸ ht)
    (node?_isSome_iff.2 (Nat.lt_of_lt_of_le (hroot ▸ hlt) h.size_le))⟩

/-- Merging the shapes of a tidy scene settles it. -/
theorem Closed.settled_mergeShapes (hs : s.Closed) (hnone : s.NoneAside s.root)
    (htidy : s.Tidy lineSets s.root) (hnum : s.NumberPoints s.root) {k : Nat}
    (h : (s.mergeShapes w s.root).result = .ok k) :
    (s.mergeShapes w s.root).scene.Settled lineSets w := by
  have hw := hs.whole s.root
  have hlt := hs.root_lt
  obtain ⟨-, new, hmerged⟩ := exists_merged_mergeShapes hw h
  have hclosed := (hs.follows_mergeShapes w s.root).closed
  generalize (s.mergeShapes w s.root).scene = t at hmerged hclosed ⊢
  have hroot : t.root = s.root := hmerged.untouched.root
  obtain ⟨hok, hmirrors⟩ := hmerged.again hw hlt hnum
  exact ⟨hclosed, hroot.symm ▸ hmerged.noneAside hw hlt hnone,
    hroot.symm ▸ hmerged.tidy hw hlt htidy, hok, hmirrors⟩

end Scene

/-! ### Runs of the unifying preset -/

/-- The choices beside the unifying preset, when no node is excluded and no group is kept. -/
def Choices.unifying (lineSets ignoreWinding : Bool) (indent : Int) : Choices :=
  { Choices.unmade with
    rules := some ⟨[], lineSets, none⟩
    ignoreWinding := some ignoreWinding
    indent := some indent }

namespace Plan

/-- A plan that drops junk and merges shapes, with no node excluded and no group kept. -/
structure Unifies (plan : Plan) (lineSets : Bool) : Prop where
  dropJunk : plan.dropJunk = true
  foldTransforms : plan.foldTransforms = false
  mergeShapes : plan.mergeShapes = true
  clean : plan.clean = false
  rules : plan.rules = ⟨[], lineSets, none⟩

theorem unifies_of_planFrom {plan : Plan} {lineSets ignoreWinding : Bool} {indent : Int}
    (h : (Choices.unifying lineSets ignoreWinding indent).planFrom "unify" = .ok plan) :
    plan.Unifies lineSets := by
  have hplan : ((Choices.unifying lineSets ignoreWinding indent).orElse
      Preset.unify.choices).plan = .ok plan := h
  cases indent with
  | negSucc n => cases hplan
  | ofNat n =>
    cases hplan
    exact ⟨rfl, rfl, rfl, rfl, rfl⟩

/-- A text is read as a scene, the plan runs on it, and it is written. -/
def outcome (plan : Plan) (text : String) : Change Unit :=
  (Scene.empty.readVrml text).andThen fun s _ => s.apply plan s.numbers

/-- Processing a text under a plan succeeds, and this is what is written. -/
structure Processes (plan : Plan) (text written : String) : Prop where
  ran : (plan.outcome text).result = .ok ()
  complete : ((plan.outcome text).scene.write plan.indent).failure = none
  text_eq : ((plan.outcome text).scene.write plan.indent).text = written

variable {plan : Plan} {text written : String}

theorem outcome_of_read (plan : Plan) (h : (Scene.empty.readVrml text).result = .ok ()) :
    let s := (Scene.empty.readVrml text).scene
    (plan.outcome text).result = (s.apply plan s.numbers).result ∧
      (plan.outcome text).scene = (s.apply plan s.numbers).scene := by
  rw [outcome, Change.andThen_of_ok h]
  exact ⟨rfl, rfl⟩

theorem Processes.read (h : plan.Processes text written) :
    (Scene.empty.readVrml text).result = .ok () := by
  cases hr : (Scene.empty.readVrml text).result with
  | ok _ => rfl
  | error e =>
    have hran := h.ran
    rw [outcome, Change.andThen_of_error hr] at hran
    cases hran

end Plan

theorem Change.pure_andThen {α β : Type} (s : Scene) (a : α) (f : Scene → α → Change β) :
    (Change.pure s a).andThen f = f s a := rfl

theorem Change.andThen_pure (c : Change Unit) : (c.andThen fun s _ => .pure s ()) = c := by
  obtain ⟨s, ns, r⟩ := c
  cases r with
  | error e => rfl
  | ok a => simp [andThen, pure]

namespace Scene

variable {s : Scene} {lineSets : Bool} {plan : Plan} {numberOf : NodeId → Option Nat}

/-- What is left of a scene when its junk has been dropped. -/
def withoutJunk (s : Scene) (lineSets : Bool) : Scene :=
  (s.judgeJunk (.plain lineSets) s.root).2.scene

theorem withoutJunk_of_tidy (h : s.Tidy lineSets s.root) (hnone : s.NoneAside s.root) :
    s.withoutJunk lineSets = s := by
  have hdrop := dropJunk_of_tidy h hnone fun _ => none
  rw [dropJunk_plain] at hdrop
  exact congrArg Change.scene hdrop

theorem Closed.follows_withoutJunk (h : s.Closed) (lineSets : Bool) :
    Follows s (s.withoutJunk lineSets) :=
  h.follows_sound (judgeJunk_spec (.plain lineSets) s s.root).1

/-- Dropping junk cannot fail, and the run leaves what merging leaves. -/
theorem apply_of_unifies (h : plan.Unifies lineSets) (s : Scene) (numberOf : NodeId → Option Nat) :
    let d := s.withoutJunk lineSets
    (s.apply plan numberOf).scene = (d.mergeShapes plan.ignoreWinding d.root).scene ∧
      (s.apply plan numberOf).result =
        (d.mergeShapes plan.ignoreWinding d.root).result.map fun _ => () := by
  have happly : s.apply plan numberOf = (s.stage true .prune fun s =>
      s.dropJunk numberOf ⟨[], lineSets, none⟩ s.root).andThen fun s _ =>
        s.stage true .unify fun s => s.mergeShapes plan.ignoreWinding s.root := by
    rw [apply, h.dropJunk, h.foldTransforms, h.mergeShapes, h.clean, h.rules]
    simp only [stage, Bool.false_eq_true, if_false, Change.pure_andThen, Change.andThen_pure]
  obtain ⟨ns, hdrop⟩ : ∃ ns, (s.stage true .prune fun s =>
      s.dropJunk numberOf ⟨[], lineSets, none⟩ s.root) = ⟨s.withoutJunk lineSets, ns, .ok ()⟩ :=
    ⟨_, by rw [stage, if_pos rfl, dropJunk_plain]; rfl⟩
  rw [happly, hdrop]
  exact ⟨rfl, rfl⟩

/-- **What the unifying preset leaves is settled.** -/
theorem settled_apply (hplan : plan.Unifies lineSets) (hs : s.Closed) (hnone : s.NoneAside s.root)
    (hnum : s.NumberPoints s.root) (h : (s.apply plan numberOf).result = .ok ()) :
    (s.apply plan numberOf).scene.Settled lineSets plan.ignoreWinding := by
  obtain ⟨hsound, -, hmet⟩ := judgeJunk_spec (.plain lineSets) s s.root
  obtain ⟨hscene, hresult⟩ := apply_of_unifies hplan s numberOf
  have hfollows := hs.follows_withoutJunk lineSets
  have hroot := hfollows.root
  rw [hresult] at h
  rw [hscene]
  cases hk : ((s.withoutJunk lineSets).mergeShapes plan.ignoreWinding
      (s.withoutJunk lineSets).root).result with
  | error e =>
    rw [hk] at h
    cases h
  | ok k =>
    exact hfollows.closed.settled_mergeShapes (hroot ▸ hsound.noneAside hnone)
      (hroot ▸ hsound.tidy hnone hmet) (hroot ▸ hsound.numberPoints hnum) hk

namespace Settled

variable (h : s.Settled lineSets plan.ignoreWinding)

include h

/-- The text of a settled scene is read as a mirror of it. -/
theorem mirrors_readVrml (indent : Nat) :
    let t := (Scene.empty.readVrml (s.write indent).text).scene
    (∃ f, s.Mirrors t f) ∧ t.NoneAside t.root := by
  rw [h.closed.readVrml_write_eq]
  obtain ⟨-, hsown⟩ := sown_outline h.closed.writable
  exact ⟨⟨_, mirrors_of_sown h.closed.writable h.noneAside.hidesNothing hsown⟩,
    (hidesNothing_of_sown hsown).noneAside⟩

/-- In what a settled scene is read back as there is no junk. -/
theorem dropJunk_readVrml (hplan : plan.Unifies lineSets) (indent : Nat)
    (numberOf : NodeId → Option Nat) :
    let t := (Scene.empty.readVrml (s.write indent).text).scene
    t.dropJunk numberOf plan.rules t.root = ⟨t, [], .ok 0⟩ := by
  obtain ⟨⟨f, hf⟩, hnone⟩ := h.mirrors_readVrml indent
  rw [hplan.rules]
  exact dropJunk_of_tidy (hf.tidy h.tidy) hnone numberOf

/-- **The text of a settled scene comes out again.** -/
theorem processes (hplan : plan.Unifies lineSets) :
    plan.Processes (s.write plan.indent).text (s.write plan.indent).text := by
  obtain ⟨hfailure, hread⟩ := h.closed.write_spec plan.indent
  obtain ⟨⟨f, hf⟩, hnone⟩ := h.mirrors_readVrml plan.indent
  obtain ⟨k, hk⟩ := h.mergeable
  obtain ⟨g, hg⟩ := h.again
  obtain ⟨⟨k', hk'⟩, F, hF⟩ := hf.mergeShapes hk
  obtain ⟨hran, hscene⟩ := plan.outcome_of_read hread
  obtain ⟨happly, hresult⟩ := apply_of_unifies hplan
    (Scene.empty.readVrml (s.write plan.indent).text).scene (numbers _)
  rw [withoutJunk_of_tidy (hf.tidy h.tidy) hnone] at happly hresult
  obtain ⟨htext, hcomplete⟩ := hF.write plan.indent
  obtain ⟨htext', hcomplete'⟩ := hg.write plan.indent
  refine ⟨?_, ?_, ?_⟩
  · rw [hran, hresult, hk']
    rfl
  · rw [hscene, happly, hcomplete, hcomplete', hfailure]
  · rw [hscene, happly, htext, htext']

end Settled

/-- A text is processed if no face set is malformed in what is left when junk has been dropped. -/
theorem exists_processes {text : String} (hplan : plan.Unifies lineSets)
    (hread : (Scene.empty.readVrml text).result = .ok ())
    (hfaces : ∀ x < ((Scene.empty.readVrml text).scene.withoutJunk lineSets).size,
      ((Scene.empty.readVrml text).scene.withoutJunk lineSets).isFaceShape x = true →
      (((Scene.empty.readVrml text).scene.withoutJunk lineSets).shapeFaces x).isOk = true) :
    ∃ written, plan.Processes text written := by
  obtain ⟨hran, hscene⟩ := plan.outcome_of_read hread
  have hs := (IsRead.vrml text hread).closed
  generalize (Scene.empty.readVrml text).scene = s at *
  have hd := (hs.follows_withoutJunk lineSets).closed
  obtain ⟨-, hresult⟩ := apply_of_unifies hplan s s.numbers
  have hw := hd.whole (s.withoutJunk lineSets).root
  obtain ⟨k, hk⟩ := exists_ok_mergeShapes (w := plan.ignoreWinding) hw fun g x hg hx hface => by
    have hok := hfaces x (node?_isSome_iff.1 (hw.node?_isSome hg hx)) hface
    cases hresult : (s.withoutJunk lineSets).shapeFaces x with
    | ok faces => exact ⟨faces, rfl⟩
    | error cause =>
      rw [hresult] at hok
      cases hok
  refine ⟨_, ?_, ?_, rfl⟩
  · rw [hran, hresult, hk]
    rfl
  · rw [hscene]
    exact ((hs.follows_apply plan s.numbers).closed.write_spec plan.indent).1

/-- **The unifying preset reproduces its own output.**  If no node is excluded, no group is kept and
a text is processed, then what is written is processed as well and written again as it is, whatever
is chosen about line sets, winding and indent; there is no more junk in it.  The scene that was read
may share nodes and have cycles, but the lists beside the children of its groups are empty, as they
are if the text does not name them (`noneAside_readVrml`), and its points have coordinates that are
numbers. -/
theorem processes_written {lineSets ignoreWinding : Bool} {indent : Int} {plan : Plan}
    {text written : String}
    (hplan : (Choices.unifying lineSets ignoreWinding indent).planFrom "unify" = .ok plan)
    (hnone : (Scene.empty.readVrml text).scene.NoneAside (Scene.empty.readVrml text).scene.root)
    (hnum : (Scene.empty.readVrml text).scene.NumberPoints (Scene.empty.readVrml text).scene.root)
    (h : plan.Processes text written) :
    let t := (Scene.empty.readVrml written).scene
    plan.Processes written written ∧
      ∀ numberOf, t.dropJunk numberOf plan.rules t.root = ⟨t, [], .ok 0⟩ := by
  have hunifies := Plan.unifies_of_planFrom hplan
  have hread := h.read
  obtain ⟨hran, hscene⟩ := plan.outcome_of_read hread
  have hsettled := settled_apply hunifies (IsRead.vrml text hread).closed hnone hnum
    (hran.symm.trans h.ran)
  have hagain := hsettled.processes hunifies
  have hnojunk := hsettled.dropJunk_readVrml hunifies plan.indent
  rw [← hscene, h.text_eq] at hagain hnojunk
  exact ⟨hagain, hnojunk⟩

/-- A text with a shape that is shown twice, and a group without children. -/
def twiceText : String :=
  "#VRML V2.0 utf8\nDEF S Shape \x7b geometry IndexedFaceSet \x7b coord Coordinate \x7b " ++
    "point [ 0 0 0, 1 0 0, 1 1 0 ] \x7d coordIndex [ 0 1 2 ] \x7d \x7d USE S Group \x7b \x7d"

/-- A plan of the unifying preset. -/
def unifyingPlan : Plan :=
  ⟨true, false, true, false, ⟨[], true, none⟩, true,
    { CleanValues.standard with forceSolid := none }, 2, fun _ => nofun⟩

theorem processes_written_twice :
    (Choices.unifying true true 2).planFrom "unify" = .ok unifyingPlan ∧
      ∃ written, unifyingPlan.Processes twiceText written ∧
        let t := (Scene.empty.readVrml written).scene
        unifyingPlan.Processes written written ∧
          ∀ numberOf, t.dropJunk numberOf unifyingPlan.rules t.root = ⟨t, [], .ok 0⟩ := by
  have hplan : (Choices.unifying true true 2).planFrom "unify" = .ok unifyingPlan := rfl
  -- all in one evaluation, so that the text is read once
  obtain ⟨hread, hnone, hnum, hfaces⟩ : (Scene.empty.readVrml twiceText).result = .ok () ∧
      (∀ t ∈ fileTokens twiceText,
        t.sign ≠ (.word, "addChildren") ∧ t.sign ≠ (.word, "removeChildren")) ∧
      (∀ n ∈ (Scene.empty.readVrml twiceText).scene.nodes, ∀ p ∈ n.items "point" .vec3f,
        ∀ x ∈ p.numbers, x.isNaN = false) ∧
      ∀ x < ((Scene.empty.readVrml twiceText).scene.withoutJunk true).size,
        ((Scene.empty.readVrml twiceText).scene.withoutJunk true).isFaceShape x = true →
        (((Scene.empty.readVrml twiceText).scene.withoutJunk true).shapeFaces x).isOk = true := by
    decide +kernel
  obtain ⟨written, h⟩ := exists_processes (Plan.unifies_of_planFrom hplan) hread hfaces
  exact ⟨hplan, written, h,
    processes_written hplan (noneAside_readVrml hread hnone) (numberPoints_of_forall hnum) h⟩

end Scene

end SceneTidy

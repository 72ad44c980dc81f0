import SceneTidy.Proofs.Pipeline
import SceneTidy.Proofs.Vrml.Mirror

/-!
# Writing again what was written

The names of shared nodes come from one traversal, which follows all references, and the text from
another, which follows those that files show.  If the fields that files do not show refer to nothing
(`HidesNothing`), both come to the same nodes, and the scene that is planted for a text mirrors the
one that was written.  Main statement: a text that was written is written again unchanged, unless
the scene hid references, and from then on in any case (`isFixed_write_readVrml`).
-/

namespace SceneTidy

open Vrml

theorem NodeKind.same_declared (k : NodeKind) :
    ∀ d ∈ k.fields, d.declared.same d.declared = true := by
  cases k <;> decide +kernel

namespace Scene

variable {s t : Scene} {met : List NodeId} {a : NodeId}

/-- The fields of shown nodes that files do not show refer to nothing. -/
def HidesNothing (s : Scene) : Prop :=
  ∀ a n, s.ShownFrom s.root a → s.node? a = some n →
    ∀ d ∈ n.kind.fields, d.exposed = false → (n.value d).refs = []

/-- A scene that hides nothing shows all that is reached. -/
theorem HidesNothing.shownFrom (h : s.HidesNothing) (hr : s.Reaches s.root a) :
    s.ShownFrom s.root a := by
  induction hr with
  | refl => exact .refl
  | @tail a b _ hab ih =>
    obtain ⟨n, hn⟩ := Option.isSome_iff_exists.1 (node?_isSome_of_mem_refs hab)
    rw [Refers, refs_of_node? hn, Node.refs_eq_flatMap_slots] at hab
    obtain ⟨⟨d, v⟩, hp, hb⟩ := List.mem_flatMap.1 hab
    refine ih.tail ⟨n, hn, (d, v), hp, ?_, hb⟩
    cases hx : d.exposed with
    | true => rfl
    | false =>
      have hnil := h a n ih hn d (Node.mem_fields_of_mem_slots hp) hx
      rw [Node.value_of_get? (Node.get?_of_mem_slots hp)] at hnil
      exact absurd (hnil ▸ hb) List.not_mem_nil

/-! ### The planted scene -/

/-- The fields of a finished node stand for those of the node that it stands for, if that one hides
nothing. -/
theorem echoes_planted {n : Node} (name : Option String)
    (hn : ∀ d ∈ n.kind.fields, d.exposed = false → (n.value d).refs = []) :
    n.Echoes (place met) ((Node.create n.kind name).setAll (n.written.map (linked met))) := by
  refine ⟨Node.kind_setAll .., fun d hd => ?_⟩
  rw [value_planted name hd]
  split
  · exact FieldValue.echoes_relink hd ..
  · next hplain =>
    have hdeclared := n.kind.refs_declared d hd
    have hsame : d.exposed = true → (n.value d).same d.declared = true := fun hx => by
      cases hv : (n.value d).same d.declared with
      | true => rfl
      | false => exact absurd ⟨hx, hv⟩ hplain
    have hrefs : (n.value d).refs = [] := by
      cases hx : d.exposed with
      | false => exact hn d hd hx
      | true => exact (FieldValue.refs_of_same (hsame hx)).trans hdeclared
    refine ⟨by rw [hdeclared, hrefs]; rfl, fun hx => ?_, fun hx hv => ?_⟩
    · rw [hsame hx, n.kind.same_declared d hd]
    · exact absurd ((hsame hx).symm.trans hv) nofun

/-- The roots of scenes hold nothing but children. -/
theorem echoes_root {n m : Node} {f : NodeId → NodeId} (hn : n.kind = .scene)
    (hm : m.kind = .scene) (hc : m.children = n.children.map f) : n.Echoes f m := by
  refine ⟨hm.trans hn.symm, fun d hd => ?_⟩
  have hval : m.value d = (n.value d).relink f := by
    have hd' : d ∈ m.kind.fields := hm.symm ▸ hn ▸ hd
    rw [show n.value d = _ from (eq_children_of_mem_slots hn (Node.mem_slots_value hd)).2,
      show m.value d = _ from (eq_children_of_mem_slots hm (Node.mem_slots_value hd')).2, hc]
    rfl
  rw [hval]
  exact FieldValue.echoes_relink hd ..

/-- The scene that is planted for a scene that hides nothing mirrors it. -/
theorem mirrors_of_sown (hs : s.Writable) (hh : s.HidesNothing) (h : Sown s met t) :
    s.Mirrors t (place met) := by
  refine ⟨h.place_root.trans h.root.symm, fun a ha b hb => h.injOn hs (hh.shownFrom ha)
    (hh.shownFrom hb), fun a ha => ?_⟩
  rcases (h.shownFrom_iff hs).1 (hh.shownFrom ha) with rfl | ha
  · obtain ⟨n, hn, hk⟩ := Option.map_eq_some_iff.1 hs.root
    obtain ⟨m, hm, hmk, hc⟩ := h.first
    exact ⟨n, m, hn, h.place_root ▸ hm, echoes_root hk hmk (children_of_node? hn ▸ hc)⟩
  · obtain ⟨hl, n, name, hn, hp, -⟩ := h.planted a ha
    exact ⟨n, _, hn, hp, echoes_planted name (hh a n hl.1 hn)⟩

/-- A planted scene hides nothing. -/
theorem hidesNothing_of_sown (h : Sown s met t) : t.HidesNothing := by
  intro p m _ hm d hd hx
  rcases h.exists_place (Option.isSome_iff_exists.2 ⟨m, hm⟩) with rfl | ⟨a, ha, rfl⟩
  · obtain ⟨m', hm', hk, -⟩ := h.first
    obtain rfl := Option.some.inj (hm.symm.trans hm')
    rw [hk] at hd
    obtain rfl := List.mem_singleton.1 hd
    exact absurd hx nofun
  · obtain ⟨-, n, name, hn, hp, -⟩ := h.planted a ha
    obtain rfl := Option.some.inj (hm.symm.trans hp)
    have hd' : d ∈ n.kind.fields := by rwa [Node.kind_setAll] at hd
    refine (congrArg FieldValue.refs (value_planted name hd')).trans ?_
    rw [if_neg (by simp [hx])]
    exact n.kind.refs_declared d hd'

/-- A closed scene is written as a text that is read as the scene planted for it. -/
theorem Closed.readVrml_write_eq (h : s.Closed) (indent : Nat) :
    (Scene.empty.readVrml (s.write indent).text).scene = Scene.empty.plant s.outline.toList :=
  (readVrml_file s.outline (sown_outline h.writable).1 indent).2

/-- A closed scene that hides nothing is written again as the same text. -/
theorem HidesNothing.write_readVrml_write (hh : s.HidesNothing) (h : s.Closed) (indent : Nat) :
    ((Scene.empty.readVrml (s.write indent).text).scene.write indent).text =
      (s.write indent).text := by
  rw [h.readVrml_write_eq]
  exact ((mirrors_of_sown h.writable hh (sown_outline h.writable).2).write indent).1

end Scene

/-! ### Names that are used -/

namespace Vrml

/-- A name in a file: where it is defined, or where it is used. -/
inductive Mention
  | definition (name : String)
  | use (name : String)
  deriving DecidableEq

variable {α : Type}

mutual

/-- The names of a block, in order. -/
def Block.mentions : Block α → List Mention
  | .use name => [.use name]
  | .node _ name _ body => name.toList.map .definition ++ body.mentions

/-- The names in the fields of a node. -/
def Body.mentions : Body α → List Mention
  | .done => []
  | .value _ _ rest => rest.mentions
  | .single _ b rest => b.mentions ++ rest.mentions
  | .list _ bs rest => bs.mentions ++ rest.mentions

/-- The names in a list of blocks. -/
def Blocks.mentions : Blocks α → List Mention
  | .nil => []
  | .cons b bs => b.mentions ++ bs.mentions

end

mutual

theorem Block.mentions_bare (b : Block α) : b.bare.mentions = b.mentions :=
  match b with
  | .use _ => rfl
  | .node _ _ _ body => by rw [Block.bare, Block.mentions, Block.mentions, body.mentions_bare]

theorem Body.mentions_bare (b : Body α) : b.bare.mentions = b.mentions :=
  match b with
  | .done => rfl
  | .value _ _ rest => rest.mentions_bare
  | .single _ b rest => by
    rw [Body.bare, Body.mentions, Body.mentions, b.mentions_bare, rest.mentions_bare]
  | .list _ bs rest => by
    rw [Body.bare, Body.mentions, Body.mentions, bs.mentions_bare, rest.mentions_bare]

theorem Blocks.mentions_bare (bs : Blocks α) : bs.bare.mentions = bs.mentions :=
  match bs with
  | .nil => rfl
  | .cons b bs => by
    rw [Blocks.bare, Blocks.mentions, Blocks.mentions, b.mentions_bare, bs.mentions_bare]

end

variable {s : Scene} {pending more met met₁ met' : List NodeId}
  {ms ms' : List Mention} {meet : Meeting} {bound : Nat}

/-- An outline went on from some nodes met to more, following references: only the first one to a
node with a name is no use of the name, and all names are those of shared nodes. -/
structure Settles (s : Scene) (pending met : List NodeId) (ms : List Mention) (met' : List NodeId) :
    Prop where
  subset : met ⊆ met'
  count : ∀ x name, s.sharedNames.lookup x = some name →
    met.count x + pending.count x + (s.later (s.root :: met)).count x ≤
      ms.count (.use name) + met'.count x + (s.later (s.root :: met')).count x
  shared : ∀ y, .definition y ∈ ms → ∃ a, s.sharedNames.lookup a = some y

namespace Settles

theorem nil : Settles s [] met [] met :=
  ⟨fun _ h => h, fun _ _ _ => by simp, fun _ h => absurd h List.not_mem_nil⟩

theorem append (h : Settles s pending met ms met₁)
    (h' : Settles s more met₁ ms' met') :
    Settles s (pending ++ more) met (ms ++ ms') met' := by
  refine ⟨fun y hy => h'.subset (h.subset hy), fun x name hname => ?_, fun y hy => ?_⟩
  · have hfirst := h.count x name hname
    have hthen := h'.count x name hname
    rw [List.count_append, List.count_append]
    omega
  · exact (List.mem_append.1 hy).elim (h.shared y) (h'.shared y)

end Settles

/-- A meeting within a bound settles the reference that it follows. -/
def Pays (s : Scene) (meet : Meeting) (bound : Nat) : Prop :=
  ∀ id met, s.Listed id → s.unmet met < bound →
    ∃ b met', meet id met = (some b, met') ∧ Settles s [id] met b.mentions met'

theorem Pays.list (h : Pays s meet bound) {ids : List NodeId} (hids : ∀ a ∈ ids, s.Listed a)
    (hb : s.unmet met < bound) :
    ∃ bs met', outlineList meet ids met = (bs, met') ∧
      Settles s ids met bs.mentions met' := by
  induction ids generalizing met with
  | nil => exact ⟨.nil, met, rfl, .nil⟩
  | cons id ids ih =>
    obtain ⟨hid, hids⟩ := List.forall_mem_cons.1 hids
    obtain ⟨b, met₁, hmeet, hfirst⟩ := h id met hid hb
    obtain ⟨bs, met₂, hlist, hrest⟩ :=
      ih hids (Nat.lt_of_le_of_lt (Scene.unmet_le_of_subset hfirst.subset) hb)
    refine ⟨.cons b bs, met₂, ?_, hfirst.append hrest⟩
    simp only [outlineList, hmeet, hlist]

theorem Pays.body (h : Pays s meet bound) {l : List (String × FieldValue)}
    (hl : ∀ p ∈ l, ∀ r ∈ p.2.refs, s.Listed r) (hb : s.unmet met < bound) :
    ∃ body met', outlineBody meet l met = (body, met') ∧
      Settles s (l.flatMap (·.2.refs)) met body.mentions met' := by
  induction l generalizing met with
  | nil => exact ⟨.done, met, rfl, .nil⟩
  | cons p l ih =>
    obtain ⟨field, v⟩ := p
    obtain ⟨hv, hl⟩ := List.forall_mem_cons.1 hl
    have hnext : ∀ {met₁ : List NodeId}, met ⊆ met₁ →
        ∃ body met', outlineBody meet l met₁ = (body, met') ∧
          Settles s (l.flatMap (·.2.refs)) met₁ body.mentions met' := fun hsub =>
      ih hl (Nat.lt_of_le_of_lt (Scene.unmet_le_of_subset hsub) hb)
    obtain ⟨body, met', hbody, hrest⟩ := hnext fun _ hx => hx
    cases v with
    | one k y =>
      exact ⟨.value field (.one k y) body, met', by simp only [outlineBody, hbody], hrest⟩
    | many k ys =>
      exact ⟨.value field (.many k ys) body, met', by simp only [outlineBody, hbody], hrest⟩
    | node target =>
      cases target with
      | none =>
        exact ⟨.value field (.node none) body, met', by simp only [outlineBody, hbody], hrest⟩
      | some id =>
        obtain ⟨b, met₁, hmeet, hfirst⟩ := h id met (hv id (List.mem_singleton_self id)) hb
        obtain ⟨body, met', hbody, hrest⟩ := hnext hfirst.subset
        refine ⟨.single field b body, met', ?_, hfirst.append hrest⟩
        simp only [outlineBody, hmeet, hbody]
    | nodes ids =>
      have hids : ∀ a ∈ ids, s.Listed a := hv
      obtain ⟨bs, met₁, hlist, hfirst⟩ := h.list hids hb
      obtain ⟨body, met', hbody, hrest⟩ := hnext hfirst.subset
      refine ⟨.list field bs body, met', ?_, hfirst.append hrest⟩
      simp only [outlineBody, hlist, hbody]

/-- What a listed node refers to is followed later until the node is met. -/
theorem count_later_listed {id : NodeId} {n : Node} (x : NodeId) (hid : s.Listed id)
    (hn : s.node? id = some n) (hmet : id ∉ met) :
    (s.later (s.root :: met)).count x =
      n.refs.count x + (s.later (s.root :: id :: met)).count x := by
  have hwalk : id ∈ s.walk s.root :=
    Scene.mem_walk_iff.2 ⟨by simp [hn], hid.1.reaches⟩
  have hnew : id ∉ s.root :: met := by simp [hid.2, hmet]
  have hswap : s.later (id :: s.root :: met) = s.later (s.root :: id :: met) :=
    Scene.later_congr fun b => by simp [or_left_comm]
  rw [Scene.count_later x hwalk hnew, hswap, Scene.refs_of_node? hn]

/-- The fields that a file shows of a node that hides nothing refer to what the node refers to. -/
theorem flatMap_shown {n : Node}
    (h : ∀ d ∈ n.kind.fields, d.exposed = false → (n.value d).refs = []) :
    (n.changed.filter (·.1.exposed)).flatMap (·.2.refs) = n.refs := by
  rw [n.shown_eq_map, List.flatMap_map, Node.refs_eq_flatMap_slots, n.slots_eq_map,
    List.flatMap_map]
  refine flatMap_filter_of_nil fun d hd hkeep => ?_
  cases hx : d.exposed with
  | false => exact h d hd hx
  | true =>
    have hsame : (n.value d).same d.declared = true := by simpa [hx] using hkeep
    exact (FieldValue.refs_of_same hsame).trans (n.kind.refs_declared d hd)

/-- The written fields of a node that hides nothing refer to all that the node refers to. -/
theorem count_written_eq {n : Node}
    (h : ∀ d ∈ n.kind.fields, d.exposed = false → (n.value d).refs = []) (x : NodeId) :
    (n.written.flatMap (·.2.refs)).count x = n.refs.count x := by
  rw [(n.perm_written.flatMap_right _).count_eq, List.flatMap_map, ← flatMap_shown h]

/-- **One meeting of the outline of a scene that hides nothing.** -/
theorem pays_outlineNode (hs : s.Writable) (hh : s.HidesNothing) (bound : Nat) :
    Pays s (s.outlineNode s.sharedNames bound) bound := by
  induction bound with
  | zero => exact fun _ _ _ hb => absurd hb (Nat.not_lt_zero _)
  | succ bound ih =>
    intro id met hid hb
    obtain ⟨n, hn, hreg⟩ := exists_node_of_listed hs hid
    by_cases hmet : id ∈ met
    · refine ⟨.use ((s.sharedNames.lookup id).getD ""), met, ?_, fun _ hx => hx,
        fun x name hname => ?_, ?_⟩
      · rw [Scene.outlineNode, if_pos (by simpa using hmet)]
      · by_cases hx : id = x
        · subst hx
          rw [hname]
          simp [Block.mentions, Nat.add_comm]
        · simp [hx]
      · simp [Block.mentions]
    · obtain ⟨body, met', hbody, hbelow⟩ :=
        ih.body (fun p hp => (written_spec hs hid.1 hn p hp).2.2)
          (Scene.unmet_cons_lt_of_lt_succ hn hmet hb)
      refine ⟨.node id (s.sharedNames.lookup id) n.kind body, met', ?_,
        fun y hy => hbelow.subset (List.mem_cons_of_mem _ hy), fun x name hname => ?_,
        fun y hy => ?_⟩
      · rw [Scene.outlineNode, if_neg (by simpa using hmet), hn]
        simp only [hreg, if_true, hbody]
      · have hcount := hbelow.count x name hname
        have hlater := count_later_listed x hid hn hmet
        have hrefs := count_written_eq (hh id n hid.1 hn) x
        have hcons : (id :: met).count x = [id].count x + met.count x := by
          rw [← List.singleton_append, List.count_append]
        have hnone :
            ((s.sharedNames.lookup id).toList.map Mention.definition).count (.use name) = 0 :=
          List.count_eq_zero.2 fun hm => by simp at hm
        rw [Block.mentions, List.count_append, hnone]
        omega
      · rcases List.mem_append.1 hy with hy | hy
        · obtain ⟨z, hz, he⟩ := List.mem_map.1 hy
          obtain rfl := Mention.definition.inj he
          exact ⟨id, Option.mem_toList.1 hz⟩
        · exact hbelow.shared y hy

/-- The nodes met in the outline of a scene that hides nothing are all that are reached but the
root, so that nothing is left to follow. -/
theorem later_outlined (hs : s.Writable) (hh : s.HidesNothing) :
    s.later (s.root :: outlined s) = [] := by
  have hnone : (s.walk s.root).filter (fun a => !(s.root :: outlined s).contains a) = [] := by
    refine List.filter_eq_nil_iff.2 fun a ha => ?_
    have hshown := ((sown_outline hs).2.shownFrom_iff hs).1
      (hh.shownFrom (Scene.mem_walk_iff.1 ha).2)
    simpa [or_iff_not_imp_left] using hshown
  rw [Scene.later, hnone]
  rfl

/-- Every name that is defined in the outline of a scene that hides nothing is used in it. -/
theorem use_mem_mentions (hs : s.Writable) (hh : s.HidesNothing) {name : String}
    (h : .definition name ∈ s.outline.mentions) : .use name ∈ s.outline.mentions := by
  have hbound : s.unmet [] < s.size + 1 := by simp
  obtain ⟨bs, met, hlist, hsettles⟩ :=
    (pays_outlineNode hs hh (s.size + 1)).list (listed_of_mem_children hs) hbound
  have hout : s.outline = bs := by rw [Scene.outline, hlist]
  have hmet : outlined s = met := by rw [outlined, hlist]
  rw [hout] at h ⊢
  obtain ⟨x, hname⟩ := hsettles.shared name h
  have hcount := hsettles.count x name hname
  have hlater := hmet ▸ later_outlined hs hh
  have hnodup := hmet ▸ (sown_outline hs).2.nodup
  have htwice := Scene.two_le_of_sharedName hname
  rw [count_references hs.root] at htwice
  -- the root and the nodes met are each met once
  have hone : [s.root].count x + met.count x ≤ 1 := by
    rw [← List.count_append]
    refine List.nodup_iff_count_le_one.1 (List.nodup_cons.2 ⟨fun hm => ?_, hnodup⟩) x
    exact ((sown_outline hs).2.planted _ (hmet ▸ hm)).1.2 rfl
  rw [hlater, List.count_nil] at hcount
  refine List.count_pos_iff.1 ?_
  omega

end Vrml

namespace Scene

variable {s : Scene}

/-! ### Texts that are written again unchanged -/

/-- The names of a text, as it is read. -/
def mentionsIn (text : String) : List Mention :=
  (Blocks.ofList (readText (String.ofList (withoutMarks text.toList))).blocks).mentions

/-- A text that comes out again when what it is read as is written, and that uses all the names that
it defines. -/
structure IsFixed (indent : Nat) (text : String) : Prop where
  read : (Scene.empty.readVrml text).result = .ok ()
  written : ((Scene.empty.readVrml text).scene.write indent).failure = none
  same : ((Scene.empty.readVrml text).scene.write indent).text = text
  used : ∀ name, .definition name ∈ mentionsIn text → .use name ∈ mentionsIn text

/-- A closed scene that hides nothing is written as a text that is fixed. -/
theorem Closed.isFixed_write (h : s.Closed) (hh : s.HidesNothing) (indent : Nat) :
    IsFixed indent (s.write indent).text := by
  have hread := (h.write_spec indent).2
  have hmentions : mentionsIn (s.write indent).text = s.outline.mentions := by
    rw [mentionsIn, (readText_write h.writable indent).2, Blocks.ofList_toList,
      Blocks.mentions_bare]
  refine ⟨hread, ((IsRead.vrml _ hread).closed.write_spec indent).1,
    hh.write_readVrml_write h indent, fun name hname => ?_⟩
  rw [hmentions] at hname ⊢
  exact use_mem_mentions h.writable hh hname

/-- **Written text is fixed**, provided that the scene that was read hid nothing: then the text that
is written for it is read as a scene that is written as the same text, and each name that is defined
in it is used.  In any case the text that is written for that scene is fixed. -/
theorem isFixed_write_readVrml (text : String) (hok : (Scene.empty.readVrml text).result = .ok ())
    (indent : Nat) :
    let s := (Scene.empty.readVrml text).scene
    let t := (Scene.empty.readVrml (s.write indent).text).scene
    (s.write indent).failure = none ∧ (Scene.empty.readVrml (s.write indent).text).result = .ok () ∧
      (s.HidesNothing → IsFixed indent (s.write indent).text) ∧
      IsFixed indent (t.write indent).text := by
  have hs := (IsRead.vrml text hok).closed
  obtain ⟨hwritten, hread⟩ := hs.write_spec indent
  refine ⟨hwritten, hread, fun hh => hs.isFixed_write hh indent, ?_⟩
  refine (IsRead.vrml _ hread).closed.isFixed_write ?_ indent
  rw [hs.readVrml_write_eq]
  exact hidesNothing_of_sown (sown_outline hs.writable).2

theorem hidesNothing_of_forall
    (h : ∀ n ∈ s.nodes, ∀ d ∈ n.kind.fields, d.exposed = false → (n.value d).refs = []) :
    s.HidesNothing :=
  fun _ n _ hn => h n (Array.mem_of_getElem? hn)

/-- A text whose only shape is used again. -/
def shareText : String := "#VRML V2.0 utf8\nGroup \x7b children [ DEF A Shape \x7b\x7d USE A ] \x7d"

theorem isFixed_write_share : (Scene.empty.readVrml shareText).result = .ok () ∧
    IsFixed 2 ((Scene.empty.readVrml shareText).scene.write 2).text := by
  have hok : (Scene.empty.readVrml shareText).result = .ok () := by decide +kernel
  have hhides : (Scene.empty.readVrml shareText).scene.HidesNothing :=
    hidesNothing_of_forall (by decide +kernel)
  exact ⟨hok, (isFixed_write_readVrml shareText hok 2).2.2.1 hhides⟩

/-- A text with a shape that a field refers to that files do not show. -/
def hiddenText : String :=
  "#VRML V2.0 utf8\nGroup \x7b addChildren [ DEF A Shape \x7b\x7d ] children [ USE A ] \x7d"

/-- The shape counts as shared, so that it is written under a name that nothing uses; read and
written again, it has none. -/
theorem not_isFixed_write_hidden : (Scene.empty.readVrml hiddenText).result = .ok () ∧
    ((Scene.empty.readVrml
        ((Scene.empty.readVrml hiddenText).scene.write 0).text).scene.write 0).text ≠
      ((Scene.empty.readVrml hiddenText).scene.write 0).text ∧
    .definition "ref_0" ∈ mentionsIn ((Scene.empty.readVrml hiddenText).scene.write 0).text ∧
    .use "ref_0" ∉ mentionsIn ((Scene.empty.readVrml hiddenText).scene.write 0).text := by
  have hfirst : ((Scene.empty.readVrml hiddenText).scene.write 0).text =
      "#VRML V2.0 utf8\nGroup \x7b\nchildren [\nDEF ref_0 Shape \x7b\n\x7d\n]\n\x7d\n" := by
    decide +kernel
  rw [hfirst]
  decide +kernel

end Scene

end SceneTidy

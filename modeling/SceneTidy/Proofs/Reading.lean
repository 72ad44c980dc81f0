import SceneTidy.Proofs.Scene.Closed
import SceneTidy.Proofs.Scene.Sharing
import SceneTidy.Proofs.Vrml.Meaning
import SceneTidy.X3d.Reader

/-!
# Scenes that are read are closed

A text makes nodes of kinds that it has names for, and each reference that it makes leads to one of
them (`IsStatements.linked`).  An element tree is read by one change of the scene after the other,
each of which keeps it closed (`readNode_keeps`).  Main statement: a scene that was read without a
failure is closed (`IsRead.closed`).
-/

namespace SceneTidy

/-- Plain values refer to nothing. -/
theorem FieldValue.refs_of_kind {v : FieldValue} (hnode : v.kind ≠ .node)
    (hnodes : v.kind ≠ .nodes) : v.refs = [] := by
  cases v with
  | one k x => rfl
  | many k xs => rfl
  | node t => exact absurd rfl hnode
  | nodes ts => exact absurd rfl hnodes

namespace Vrml

/-- The tokens of a whole file. -/
def fileTokens (text : String) : List Token :=
  (tokenize (String.ofList (withoutMarks text.toList))).list

/-! ### Nodes that a text makes -/

variable {base : NodeId} {count : Nat} {made : List Made}

/-- References lead to nodes that a text makes, of which there is some number. -/
def Within (base : NodeId) (count : Nat) (ids : List NodeId) : Prop :=
  ∀ y ∈ ids, base ≤ y ∧ y < base + count

theorem Within.mono {more : Nat} {ids : List NodeId} (h : Within base count ids)
    (hle : count ≤ more) : Within base more ids :=
  fun y hy => ⟨(h y hy).1, Nat.lt_of_lt_of_le (h y hy).2 (Nat.add_le_add_left hle base)⟩

/-- A node that a text makes has a place in files and refers to nodes that the text makes. -/
structure Linked (base : NodeId) (count : Nat) (m : Made) : Prop where
  registered : m.kind.isRegistered = true
  within : ∀ p ∈ m.given, Within base count p.2.refs

/-- All nodes of a list are linked among nodes of some number. -/
def AllLinked (base : NodeId) (count : Nat) (made : List Made) : Prop :=
  ∀ m ∈ made, Linked base count m

theorem AllLinked.mono {more : Nat} (h : AllLinked base count made) (hle : count ≤ more) :
    AllLinked base more made :=
  fun m hm => ⟨(h m hm).registered, fun p hp => ((h m hm).within p hp).mono hle⟩

theorem AllLinked.append {first : Nat} {more : List Made} (h : AllLinked base first made)
    (hle : first ≤ count) (h' : AllLinked base count more) :
    AllLinked base count (made ++ more) :=
  List.forall_mem_append.2 ⟨h.mono hle, h'⟩

theorem IsPlainValue.within {kind : FieldKind} {ws : List Sign} {v : FieldValue}
    (h : IsPlainValue kind ws v) :
    Within base count v.refs := by
  have hkind := h.kind_eq
  rw [FieldValue.refs_of_kind]
  · exact fun y hy => absurd hy List.not_mem_nil
  · rw [hkind]
    cases h <;> simp
  · rw [hkind]
    cases h <;> simp

theorem StandsFor.within {opened : List (Option String)} {name : String} {k : Nat}
    (h : StandsFor opened name k) :
    Within base opened.length [base + k] := by
  intro y hy
  obtain rfl := List.mem_singleton.1 hy
  exact ⟨Nat.le_add_right _ _,
    Nat.add_lt_add_left (List.getElem?_eq_some_iff.1 h.1).1 base⟩

mutual

theorem IsNode.linked {opened : List (Option String)} {ws : List Sign}
    {target : Option NodeId} {made : List Made} (h : IsNode base opened ws target made) :
    AllLinked base (opened.length + made.length) made ∧
      Within base (opened.length + made.length) target.toList := by
  match h with
  | .null => exact ⟨by simp [AllLinked], by simp [Within]⟩
  | .use h => exact ⟨by simp [AllLinked], h.within⟩
  | @IsNode.body _ _ name type kind ws given made hk h =>
    obtain ⟨hmade, hgiven⟩ := h.linked
    have hlen : (opened ++ [name]).length + made.length =
        opened.length + (Made.mk name kind given :: made).length := by
      simp only [List.length_append, List.length_cons, List.length_nil]
      omega
    rw [hlen] at hmade hgiven
    refine ⟨List.forall_mem_cons.2 ⟨⟨(eq_typeName hk).2, hgiven⟩, hmade⟩, fun y hy => ?_⟩
    obtain rfl := List.mem_singleton.1 hy
    exact ⟨Nat.le_add_right _ _,
      Nat.add_lt_add_left (Nat.lt_add_of_pos_right (Nat.succ_pos _)) base⟩

theorem IsItems.linked {kind : NodeKind} {opened : List (Option String)} {ws : List Sign}
    {given : List (String × FieldValue)} {made : List Made}
    (h : IsItems base kind opened ws given made) :
    AllLinked base (opened.length + made.length) made ∧
      ∀ p ∈ given, Within base (opened.length + made.length) p.2.refs := by
  match h with
  | .nil => exact ⟨by simp [AllLinked], by simp⟩
  | .route h => exact h.linked
  | @IsItems.field _ _ _ field d us v made ws given more hd hv h =>
    obtain ⟨hmade, hv⟩ := hv.linked
    obtain ⟨hmore, hgiven⟩ := h.linked
    have hlen : (opened ++ made.map Made.name).length + more.length =
        opened.length + (made ++ more).length := by
      simp only [List.length_append, List.length_map]
      omega
    rw [hlen] at hmore hgiven
    have hle : opened.length + made.length ≤ opened.length + (made ++ more).length := by
      rw [List.length_append]
      omega
    exact ⟨hmade.append hle hmore, List.forall_mem_cons.2 ⟨hv.mono hle, hgiven⟩⟩

theorem IsValue.linked {kind : FieldKind} {opened : List (Option String)} {ws : List Sign}
    {v : FieldValue} {made : List Made} (h : IsValue base kind opened ws v made) :
    AllLinked base (opened.length + made.length) made ∧
      Within base (opened.length + made.length) v.refs := by
  match h with
  | .node h => exact h.linked
  | .nodes h => exact h.linked
  | .list h => exact h.linked
  | .plain h => exact ⟨by simp [AllLinked], h.within⟩

/-- Whatever statements make and list is linked among the nodes that are made. -/
theorem IsStatements.linked {opened : List (Option String)} {ws : List Sign}
    {targets : List NodeId} {made : List Made} (h : IsStatements base opened ws targets made) :
    AllLinked base (opened.length + made.length) made ∧
      Within base (opened.length + made.length) targets := by
  match h with
  | .nil => exact ⟨by simp [AllLinked], by simp [Within]⟩
  | .route h => exact h.linked
  | @IsStatements.node _ _ us target made ws targets more hn h =>
    obtain ⟨hmade, htarget⟩ := hn.linked
    obtain ⟨hmore, htargets⟩ := h.linked
    have hlen : (opened ++ made.map Made.name).length + more.length =
        opened.length + (made ++ more).length := by
      simp only [List.length_append, List.length_map]
      omega
    rw [hlen] at hmore htargets
    have hle : opened.length + made.length ≤ opened.length + (made ++ more).length := by
      rw [List.length_append]
      omega
    exact ⟨hmade.append hle hmore, List.forall_mem_append.2 ⟨htarget.mono hle, htargets⟩⟩

end

end Vrml

open Vrml

namespace Scene

variable {s : Scene}

/-- The new nodes are listed if they have places in files. -/
theorem listable_pushAll {made : List Made} (hmade : AllLinked s.size made.length made) {y : NodeId}
    (hy : s.size ≤ y ∧ y < s.size + made.length) :
    (s.pushAll (made.map Made.node)).Listable y := by
  obtain ⟨hle, hlt⟩ := hy
  have hlt' : y - s.size < made.length := Nat.sub_lt_left_of_lt_add hle hlt
  refine listable_of_node? (n := made[y - s.size].node) ?_ ?_
  · rw [node?_pushAll, if_neg (Nat.not_lt.2 hle), List.getElem?_map,
      List.getElem?_eq_getElem hlt', Option.map_some]
  · rw [Made.node, Node.kind_setAll]
    exact (hmade _ (List.getElem_mem hlt')).registered

/-- A scene stays closed when linked nodes are added. -/
theorem Closed.follows_pushAll (h : s.Closed) {made : List Made}
    (hmade : AllLinked s.size made.length made) :
    Follows s (s.pushAll (made.map Made.node)) := by
  have hkind : ∀ x k, s.kind? x = some k → (s.pushAll (made.map Made.node)).kind? x = some k := by
    intro x k hk
    obtain ⟨m, hm, rfl⟩ := Option.map_eq_some_iff.1 hk
    rw [kind?, node?_pushAll, if_pos (lt_size_of_node? hm), hm, Option.map_some]
  refine ⟨⟨hkind _ _ h.root, fun a b hab => ?_⟩, rfl, hkind⟩
  rw [Refers, refs, node?_pushAll] at hab
  split at hab
  · obtain ⟨k, hk, hreg⟩ := h.listable a b hab
    exact ⟨k, hkind b k hk, hreg⟩
  · rw [List.getElem?_map] at hab
    cases hm : made[a - s.size]? with
    | none => simp [hm] at hab
    | some m =>
      have hmem := hmade m (List.mem_of_getElem? hm)
      have hb : b ∈ m.node.refs := by simpa [hm] using hab
      rcases Node.mem_refs_of_mem_refs_setAll hb with hb | ⟨p, hp, hb⟩
      · rw [Node.refs_create] at hb
        exact absurd hb List.not_mem_nil
      · exact listable_pushAll hmade (hmem.within p hp b hb)

theorem Closed.follows_appendTop (h : s.Closed) {ts : List NodeId}
    (hts : ∀ y ∈ ts, s.Listable y) : Follows s (s.appendTop ts) :=
  h.follows_setChildren fun y hy =>
    (List.mem_append.1 hy).elim (fun hy => h.of_mem_children hy) (hts y)

/-- What is read without a failure are statements, and the scene is what they make. -/
theorem exists_isStatements_of_take {ts : List Token}
    (hok : (s.take (readTokens ts)).result = .ok ()) :
    ∃ targets made, IsStatements s.size [] (ts.map Token.sign) targets made ∧
      (s.take (readTokens ts)).scene = (s.pushAll (made.map Made.node)).appendTop targets := by
  have hfailure : (readTokens ts).failure = none := by
    cases hf : (readTokens ts).failure with
    | none => rfl
    | some e => simp [take, hf] at hok
  obtain ⟨targets, made, hlist⟩ := isStatements_of_readTokens s.size hfailure
  exact ⟨targets, made, hlist, hlist.reading.2⟩

/-- The tokens of a file that is read are statements, and the scene is what they make. -/
theorem exists_isStatements_of_readVrml {text : String}
    (hok : (s.readVrml text).result = .ok ()) :
    ∃ targets made, IsStatements s.size [] ((fileTokens text).map Token.sign) targets made ∧
      (s.readVrml text).scene = (s.pushAll (made.map Made.node)).appendTop targets := by
  have htake : (s.take (readText (String.ofList (withoutMarks text.toList)))).result = .ok () := hok
  have hscene : (s.readVrml text).scene =
      (s.take (readText (String.ofList (withoutMarks text.toList)))).scene := rfl
  rw [hscene]
  unfold readText at htake ⊢
  dsimp only at htake ⊢
  split
  · next hopen => simp [take, hopen] at htake
  · next hopen =>
    rw [hopen] at htake
    exact exists_isStatements_of_take htake

/-- A scene stays closed when a file is read into it. -/
theorem Closed.follows_readVrml (h : s.Closed) {text : String}
    (hok : (s.readVrml text).result = .ok ()) : Follows s (s.readVrml text).scene := by
  obtain ⟨targets, made, hlist, hscene⟩ := exists_isStatements_of_readVrml hok
  obtain ⟨hmade, htargets⟩ := hlist.linked
  rw [List.length_nil, Nat.zero_add] at hmade htargets
  have hpush := h.follows_pushAll hmade
  rw [hscene]
  exact hpush.trans (hpush.closed.follows_appendTop fun y hy =>
    listable_pushAll hmade (htargets y hy))

end Scene

/-! ### Element trees -/

namespace X3d

open Vrml.Reader Scene

/-- A scene that is being read is closed, and names stand for nodes that files can list. -/
structure ReadState.Sound (st : ReadState) : Prop where
  closed : st.scene.Closed
  names : ∀ p ∈ st.names, st.scene.Listable p.2

/-- A step of reading that keeps the state sound, and the nodes their kinds. -/
structure ReadState.Step (st st' : ReadState) : Prop where
  sound : st'.Sound
  follows : Follows st.scene st'.scene

variable {st st' st₁ : ReadState} {id : NodeId} {kind : NodeKind}

theorem ReadState.Sound.refl (h : st.Sound) : st.Step st := ⟨h, .refl h.closed⟩

theorem ReadState.Step.trans (h : st.Step st₁) (h' : st₁.Step st') : st.Step st' :=
  ⟨h'.sound, h.follows.trans h'.follows⟩

/-- A change of the scene that leads on to a closed one is a step. -/
theorem ReadState.Sound.change (h : st.Sound) {t : Scene} (ht : Follows st.scene t) :
    st.Step { st with scene := t } :=
  ⟨⟨ht.closed, fun p hp => ht.listable (h.names p hp)⟩, ht⟩

namespace Reader

theorem step_of_tell (h : st.Sound) {n : Notice} (hrun : tell n st = .ok () st') : st.Step st' := by
  obtain rfl : { st with notices := st.notices ++ [n] } = st' := (EStateM.Result.ok.inj hrun).2
  exact ⟨⟨h.closed, h.names⟩, .refl h.closed⟩

theorem step_of_change (h : st.Sound) {f : Scene → Scene} (hf : Follows st.scene (f st.scene))
    (hrun : change f st = .ok () st') : st.Step st' := by
  obtain rfl : { st with scene := f st.scene } = st' := (EStateM.Result.ok.inj hrun).2
  exact h.change hf

theorem step_of_create (h : st.Sound) (hk : kind.isRegistered = true) {name : Option String}
    (hrun : create kind name st = .ok id st') : st.Step st' ∧ st'.scene.Listable id := by
  obtain ⟨rfl, rfl⟩ := EStateM.Result.ok.inj hrun
  have hpush : Follows st.scene (st.scene.push (Node.create kind name)) :=
    h.closed.follows_push (by simp)
  have hnew : (st.scene.push (Node.create kind name)).Listable st.scene.next :=
    st.scene.listable_push hk
  refine ⟨⟨⟨hpush.closed, fun p hp => ?_⟩, hpush⟩, hnew⟩
  rcases List.mem_append.1 hp with hp | hp
  · obtain ⟨n, -, rfl⟩ := Option.map_eq_some_iff.1 (Option.mem_toList.1 hp)
    exact hnew
  · exact hpush.listable (h.names p hp)

theorem refs_of_attributeValue {d : FieldDecl} (hd : holdsNodes d = false) {text : String}
    {v : FieldValue} (h : attributeValue d.kind text = .ok v) : v.refs = [] := by
  have hkind : v.kind = d.kind := by
    unfold attributeValue at h
    split at h
    · next hk =>
      obtain rfl := Except.ok.inj h
      exact hk.symm
    · next hk =>
      obtain rfl := Except.ok.inj h
      exact hk.symm
    · exact kind_of_read h
  rw [holdsNodes, Bool.or_eq_false_iff, decide_eq_false_iff_not, decide_eq_false_iff_not] at hd
  exact FieldValue.refs_of_kind (hkind ▸ hd.1) (hkind ▸ hd.2)

theorem step_of_readAttribute (h : st.Sound) {attr : String × String}
    (hrun : readAttribute id kind attr st = .ok () st') : st.Step st' := by
  unfold readAttribute at hrun
  split at hrun
  · obtain ⟨-, rfl⟩ := pure_eq_ok.1 hrun
    exact h.refl
  · cases hd : (kind.field? (Xml.localName attr.1)).filter (!holdsNodes ·) with
    | none =>
      rw [hd] at hrun
      exact step_of_tell h hrun
    | some d =>
      rw [hd] at hrun
      dsimp only at hrun
      have hplain : holdsNodes d = false := by simpa using (Option.filter_eq_some_iff.1 hd).2
      cases hv : attributeValue d.kind attr.2 with
      | ok v =>
        rw [hv] at hrun
        refine step_of_change h (h.closed.follows_set ?_) hrun
        rw [refs_of_attributeValue hplain hv]
        exact fun y hy => absurd hy List.not_mem_nil
      | error e =>
        rw [hv] at hrun
        cases e <;> cases hrun

theorem step_of_forM {l : List (String × String)} (h : st.Sound)
    (hrun : l.forM (readAttribute id kind) st = .ok () st') : st.Step st' := by
  induction l generalizing st with
  | nil =>
    obtain ⟨-, rfl⟩ := pure_eq_ok.1 hrun
    exact h.refl
  | cons attr l ih =>
    rw [List.forM_eq_forM, List.forM_cons] at hrun
    obtain ⟨⟨⟩, st₁, hone, hrest⟩ := bind_eq_ok.1 hrun
    have hstep := step_of_readAttribute h hone
    exact hstep.trans (ih hstep.sound hrest)

theorem step_of_attach (h : st.Sound) {parent child : NodeId} {childKind : NodeKind}
    {asked : Option String} (hchild : st.scene.Listable child)
    (hrun : attach parent kind child childKind asked st = .ok () st') : st.Step st' := by
  unfold attach at hrun
  match hfield : (kind.field? (containerOf kind childKind asked)).map FieldDecl.kind with
  | some .node =>
    rw [hfield] at hrun
    refine step_of_change h (h.closed.follows_set fun y hy => ?_) hrun
    obtain rfl := List.mem_singleton.1 hy
    exact hchild
  | some .nodes =>
    rw [hfield] at hrun
    refine step_of_change h ?_ hrun
    refine h.closed.follows_modify (fun _ _ => by rw [Node.kind_set]) fun n hn y hy => ?_
    rcases Node.mem_refs_of_mem_refs_set hy with hy | hy
    · exact h.closed.of_mem_refs hn hy
    · rcases List.mem_append.1 hy with hy | hy
      · exact h.closed.of_mem_refs hn ((n.targets_sublist_refs _).subset hy)
      · obtain rfl := List.mem_singleton.1 hy
        exact hchild
  | none | some (.one k) | some (.many k) =>
    rw [hfield] at hrun
    cases hrun

mutual

/-- Reading an element keeps the state sound and gives a node that files can list. -/
theorem step_of_readNode (skipped : List NodeKind) {item : Xml.Item} {r : NodeId × NodeKind}
    {st st' : ReadState} (h : st.Sound) (hrun : readNode skipped item st = .ok r st') :
    st.Step st' ∧ st'.scene.Listable r.1 := by
  match item with
  | .aside =>
    rw [readNode] at hrun
    cases hrun
  | .element tag attributes children =>
    rw [readNode] at hrun
    cases huse : attributes.lookup "USE" with
    | some name =>
      rw [huse] at hrun
      obtain ⟨st₁, st₂, hget, hrun⟩ := bind_eq_ok.1 hrun
      obtain ⟨rfl, rfl⟩ := EStateM.Result.ok.inj hget
      cases hid : st.names.lookup name with
      | none =>
        rw [hid] at hrun
        cases hrun
      | some id =>
        rw [hid] at hrun
        obtain ⟨rfl, rfl⟩ := pure_eq_ok.1 hrun
        exact ⟨h.refl, h.names (name, id) (mem_of_lookup hid)⟩
    | none =>
      rw [huse] at hrun
      dsimp only at hrun
      cases hkind : NodeKind.ofTypeName? (Xml.localName tag) with
      | none =>
        rw [hkind] at hrun
        cases hrun
      | some kind =>
        rw [hkind] at hrun
        obtain ⟨id, st₁, hcreate, hrun⟩ := bind_eq_ok.1 hrun
        obtain ⟨⟨⟩, st₂, hattributes, hrun⟩ := bind_eq_ok.1 hrun
        obtain ⟨⟨⟩, st₃, hchildren, hrun⟩ := bind_eq_ok.1 hrun
        obtain ⟨rfl, rfl⟩ := pure_eq_ok.1 hrun
        obtain ⟨hnew, hid⟩ := step_of_create h (eq_typeName hkind).2 hcreate
        have hfields := step_of_forM hnew.sound hattributes
        have hbelow := step_of_readChildren skipped hfields.sound hchildren
        exact ⟨(hnew.trans hfields).trans hbelow,
          hbelow.follows.listable (hfields.follows.listable hid)⟩

theorem step_of_readChildren (skipped : List NodeKind) {parent : NodeId} {parentKind : NodeKind}
    {parentTag : String} {items : List Xml.Item} {st st' : ReadState} (h : st.Sound)
    (hrun : readChildren skipped parent parentKind parentTag items st = .ok () st') :
    st.Step st' := by
  match items with
  | [] =>
    rw [readChildren] at hrun
    obtain ⟨-, rfl⟩ := pure_eq_ok.1 hrun
    exact h.refl
  | .aside :: rest =>
    rw [readChildren] at hrun
    exact step_of_readChildren skipped h hrun
  | .element tag attributes children :: rest =>
    rw [readChildren] at hrun
    dsimp only at hrun
    split at hrun
    · obtain ⟨⟨⟩, st₁, htell, hrest⟩ := bind_eq_ok.1 hrun
      have hstep := step_of_tell h htell
      exact hstep.trans (step_of_readChildren skipped hstep.sound hrest)
    · obtain ⟨⟨child, kind⟩, st₁, hchild, hrun⟩ := bind_eq_ok.1 hrun
      obtain ⟨hnode, hlistable⟩ := step_of_readNode skipped h hchild
      dsimp only at hrun
      split at hrun
      · obtain ⟨⟨⟩, st₂, htell, hrest⟩ := bind_eq_ok.1 hrun
        have hstep := step_of_tell hnode.sound htell
        exact (hnode.trans hstep).trans (step_of_readChildren skipped hstep.sound hrest)
      · obtain ⟨⟨⟩, st₂, hattach, hrest⟩ := bind_eq_ok.1 hrun
        have hstep := step_of_attach hnode.sound hlistable hattach
        exact (hnode.trans hstep).trans (step_of_readChildren skipped hstep.sound hrest)

end

end Reader

/-- A document is read into a closed scene. -/
theorem closed_readDocument {skipped : List NodeKind} {document : Xml.Item}
    (hok : (readDocument skipped document).result = .ok ()) :
    (readDocument skipped document).scene.Closed := by
  unfold readDocument at hok ⊢
  cases hitems : sceneItems document with
  | error e => simp [hitems] at hok
  | ok items =>
    simp only [hitems] at hok ⊢
    have hstart : ReadState.Sound ⟨.empty, [], []⟩ :=
      ⟨closed_empty, fun p hp => absurd hp List.not_mem_nil⟩
    split
    · next st hrun => exact (Reader.step_of_readChildren skipped hstart hrun).sound.closed
    · next e st hrun => simp [hrun] at hok

end X3d

namespace Scene

/-- A scene that was read without a failure, from a text or from an element tree. -/
inductive IsRead : Scene → Prop
  | vrml (text : String) (h : (Scene.empty.readVrml text).result = .ok ()) :
      IsRead (Scene.empty.readVrml text).scene
  | x3d (skipped : List NodeKind) (document : Xml.Item)
      (h : (X3d.readDocument skipped document).result = .ok ()) :
      IsRead (X3d.readDocument skipped document).scene

/-- **A scene that was read without a failure is closed.** -/
theorem IsRead.closed {s : Scene} (h : s.IsRead) : s.Closed := by
  cases h with
  | vrml text h => exact (closed_empty.follows_readVrml h).closed
  | x3d skipped document h => exact X3d.closed_readDocument h

end Scene

end SceneTidy

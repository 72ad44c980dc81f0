import SceneTidy.Proofs.Scene.Closed
import SceneTidy.Proofs.Vrml.Meaning
import SceneTidy.Proofs.X3d.Elements

/-!
# What fills the fields of a node

A field that holds plain values gets those of the last attribute that is called like it (`Given`),
and a field that holds references gets the nodes of the elements inside the node's own that are put
there (`Attached`).  Main statement: a new node that is given attributes and then children holds
what its element says (`holds_of_attached`).
-/

namespace SceneTidy

namespace NodeKind

/-- No attribute without a field is called like one. -/
theorem name_not_silent (k : NodeKind) : ∀ d ∈ k.fields, d.name ∉ X3d.silentAttributes := by
  cases k <;> decide

end NodeKind

namespace X3d

open Reader

/-- The text of the last attribute with a local name. -/
def lastText (attributes : List (String × String)) (name : String) : Option String :=
  (attributes.reverse.find? (Xml.localName ·.1 = name)).map Prod.snd

theorem lastText_cons (a : String × String) (l : List (String × String)) (name : String) :
    lastText (a :: l) name =
      (lastText l name).or (if Xml.localName a.1 = name then some a.2 else none) := by
  rw [lastText, lastText, List.reverse_cons, List.find?_append]
  cases l.reverse.find? (Xml.localName ·.1 = name) with
  | some b => rfl
  | none => by_cases h : Xml.localName a.1 = name <;> simp [h]

variable {skipped : List NodeKind} {sites l m : List Site} {n n' n'' : Node} {k : Nat}
  {attributes : List (String × String)} {field : String} {kind : NodeKind} {id : NodeId}
  {st st' : ReadState}

/-- The node of a site goes into a field of its parent, unless it is skipped there. -/
def Site.goesInto (skipped : List NodeKind) (parent : NodeKind) (field : String) (a : Site) :
    Bool :=
  !(parent.isGrouping && skipped.contains a.kind) &&
    containerOf parent a.kind (a.element.attribute? "containerField") = field

/-- The nodes of sites that go into a field of their parent, in order. -/
def entries (skipped : List NodeKind) (parent : NodeKind) (field : String) (sites : List Site) :
    List NodeId :=
  (sites.filter (·.goesInto skipped parent field)).map Site.node

theorem entries_singleton (skipped : List NodeKind) (parent : NodeKind) (field : String)
    (a : Site) : entries skipped parent field [a] =
      if a.goesInto skipped parent field then [a.node] else [] := by
  cases h : a.goesInto skipped parent field <;> simp [entries, h]

theorem entries_append (skipped : List NodeKind) (parent : NodeKind) (field : String)
    (l m : List Site) :
    entries skipped parent field (l ++ m) =
      entries skipped parent field l ++ entries skipped parent field m := by
  rw [entries, List.filter_append, List.map_append]
  rfl

theorem entries_map_under (skipped : List NodeKind) (parent : NodeKind) (field : String) (k : Nat)
    (l : List Site) :
    entries skipped parent field (l.map (Site.under k)) = entries skipped parent field l := by
  rw [entries, List.filter_map, List.map_map]
  rfl

/-! ### Attributes -/

/-- A node whose plain fields were given what attributes say. -/
structure Given (attributes : List (String × String)) (n n' : Node) : Prop where
  kind : n'.kind = n.kind
  name : n'.name = n.name
  linked : ∀ d ∈ n.kind.fields, holdsNodes d = true → n'.get? d.name = n.get? d.name
  plain : ∀ d ∈ n.kind.fields, holdsNodes d = false → match lastText attributes d.name with
    | some text => ∃ v, attributeValue d.kind text = .ok v ∧ n'.get? d.name = some v
    | none => n'.get? d.name = n.get? d.name

theorem Given.nil (n : Node) : Given [] n n := ⟨rfl, rfl, fun _ _ _ => rfl, fun _ _ _ => rfl⟩

theorem Given.cons {a : String × String} (h : Given [a] n n') (h' : Given attributes n' n'') :
    Given (a :: attributes) n n'' := by
  refine ⟨h'.kind.trans h.kind, h'.name.trans h.name, fun d hd hl => ?_, fun d hd hp => ?_⟩
  · rw [h'.linked d (h.kind ▸ hd) hl, h.linked d hd hl]
  · have hone := h.plain d hd hp
    have hrest := h'.plain d (h.kind ▸ hd) hp
    rw [lastText_cons] at hone ⊢
    cases hlast : lastText attributes d.name with
    | some text =>
      rw [hlast] at hrest
      exact hrest
    | none =>
      rw [hlast] at hrest
      rw [show lastText [] d.name = none from rfl] at hone
      split at hone
      · obtain ⟨v, hv, hget⟩ := hone
        exact ⟨v, hv, hrest.trans hget⟩
      · exact hrest.trans hone

theorem kind_of_attributeValue {k : FieldKind} {text : String} {v : FieldValue}
    (h : attributeValue k text = .ok v) : v.kind = k := by
  unfold attributeValue at h
  split at h
  · exact Except.ok.inj h ▸ rfl
  · exact Except.ok.inj h ▸ rfl
  · exact Vrml.kind_of_read h

/-- The node at a place was changed, and nothing else but the notices. -/
structure Alters (st : ReadState) (id : NodeId) (f : Node → Node) (st' : ReadState) : Prop where
  scene : st'.scene = st.scene.modify id f
  names : st'.names = st.names

theorem Alters.trans {st₁ : ReadState} {f g : Node → Node} (h : Alters st id f st₁)
    (h' : Alters st₁ id g st') : Alters st id (g ∘ f) st' :=
  ⟨by rw [h'.scene, h.scene, Scene.modify_modify]; rfl, h'.names.trans h.names⟩

theorem Alters.of_tell {notice : Notice} (h : tell notice st = .ok () st') (id : NodeId) :
    Alters st id (fun n => n) st' := by
  obtain rfl : { st with notices := st.notices ++ [notice] } = st' := (EStateM.Result.ok.inj h).2
  exact ⟨(st.scene.modify_id id).symm, rfl⟩

section Attribute

variable {a : String × String}

theorem lastText_singleton (a : String × String) (name : String) :
    lastText [a] name = if Xml.localName a.1 = name then some a.2 else none := by
  rw [lastText_cons]
  rfl

/-- An attribute that is called like no plain field changes nothing. -/
theorem Given.of_ne (hne : ∀ d ∈ n.kind.fields, holdsNodes d = false → Xml.localName a.1 ≠ d.name) :
    Given [a] n n :=
  ⟨rfl, rfl, fun _ _ _ => rfl, fun d hd hp => by rw [lastText_singleton, if_neg (hne d hd hp)]⟩

/-- An attribute that is called like a plain field gives it a value. -/
theorem Given.set {d : FieldDecl} {v : FieldValue} (hd : d ∈ n.kind.fields)
    (hplain : holdsNodes d = false) (hname : d.name = Xml.localName a.1)
    (hv : attributeValue d.kind a.2 = .ok v) : Given [a] n (n.set (Xml.localName a.1) v) := by
  refine ⟨rfl, rfl, fun e he hl => ?_, fun e he _ => ?_⟩
  · refine n.get?_set_of_ne (fun hne => ?_) v
    obtain rfl := NodeKind.eq_of_name_eq hd he (hname.trans hne)
    exact Bool.false_ne_true (hplain.symm.trans hl)
  · rw [lastText_singleton]
    by_cases hne : Xml.localName a.1 = e.name
    · obtain rfl := NodeKind.eq_of_name_eq hd he (hname.trans hne)
      rw [if_pos hne, hne]
      exact ⟨v, hv, Node.get?_set_of_kind he (kind_of_attributeValue hv)⟩
    · rw [if_neg hne]
      exact n.get?_set_of_ne hne v

theorem exists_of_readAttribute (h : readAttribute id kind a st = .ok () st') :
    ∃ f, Alters st id f st' ∧ ∀ n, n.kind = kind → Given [a] n (f n) := by
  unfold readAttribute at h
  split at h
  -- a silent attribute is called like no field
  · next hsilent =>
    obtain ⟨-, rfl⟩ := Vrml.Reader.pure_eq_ok.1 h
    refine ⟨fun n => n, ⟨(st.scene.modify_id id).symm, rfl⟩, fun n _ => .of_ne fun d hd _ he => ?_⟩
    exact n.kind.name_not_silent d hd (he ▸ List.contains_iff_mem.1 hsilent)
  · cases hfield : (kind.field? (Xml.localName a.1)).filter (!holdsNodes ·) with
    | none =>
      rw [hfield] at h
      refine ⟨fun n => n, .of_tell h id, fun n hk => .of_ne fun d hd hp he => ?_⟩
      subst hk
      rw [he, NodeKind.field?_of_mem hd, Option.filter_some, hp] at hfield
      cases hfield
    | some d =>
      rw [hfield] at h
      dsimp only at h
      obtain ⟨hd, hplain⟩ := Option.filter_eq_some_iff.1 hfield
      have hname : d.name = Xml.localName a.1 := by simpa using List.find?_some hd
      cases hv : attributeValue d.kind a.2 with
      | error e =>
        rw [hv] at h
        cases e <;> cases h
      | ok v =>
        rw [hv] at h
        have hst : { st with scene := st.scene.set id (Xml.localName a.1) v } = st' :=
          (EStateM.Result.ok.inj h).2
        subst hst
        refine ⟨_, ⟨rfl, rfl⟩, fun n hk => ?_⟩
        subst hk
        exact .set (List.mem_of_find?_eq_some hd) (by simpa using hplain) hname hv

end Attribute

theorem exists_of_forM (h : attributes.forM (readAttribute id kind) st = .ok () st') :
    ∃ f, Alters st id f st' ∧ ∀ n, n.kind = kind → Given attributes n (f n) := by
  induction attributes generalizing st with
  | nil =>
    obtain ⟨-, rfl⟩ := Vrml.Reader.pure_eq_ok.1 h
    exact ⟨fun n => n, ⟨(st.scene.modify_id id).symm, rfl⟩, fun n _ => .nil n⟩
  | cons a attributes ih =>
    rw [List.forM_eq_forM, List.forM_cons] at h
    obtain ⟨⟨⟩, st₁, hone, hrest⟩ := Vrml.Reader.bind_eq_ok.1 h
    obtain ⟨f, hf, hgiven⟩ := exists_of_readAttribute hone
    obtain ⟨g, hg, hmore⟩ := ih hrest
    exact ⟨g ∘ f, hf.trans hg, fun n hk =>
      (hgiven n hk).cons (hmore (f n) ((hgiven n hk).kind.trans hk))⟩

/-! ### Children -/

/-- A node whose fields were given the nodes of sites. -/
structure Attached (skipped : List NodeKind) (sites : List Site) (n n' : Node) : Prop where
  kind : n'.kind = n.kind
  name : n'.name = n.name
  plain : ∀ d ∈ n.kind.fields, holdsNodes d = false → n'.get? d.name = n.get? d.name
  single : ∀ d ∈ n.kind.fields, d.kind = .node → n'.target d.name =
    (entries skipped n.kind d.name sites).getLast?.or (n.target d.name)
  list : ∀ d ∈ n.kind.fields, d.kind = .nodes → n'.targets d.name =
    n.targets d.name ++ entries skipped n.kind d.name sites

theorem Attached.nil (skipped : List NodeKind) (n : Node) : Attached skipped [] n n :=
  ⟨rfl, rfl, fun _ _ _ => rfl, fun _ _ _ => rfl, fun _ _ _ => (List.append_nil _).symm⟩

theorem Attached.append (h : Attached skipped l n n') (h' : Attached skipped m n' n'') :
    Attached skipped (l ++ m) n n'' := by
  have hk := h.kind
  refine ⟨h'.kind.trans hk, h'.name.trans h.name, fun d hd hp => ?_, fun d hd hnode => ?_,
    fun d hd hnodes => ?_⟩
  · rw [h'.plain d (hk ▸ hd) hp, h.plain d hd hp]
  · rw [h'.single d (hk ▸ hd) hnode, h.single d hd hnode, hk, entries_append, List.getLast?_append,
      Option.or_assoc]
  · rw [h'.list d (hk ▸ hd) hnodes, h.list d hd hnodes, hk, entries_append, List.append_assoc]

/-- A site that is skipped, or stands for a node that goes into no field at hand, changes nothing.
-/
theorem Attached.skip {a : Site} (h : (n.kind.isGrouping && skipped.contains a.kind) = true) :
    Attached skipped [a] n n := by
  have hnone : ∀ field, entries skipped n.kind field [a] = [] := by
    intro field
    rw [entries_singleton, Site.goesInto, h]
    rfl
  exact ⟨rfl, rfl, fun _ _ _ => rfl, fun d _ _ => by rw [hnone]; rfl,
    fun d _ _ => by rw [hnone, List.append_nil]⟩

/-- Only what goes where matters of the sites, not their own addresses. -/
theorem Attached.map_under (h : Attached skipped l n n') (k : Nat) :
    Attached skipped (l.map (Site.under k)) n n' :=
  ⟨h.kind, h.name, h.plain, fun d hd hk => by rw [entries_map_under]; exact h.single d hd hk,
    fun d hd hk => by rw [entries_map_under]; exact h.list d hd hk⟩

section Attach

variable {a : Site} {d : FieldDecl}

/-- A field that holds a node is given that of a site. -/
theorem Attached.set_node (hd : d ∈ n.kind.fields) (hk : d.kind = .node)
    (ha : ∀ name, entries skipped n.kind name [a] = if d.name = name then [a.node] else []) :
    Attached skipped [a] n (n.set d.name (.node (some a.node))) := by
  refine ⟨rfl, rfl, fun e he hplain => ?_, fun e he _ => ?_, fun e he hnodes => ?_⟩
  · refine n.get?_set_of_ne (fun hne => ?_) _
    obtain rfl := NodeKind.eq_of_name_eq hd he hne
    simp [holdsNodes, hk] at hplain
  · rw [ha]
    by_cases hne : d.name = e.name
    · obtain rfl := NodeKind.eq_of_name_eq hd he hne
      rw [if_pos rfl, Node.target, Node.get?_set_of_kind he (v := .node _) hk.symm]
      rfl
    · rw [if_neg hne, Node.target, n.get?_set_of_ne hne]
      rfl
  · have hne : d.name ≠ e.name := fun hne => by
      obtain rfl := NodeKind.eq_of_name_eq hd he hne
      cases hk.symm.trans hnodes
    rw [ha, if_neg hne, Node.targets, n.get?_set_of_ne hne, List.append_nil]
    rfl

/-- A list of nodes is given that of a site at its end. -/
theorem Attached.set_nodes (hd : d ∈ n.kind.fields) (hk : d.kind = .nodes)
    (ha : ∀ name, entries skipped n.kind name [a] = if d.name = name then [a.node] else []) :
    Attached skipped [a] n (n.set d.name (.nodes (n.targets d.name ++ [a.node]))) := by
  refine ⟨rfl, rfl, fun e he hplain => ?_, fun e he hnode => ?_, fun e he _ => ?_⟩
  · refine n.get?_set_of_ne (fun hne => ?_) _
    obtain rfl := NodeKind.eq_of_name_eq hd he hne
    simp [holdsNodes, hk] at hplain
  · have hne : d.name ≠ e.name := fun hne => by
      obtain rfl := NodeKind.eq_of_name_eq hd he hne
      cases hk.symm.trans hnode
    rw [ha, if_neg hne, Node.target, n.get?_set_of_ne hne]
    rfl
  · rw [ha]
    by_cases hne : d.name = e.name
    · obtain rfl := NodeKind.eq_of_name_eq hd he hne
      rw [if_pos rfl, Node.targets, Node.get?_set_of_kind he (v := .nodes _) hk.symm]
    · rw [if_neg hne, Node.targets, n.get?_set_of_ne hne, List.append_nil]
      rfl

theorem exists_of_attach (hskip : (kind.isGrouping && skipped.contains a.kind) = false)
    (h : attach id kind a.node a.kind (a.element.attribute? "containerField") st = .ok () st') :
    ∃ f, Alters st id f st' ∧ ∀ n, n.kind = kind → Attached skipped [a] n (f n) := by
  rw [attach] at h
  generalize hfield : containerOf kind a.kind (a.element.attribute? "containerField") = field at h
  cases hdecl : kind.field? field with
  | none =>
    rw [hdecl] at h
    cases h
  | some d =>
    have hname : d.name = field := by simpa using List.find?_some hdecl
    subst hname
    have hd : d ∈ kind.fields := List.mem_of_find?_eq_some hdecl
    -- the node goes into that field and into no other
    have hentries : ∀ name, entries skipped kind name [a] =
        if d.name = name then [a.node] else [] := by
      intro name
      rw [entries_singleton, Site.goesInto, hskip, hfield]
      simp
    rw [hdecl, Option.map_some] at h
    cases hk : d.kind with
    | one k =>
      rw [hk] at h
      cases h
    | many k =>
      rw [hk] at h
      cases h
    | node =>
      rw [hk] at h
      obtain rfl := (EStateM.Result.ok.inj h).2
      refine ⟨_, ⟨rfl, rfl⟩, fun n hn => ?_⟩
      subst hn
      exact .set_node hd hk hentries
    | nodes =>
      rw [hk] at h
      obtain rfl := (EStateM.Result.ok.inj h).2
      refine ⟨_, ⟨rfl, rfl⟩, fun n hn => ?_⟩
      subst hn
      exact .set_nodes hd hk hentries

end Attach

/-! ### The node of an element -/

/-- A node holds what its element says: the last attribute called like a plain field, all nodes of
children that go into a list, and the last of those that go into a single place. -/
structure Holds (skipped : List NodeKind) (attributes : List (String × String))
    (children : List Site) (n : Node) : Prop where
  list : ∀ d ∈ n.kind.fields, d.kind = .nodes →
    n.get? d.name = some (.nodes (entries skipped n.kind d.name children))
  single : ∀ d ∈ n.kind.fields, d.kind = .node →
    n.get? d.name = some (.node (entries skipped n.kind d.name children).getLast?)
  plain : ∀ d ∈ n.kind.fields, holdsNodes d = false → match lastText attributes d.name with
    | some text => ∃ v, attributeValue d.kind text = .ok v ∧ n.get? d.name = some v
    | none => n.get? d.name = some d.declared

theorem Holds.map_under {children : List Site} (h : Holds skipped attributes children n) (k : Nat) :
    Holds skipped attributes (children.map (Site.under k)) n :=
  ⟨fun d hd hk => by rw [entries_map_under]; exact h.list d hd hk,
    fun d hd hk => by rw [entries_map_under]; exact h.single d hd hk, h.plain⟩

/-- A new node that is given the attributes of an element, and then the nodes of its children, holds
what the element says. -/
theorem holds_of_attached {name : Option String} (hg : Given attributes (Node.create kind name) n)
    (ha : Attached skipped sites n n') : Holds skipped attributes sites n' := by
  obtain rfl : n.kind = kind := hg.kind
  have hsame : ∀ d ∈ n.kind.fields, holdsNodes d = true →
      n.get? d.name = (Node.create n.kind name).get? d.name := hg.linked
  refine ⟨fun d hd hnodes => ?_, fun d hd hnode => ?_, fun d hd hp => ?_⟩
  · rw [Node.get?_eq_nodes hd hnodes, ha.kind]
    rw [ha.kind] at hd
    have hempty : n.targets d.name = [] := by
      rw [Node.targets, hsame d hd (by simp [holdsNodes, hnodes])]
      exact Node.targets_create n.kind name d.name
    rw [ha.list d hd hnodes, hempty, List.nil_append]
  · rw [Node.get?_eq_node hd hnode, ha.kind]
    rw [ha.kind] at hd
    have hempty : n.target d.name = none := by
      rw [Node.target, hsame d hd (by simp [holdsNodes, hnode])]
      exact Node.target_create n.kind name d.name
    rw [ha.single d hd hnode, hempty, Option.or_none]
  · rw [ha.kind] at hd
    rw [ha.plain d hd hp]
    have hgiven := hg.plain d hd hp
    rwa [Node.get?_create n.kind name hd] at hgiven

end X3d

end SceneTidy

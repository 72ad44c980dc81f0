import SceneTidy.Proofs.Reading
import SceneTidy.Proofs.X3d.Asides
import SceneTidy.Proofs.X3d.Filling

/-!
# What an element tree means

An element that is read stands for a node: for a new one, or for the one that was last given the
name it uses.  What the reader does is told by the sites that it adds (`Adds`), by the reader's own
recursion: each new node is there with what its element says, and the names it leaves are those of
the sites (`readNode_adds`, `readChildren_adds`).  Main statement: a document that is read becomes
the scene that it writes down (`exists_sites_readDocument`).
-/

namespace SceneTidy.X3d

open Reader Scene
open Vrml.Reader (bind_eq_ok pure_eq_ok)
open Xml (Element Item)

variable {skipped : List NodeKind} {sites below l m : List Site} {a : Site}
  {st st₁ st₂ st' : ReadState} {n n' : Node} {kind : NodeKind} {id : NodeId} {k : Nat}
  {name : String} {parent : Option NodeId}

/-! ### Names -/

/-- The name that the element of a site gives to the node it makes. -/
def Site.definition (a : Site) : Option (String × NodeId) :=
  if a.makes then (a.element.attribute? "DEF").map fun name => (name, a.node) else none

/-- The names that sites give, the last one first. -/
def namesOf (sites : List Site) : List (String × NodeId) :=
  (sites.filterMap Site.definition).reverse

theorem namesOf_append (l m : List Site) : namesOf (l ++ m) = namesOf m ++ namesOf l := by
  rw [namesOf, List.filterMap_append, List.reverse_append]
  rfl

theorem namesOf_singleton (a : Site) : namesOf [a] = a.definition.toList := by
  rw [namesOf, List.filterMap_cons]
  cases a.definition <;> rfl

theorem namesOf_cons (a : Site) (l : List Site) :
    namesOf (a :: l) = namesOf l ++ a.definition.toList := by
  rw [← namesOf_singleton, ← namesOf_append]
  rfl

theorem namesOf_map_under (k : Nat) (l : List Site) :
    namesOf (l.map (Site.under k)) = namesOf l := by
  rw [namesOf, List.filterMap_map]
  rfl

theorem Site.definition_eq_some {x : NodeId} :
    a.definition = some (name, x) ↔ a.Defines name ∧ a.node = x := by
  rw [definition, makes, Defines]
  cases a.element.attribute? "USE" <;> cases a.element.attribute? "DEF" <;> simp

/-- A name stands for the node of the last site that defines it. -/
theorem exists_of_lookup_namesOf {x : NodeId} (h : (namesOf l).lookup name = some x) :
    ∃ l₁ b l₂, l = l₁ ++ b :: l₂ ∧ b.Defines name ∧ b.node = x ∧ ∀ c ∈ l₂, ¬c.Defines name := by
  induction l with
  | nil => cases h
  | cons a l ih =>
    rw [namesOf_cons, List.lookup_append, Option.or_eq_some_iff] at h
    rcases h with h | ⟨hnone, h⟩
    · obtain ⟨l₁, b, l₂, rfl, hb⟩ := ih h
      exact ⟨a :: l₁, b, l₂, rfl, hb⟩
    · obtain ⟨hdef, hnode⟩ := Site.definition_eq_some.1
        (Option.mem_toList.1 (mem_of_lookup h))
      refine ⟨[], a, l, rfl, hdef, hnode, fun c hc hcdef => ?_⟩
      have hmem : (name, c.node) ∈ namesOf l :=
        List.mem_reverse.2 (List.mem_filterMap.2 ⟨c, hc, Site.definition_eq_some.2 ⟨hcdef, rfl⟩⟩)
      simpa using List.lookup_eq_none_iff.1 hnone _ hmem

/-! ### What reading adds -/

/-- The node of a site is a new one of the kind that the tag names, called by `DEF`, and holds what
the element says; the sites of its children are among those at hand. -/
def IsMade (skipped : List NodeKind) (sites : List Site) (s : Scene) (a : Site) : Prop :=
  ∃ n, s.node? a.node = some n ∧ NodeKind.ofTypeName? (Xml.localName a.element.tag) = some n.kind ∧
    n.name = a.element.attribute? "DEF" ∧
    Holds skipped a.element.attributes (sites.filter (·.isChildOf a.address)) n

/-- A reading that adds sites: it leaves the nodes as they were, but for the one that the elements
stand in, if there is one. -/
structure Adds (skipped : List NodeKind) (parent : Option NodeId) (st : ReadState)
    (sites : List Site) (st' : ReadState) : Prop where
  step : st.Step st'
  keep : ∀ x < st.scene.size, some x ≠ parent → st'.scene.node? x = st.scene.node? x
  fresh : List.range st.scene.size ++ (sites.filter Site.makes).map Site.node =
    List.range st'.scene.size
  names : st'.names = namesOf sites ++ st.names
  used : ∀ before a after name, sites = before ++ a :: after →
    a.element.attribute? "USE" = some name →
    (namesOf before ++ st.names).lookup name = some a.node
  kind : ∀ a ∈ sites, st'.scene.kind? a.node = some a.kind
  made : ∀ a ∈ sites, a.makes = true → IsMade skipped sites st'.scene a

namespace Adds

theorem size_le (h : Adds skipped parent st sites st') : st.scene.size ≤ st'.scene.size := by
  have hlen := congrArg List.length h.fresh
  rw [List.length_append, List.length_range, List.length_range] at hlen
  omega

/-- The node of a site that makes one was not there before. -/
theorem mem_range (h : Adds skipped parent st sites st') (ha : a ∈ sites) (hm : a.makes = true) :
    st.scene.size ≤ a.node ∧ a.node < st'.scene.size := by
  have hmem : a.node ∈ (sites.filter Site.makes).map Site.node :=
    List.mem_map_of_mem (List.mem_filter.2 ⟨ha, hm⟩)
  have hnodup := h.fresh ▸ List.nodup_range (n := st'.scene.size)
  constructor
  · by_contra hlt
    exact List.disjoint_of_nodup_append hnodup (List.mem_range.2 (Nat.lt_of_not_le hlt)) hmem
  · exact List.mem_range.1 (h.fresh ▸ List.mem_append_right _ hmem)

/-- Nothing is added. -/
theorem nil (h : st.Sound) : Adds skipped parent st [] st :=
  ⟨h.refl, fun _ _ _ => rfl, List.append_nil _, rfl, by simp, by simp, by simp⟩

/-- A site is added for an element that uses a name. -/
theorem use (h : st.Sound) (huse : a.element.attribute? "USE" = some name)
    (hname : st.names.lookup name = some a.node) (hkind : st.scene.kind? a.node = some a.kind) :
    Adds skipped parent st [a] st := by
  have hmakes : a.makes = false := by simp [Site.makes, huse]
  refine ⟨h.refl, fun _ _ _ => rfl, ?_, ?_, ?_, ?_, ?_⟩
  · rw [List.filter_singleton, hmakes]
    exact List.append_nil _
  · rw [namesOf_singleton, Site.definition, hmakes]
    rfl
  · intro before b after used hsplit hused
    match before with
    | [] =>
      obtain ⟨rfl, -⟩ := List.cons.inj hsplit
      rwa [← Option.some.inj (huse.symm.trans hused)]
    | _ :: before => exact absurd (List.cons.inj hsplit).2 (by simp)
  · simpa using hkind
  · simpa using fun hm => absurd hm (by simp [hmakes])

/-- The node that elements stand in was changed after they were read. -/
theorem alters {x : NodeId} {f : Node → Node} (h : Adds skipped none st sites st₁)
    (hf : Alters st₁ x f st') (hx : x < st.scene.size) (hstep : st₁.Step st') :
    Adds skipped (some x) st sites st' := by
  have hsize : st'.scene.size = st₁.scene.size := by rw [hf.scene, size_modify]
  have hother : ∀ y, y ≠ x → st'.scene.node? y = st₁.scene.node? y := fun y hy => by
    rw [hf.scene, node?_modify, if_neg (Ne.symm hy)]
  refine ⟨h.step.trans hstep, fun y hy hne => ?_, hsize ▸ h.fresh, hf.names.trans h.names, h.used,
    fun a ha => hstep.follows.kind _ _ (h.kind a ha), fun a ha hm => ?_⟩
  · rw [hother y fun he => hne (congrArg some he), h.keep y hy nofun]
  · obtain ⟨n, hn, hmade⟩ := h.made a ha hm
    exact ⟨n, (hother a.node (Nat.ne_of_gt (Nat.lt_of_lt_of_le hx (h.mem_range ha hm).1))).trans hn,
      hmade⟩

/-- More is read after that. -/
theorem append {x : NodeId} (h : Adds skipped (some x) st l st₁)
    (h' : Adds skipped (some x) st₁ m st') (hx : x < st.scene.size)
    (happart : ∀ a ∈ l, ∀ b ∈ m, b.isChildOf a.address = false ∧ a.isChildOf b.address = false) :
    Adds skipped (some x) st (l ++ m) st' := by
  have hsize := h.size_le
  refine ⟨h.step.trans h'.step, fun y hy hne => ?_, ?_, ?_, ?_, ?_, ?_⟩
  · rw [h'.keep y (Nat.lt_of_lt_of_le hy hsize) hne, h.keep y hy hne]
  · rw [List.filter_append, List.map_append, ← List.append_assoc, h.fresh, h'.fresh]
  · rw [h'.names, h.names, namesOf_append, List.append_assoc]
  · intro before a after name hsplit huse
    rcases List.append_eq_append_iff.1 hsplit with ⟨c, rfl, hm⟩ | ⟨c, hl, hm⟩
    · rw [namesOf_append, List.append_assoc, ← h.names]
      exact h'.used c a after name hm huse
    · cases c with
      | nil =>
        rw [List.append_nil] at hl
        have hused := h'.used [] a after name hm.symm huse
        rw [← hl, ← h.names]
        exact hused
      | cons b c =>
        obtain ⟨rfl, rfl⟩ := List.cons.inj hm
        exact h.used before a c name hl huse
  · intro a ha
    rcases List.mem_append.1 ha with ha | ha
    · exact h'.step.follows.kind _ _ (h.kind a ha)
    · exact h'.kind a ha
  · intro a ha hm
    rw [IsMade, List.filter_append]
    rcases List.mem_append.1 ha with ha | ha
    · obtain ⟨hle, hlt⟩ := h.mem_range ha hm
      have hnone : m.filter (·.isChildOf a.address) = [] :=
        List.filter_eq_nil_iff.2 fun b hb => by simp [(happart a ha b hb).1]
      obtain ⟨n, hn, hmade⟩ := h.made a ha hm
      rw [hnone, List.append_nil]
      refine ⟨n, (h'.keep a.node hlt fun he => ?_).trans hn, hmade⟩
      exact absurd (Option.some.inj he) (Nat.ne_of_gt (Nat.lt_of_lt_of_le hx hle))
    · have hnone : l.filter (·.isChildOf a.address) = [] :=
        List.filter_eq_nil_iff.2 fun b hb => by simp [(happart b hb a ha).2]
      rw [hnone, List.nil_append]
      exact h'.made a ha hm

/-- The sites are those of a child of some number. -/
theorem map_under (h : Adds skipped parent st sites st') (k : Nat) :
    Adds skipped parent st (sites.map (Site.under k)) st' := by
  refine ⟨h.step, h.keep, ?_, ?_, ?_, ?_, ?_⟩
  · rw [List.filter_map, List.map_map]
    exact h.fresh
  · rw [namesOf_map_under]
    exact h.names
  · intro before a after name hsplit huse
    obtain ⟨before', rest, rfl, rfl, hrest⟩ := List.map_eq_append_iff.1 hsplit
    obtain ⟨b, after', rfl, rfl, rfl⟩ := List.map_eq_cons_iff.1 hrest
    rw [namesOf_map_under]
    exact h.used before' b after' name rfl huse
  · exact List.forall_mem_map.2 h.kind
  · refine List.forall_mem_map.2 fun a ha hm => ?_
    have hchildren : (sites.map (Site.under k)).filter (·.isChildOf (a.under k).address) =
        (sites.filter (·.isChildOf a.address)).map (Site.under k) := by
      rw [List.filter_map]
      exact congrArg _ (List.filter_congr fun b _ => Site.isChildOf_under b)
    obtain ⟨n, hn, hk, hname, hholds⟩ := h.made a ha hm
    exact ⟨n, hn, hk, hname, hchildren ▸ hholds.map_under k⟩

/-- A node is made for an element, given its attributes, and then the elements inside are read. -/
theorem node {f : Node → Node} (h : st.Step st₁) (ha : a.address = []) (hm : a.makes = true)
    (hcreate : create a.kind (a.element.attribute? "DEF") st = .ok a.node st₁)
    (hf : Alters st₁ a.node f st₂) (hstep : st₁.Step st₂)
    (hbelow : Adds skipped (some a.node) st₂ below st')
    (hn : st'.scene.node? a.node = some n)
    (hkind : n.kind = a.kind)
    (htype : NodeKind.ofTypeName? (Xml.localName a.element.tag) = some a.kind)
    (hname : n.name = a.element.attribute? "DEF")
    (hholds : Holds skipped a.element.attributes (below.filter (·.isChildOf [])) n) :
    Adds skipped none st (a :: below) st' := by
  obtain ⟨hid, hst₁⟩ := EStateM.Result.ok.inj hcreate
  have hsize : st₂.scene.size = st.scene.size + 1 := by
    rw [hf.scene, size_modify, ← hst₁, size_push]
  have hnode : a.node = st.scene.size := hid.symm
  have hnames : st₂.names = a.definition.toList ++ st.names := by
    rw [hf.names, ← hst₁, Site.definition, hm, if_pos rfl, ← hid]
  have hself : ∀ p, a.isChildOf p = false := fun p => by simp [Site.isChildOf, ha]
  refine ⟨(h.trans hstep).trans hbelow.step, fun x hx _ => ?_, ?_, ?_, ?_, ?_, ?_⟩
  · have hne : a.node ≠ x := hnode ▸ Nat.ne_of_gt hx
    rw [hbelow.keep x (by omega) fun he => hne (Option.some.inj he).symm, hf.scene, node?_modify,
      if_neg hne, ← hst₁, node?_push, Scene.next, if_neg (Nat.ne_of_lt hx)]
  · rw [List.filter_cons, if_pos hm, List.map_cons, hnode, List.append_cons, ← List.range_succ,
      Nat.succ_eq_add_one, ← hsize, hbelow.fresh]
  · rw [hbelow.names, hnames, namesOf_cons, List.append_assoc]
  · intro before b after name hsplit huse
    cases before with
    | nil =>
      obtain ⟨rfl, -⟩ := List.cons.inj hsplit
      simp [Site.makes, huse] at hm
    | cons c before =>
      obtain ⟨rfl, rfl⟩ := List.cons.inj hsplit
      rw [namesOf_cons, List.append_assoc, ← hnames]
      exact hbelow.used before b after name rfl huse
  · refine List.forall_mem_cons.2 ⟨?_, hbelow.kind⟩
    rw [kind?_of_node? hn, hkind]
  · refine List.forall_mem_cons.2 ⟨fun _ => ?_, fun b hb hmb => ?_⟩
    · refine ⟨n, hn, hkind ▸ htype, hname, ?_⟩
      rw [List.filter_cons, hself, ha]
      exact hholds
    · rw [IsMade, List.filter_cons, hself]
      exact hbelow.made b hb hmb

end Adds

/-! ### What the reader reads -/

/-- A child's sites and those of its later siblings are not inside each other. -/
theorem isChildOf_of_later {items : List Item} (hl : ∀ b ∈ l, ∃ p, b.address = k :: p)
    (hm : ListsFrom (k + 1) items m) :
    ∀ a ∈ l, ∀ b ∈ m, b.isChildOf a.address = false ∧ a.isChildOf b.address = false := by
  intro a ha b hb
  obtain ⟨p, hp⟩ := hl a ha
  obtain ⟨j, q, hq⟩ := hm.exists_address hb
  rw [Bool.eq_false_iff, Bool.eq_false_iff, ne_eq, ne_eq, Site.isChildOf_iff, Site.isChildOf_iff,
    hp, hq]
  constructor
  · rintro ⟨i, hi⟩
    have := (List.cons.inj hi).1
    omega
  · rintro ⟨i, hi⟩
    have := (List.cons.inj hi).1
    omega

/-- Of a child and what is inside it, the child alone is a child of its parent. -/
theorem filter_isChildOf_nil (ha : a.address = []) (hbelow : ∀ b ∈ below, b.address ≠ []) :
    ((a :: below).map (Site.under k)).filter (·.isChildOf []) = [a].map (Site.under k) := by
  have hnone : below.filter (fun b => (b.under k).isChildOf []) = [] :=
    List.filter_eq_nil_iff.2 fun b hb => by
      rw [Site.isChildOf_nil_under, List.isEmpty_iff]
      exact hbelow b hb
  have hself : (a.under k).isChildOf [] = true := by rw [Site.isChildOf_nil_under, ha]; rfl
  rw [List.filter_map]
  refine congrArg _ ?_
  rw [List.filter_cons, Function.comp_apply, if_pos hself]
  exact congrArg _ hnone

/-- A child is read and put into its parent, or skipped, and then the later children are read. -/
theorem exists_of_child {items : List Item} {x : NodeId} {f : Node → Node} (ha : a.address = [])
    (hc : Counts a.element) (hbelow : Inside a.element below)
    (hfirst : Adds skipped none st (a :: below) st₁) (hx : x < st.scene.size)
    (hn : st.scene.node? x = some n) (hf : Alters st₁ x f st₂) (hstep : st₁.Step st₂)
    (hattached : Attached skipped [a] n (f n))
    (hrest : st₂.scene.node? x = some (f n) → ∃ sites n', ListsFrom (k + 1) items sites ∧
      Adds skipped (some x) st₂ sites st' ∧ st'.scene.node? x = some n' ∧
      Attached skipped (sites.filter (·.isChildOf [])) (f n) n') :
    ∃ sites n', ListsFrom k (a.element.item :: items) sites ∧ Adds skipped (some x) st sites st' ∧
      st'.scene.node? x = some n' ∧ Attached skipped (sites.filter (·.isChildOf [])) n n' := by
  have hmoved : st₂.scene.node? x = some (f n) := by
    rw [hf.scene, node?_modify, if_pos rfl, hfirst.keep x hx nofun, hn, Option.map_some]
  obtain ⟨sites, n', hlist, hmore, hn', hothers⟩ := hrest hmoved
  have hlow : ∀ b ∈ (a :: below).map (Site.under k), ∃ p, b.address = k :: p :=
    List.forall_mem_map.2 fun b _ => ⟨b.address, rfl⟩
  refine ⟨_, n', .cons ha hc hbelow hlist,
    ((hfirst.alters hf hx hstep).map_under k).append hmore hx (isChildOf_of_later hlow hlist),
    hn', ?_⟩
  rw [List.filter_append, filter_isChildOf_nil ha fun b hb => hbelow.ne_nil hb]
  exact (hattached.map_under k).append hothers

mutual

/-- An element that is read adds its own site, and those of the elements inside. -/
theorem readNode_adds {item : Item} {r : NodeId × NodeKind} {st st' : ReadState} (h : st.Sound)
    (hrun : readNode skipped item st = .ok r st') :
    ∃ e below, item = Element.item e ∧ Inside e below ∧
      Adds skipped none st (⟨[], e, r.1, r.2⟩ :: below) st' := by
  have hstep := step_of_readNode skipped h hrun
  match item with
  | .aside =>
    rw [readNode] at hrun
    cases hrun
  | .element tag attributes children =>
    refine ⟨⟨tag, attributes, children⟩, ?_⟩
    rw [readNode] at hrun
    cases huse : attributes.lookup "USE" with
    | some name =>
      rw [huse] at hrun
      obtain ⟨st₁, st₂, hget, hrun⟩ := bind_eq_ok.1 hrun
      obtain ⟨rfl, rfl⟩ := EStateM.Result.ok.inj hget
      cases hid : st.names.lookup name with
      | none =>
        rw [hid] at hrun
        cases hrun
      | some id =>
        rw [hid] at hrun
        obtain ⟨rfl, rfl⟩ := pure_eq_ok.1 hrun
        obtain ⟨k, hk, -⟩ := hstep.2
        refine ⟨[], rfl, ⟨fun hnone => absurd (hnone.symm.trans huse) nofun, fun _ => rfl⟩, ?_⟩
        exact .use h huse hid (by rw [hk]; rfl)
    | none =>
      rw [huse] at hrun
      dsimp only at hrun
      cases hkind : NodeKind.ofTypeName? (Xml.localName tag) with
      | none =>
        rw [hkind] at hrun
        cases hrun
      | some kind =>
        rw [hkind] at hrun
        obtain ⟨id, st₁, hcreate, hrun⟩ := bind_eq_ok.1 hrun
        obtain ⟨⟨⟩, st₂, hattributes, hrun⟩ := bind_eq_ok.1 hrun
        obtain ⟨⟨⟩, st₃, hchildren, hrun⟩ := bind_eq_ok.1 hrun
        obtain ⟨rfl, rfl⟩ := pure_eq_ok.1 hrun
        have hnew := (step_of_create h (Vrml.eq_typeName hkind).2 hcreate).1
        have hfields := step_of_forM hnew.sound hattributes
        obtain ⟨f, hf, hgiven⟩ := exists_of_forM hattributes
        have hbare := hgiven (Node.create kind (attributes.lookup "DEF")) rfl
        have hn : st₂.scene.node? id = some (f (Node.create kind (attributes.lookup "DEF"))) := by
          obtain ⟨rfl, rfl⟩ := EStateM.Result.ok.inj hcreate
          rw [hf.scene, node?_modify, if_pos rfl, node?_push, if_pos rfl, Option.map_some]
        obtain ⟨below, n', hlist, hbelow, hn', hattached⟩ :=
          readChildren_adds hfields.sound hn hbare.kind hchildren 0
        refine ⟨below, rfl, ⟨fun _ => hlist, fun hne => absurd huse hne⟩, ?_⟩
        have hmakes : Site.makes ⟨[], ⟨tag, attributes, children⟩, id, kind⟩ = true := by
          rw [Site.makes, Element.attribute?, huse]
          rfl
        exact .node hnew rfl hmakes hcreate hf hfields hbelow hn' (hattached.kind.trans hbare.kind)
          hkind (hattached.name.trans hbare.name) (holds_of_attached hbare hattached)

/-- The elements that are read inside that of a node add their sites, and fill its fields. -/
theorem readChildren_adds {x : NodeId} {kind : NodeKind} {tag : String} {items : List Item}
    {st st' : ReadState} {n : Node} (h : st.Sound) (hn : st.scene.node? x = some n)
    (hk : n.kind = kind) (hrun : readChildren skipped x kind tag items st = .ok () st') (k : Nat) :
    ∃ sites n', ListsFrom k items sites ∧ Adds skipped (some x) st sites st' ∧
      st'.scene.node? x = some n' ∧ Attached skipped (sites.filter (·.isChildOf [])) n n' := by
  have hx : x < st.scene.size := lt_size_of_node? hn
  match items with
  | [] =>
    rw [readChildren] at hrun
    obtain ⟨-, rfl⟩ := pure_eq_ok.1 hrun
    exact ⟨[], n, .nil k, .nil h, hn, .nil skipped n⟩
  | .aside :: rest =>
    rw [readChildren] at hrun
    obtain ⟨sites, n', hlist, hadds⟩ := readChildren_adds h hn hk hrun (k + 1)
    exact ⟨sites, n', hlist.skip fun c hc => (nomatch hc : False).elim, hadds⟩
  | .element type attributes children :: rest =>
    rw [readChildren] at hrun
    dsimp only at hrun
    split at hrun
    · next hignored =>
      obtain ⟨⟨⟩, st₁, htell, hrest⟩ := bind_eq_ok.1 hrun
      have hstep := step_of_tell h htell
      have hf := Alters.of_tell htell x
      have hn₁ : st₁.scene.node? x = some n := by
        rw [hf.scene, modify_id, hn]
      obtain ⟨sites, n', hlist, hmore, hn', hattached⟩ :=
        readChildren_adds hstep.sound hn₁ hk hrest (k + 1)
      have hnot : ∀ c : Element, Item.element type attributes children = c.item → ¬Counts c := by
        intro c hc hcounts
        obtain ⟨rfl, -, -⟩ := Item.element.inj hc
        exact hcounts (List.contains_iff_mem.1 hignored)
      exact ⟨sites, n', hlist.skip hnot,
        ((Adds.nil h).alters hf hx hstep).append hmore hx (by simp), hn', hattached⟩
    · next hread =>
      obtain ⟨⟨child, childKind⟩, st₁, hchild, hrun⟩ := bind_eq_ok.1 hrun
      obtain ⟨hnode, hlistable⟩ := step_of_readNode skipped h hchild
      obtain ⟨e, below, he, hbelow, hfirst⟩ := readNode_adds h hchild
      have hc : Counts e := fun hmem => by
        obtain ⟨rfl, -, -⟩ := Item.element.inj he
        exact hread (List.contains_iff_mem.2 hmem)
      have hasked : attributes.lookup "containerField" = e.attribute? "containerField" := by
        obtain ⟨-, rfl, -⟩ := Item.element.inj he
        rfl
      rw [he]
      dsimp only at hrun
      split at hrun
      · next hskip =>
        obtain ⟨⟨⟩, st₂, htell, hrest⟩ := bind_eq_ok.1 hrun
        have hstep := step_of_tell hnode.sound htell
        have hattached : Attached skipped [⟨[], e, child, childKind⟩] n n := .skip (hk ▸ hskip)
        exact exists_of_child (a := ⟨[], e, child, childKind⟩) rfl hc hbelow hfirst hx hn
          (Alters.of_tell htell x) hstep hattached fun hn₂ =>
            readChildren_adds hstep.sound hn₂ hk hrest (k + 1)
      · next hskip =>
        obtain ⟨⟨⟩, st₂, hattach, hrest⟩ := bind_eq_ok.1 hrun
        have hstep := step_of_attach hnode.sound hlistable hattach
        rw [hasked] at hattach
        obtain ⟨f, hf, hgiven⟩ := exists_of_attach (a := ⟨[], e, child, childKind⟩)
          (Bool.eq_false_iff.2 hskip) hattach
        have hattached := hgiven n hk
        exact exists_of_child (a := ⟨[], e, child, childKind⟩) rfl hc hbelow hfirst hx hn hf hstep
          hattached fun hn₂ =>
            readChildren_adds hstep.sound hn₂ (hattached.kind.trans hk) hrest (k + 1)

end

/-! ### What a document means -/

/-- The element that holds the scene of a document: its own one, or the first such one below it. -/
inductive IsSceneOf : Item → Element → Prop
  | self {scene : Element} (h : Xml.localName scene.tag = "Scene") : IsSceneOf scene.item scene
  | below {tag : String} {attributes : List (String × String)} {before rest : List Item}
      {scene : Element} (htag : Xml.localName tag ≠ "Scene")
      (hbefore : ∀ i ∈ before, ¬IsSceneElement i) (h : Xml.localName scene.tag = "Scene") :
      IsSceneOf (.element tag attributes (before ++ scene.item :: rest)) scene

theorem isSceneOf_of_findScene {items found : List Item} (h : findScene items = .ok found) :
    ∃ before scene rest, items = before ++ Element.item scene :: rest ∧
      (∀ i ∈ before, ¬IsSceneElement i) ∧ Xml.localName scene.tag = "Scene" ∧
        scene.items = found := by
  induction items with
  | nil => cases h
  | cons i items ih =>
    cases i with
    | aside => cases h
    | element tag attributes children =>
      rw [findScene] at h
      split at h
      · next htag =>
        exact ⟨[], ⟨tag, attributes, children⟩, items, rfl, by simp, htag, Except.ok.inj h⟩
      · next htag =>
        obtain ⟨before, scene, rest, rfl, hbefore, hscene⟩ := ih h
        exact ⟨_ :: before, scene, rest, rfl, List.forall_mem_cons.2 ⟨htag, hbefore⟩, hscene⟩

theorem isSceneOf_of_sceneItems {document : Item} {found : List Item}
    (h : sceneItems document = .ok found) :
    ∃ scene, IsSceneOf document scene ∧ scene.items = found := by
  cases document with
  | aside => cases h
  | element tag attributes children =>
    rw [sceneItems] at h
    split at h
    · next htag =>
      have hself :
          IsSceneOf (Element.item ⟨tag, attributes, children⟩) ⟨tag, attributes, children⟩ :=
        .self htag
      exact ⟨_, hself, Except.ok.inj h⟩
    · next htag =>
      obtain ⟨before, scene, rest, rfl, hbefore, hscene, hfound⟩ := isSceneOf_of_findScene h
      exact ⟨scene, .below htag hbefore hscene, hfound⟩

/-- A scene holds what its element says: sites are those of the elements read inside it, in the
order of their start tags; the root and one new node for each element that uses no name are all that
there is, and each of these nodes holds what its element says. -/
structure Transcribes (skipped : List NodeKind) (scene : Element) (sites : List Site) (s : Scene) :
    Prop where
  order : sites.Pairwise (·.address < ·.address)
  read : ∀ p e, (∃ a ∈ sites, a.address = p ∧ a.element = e) ↔ ReadAt scene.items p e
  root : ∃ n, s.node? s.root = some n ∧ n.kind = .scene ∧
    Holds skipped scene.attributes (sites.filter (·.isChildOf [])) n
  fresh : s.root :: (sites.filter Site.makes).map Site.node = List.range s.size
  made : ∀ a ∈ sites, a.makes = true → IsMade skipped sites s a
  kind : ∀ a ∈ sites, s.kind? a.node = some a.kind

/-- An element that uses a name stands for the node of the last element before it, by start tags,
that gives the name. -/
def UsesLast (gives : Site → String → Prop) (sites : List Site) : Prop :=
  ∀ a ∈ sites, ∀ name, a.element.attribute? "USE" = some name →
    ∃ b ∈ sites, gives b name ∧ b.address < a.address ∧ a.node = b.node ∧
      ∀ c ∈ sites, gives c name → c.address < a.address → c.address ≤ b.address

/-- Without names from before, an element that uses one stands for the node of the last site that
defines it. -/
theorem Adds.usesLast (h : Adds skipped parent st sites st') (hnames : st.names = [])
    (horder : sites.Pairwise (·.address < ·.address)) : UsesLast Site.Defines sites := by
  intro a ha name huse
  obtain ⟨before, after, rfl⟩ := List.append_of_mem ha
  have hlookup := h.used before a after name rfl huse
  rw [hnames, List.append_nil] at hlookup
  obtain ⟨l, b, m, rfl, hb, hnode, hlast⟩ := exists_of_lookup_namesOf hlookup
  have hbefore := List.pairwise_append.1 horder
  have hmid := List.pairwise_append.1 hbefore.1
  refine ⟨b, by simp, hb, hbefore.2.2 b (by simp) a (by simp), hnode.symm, fun c hc hdef hlt => ?_⟩
  simp only [List.append_assoc, List.cons_append, List.mem_append, List.mem_cons] at hc
  rcases hc with hc | rfl | hc | rfl | hc
  · exact le_of_lt (hmid.2.2 c hc b (by simp))
  · exact le_refl _
  · exact absurd hdef (hlast c hc)
  · exact absurd hlt (lt_irrefl _)
  · exact absurd hlt (lt_asymm ((List.pairwise_cons.1 hbefore.2.1).1 c hc))

/-- The root has no plain fields. -/
theorem holdsNodes_of_scene : ∀ d ∈ NodeKind.scene.fields, holdsNodes d = true := by decide

/-- **The reader loses and invents nothing**: a document that is read becomes the scene that its
scene element writes down, where an element that uses a name stands for the node of the last element
before it that defines the name. -/
theorem exists_sites_readDocument (skipped : List NodeKind) (document : Item)
    (hok : (readDocument skipped document).result = .ok ()) :
    ∃ scene sites, IsSceneOf document scene ∧
      Transcribes skipped scene sites (readDocument skipped document).scene ∧
      UsesLast Site.Defines sites := by
  rw [readDocument] at hok ⊢
  cases hitems : sceneItems document with
  | error e => simp [hitems] at hok
  | ok items =>
    simp only [hitems] at hok ⊢
    obtain ⟨scene, hscene, rfl⟩ := isSceneOf_of_sceneItems hitems
    cases hrun :
        readChildren skipped Scene.empty.root .scene "Scene" scene.items ⟨.empty, [], []⟩ with
    | error e st => simp [hrun] at hok
    | ok _ st =>
      have hstart : ReadState.Sound ⟨.empty, [], []⟩ :=
        ⟨closed_empty, fun p hp => absurd hp List.not_mem_nil⟩
      have hroot : Scene.empty.node? Scene.empty.root = some (Node.create .scene none) := rfl
      obtain ⟨sites, n, hlist, hadds, hn, hattached⟩ := readChildren_adds hstart hroot rfl hrun 0
      have hkind : n.kind = .scene := hattached.kind
      have hholds : Holds skipped scene.attributes (sites.filter (·.isChildOf [])) n := by
        obtain ⟨hl, hsingle, -⟩ := holds_of_attached (.nil _) hattached
        refine ⟨hl, hsingle, fun d hd hp => ?_⟩
        rw [hkind] at hd
        exact absurd (holdsNodes_of_scene d hd) (by rw [hp]; decide)
      refine ⟨scene, sites, hscene, ⟨hlist.order, fun p e => hlist.exists_iff,
        ⟨n, ?_, hkind, hholds⟩, ?_, hadds.made, hadds.kind⟩, hadds.usesLast rfl hlist.order⟩
      · rw [hadds.step.follows.root]
        exact hn
      · rw [hadds.step.follows.root]
        exact hadds.fresh

/-- A document whose nodes are named, used inside themselves and nested. -/
def nested : Item :=
  .element "X3D" [] [.element "head" [] [], .element "Scene" []
    [.element "Transform" [("DEF", "A"), ("scale", "1 2 3")]
      [.element "Group" [("USE", "A")] [.element "Shape" [] []],
        .element "Shape" [("DEF", "A")] [.element "Box" [] [], .element "Sphere" [] []]],
      .element "Shape" [("USE", "A")] []]]

theorem exists_sites_nested : (readDocument usuallySkipped nested).result = .ok () ∧
    ∃ scene sites, IsSceneOf nested scene ∧
      Transcribes usuallySkipped scene sites (readDocument usuallySkipped nested).scene ∧
      UsesLast Site.Defines sites := by
  have hok : (readDocument usuallySkipped nested).result = .ok () := by decide +kernel
  exact ⟨hok, exists_sites_readDocument usuallySkipped nested hok⟩

/-! ### Elements that use one name and carry another -/

/-- The element gives a name, whether or not it uses one. -/
def Site.Carries (a : Site) (name : String) : Prop := a.element.attribute? "DEF" = some name

/-- An element that uses one name and carries another. -/
def renamed : Element := ⟨"Shape", [("USE", "A"), ("DEF", "B")], []⟩

/-- An element with one inside that uses the name `B`. -/
def holder : Element := ⟨"Transform", [], [.element "Shape" [("USE", "B")] []]⟩

/-- A scene where the name `B` is defined, then carried by an element that uses `A`, and then used.
-/
def relabelled : Element :=
  ⟨"Scene", [], [.element "Group" [("DEF", "B")] [], .element "Shape" [("DEF", "A")] [],
    renamed.item, holder.item]⟩

/-- The sites of that scene. -/
def relabelledSites : List Site :=
  [⟨[0], ⟨"Group", [("DEF", "B")], []⟩, 1, .group⟩, ⟨[1], ⟨"Shape", [("DEF", "A")], []⟩, 2, .shape⟩,
    ⟨[2], renamed, 2, .shape⟩, ⟨[3], holder, 3, .transform⟩,
    ⟨[3, 0], ⟨"Shape", [("USE", "B")], []⟩, 1, .group⟩]

theorem listsFrom_relabelled : ListsFrom 0 relabelled.items relabelledSites := by
  have hleaf : ∀ c : Element, c.items = [] → Inside c [] :=
    fun c hc => ⟨fun _ => hc ▸ .nil 0, fun _ => rfl⟩
  have hinner := ListsFrom.cons (k := 0) (a := ⟨[], ⟨"Shape", [("USE", "B")], []⟩, 1, .group⟩) rfl
    (by decide) (hleaf _ rfl) (.nil 1)
  have hfourth := ListsFrom.cons (k := 3) (a := ⟨[], holder, 3, .transform⟩) rfl (by decide)
    ⟨fun _ => hinner, fun h => absurd rfl h⟩ (.nil 4)
  have hthird :=
    ListsFrom.cons (a := ⟨[], renamed, 2, .shape⟩) rfl (by decide) (hleaf _ rfl) hfourth
  have hsecond := ListsFrom.cons (a := ⟨[], ⟨"Shape", [("DEF", "A")], []⟩, 2, .shape⟩) rfl
    (by decide) (hleaf _ rfl) hthird
  exact ListsFrom.cons (a := ⟨[], ⟨"Group", [("DEF", "B")], []⟩, 1, .group⟩) rfl (by decide)
    (hleaf _ rfl) hsecond

/-- No transform of the scene that is read has a shape inside. -/
theorem kind?_ne_shape_relabelled :
    ∀ n ∈ (readDocument usuallySkipped relabelled.item).scene.nodes, n.kind = .transform →
      ∀ y ∈ n.targets "children",
        (readDocument usuallySkipped relabelled.item).scene.kind? y ≠ some .shape := by
  decide

/-- An element that uses a name gives none: of a scene that is read, there are no sites where each
element that uses a name stands for the node of the last one before it that carries the name. -/
theorem not_usesLast_relabelled :
    (readDocument usuallySkipped relabelled.item).result = .ok () ∧
    ¬∃ sites, Transcribes usuallySkipped relabelled sites
        (readDocument usuallySkipped relabelled.item).scene ∧ UsesLast Site.Carries sites := by
  refine ⟨rfl, ?_⟩
  rintro ⟨sites, h, huses⟩
  have hread : ∀ p e, (∃ a ∈ sites, a.address = p ∧ a.element = e) ↔
      ∃ b ∈ relabelledSites, b.address = p ∧ b.element = e :=
    fun p e => (h.read p e).trans listsFrom_relabelled.exists_iff.symm
  have hcarriers : ∀ a ∈ sites,
      (a.Carries "A" → a.makes = true ∧ Xml.localName a.element.tag = "Shape") ∧
      (a.Carries "B" → [1] < a.address → a.element.attribute? "USE" = some "A") := by
    intro a ha
    obtain ⟨b, hb, hp, he⟩ := (hread _ _).1 ⟨a, ha, rfl, rfl⟩
    rw [Site.Carries, Site.Carries, Site.makes, ← he, ← hp]
    clear hp he
    revert b
    decide
  -- the element called `A` makes a shape, and so the one that uses `A` stands for a shape
  have hshape : ∀ a ∈ sites, a.Carries "A" →
      (readDocument usuallySkipped relabelled.item).scene.kind? a.node = some .shape := by
    intro a ha hA
    obtain ⟨hmakes, htag⟩ := (hcarriers a ha).1 hA
    obtain ⟨n, hn, htype, -⟩ := h.made a ha hmakes
    rw [htag] at htype
    rw [kind?_of_node? hn, ← htype]
    rfl
  obtain ⟨c, hc, hcp, hce⟩ := (hread [2] renamed).2 ⟨_, List.mem_of_getElem? (i := 2) rfl, rfl, rfl⟩
  obtain ⟨u, hu, hup, hue⟩ := (hread [3, 0] _).2 ⟨_, List.mem_of_getElem? (i := 4) rfl, rfl, rfl⟩
  obtain ⟨t, ht, htp, hte⟩ := (hread [3] holder).2 ⟨_, List.mem_of_getElem? (i := 3) rfl, rfl, rfl⟩
  -- the last carrier of `B` before it is used is the one that uses `A`
  obtain ⟨b, hb, hB, -, hnode, hlast⟩ := huses u hu "B" (by rw [hue]; rfl)
  have hcb : [2] ≤ b.address := hcp ▸ hlast c hc (by rw [Site.Carries, hce]; rfl)
    (by rw [hcp, hup]; decide)
  have hbA : b.element.attribute? "USE" = some "A" :=
    (hcarriers b hb).2 hB (lt_of_lt_of_le (by decide) hcb)
  obtain ⟨d, hd, hA, -, hsame, -⟩ := huses b hb "A" hbA
  have hukind : (readDocument usuallySkipped relabelled.item).scene.kind? u.node = some .shape := by
    rw [hnode, hsame, hshape d hd hA]
  have hk : u.kind = .shape := Option.some.inj ((h.kind u hu).symm.trans hukind)
  -- but it is inside a transform, which has no shape inside
  obtain ⟨n, hn, htype, -, hholds⟩ := h.made t ht (by rw [Site.makes, hte]; rfl)
  have hnk : n.kind = .transform := by
    rw [hte] at htype
    exact (Option.some.inj htype).symm
  have hinside : u ∈ (sites.filter (·.isChildOf t.address)).filter
      (·.goesInto usuallySkipped .transform "children") := by
    refine List.mem_filter.2 ⟨List.mem_filter.2 ⟨hu, ?_⟩, ?_⟩
    · rw [Site.isChildOf, hup, htp]
      rfl
    · rw [Site.goesInto, hk, hue]
      rfl
  refine kind?_ne_shape_relabelled n (Array.mem_of_getElem? hn) hnk u.node ?_ hukind
  obtain ⟨d, hd, hname, hkind, -⟩ := NodeKind.exists_childrenField (k := .transform) rfl
  have hlist := hholds.list d (hnk ▸ hd) hkind
  rw [hname, hnk] at hlist
  rw [Node.targets, show n.get? "children" = _ from hlist]
  exact List.mem_map_of_mem hinside

end SceneTidy.X3d

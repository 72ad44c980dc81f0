import SceneTidy.Proofs.Scene.Copy
import SceneTidy.Proofs.Scene.Sharing
import SceneTidy.Vrml.Writing

/-!
# Scenes that are written alike

A scene mirrors another if the nodes reached from its root stand for those of the other, one for
each, with the same written fields and the same references when these are followed along
(`Mirrors`).  Then a traversal of the one runs as one of the other: it comes to the same nodes in
the same order (`Mirrors.walkFrom`), and lays out the same blocks (`Mirrors.outlineNode`).  Main
statement: scenes that mirror each other are written as the same text (`Mirrors.write`).
-/

namespace SceneTidy

/-- A node is written like another one, with other nodes in place of those that it refers to. -/
structure Node.Mirrors (f : NodeId → NodeId) (n m : Node) : Prop where
  kind : m.kind = n.kind
  refs : m.refs = n.refs.map f
  written : m.written = n.written.map fun p => (p.1, p.2.relink f)
  children : m.children = n.children.map f

/-- The value of a field stands for that of another node: it refers to what stands for the other's
references, and if files show the field, it is the same or both are as declared. -/
structure FieldValue.Echoes (f : NodeId → NodeId) (d : FieldDecl) (v w : FieldValue) : Prop where
  refs : w.refs = v.refs.map f
  same : d.exposed = true → w.same d.declared = v.same d.declared
  written : d.exposed = true → v.same d.declared = false → w = v.relink f

/-- Each field of a node stands for that of another one of its kind. -/
structure Node.Echoes (f : NodeId → NodeId) (n m : Node) : Prop where
  kind : m.kind = n.kind
  fields : ∀ d ∈ n.kind.fields, (n.value d).Echoes f d (m.value d)

/-- Values that are declared refer to nothing, so that following references does not bring a value
nearer to one. -/
theorem FieldValue.same_relink (f : NodeId → NodeId) (v : FieldValue) {w : FieldValue}
    (hw : w.refs = []) : (v.relink f).same w = v.same w := by
  cases v with
  | one k x => rfl
  | many k xs => rfl
  | node t =>
    cases w with
    | node u =>
      obtain rfl : u = none := by simpa [FieldValue.refs] using hw
      cases t <;> rfl
    | _ => rfl
  | nodes ts =>
    cases w with
    | nodes us =>
      obtain rfl : us = [] := hw
      cases ts <;> rfl
    | _ => rfl

theorem FieldValue.echoes_relink {k : NodeKind} {d : FieldDecl} (hd : d ∈ k.fields)
    (f : NodeId → NodeId) (v : FieldValue) : v.Echoes f d (v.relink f) :=
  ⟨v.refs_relink f, fun _ => v.same_relink f (k.refs_declared d hd), fun _ _ => rfl⟩

namespace Node

variable {f : NodeId → NodeId} {n m : Node}

/-- The fields that a file shows, with their declarations, before they are put in order. -/
theorem shown_eq_map (n : Node) : n.changed.filter (·.1.exposed) =
    (n.kind.fields.filter fun d => d.exposed && !(n.value d).same d.declared).map
      fun d => (d, n.value d) := by
  rw [changed, slots_eq_map, List.filter_filter, List.filter_map]
  rfl

/-- Nodes whose fields stand for each other are written alike. -/
theorem Echoes.mirrors (h : n.Echoes f m) : n.Mirrors f m := by
  obtain ⟨hk, h⟩ := h
  refine ⟨hk, ?_, ?_, ?_⟩
  · rw [refs_eq_flatMap_slots, refs_eq_flatMap_slots, slots_eq_map, slots_eq_map, hk,
      List.flatMap_map, List.flatMap_map, List.map_flatMap]
    exact List.flatMap_congr fun d hd => (h d hd).refs
  · have hshown : m.changed.filter (·.1.exposed) =
        (n.changed.filter (·.1.exposed)).map fun p => (p.1, p.2.relink f) := by
      rw [shown_eq_map, shown_eq_map, hk, List.map_map]
      have hkeep : (n.kind.fields.filter fun d => d.exposed && !(m.value d).same d.declared) =
          n.kind.fields.filter fun d => d.exposed && !(n.value d).same d.declared := by
        refine List.filter_congr fun d hd => ?_
        cases hx : d.exposed with
        | false => rfl
        | true => rw [(h d hd).same hx]
      rw [hkeep]
      refine List.map_congr_left fun d hd => ?_
      obtain ⟨hd, hx⟩ := List.mem_filter.1 hd
      rw [Bool.and_eq_true, Bool.not_eq_true'] at hx
      rw [(h d hd).written hx.1 hx.2]
      rfl
    have hsort : ((n.changed.filter (·.1.exposed)).mergeSort fun a b => a.1.precedes b.1).map
          (fun p => (p.1, p.2.relink f)) =
        ((n.changed.filter (·.1.exposed)).map fun p => (p.1, p.2.relink f)).mergeSort
          fun a b => a.1.precedes b.1 := List.map_mergeSort fun _ _ _ _ => rfl
    rw [written, hshown, ← hsort, written, List.map_map, List.map_map]
    rfl
  · rw [children, children, hk]
    cases hg : n.kind.isGrouping with
    | false =>
      have hnone := NodeKind.name_ne_childrenField hg
      rw [n.targets_of_not_mem hnone, m.targets_of_not_mem (hk.symm ▸ hnone)]
      rfl
    | true =>
      obtain ⟨d, hd, hname, hkind, -⟩ := NodeKind.exists_childrenField hg
      have hrefs := (h d hd).refs
      rw [value, value, get?_eq_nodes (hk ▸ hd) hkind, get?_eq_nodes hd hkind, hname] at hrefs
      exact hrefs

end Node

theorem Node.mem_refs_of_mem_written {n : Node} {p : String × FieldValue} {b : NodeId}
    (hp : p ∈ n.written) (hb : b ∈ p.2.refs) : b ∈ n.refs := by
  obtain ⟨d, hd, -⟩ := mem_written_iff.1 hp
  rw [refs_eq_flatMap_slots]
  exact List.mem_flatMap.2 ⟨(d, p.2), hd, hb⟩

namespace Scene

/-- The nodes of one scene that are reached from its root stand for those of another, one for each.
-/
structure Mirrors (s t : Scene) (f : NodeId → NodeId) : Prop where
  root : f s.root = t.root
  injOn : Set.InjOn f {a | s.Reaches s.root a}
  node : ∀ a, s.Reaches s.root a →
    ∃ n m, s.node? a = some n ∧ t.node? (f a) = some m ∧ n.Echoes f m

variable {s t : Scene} {f : NodeId → NodeId} {met : List NodeId} {id : NodeId}

/-- The nodes met are reached from the root. -/
def AllReached (s : Scene) (met : List NodeId) : Prop := ∀ x ∈ met, s.Reaches s.root x

theorem AllReached.cons (h : s.AllReached met) (hid : s.Reaches s.root id) :
    s.AllReached (id :: met) :=
  List.forall_mem_cons.2 ⟨hid, h⟩

theorem allReached_refs {n : Node} (hid : s.Reaches s.root id) (hn : s.node? id = some n) :
    s.AllReached n.refs :=
  fun b hb => hid.tail (by rwa [Refers, refs_of_node? hn])

theorem Mirrors.mem_map_iff (h : s.Mirrors t f) (hmet : s.AllReached met)
    (hid : s.Reaches s.root id) : f id ∈ met.map f ↔ id ∈ met := by
  rw [List.mem_map]
  constructor
  · rintro ⟨x, hx, he⟩
    obtain rfl := h.injOn (hmet x hx) hid he
    exact hx
  · exact fun hm => ⟨id, hm, rfl⟩

theorem Mirrors.contains_map (h : s.Mirrors t f) (hmet : s.AllReached met)
    (hid : s.Reaches s.root id) : (met.map f).contains (f id) = met.contains id := by
  rw [Bool.eq_iff_iff, List.contains_iff_mem, List.contains_iff_mem, h.mem_map_iff hmet hid]

/-! ### Walks and references -/

namespace Mirrors

/-- A walk of the one scene goes along with a walk of the other. -/
theorem walkFrom (h : s.Mirrors t f) {stack : List NodeId} (hstack : s.AllReached stack)
    (hmet : s.AllReached met) :
    t.walkFrom (stack.map f) (met.map f) = (s.walkFrom stack met).map f := by
  fun_induction s.walkFrom stack met with
  | case1 met => rw [List.map_nil, Scene.walkFrom]
  | case2 met id rest hin ih =>
    obtain ⟨hid, hrest⟩ := List.forall_mem_cons.1 hstack
    rw [List.map_cons, walkFrom_of_mem ((h.mem_map_iff hmet hid).2 hin), ih hrest hmet]
  | case3 met id rest hin hnone ih =>
    obtain ⟨n, m, hn, -⟩ := h.node id (hstack id (List.mem_cons_self ..))
    cases hn.symm.trans hnone
  | case4 met id rest hin n hn ih =>
    obtain ⟨hid, hrest⟩ := List.forall_mem_cons.1 hstack
    obtain ⟨n', m, hn', hm, hnode⟩ := h.node id hid
    obtain rfl := Option.some.inj (hn'.symm.trans hn)
    have hnew : f id ∉ met.map f := fun hm => hin ((h.mem_map_iff hmet hid).1 hm)
    have hnext := ih (List.forall_mem_append.2 ⟨allReached_refs hid hn, hrest⟩) (hmet.cons hid)
    rw [List.map_append, List.map_cons, ← hnode.mirrors.refs] at hnext
    rw [List.map_cons, walkFrom_of_node hnew hm, hnext, List.map_cons]

theorem walk (h : s.Mirrors t f) : t.walk t.root = (s.walk s.root).map f := by
  have hroot : s.AllReached [s.root] := List.forall_mem_singleton.2 .refl
  rw [← h.root]
  exact h.walkFrom hroot fun x hx => absurd hx List.not_mem_nil

theorem references (h : s.Mirrors t f) :
    t.references t.root = (s.references s.root).map f := by
  rw [Scene.references, Scene.references, h.walk, List.map_cons, h.root, List.flatMap_map,
    List.map_flatMap]
  refine congrArg (t.root :: ·) (List.flatMap_congr fun a ha => ?_)
  obtain ⟨n, m, hn, hm, hnode⟩ := h.node a (mem_walk_iff.1 ha).2
  rw [refs_of_node? hm, refs_of_node? hn, hnode.mirrors.refs]

theorem count_references (h : s.Mirrors t f) (hid : s.Reaches s.root id) :
    (t.references t.root).count (f id) = (s.references s.root).count id := by
  rw [h.references, List.count_eq_countP, List.count_eq_countP, List.countP_map]
  refine List.countP_congr fun x hx => ?_
  rw [Function.comp_apply, beq_iff_eq, beq_iff_eq]
  exact ⟨fun he => h.injOn (reaches_of_mem_references hx) hid he, fun he => he ▸ rfl⟩

/-- The shared nodes have the same names. -/
theorem sharedNames (h : s.Mirrors t f) :
    t.sharedNames = s.sharedNames.map fun p => (f p.1, p.2) := by
  have hshared : (t.arrivals t.root).shared = (s.arrivals s.root).shared.map f := by
    rw [shared_arrivals, shared_arrivals, h.walk, List.filter_map]
    refine congrArg (List.map f) (List.filter_congr fun a ha => ?_)
    rw [Function.comp_apply, h.count_references (mem_walk_iff.1 ha).2]
  rw [Scene.sharedNames, Scene.sharedNames, hshared, List.zipIdx_map, List.map_map, List.map_map]
  rfl

theorem lookup_sharedNames (h : s.Mirrors t f) (hid : s.Reaches s.root id) :
    t.sharedNames.lookup (f id) = s.sharedNames.lookup id := by
  have hreached : s.AllReached (s.sharedNames.map Prod.fst) := by
    rw [map_fst_sharedNames, shared_arrivals]
    exact fun x hx => (mem_walk_iff.1 (List.mem_filter.1 hx).1).2
  rw [h.sharedNames]
  generalize s.sharedNames = l at hreached
  induction l with
  | nil => rfl
  | cons p l ih =>
    obtain ⟨hp, hl⟩ := List.forall_mem_cons.1 hreached
    have hbeq : (f id == f p.1) = (id == p.1) := by
      rw [Bool.eq_iff_iff, beq_iff_eq, beq_iff_eq]
      exact ⟨fun he => h.injOn hid hp he, fun he => by rw [he]⟩
    rw [List.map_cons, List.lookup_cons, List.lookup_cons, hbeq, ih hl]

end Mirrors

end Scene

namespace Vrml

variable {α β : Type}

/-! ### Blocks with other tags -/

mutual

/-- A block with other tags. -/
def Block.map (f : α → β) : Block α → Block β
  | .use name => .use name
  | .node tag name kind body => .node (f tag) name kind (body.map f)

/-- The fields of a node with other tags. -/
def Body.map (f : α → β) : Body α → Body β
  | .done => .done
  | .value field v rest => .value field v (rest.map f)
  | .single field b rest => .single field (b.map f) (rest.map f)
  | .list field bs rest => .list field (bs.map f) (rest.map f)

/-- Blocks with other tags. -/
def Blocks.map (f : α → β) : Blocks α → Blocks β
  | .nil => .nil
  | .cons b bs => .cons (b.map f) (bs.map f)

end

/-- A piece that begins or ends the part of another node. -/
def Piece.map (f : NodeId → NodeId) : Piece → Piece
  | begins id => begins (f id)
  | ends id => ends (f id)
  | p => p

theorem map_valuePieces (f : NodeId → NodeId) (depth : Nat) (field : String) (v : FieldValue) :
    (valuePieces depth field v).map (Piece.map f) = valuePieces depth field v := by
  cases v with
  | one k x => rfl
  | many k xs =>
    rw [valuePieces, List.map_append, List.map_append, List.map_flatMap]
    rfl
  | node t => rfl
  | nodes ts => rfl

mutual

theorem Block.pieces_map (f : NodeId → NodeId) (b : Block NodeId) (depth : Nat) :
    (b.map f).pieces depth = (b.pieces depth).map (Piece.map f) :=
  match b with
  | .use _ => rfl
  | .node id name kind body => by
    have hname : (definition name).map (Piece.map f) = definition name := by cases name <;> rfl
    rw [Block.map, Block.pieces, Block.pieces, List.map_append, List.map_cons, hname]
    split
    · rw [List.map_append, List.map_append, List.map_cons, body.pieces_map]
      rfl
    · rfl

theorem Body.pieces_map (f : NodeId → NodeId) (b : Body NodeId) (depth : Nat) :
    (b.map f).pieces depth = (b.pieces depth).map (Piece.map f) :=
  match b with
  | .done => rfl
  | .value field v rest => by
    rw [Body.map, Body.pieces, Body.pieces, List.map_append, rest.pieces_map, map_valuePieces]
  | .single field b rest => by
    rw [Body.map, Body.pieces, Body.pieces, List.map_append, List.map_cons, List.map_cons,
      b.pieces_map, rest.pieces_map]
    rfl
  | .list field bs rest => by
    rw [Body.map, Body.pieces, Body.pieces, List.map_append, List.map_append, List.map_append,
      bs.pieces_map, rest.pieces_map]
    rfl

theorem Blocks.pieces_map (f : NodeId → NodeId) (bs : Blocks NodeId) (depth : Nat) :
    (bs.map f).pieces depth = (bs.pieces depth).map (Piece.map f) :=
  match bs with
  | .nil => rfl
  | .cons b bs => by
    rw [Blocks.map, Blocks.pieces, Blocks.pieces, List.map_append, List.map_cons, b.pieces_map,
      bs.pieces_map]
    rfl

end

theorem renderAll_map (f : NodeId → NodeId) (indent : Nat) (ps : List Piece) :
    renderAll indent (ps.map (Piece.map f)) = renderAll indent ps := by
  have hrefused : (fun p => !(Piece.map f p).isRefused) = fun p => !p.isRefused := by
    funext p
    cases p <;> rfl
  have hrender : (fun p => (Piece.map f p).render indent) = (·.render indent) := by
    funext p
    cases p <;> rfl
  rw [renderAll, renderAll, List.takeWhile_map, List.flatMap_map, hrender]
  exact congrArg (fun keep => (ps.takeWhile keep).flatMap (·.render indent)) hrefused

theorem refusal?_map (f : NodeId → NodeId) (ps : List Piece) :
    refusal? (ps.map (Piece.map f)) = refusal? ps := by
  rw [refusal?, refusal?, List.findSome?_map]
  congr 1
  funext p
  cases p <;> rfl

end Vrml

namespace Scene.Mirrors

open Vrml

variable {s t : Scene} {f : NodeId → NodeId} {met : List NodeId} {id : NodeId} {bound bound' : Nat}

/-- A meeting of one scene meets what stands for the nodes that a meeting of another one meets. -/
def MeetsAlike (s t : Scene) (f : NodeId → NodeId) (meet meet' : Meeting) (bound bound' : Nat) :
    Prop :=
  ∀ id met, s.Reaches s.root id → s.AllReached met → s.unmet met < bound →
    t.unmet (met.map f) < bound' →
    meet' (f id) (met.map f) = ((meet id met).1.map (Block.map f), (meet id met).2.map f) ∧
      met ⊆ (meet id met).2 ∧ s.AllReached (meet id met).2

variable {meet meet' : Meeting}

theorem outlineList (h : MeetsAlike s t f meet meet' bound bound') {ids : List NodeId}
    (hids : s.AllReached ids) (hmet : s.AllReached met) (hb : s.unmet met < bound)
    (hb' : t.unmet (met.map f) < bound') :
    Vrml.outlineList meet' (ids.map f) (met.map f) =
        ((Vrml.outlineList meet ids met).1.map f, (Vrml.outlineList meet ids met).2.map f) ∧
      met ⊆ (Vrml.outlineList meet ids met).2 ∧ s.AllReached (Vrml.outlineList meet ids met).2 := by
  induction ids generalizing met with
  | nil => exact ⟨rfl, fun _ hx => hx, hmet⟩
  | cons id ids ih =>
    obtain ⟨hid, hids⟩ := List.forall_mem_cons.1 hids
    obtain ⟨heq, hsub, hreached⟩ := h id met hid hmet hb hb'
    obtain ⟨heq', hsub', hreached'⟩ := ih hids hreached
      (Nat.lt_of_le_of_lt (unmet_le_of_subset hsub) hb)
      (Nat.lt_of_le_of_lt (unmet_le_of_subset (List.map_subset f hsub)) hb')
    refine ⟨?_, fun x hx => hsub' (hsub hx), hreached'⟩
    rw [List.map_cons, Vrml.outlineList, heq]
    dsimp only
    rw [heq', Vrml.outlineList]
    generalize meet id met = r
    obtain ⟨b, met₁⟩ := r
    cases b <;> rfl

theorem outlineBody (h : MeetsAlike s t f meet meet' bound bound')
    {l : List (String × FieldValue)} (hl : ∀ p ∈ l, s.AllReached p.2.refs) (hmet : s.AllReached met)
    (hb : s.unmet met < bound) (hb' : t.unmet (met.map f) < bound') :
    Vrml.outlineBody meet' (l.map fun p => (p.1, p.2.relink f)) (met.map f) =
        ((Vrml.outlineBody meet l met).1.map f, (Vrml.outlineBody meet l met).2.map f) ∧
      met ⊆ (Vrml.outlineBody meet l met).2 ∧ s.AllReached (Vrml.outlineBody meet l met).2 := by
  induction l generalizing met with
  | nil => exact ⟨rfl, fun _ hx => hx, hmet⟩
  | cons p l ih =>
    obtain ⟨field, v⟩ := p
    obtain ⟨hv, hl⟩ := List.forall_mem_cons.1 hl
    -- the fields after this one, from the nodes that it leaves met
    have hnext : ∀ met₁, met ⊆ met₁ → s.AllReached met₁ → _ := fun met₁ hsub hreached =>
      ih hl hreached (Nat.lt_of_le_of_lt (unmet_le_of_subset hsub) hb)
        (Nat.lt_of_le_of_lt (unmet_le_of_subset (List.map_subset f hsub)) hb')
    obtain ⟨hrest, hplain⟩ := hnext met (fun _ hx => hx) hmet
    cases v with
    | one k x => exact ⟨congrArg (fun r => (Body.value field (.one k x) r.1, r.2)) hrest, hplain⟩
    | many k xs =>
      exact ⟨congrArg (fun r => (Body.value field (.many k xs) r.1, r.2)) hrest, hplain⟩
    | node target =>
      cases target with
      | none => exact ⟨congrArg (fun r => (Body.value field (.node none) r.1, r.2)) hrest, hplain⟩
      | some id =>
        obtain ⟨heq, hsub, hreached⟩ := h id met (hv id (List.mem_singleton_self id)) hmet hb hb'
        obtain ⟨heq', hsub', hreached'⟩ := hnext _ hsub hreached
        refine ⟨?_, fun x hx => hsub' (hsub hx), hreached'⟩
        rw [List.map_cons, FieldValue.relink, Option.map_some, Vrml.outlineBody, heq]
        dsimp only
        rw [heq', Vrml.outlineBody]
        generalize meet id met = r
        obtain ⟨b, met₁⟩ := r
        cases b <;> rfl
    | nodes ids =>
      have hids : s.AllReached ids := hv
      obtain ⟨heq, hsub, hreached⟩ := outlineList h hids hmet hb hb'
      obtain ⟨heq', hsub', hreached'⟩ := hnext _ hsub hreached
      refine ⟨?_, fun x hx => hsub' (hsub hx), hreached'⟩
      rw [List.map_cons, FieldValue.relink, Vrml.outlineBody, heq]
      dsimp only
      rw [heq', Vrml.outlineBody]
      rfl

/-- One meeting, within bounds that are large enough on both sides. -/
theorem outlineNode (h : s.Mirrors t f) (bound bound' : Nat) :
    MeetsAlike s t f (s.outlineNode s.sharedNames bound) (t.outlineNode t.sharedNames bound') bound
      bound' := by
  induction bound generalizing bound' with
  | zero => exact fun _ _ _ _ hb => absurd hb (Nat.not_lt_zero _)
  | succ bound ih =>
    cases bound' with
    | zero => exact fun _ _ _ _ _ hb' => absurd hb' (Nat.not_lt_zero _)
    | succ bound' =>
      intro id met hid hmet hb hb'
      rw [Scene.outlineNode, Scene.outlineNode, h.contains_map hmet hid, h.lookup_sharedNames hid]
      by_cases hin : met.contains id
      · rw [if_pos hin, if_pos hin]
        exact ⟨rfl, fun _ hx => hx, hmet⟩
      · have hnew : id ∉ met := fun hm => hin (List.contains_iff_mem.2 hm)
        have hnew' : f id ∉ met.map f := fun hm => hnew ((h.mem_map_iff hmet hid).1 hm)
        obtain ⟨n, m, hn, hm, hnode⟩ := h.node id hid
        rw [if_neg hin, if_neg hin, hn, hm]
        have hfields : (if m.kind.isRegistered then m.written else []) =
            (if n.kind.isRegistered then n.written else []).map fun p => (p.1, p.2.relink f) := by
          rw [hnode.kind, hnode.mirrors.written]
          split <;> rfl
        have hrefs : ∀ p ∈ (if n.kind.isRegistered then n.written else []),
            s.AllReached p.2.refs := by
          intro p hp b hb
          have hp' : p ∈ n.written := by
            split at hp
            · exact hp
            · exact absurd hp List.not_mem_nil
          exact allReached_refs hid hn b (Node.mem_refs_of_mem_written hp' hb)
        obtain ⟨heq, hsub, hreached⟩ := outlineBody (ih bound') hrefs (hmet.cons hid)
          (unmet_cons_lt_of_lt_succ hn hnew hb) (unmet_cons_lt_of_lt_succ hm hnew' hb')
        refine ⟨?_, fun x hx => hsub (List.mem_cons_of_mem _ hx), hreached⟩
        dsimp only
        rw [hfields, hnode.kind, ← List.map_cons, heq]
        rfl

theorem outline (h : s.Mirrors t f) : t.outline = s.outline.map f := by
  obtain ⟨n, m, hn, hm, hnode⟩ := h.node s.root .refl
  rw [h.root] at hm
  have hchildren : t.children t.root = (s.children s.root).map f := by
    rw [children_of_node? hm, children_of_node? hn, hnode.mirrors.children]
  have hreached : s.AllReached (s.children s.root) := fun b hb =>
    .single (mem_refs_of_mem_children hb)
  have hnone : s.AllReached [] := fun x hx => absurd hx List.not_mem_nil
  have hb : s.unmet [] < s.size + 1 := by simp
  have hb' : t.unmet ([].map f) < t.size + 1 := by simp
  have hlist := (outlineList (h.outlineNode (s.size + 1) (t.size + 1)) hreached hnone hb hb').1
  rw [Scene.outline, Scene.outline, hchildren]
  exact congrArg Prod.fst hlist

/-- **Scenes that mirror each other are written as the same text**, or fail alike. -/
theorem write (h : s.Mirrors t f) (indent : Nat) :
    (t.write indent).text = (s.write indent).text ∧
      (t.write indent).failure = (s.write indent).failure := by
  have hpieces : filePieces t.outline = (filePieces s.outline).map (Piece.map f) := by
    rw [filePieces, filePieces, h.outline, Blocks.pieces_map]
    rfl
  constructor
  · rw [Scene.write, Scene.write, hpieces, renderAll_map]
  · rw [Scene.write, Scene.write, hpieces, refusal?_map]

end Scene.Mirrors

end SceneTidy

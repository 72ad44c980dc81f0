import Mathlib.Data.Prod.Lex
import Mathlib.Data.String.Basic
import SceneTidy.Proofs.Vrml.Fixpoint
import SceneTidy.Proofs.Vrml.Parts
import SceneTidy.Report

/-!
# The report of groups

The report goes over the scene on its own.  It visits each node once that the root refers to by way
of others, and tells of the grouping nodes among them (`ReportCase.exists_groupReport`).  It visits
them in the order of the file if nodes refer to others in the order of their written fields
(`Node.RefersInOrder`).  Nodes of all kinds but one do, unless they refer to some in fields that
files do not show (`Node.refersInOrder`); a collision refers to its children first, but its proxy is
written first.  Main statement: what the report tells of a scene, and that it tells of the parts of
the text if nodes refer to others in order (`Scene.groupReport_write`).
-/

namespace SceneTidy

open Vrml

namespace ReportCase

variable {c : ReportCase} {told told' told'' : List Notice × List NodeId}
  {visits visits' : List (Nat × NodeId)} {start : NodeId}

/-- What is told when a node is met that another one refers to. -/
def meet (c : ReportCase) (bound depth : Nat) (told : List Notice × List NodeId) (id : NodeId) :
    List Notice × List NodeId :=
  if told.2.contains id then told
  else c.tree bound (depth + 1) id (told.1 ++ c.line depth id, id :: told.2)

theorem tree_succ (c : ReportCase) (bound depth : Nat) (id : NodeId)
    (told : List Notice × List NodeId) :
    c.tree (bound + 1) depth id told = (c.scene.refs id).foldl (c.meet bound depth) told := rfl

theorem meet_of_mem {bound depth : Nat} {id : NodeId} (h : id ∈ told.2) :
    c.meet bound depth told id = told := if_pos (by simpa using h)

theorem meet_of_not_mem {bound depth : Nat} {id : NodeId} (h : id ∉ told.2) :
    c.meet bound depth told id =
      c.tree bound (depth + 1) id (told.1 ++ c.line depth id, id :: told.2) :=
  if_neg (by simpa using h)

/-- Some nodes were visited from one moment to another, each at its depth. -/
structure Tells (c : ReportCase) (told told' : List Notice × List NodeId)
    (visits : List (Nat × NodeId)) : Prop where
  notices : told'.1 = told.1 ++ visits.flatMap fun v => c.line v.1 v.2
  seen : told'.2 = (visits.map Prod.snd).reverse ++ told.2

namespace Tells

theorem nil (c : ReportCase) (told : List Notice × List NodeId) : Tells c told told [] :=
  ⟨by simp, rfl⟩

theorem cons {depth : Nat} {id : NodeId}
    (h : Tells c (told.1 ++ c.line depth id, id :: told.2) told' visits) :
    Tells c told told' ((depth, id) :: visits) :=
  ⟨by rw [h.notices, List.append_assoc, List.flatMap_cons], by rw [h.seen]; simp⟩

theorem append (h : Tells c told told' visits) (h' : Tells c told' told'' visits') :
    Tells c told told'' (visits ++ visits') := by
  refine ⟨?_, ?_⟩
  · rw [h'.notices, h.notices, List.append_assoc, List.flatMap_append]
  · rw [h'.seen, h.seen, List.map_append, List.reverse_append, List.append_assoc]

theorem subset (h : Tells c told told' visits) : told.2 ⊆ told'.2 := by
  rw [h.seen]
  exact List.subset_append_right _ _

end Tells

/-! ### The nodes that are visited -/

/-- The nodes visited below a node are new and come from it, and nothing that they refer to is left
out. -/
structure Explores (c : ReportCase) (start : NodeId) (told told' : List Notice × List NodeId)
    (visits : List (Nat × NodeId)) : Prop where
  tells : Tells c told told' visits
  nodup : told.2.Nodup → told'.2.Nodup
  new : ∀ v ∈ visits, Relation.TransGen c.scene.Refers start v.2 ∧
    ∀ r ∈ c.scene.refs v.2, r ∈ told'.2

namespace Explores

theorem nil (c : ReportCase) (start : NodeId) (told : List Notice × List NodeId) :
    Explores c start told told [] :=
  ⟨.nil c told, id, fun _ h => absurd h List.not_mem_nil⟩

theorem append (h : Explores c start told told' visits)
    (h' : Explores c start told' told'' visits') :
    Explores c start told told'' (visits ++ visits') where
  tells := h.tells.append h'.tells
  nodup hn := h'.nodup (h.nodup hn)
  new v hv := by
    rcases List.mem_append.1 hv with hv | hv
    · obtain ⟨hreach, hrefs⟩ := h.new v hv
      exact ⟨hreach, fun r hr => h'.tells.subset (hrefs r hr)⟩
    · exact h'.new v hv

/-- A node that is visited, and what is visited below it. -/
theorem cons {depth : Nat} {id : NodeId} (hrefers : c.scene.Refers start id) (hnew : id ∉ told.2)
    (h : Explores c id (told.1 ++ c.line depth id, id :: told.2) told' visits)
    (hrefs : ∀ r ∈ c.scene.refs id, r ∈ told'.2) :
    Explores c start told told' ((depth, id) :: visits) where
  tells := h.tells.cons
  nodup hn := h.nodup (List.nodup_cons.2 ⟨hnew, hn⟩)
  new := by
    refine List.forall_mem_cons.2 ⟨⟨.single hrefers, hrefs⟩, fun v hv => ?_⟩
    obtain ⟨hreach, hrefs⟩ := h.new v hv
    exact ⟨.head hrefers hreach, hrefs⟩

end Explores

/-- **The tree below a node**: everything that it refers to is visited, unless it was before. -/
theorem exists_explores (c : ReportCase) (bound depth : Nat) (id : NodeId)
    (told : List Notice × List NodeId)
    (h : c.scene.unmet told.2 < bound ∨ c.scene.refs id = []) :
    ∃ visits, Explores c id told (c.tree bound depth id told) visits ∧
      ∀ r ∈ c.scene.refs id, r ∈ (c.tree bound depth id told).2 := by
  induction bound generalizing depth id told with
  | zero =>
    have hnil := h.resolve_left (Nat.not_lt_zero _)
    exact ⟨[], .nil c id told, by simp [hnil]⟩
  | succ bound ih =>
    rw [tree_succ]
    have hrefers : ∀ r ∈ c.scene.refs id, c.scene.Refers id r := fun _ hr => hr
    generalize c.scene.refs id = ids at h hrefers ⊢
    induction ids generalizing told with
    | nil => exact ⟨[], .nil c id told, fun _ hr => absurd hr List.not_mem_nil⟩
    | cons r ids ihids =>
      obtain ⟨hr, hids⟩ := List.forall_mem_cons.1 hrefers
      have hb : c.scene.unmet told.2 < bound + 1 := h.resolve_right (List.cons_ne_nil r ids)
      rw [List.foldl_cons]
      obtain ⟨visits, hfirst, hmem⟩ : ∃ visits,
          Explores c id told (c.meet bound depth told r) visits ∧
            r ∈ (c.meet bound depth told r).2 := by
        by_cases hseen : r ∈ told.2
        · rw [meet_of_mem hseen]
          exact ⟨[], .nil c id told, hseen⟩
        · rw [meet_of_not_mem hseen]
          have hbelow : c.scene.unmet (r :: told.2) < bound ∨ c.scene.refs r = [] := by
            cases hn : c.scene.node? r with
            | none => exact .inr (Scene.refs_of_none hn)
            | some n => exact .inl (Scene.unmet_cons_lt_of_lt_succ hn hseen hb)
          obtain ⟨visits, hexplores, hrefs⟩ :=
            ih (depth + 1) r (told.1 ++ c.line depth r, r :: told.2) hbelow
          exact ⟨_, .cons hr hseen hexplores hrefs,
            hexplores.tells.subset (List.mem_cons_self ..)⟩
      have hle := Scene.unmet_le_of_subset (s := c.scene) hfirst.tells.subset
      obtain ⟨visits', hrest, hmems⟩ :=
        ihids (c.meet bound depth told r) (.inl (Nat.lt_of_le_of_lt hle hb)) hids
      exact ⟨_, hfirst.append hrest,
        List.forall_mem_cons.2 ⟨hrest.tells.subset hmem, hmems⟩⟩

/-- **The nodes that the report visits** are those that its start refers to by way of others, each
once. -/
theorem exists_groupReport (s : Scene) (nb : Numbering) (lengths : List (NodeId × Nat))
    (start : NodeId) : ∃ visits : List (Nat × NodeId),
      s.groupReport nb lengths start =
        visits.flatMap (fun v => ReportCase.line ⟨s, nb, lengths⟩ v.1 v.2) ∧
      (visits.map Prod.snd).Nodup ∧
      ∀ a, a ∈ visits.map Prod.snd ↔ Relation.TransGen s.Refers start a := by
  have hbound : s.unmet [] < s.size + 2 := by simp
  obtain ⟨visits, hexplores, hrefs⟩ :=
    exists_explores ⟨s, nb, lengths⟩ (s.size + 2) 0 start ([], []) (.inl hbound)
  have hseen : ∀ a, a ∈ (tree ⟨s, nb, lengths⟩ (s.size + 2) 0 start ([], [])).2 ↔
      a ∈ visits.map Prod.snd := fun a => by
    rw [hexplores.tells.seen, List.append_nil, List.mem_reverse]
  refine ⟨visits, hexplores.tells.notices, ?_, fun a => ⟨fun ha => ?_, fun ha => ?_⟩⟩
  · have hnodup := hexplores.nodup List.nodup_nil
    rwa [hexplores.tells.seen, List.append_nil, List.nodup_reverse] at hnodup
  · obtain ⟨v, hv, rfl⟩ := List.mem_map.1 ha
    exact (hexplores.new v hv).1
  · induction ha with
    | single hr => exact (hseen _).1 (hrefs _ hr)
    | tail _ hr ih =>
      obtain ⟨v, hv, rfl⟩ := List.mem_map.1 ih
      exact (hseen _).1 ((hexplores.new v hv).2 _ hr)

end ReportCase

/-! ### Nodes that refer to others in order -/

/-- The written fields of a node, in their order, refer to what the node refers to. -/
def Node.RefersInOrder (n : Node) : Prop := n.written.flatMap (·.2.refs) = n.refs

/-- To sort items does not change the order of those that are sorted already. -/
theorem filter_mergeSort {α : Type} (le : α → α → Bool) {q : α → Bool} {l : List α}
    (htrans : ∀ a b c, le a b → le b c → le a c) (htotal : ∀ a b, le a b || le b a)
    (h : (l.filter q).Pairwise fun a b => le a b) : (l.mergeSort le).filter q = l.filter q := by
  have hsub := (List.sublist_mergeSort htrans htotal h List.filter_sublist).filter q
  rw [List.filter_filter, List.filter_congr fun a _ => Bool.and_self (q a)] at hsub
  exact (hsub.eq_of_length ((List.mergeSort_perm l le).filter q).length_eq.symm).symm

namespace FieldDecl

theorem precedes_iff {d e : FieldDecl} :
    d.precedes e ↔ toLex (d.kind.rank, d.name) ≤ toLex (e.kind.rank, e.name) := by
  rw [Prod.Lex.toLex_le_toLex, precedes]
  simp only [Bool.or_eq_true, Bool.and_eq_true, decide_eq_true_iff, beq_iff_eq, le_iff_lt_or_eq]

theorem precedes_trans {d e f : FieldDecl} (h : d.precedes e) (h' : e.precedes f) :
    d.precedes f := precedes_iff.2 ((precedes_iff.1 h).trans (precedes_iff.1 h'))

theorem precedes_total (d e : FieldDecl) : d.precedes e || e.precedes d := by
  rw [Bool.or_eq_true, precedes_iff, precedes_iff]
  exact le_total _ _

/-- Whether a field holds references that files show. -/
def showsNodes (d : FieldDecl) : Bool := d.exposed && (d.kind == .node || d.kind == .nodes)

end FieldDecl

/-- Only one kind declares a list before a single reference. -/
theorem NodeKind.pairwise_showsNodes {k : NodeKind} (h : k ≠ .collision) :
    (k.fields.filter FieldDecl.showsNodes).Pairwise fun d e => d.precedes e := by
  cases k with
  | collision => exact absurd rfl h
  | _ => decide +kernel

/-- **A node refers to others in the order of its written fields** unless files do not show some of
them, or it is of the one kind that declares its fields in another order. -/
theorem Node.refersInOrder {n : Node} (hk : n.kind ≠ .collision)
    (hhides : ∀ d ∈ n.kind.fields, d.exposed = false → (n.value d).refs = []) :
    n.RefersInOrder := by
  have hnil : ∀ p ∈ n.changed.filter (·.1.exposed), p.1.showsNodes = false → p.2.refs = [] := by
    rintro ⟨d, v⟩ hp hq
    obtain ⟨hc, hx⟩ := List.mem_filter.1 hp
    have hkind := Node.kind_of_mem_slots (List.mem_filter.1 hc).1
    rw [FieldDecl.showsNodes, show d.exposed = true from hx, ← hkind] at hq
    cases v with
    | one => rfl
    | many => rfl
    | _ => cases hq
  have hsorted : ((n.changed.filter (·.1.exposed)).filter (·.1.showsNodes)).Pairwise
      fun p q => p.1.precedes q.1 := by
    rw [n.shown_eq_map, List.filter_map, List.pairwise_map]
    exact (NodeKind.pairwise_showsNodes hk).sublist (List.filter_sublist.filter _)
  have hsort := filter_mergeSort (fun p q : FieldDecl × FieldValue => p.1.precedes q.1)
    (fun _ _ _ => FieldDecl.precedes_trans) (fun _ _ => FieldDecl.precedes_total _ _) hsorted
  rw [RefersInOrder, written, List.flatMap_map, ← flatMap_shown hhides,
    ← flatMap_filter_of_nil hnil, ← hsort]
  exact (flatMap_filter_of_nil fun p hp => hnil p ((List.mergeSort_perm ..).mem_iff.1 hp)).symm

namespace Vrml

/-! ### The report in the order of the file -/

/-- What the report has of a part: how many node bodies are around it, and its node. -/
def Part.visit (p : Part) : Nat × NodeId := (p.outer, p.id)

variable {c : ReportCase} {meet : Meeting} {bound : Nat} {told : List Notice × List NodeId}

/-- Within a bound on the depth the report visits the nodes of the parts of the block that a meeting
gives, if it has seen the nodes met before. -/
def Follows (c : ReportCase) (meet : Meeting) (bound : Nat) : Prop :=
  ∀ id told indent depth outer start, c.scene.Listed id → c.scene.unmet told.2 < bound →
    ReportCase.Tells c told (c.meet bound outer told id)
      (((meet id told.2).1.elim [] (Block.parts indent depth outer start)).map Part.visit)

/-- The report and a meeting go on with the same nodes. -/
theorem snd_eq_of_tells {told' : List Notice × List NodeId} {met' : List NodeId}
    {parts : List Part} (h : ReportCase.Tells c told told' (parts.map Part.visit))
    (h' : Tracks c.scene told.2 met' parts) : met' = told'.2 := by
  rw [h'.met, h.seen, List.map_map]
  rfl

theorem Follows.list (h : Follows c meet bound) (ht : Traces c.scene meet) {ids : List NodeId}
    (hids : ∀ id ∈ ids, c.scene.Listed id) (hb : c.scene.unmet told.2 < bound)
    (indent depth outer start : Nat) :
    ReportCase.Tells c told (ids.foldl (c.meet bound outer) told)
      (((outlineList meet ids told.2).1.parts indent depth outer start).map Part.visit) := by
  induction ids generalizing told start with
  | nil => exact .nil c told
  | cons id ids ih =>
    obtain ⟨hid, hids⟩ := List.forall_mem_cons.1 hids
    have hfirst := h id told indent depth outer (start + width indent [.margin depth]) hid hb
    have hnext := snd_eq_of_tells hfirst (ht id told.2 indent depth outer _)
    have hb' := Nat.lt_of_le_of_lt (Scene.unmet_le_of_subset hfirst.subset) hb
    rw [List.foldl_cons, outlineList]
    generalize meet id told.2 = first at hfirst hnext ⊢
    obtain ⟨b, met⟩ := first
    obtain rfl : met = _ := hnext
    cases b with
    | none => exact hfirst.append (ih hids hb' start)
    | some b =>
      rw [Blocks.parts, List.map_append]
      exact hfirst.append (ih hids hb' _)

theorem Follows.body (h : Follows c meet bound) (ht : Traces c.scene meet)
    {l : List (String × FieldValue)} (hl : ∀ p ∈ l, ∀ r ∈ p.2.refs, c.scene.Listed r)
    (hb : c.scene.unmet told.2 < bound) (indent depth outer start : Nat) :
    ReportCase.Tells c told ((l.flatMap (·.2.refs)).foldl (c.meet bound outer) told)
      (((outlineBody meet l told.2).1.parts indent depth outer start).map Part.visit) := by
  induction l generalizing told start with
  | nil => exact .nil c told
  | cons p l ih =>
    obtain ⟨field, v⟩ := p
    obtain ⟨hv, hrest⟩ := List.forall_mem_cons.1 hl
    rw [List.flatMap_cons, List.foldl_append]
    cases v with
    | one k x => exact ih hrest hb _
    | many k xs => exact ih hrest hb _
    | node t =>
      cases t with
      | none => exact ih hrest hb _
      | some id =>
        have hfirst := h id told indent depth outer
          (start + width indent [.margin depth, .text (field.toList ++ [' '])])
          (hv id (List.mem_singleton_self id)) hb
        have hnext := snd_eq_of_tells hfirst (ht id told.2 indent depth outer _)
        have hb' := Nat.lt_of_le_of_lt (Scene.unmet_le_of_subset hfirst.subset) hb
        simp only [outlineBody]
        generalize meet id told.2 = first at hfirst hnext ⊢
        obtain ⟨b, met⟩ := first
        obtain rfl : met = _ := hnext
        cases b with
        | none => exact hfirst.append (ih hrest hb' _)
        | some b =>
          rw [Body.parts, List.map_append]
          exact hfirst.append (ih hrest hb' _)
    | nodes ids =>
      have hfirst := h.list ht hv hb indent (depth + 1) outer
        (start + width indent (Piece.line depth (field.toList ++ [' ', '['])))
      have hnext := snd_eq_of_tells hfirst (ht.list ids told.2 indent (depth + 1) outer _)
      have hb' := Nat.lt_of_le_of_lt (Scene.unmet_le_of_subset hfirst.subset) hb
      simp only [outlineBody, Body.parts, List.map_append, hnext]
      exact hfirst.append (ih hrest hb' _)

/-- **The report follows the outline** of a scene in which nodes refer to others in order. -/
theorem follows_outlineNode (hs : c.scene.Writable)
    (horder : ∀ a n, c.scene.Listed a → c.scene.node? a = some n → n.RefersInOrder)
    (bound : Nat) : Follows c (c.scene.outlineNode c.scene.sharedNames bound) bound := by
  induction bound with
  | zero => exact fun _ _ _ _ _ _ _ hb => absurd hb (Nat.not_lt_zero _)
  | succ bound ih =>
    intro id told indent depth outer start hid hb
    obtain ⟨n, hn, hreg⟩ := exists_node_of_listed hs hid
    rw [Scene.outlineNode]
    by_cases hseen : id ∈ told.2
    · rw [if_pos (by simpa using hseen), ReportCase.meet_of_mem hseen]
      exact .nil c told
    · rw [if_neg (by simpa using hseen), ReportCase.meet_of_not_mem hseen,
        ReportCase.tree_succ, Scene.refs_of_node? hn, ← horder id n hid hn, hn]
      simp only [hreg, if_true]
      refine .cons (ih.body (traces_outlineNode c.scene bound) (fun p hp r hr => ?_)
        (Scene.unmet_cons_lt_of_lt_succ hn hseen hb) indent (depth + 1) (outer + 1) _)
      exact listed_of_shows hs hid.1 (Scene.shows_of_mem_written hn hp hr)

end Vrml

namespace Scene

variable {s : Scene} {indent : Nat}

/-- What the report should tell of a node of some kind: one line if it is a grouping node. -/
def groupLines (nb : Numbering) (kind : NodeKind) (depth : Nat) (id : NodeId) (length : Nat) :
    List Notice :=
  if kind.isGrouping then [.groupLength depth (nb.number? id) kind.typeName length] else []

theorem line_eq_groupLines {nb : Numbering} {lengths : List (NodeId × Nat)} {kind : NodeKind}
    {id : NodeId} (h : s.kind? id = some kind) (depth : Nat) :
    ReportCase.line ⟨s, nb, lengths⟩ depth id =
      groupLines nb kind depth id ((lengths.lookup id).getD 0) := by
  rw [ReportCase.line, h, groupLines]

/-- The length that is told of a part. -/
theorem lookup_lengths (hs : s.Writable) {p : Part} (hp : p ∈ s.parts indent) :
    (s.write indent).lengths.lookup p.id = some (p.text indent).length := by
  have hperm := lengths_perm_parts hs indent
  have hmem : (p.id, (p.text indent).length) ∈ (s.write indent).lengths :=
    hperm.mem_iff.2 (List.mem_map.2 ⟨p, hp, rfl⟩)
  have hnodup : ((s.write indent).lengths.map Prod.fst).Nodup := by
    rw [(hperm.map Prod.fst).nodup_iff, List.map_map]
    exact nodup_parts hs indent
  obtain ⟨length, hlookup⟩ := exists_lookup_of_mem (List.mem_map_of_mem (f := Prod.fst) hmem)
  have hsame := List.inj_on_of_nodup_map hnodup (mem_of_lookup hlookup) hmem rfl
  rw [hlookup, (Prod.mk.inj hsame).2]

theorem lookup_lengths_of_not_mem (hs : s.Writable) {a : NodeId}
    (ha : a ∉ (s.parts indent).map Part.id) : (s.write indent).lengths.lookup a = none := by
  rw [lookup_none_iff, ((lengths_perm_parts hs indent).map Prod.fst).mem_iff, List.map_map]
  exact ha

/-- If nodes refer to others in order, then the report tells of the parts. -/
theorem groupReport_eq (hs : s.Writable)
    (horder : ∀ a n, s.Listed a → s.node? a = some n → n.RefersInOrder) (nb : Numbering) :
    s.groupReport nb (s.write indent).lengths s.root = (s.parts indent).flatMap fun p =>
      groupLines nb p.kind p.outer p.id (p.text indent).length := by
  have hfollows := follows_outlineNode (c := ⟨s, nb, (s.write indent).lengths⟩) hs horder
    (s.size + 1)
  have htells : ReportCase.Tells _ ([], []) _ ((s.parts indent).map Part.visit) :=
    hfollows.list (traces_outlineNode s (s.size + 1)) (listed_of_mem_children hs) (by simp) indent
      0 0 headerLine.length
  have hreport := htells.notices
  rw [List.nil_append, List.flatMap_map] at hreport
  rw [groupReport, ReportCase.tree_succ, refs_root hs.root, hreport]
  refine List.flatMap_congr fun p hp => ?_
  rw [Part.visit, line_eq_groupLines ((s.tracks_parts indent).labels p hp).1,
    lookup_lengths hs hp, Option.getD_some]

/-- **The report of groups.**  Of a scene that was written to its end the report visits the nodes
that the root refers to by way of others, each once, and tells of the grouping nodes among them.  A
node that has a part of the text is visited, and what is told of it is right but for the depth; of
any other node it is told that it takes no characters.  If nodes refer to others in the order of
their written fields, the report tells of the parts of the grouping nodes and of nothing else, each
with the number of node bodies around it. -/
theorem groupReport_write (hroot : s.kind? s.root = some .scene)
    (hwhole : ∀ a, s.ShownFrom s.root a → (s.node? a).isSome)
    (h : (s.write indent).failure = none) (nb : Numbering) :
    (∃ visits : List (Nat × NodeId),
      s.groupReport nb (s.write indent).lengths s.root = visits.flatMap
        (fun v => ReportCase.line ⟨s, nb, (s.write indent).lengths⟩ v.1 v.2) ∧
      (visits.map Prod.snd).Nodup ∧
      (∀ a, a ∈ visits.map Prod.snd ↔ Relation.TransGen s.Refers s.root a) ∧
      (∀ p ∈ s.parts indent, ∃ depth, (depth, p.id) ∈ visits ∧
        ReportCase.line ⟨s, nb, (s.write indent).lengths⟩ depth p.id =
          groupLines nb p.kind depth p.id (p.text indent).length) ∧
      ∀ v ∈ visits, v.2 ∉ (s.parts indent).map Part.id → ∀ kind, s.kind? v.2 = some kind →
        ReportCase.line ⟨s, nb, (s.write indent).lengths⟩ v.1 v.2 =
          groupLines nb kind v.1 v.2 0) ∧
    ((∀ a n, s.ShownFrom s.root a → a ≠ s.root → s.node? a = some n → n.RefersInOrder) →
      s.groupReport nb (s.write indent).lengths s.root = (s.parts indent).flatMap fun p =>
        groupLines nb p.kind p.outer p.id (p.text indent).length) := by
  have hs := writable_of_write hroot hwhole h
  refine ⟨?_, fun horder => groupReport_eq hs (fun a n ha hn => horder a n ha.1 ha.2 hn) nb⟩
  obtain ⟨visits, hreport, hnodup, hvisits⟩ :=
    ReportCase.exists_groupReport s nb (s.write indent).lengths s.root
  refine ⟨visits, hreport, hnodup, hvisits, fun p hp => ?_, fun v _ hv kind hkind => ?_⟩
  · obtain ⟨hshown, hne⟩ := (mem_parts_iff hs).1 (List.mem_map_of_mem (f := Part.id) hp)
    have hreach : Relation.TransGen s.Refers s.root p.id :=
      ((Relation.reflTransGen_iff_eq_or_transGen.1 hshown.reaches).resolve_left hne)
    obtain ⟨⟨depth, id⟩, hv, rfl⟩ := List.mem_map.1 ((hvisits p.id).2 hreach)
    refine ⟨depth, hv, ?_⟩
    rw [line_eq_groupLines ((s.tracks_parts indent).labels p hp).1, lookup_lengths hs hp,
      Option.getD_some]
  · rw [line_eq_groupLines hkind, lookup_lengths_of_not_mem hs hv, Option.getD_none]

/-- The group that holds itself refers to itself in order. -/
theorem refersInOrder_knot : ∀ a n, knot.ShownFrom knot.root a → a ≠ knot.root →
    knot.node? a = some n → n.RefersInOrder := by
  intro a n _ hne hn
  match a with
  | 0 => exact absurd rfl hne
  | 1 =>
    obtain rfl : (Node.create .group none).setChildren [1] = n := Option.some.inj hn
    exact Node.refersInOrder (by decide) (by decide +kernel)
  | _ + 2 => cases hn

theorem groupReport_write_knot : knot.kind? knot.root = some .scene ∧
    (∀ a, knot.ShownFrom knot.root a → (knot.node? a).isSome) ∧
    (knot.write 2).failure = none ∧
    (∀ a n, knot.ShownFrom knot.root a → a ≠ knot.root → knot.node? a = some n →
      n.RefersInOrder) ∧
    (∃ visits : List (Nat × NodeId),
      knot.groupReport .empty (knot.write 2).lengths knot.root = visits.flatMap
        (fun v => ReportCase.line ⟨knot, .empty, (knot.write 2).lengths⟩ v.1 v.2) ∧
      (visits.map Prod.snd).Nodup ∧
      (∀ a, a ∈ visits.map Prod.snd ↔ Relation.TransGen knot.Refers knot.root a) ∧
      (∀ p ∈ knot.parts 2, ∃ depth, (depth, p.id) ∈ visits ∧
        ReportCase.line ⟨knot, .empty, (knot.write 2).lengths⟩ depth p.id =
          groupLines .empty p.kind depth p.id (p.text 2).length) ∧
      ∀ v ∈ visits, v.2 ∉ (knot.parts 2).map Part.id → ∀ kind, knot.kind? v.2 = some kind →
        ReportCase.line ⟨knot, .empty, (knot.write 2).lengths⟩ v.1 v.2 =
          groupLines .empty kind v.1 v.2 0) ∧
    knot.groupReport .empty (knot.write 2).lengths knot.root = (knot.parts 2).flatMap fun p =>
      groupLines .empty p.kind p.outer p.id (p.text 2).length := by
  have h : (knot.write 2).failure = none := by decide +kernel
  obtain ⟨hvisits, hreport⟩ := groupReport_write rfl (fun _ => isSome_knot) h .empty
  exact ⟨rfl, fun _ => isSome_knot, h, refersInOrder_knot, hvisits, hreport refersInOrder_knot⟩

/-- A collision with a group that its proxy holds as well. -/
def gate : Node :=
  ((Node.create .collision none).setChildren [2]).set "proxy" (.node (some 3))

/-- The proxy is written before the children. -/
theorem written_gate :
    gate.written = [("proxy", .node (some 3)), ("children", .nodes [2])] := by
  have hshown : gate.kind.fields.filter
      (fun d => d.exposed && !(gate.value d).same d.declared) =
        [.plain "children" .nodes, .plain "proxy" .node] := by
    show List.filter _ [_, _, _, _, _, _, _] = _
    rw [List.filter_cons_of_pos (by decide +kernel), List.filter_cons_of_neg (by decide +kernel),
      List.filter_cons_of_neg (by decide +kernel), List.filter_cons_of_neg (by decide +kernel),
      List.filter_cons_of_neg (by decide +kernel), List.filter_cons_of_neg (by decide +kernel),
      List.filter_cons_of_pos (by decide +kernel), List.filter_nil]
  have hchildren : gate.value (.plain "children" .nodes) = .nodes [2] := rfl
  have hproxy : gate.value (.plain "proxy" .node) = .node (some 3) := rfl
  rw [Node.written, gate.shown_eq_map, hshown, List.map_cons, List.map_cons, List.map_nil,
    hchildren, hproxy]
  have hfirst : FieldDecl.precedes (.plain "children" .nodes) (.plain "proxy" .node) = false := by
    decide +kernel
  simp [List.mergeSort, List.MergeSort.Internal.splitInTwo, hfirst]
  exact ⟨rfl, rfl⟩

/-- The root holds the collision. -/
def vestibule : Scene :=
  ⟨#[(Node.create .scene none).setChildren [1], gate, Node.create .group none,
    (Node.create .group none).setChildren [2]], 0⟩

/-- The body of the collision, and the nodes met by its end. -/
def gateBody : Body NodeId × List NodeId :=
  outlineBody (vestibule.outlineNode vestibule.sharedNames 4)
    [("proxy", .node (some 3)), ("children", .nodes [2])] [1]

theorem outline_vestibule : vestibule.outline =
    .cons (.node 1 (vestibule.sharedNames.lookup 1) .collision gateBody.1) .nil := by
  have hnode : vestibule.node? 1 = some gate := rfl
  have hmeet : vestibule.outlineNode vestibule.sharedNames 5 1 [] =
      (some (.node 1 (vestibule.sharedNames.lookup 1) .collision gateBody.1), gateBody.2) := by
    rw [outlineNode, hnode, gateBody, ← written_gate]
    rfl
  show (outlineList (vestibule.outlineNode vestibule.sharedNames 5) [1] []).1 = _
  rw [outlineList, hmeet]
  rfl

/-- The depth that a line tells of. -/
def depth? : Notice → Option Nat
  | .groupLength depth _ _ _ => some depth
  | _ => none

/-- The group is written in the proxy, with two node bodies around it, and told of as a child of the
collision. -/
theorem not_perm_groupReport_vestibule : (vestibule.write 2).failure = none ∧
    ¬ (vestibule.groupReport .empty (vestibule.write 2).lengths vestibule.root).Perm
      ((vestibule.parts 2).flatMap fun p =>
        groupLines .empty p.kind p.outer p.id (p.text 2).length) := by
  have hreport : (vestibule.groupReport .empty (vestibule.write 2).lengths vestibule.root).map
      depth? = [some 0, some 1, some 1] := by decide +kernel
  have hparts : ((vestibule.parts 2).flatMap fun p =>
      groupLines .empty p.kind p.outer p.id (p.text 2).length).map depth? =
        [some 0, some 1, some 2] := by
    rw [parts, outline_vestibule]
    decide +kernel
  refine ⟨?_, fun h => ?_⟩
  · rw [write, outline_vestibule]
    decide +kernel
  · have hdepths := h.map depth?
    rw [hreport, hparts] at hdepths
    exact absurd hdepths (by decide)

end Scene

end SceneTidy

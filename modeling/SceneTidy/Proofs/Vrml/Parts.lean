import SceneTidy.Proofs.Vrml.Refusal

/-!
# The parts of a file

A node that is written in full takes a part of the text, from its name or its type to the end of the
line with its closing brace.  The places of the parts are told by the outline (`Blocks.parts`), and
they are those where the layout has the marks that the lengths are read off (`Laid`).  Main
statement: the lengths told of a scene are those of the parts of its nodes, the parts are nested or
apart, and they make up the text together with the names of the nodes that the top level uses again
(`Scene.lengths_write`).
-/

namespace SceneTidy

namespace Vrml

/-! ### Parts and their places -/

/-- The number of characters of a row of pieces. -/
def width (indent : Nat) (ps : List Piece) : Nat := (renderRow indent ps).length

/-- What stands before the body of a node. -/
def opening (name : Option String) (kind : NodeKind) : List Piece :=
  definition name ++ [.text (kind.typeName.toList ++ [' ', '{', '\n'])]

/-- A node that is written in full: its name, kind and body, the depth of its margins, the number of
node bodies around it, and the number of characters before it. -/
structure Part where
  id : NodeId
  name : Option String
  kind : NodeKind
  body : Body NodeId
  depth : Nat
  outer : Nat
  start : Nat

namespace Part

/-- The characters of a part. -/
def text (indent : Nat) (p : Part) : List Char :=
  renderRow indent
    (opening p.name p.kind ++ p.body.pieces (p.depth + 1) ++ Piece.line p.depth ['}'])

/-- The number of characters up to the end of a part. -/
def stop (indent : Nat) (p : Part) : Nat := p.start + (p.text indent).length

end Part

mutual

/-- The parts of a block that starts at some place, in the order in which they start. -/
def Block.parts (indent depth outer start : Nat) : Block NodeId → List Part
  | .use _ => []
  | .node id name kind body =>
    ⟨id, name, kind, body, depth, outer, start⟩ ::
      body.parts indent (depth + 1) (outer + 1) (start + width indent (opening name kind))

/-- The parts within the fields of a node. -/
def Body.parts (indent depth outer start : Nat) : Body NodeId → List Part
  | .done => []
  | .value field v rest =>
    rest.parts indent depth outer (start + width indent (valuePieces depth field v))
  | .single field b rest =>
    let inner := start + width indent [.margin depth, .text (field.toList ++ [' '])]
    b.parts indent depth outer inner ++
      rest.parts indent depth outer (inner + width indent (b.pieces depth))
  | .list field bs rest =>
    let inner := start + width indent (Piece.line depth (field.toList ++ [' ', '[']))
    bs.parts indent (depth + 1) outer inner ++
      rest.parts indent depth outer
        (inner + width indent (bs.pieces (depth + 1)) + width indent (Piece.line depth [']']))

/-- The parts of a list of blocks. -/
def Blocks.parts (indent depth outer start : Nat) : Blocks NodeId → List Part
  | .nil => []
  | .cons b bs =>
    let inner := start + width indent [.margin depth]
    b.parts indent depth outer inner ++
      bs.parts indent depth outer (inner + width indent (b.pieces depth))

end

/-! ### Where the marks are -/

variable {indent start : Nat} {ps qs : List Piece} {parts parts' : List Part}

theorem width_append (indent : Nat) (ps qs : List Piece) :
    width indent (ps ++ qs) = width indent ps + width indent qs := by
  rw [width, renderRow_append, List.length_append, width, width]

theorem width_cons (indent : Nat) (p : Piece) (ps : List Piece) :
    width indent (p :: ps) = (p.render indent).length + width indent ps := by
  rw [width, renderRow_cons, List.length_append, width]

/-- A piece that is neither a mark nor a stop. -/
def Piece.IsText : Piece → Prop
  | text _ | margin _ => True
  | _ => False

/-- Pieces that are laid out from some place on have the marks of some parts, each at its place. -/
inductive Laid (indent : Nat) : Nat → List Piece → List Part → Prop
  | nil (start : Nat) : Laid indent start [] []
  | text {start : Nat} {p : Piece} {ps : List Piece} {parts : List Part} (hp : p.IsText)
      (h : Laid indent (start + (p.render indent).length) ps parts) :
      Laid indent start (p :: ps) parts
  | part (p : Part) {inner rest : List Piece} {parts parts' : List Part}
      (htext : renderRow indent inner = p.text indent) (hinner : Laid indent p.start inner parts)
      (hrest : Laid indent (p.stop indent) rest parts') :
      Laid indent p.start (.begins p.id :: inner ++ .ends p.id :: rest) (p :: parts ++ parts')

namespace Laid

theorem append (h : Laid indent start ps parts)
    (h' : Laid indent (start + width indent ps) qs parts') :
    Laid indent start (ps ++ qs) (parts ++ parts') := by
  induction h with
  | nil start => exact h'
  | text hp _ ih =>
    rw [width_cons, ← Nat.add_assoc] at h'
    exact .text hp (ih h')
  | part p htext hinner _ _ ih =>
    rw [List.append_assoc, List.append_assoc]
    refine .part p htext hinner (ih ?_)
    rw [width_append, width_cons, width_cons, width, htext] at h'
    simpa [Part.stop, Piece.render, Nat.add_assoc] using h'

theorem of_text (h : ∀ p ∈ ps, p.IsText) (start : Nat) : Laid indent start ps [] := by
  induction ps generalizing start with
  | nil => exact .nil start
  | cons p ps ih =>
    obtain ⟨hp, hps⟩ := List.forall_mem_cons.1 h
    exact .text hp (ih hps _)

/-- Text in front. -/
theorem prepend (hps : ∀ p ∈ ps, p.IsText) (h : Laid indent (start + width indent ps) qs parts) :
    Laid indent start (ps ++ qs) parts := (of_text hps start).append h

/-- Each part is found at its place. -/
theorem exists_text (h : Laid indent start ps parts) : ∀ p ∈ parts, ∃ before after,
    renderRow indent ps = before ++ p.text indent ++ after ∧ p.start = start + before.length := by
  induction h with
  | nil => exact fun _ hp => absurd hp List.not_mem_nil
  | @text start q ps parts _ _ ih =>
    intro p hp
    obtain ⟨before, after, he, hstart⟩ := ih p hp
    refine ⟨q.render indent ++ before, after, ?_, ?_⟩
    · rw [renderRow_cons, he, List.append_assoc, List.append_assoc, List.append_assoc]
    · rw [hstart, List.length_append, Nat.add_assoc]
  | @part q inner rest parts parts' htext _ _ ihinner ihrest =>
    have hrow : renderRow indent (.begins q.id :: inner ++ .ends q.id :: rest) =
        q.text indent ++ renderRow indent rest := by
      simp [Piece.render, htext]
    intro p hp
    rw [hrow]
    rcases List.mem_append.1 hp with hp | hp
    · rcases List.mem_cons.1 hp with rfl | hp
      · exact ⟨[], _, rfl, rfl⟩
      · obtain ⟨before, after, he, hstart⟩ := ihinner p hp
        refine ⟨before, after ++ renderRow indent rest, ?_, hstart⟩
        rw [← htext, he, List.append_assoc]
    · obtain ⟨before, after, he, hstart⟩ := ihrest p hp
      refine ⟨q.text indent ++ before, after, ?_, ?_⟩
      · rw [he, List.append_assoc, List.append_assoc, List.append_assoc]
      · rw [hstart, Part.stop, List.length_append, Nat.add_assoc]

theorem within (h : Laid indent start ps parts) :
    ∀ p ∈ parts, start ≤ p.start ∧ p.stop indent ≤ start + width indent ps := by
  intro p hp
  obtain ⟨before, after, he, hstart⟩ := h.exists_text p hp
  rw [width, he, Part.stop, List.length_append, List.length_append]
  omega

/-- **Of two parts, the later one lies within the earlier one or after it.** -/
theorem pairwise (h : Laid indent start ps parts) : parts.Pairwise fun p q =>
    p.start ≤ q.start ∧ q.stop indent ≤ p.stop indent ∨ p.stop indent ≤ q.start := by
  induction h with
  | nil => exact .nil
  | text _ _ ih => exact ih
  | @part p inner rest parts parts' htext hinner hrest ihinner ihrest =>
    have hin : ∀ q ∈ parts, p.start ≤ q.start ∧ q.stop indent ≤ p.stop indent := fun q hq => by
      have hwithin := hinner.within q hq
      rwa [width, htext] at hwithin
    have hafter : ∀ q ∈ parts', p.stop indent ≤ q.start := fun q hq => (hrest.within q hq).1
    rw [List.cons_append, List.pairwise_cons]
    refine ⟨fun q hq => ?_, List.pairwise_append.2 ⟨ihinner, ihrest, fun q hq r hr =>
      .inr ((hin q hq).2.trans (hafter r hr))⟩⟩
    exact (List.mem_append.1 hq).imp (hin q) (hafter q)

/-- **The lengths that are read off the marks are those of the parts.** -/
theorem exists_lengths (h : Laid indent start ps parts) (hnodup : (parts.map Part.id).Nodup) :
    ∃ lengths begun, lengths.Perm (parts.map fun p => (p.id, (p.text indent).length)) ∧
      (∀ b ∈ begun, b.1 ∈ parts.map Part.id) ∧ ∀ rest before,
        partLengths indent (ps ++ rest) start before =
          lengths ++ partLengths indent rest (start + width indent ps) (begun ++ before) := by
  induction h with
  | nil start => exact ⟨[], [], .nil, fun _ h => absurd h List.not_mem_nil, fun _ _ => rfl⟩
  | @text start p ps parts hp _ ih =>
    obtain ⟨lengths, begun, hperm, hbegun, hread⟩ := ih hnodup
    refine ⟨lengths, begun, hperm, hbegun, fun rest before => ?_⟩
    rw [width_cons, ← Nat.add_assoc, ← hread]
    cases p with
    | text => rfl
    | margin => rfl
    | _ => exact absurd hp id
  | @part p inner rest parts parts' htext _ _ ihinner ihrest =>
    rw [List.cons_append, List.map_cons, List.nodup_cons, List.map_append,
      List.nodup_append] at hnodup
    obtain ⟨hp, hparts, hparts', -⟩ := hnodup
    obtain ⟨lengths, begun, hperm, hbegun, hread⟩ := ihinner hparts
    obtain ⟨lengths', begun', hperm', hbegun', hread'⟩ := ihrest hparts'
    refine ⟨lengths ++ (p.id, (p.text indent).length) :: lengths',
      begun' ++ (begun ++ [(p.id, p.start)]), ?_, ?_, fun more before => ?_⟩
    · rw [List.cons_append, List.map_cons, List.map_append]
      exact List.perm_middle.trans ((hperm.append hperm').cons _)
    · intro b hb
      simp only [List.mem_append, List.mem_singleton] at hb
      rw [List.cons_append, List.map_cons, List.map_append]
      rcases hb with hb | hb | rfl
      · exact List.mem_cons_of_mem _ (List.mem_append_right _ (hbegun' b hb))
      · exact List.mem_cons_of_mem _ (List.mem_append_left _ (hbegun b hb))
      · exact List.mem_cons_self ..
    · have hlookup : (begun ++ (p.id, p.start) :: before).lookup p.id = some p.start := by
        have hnone : begun.lookup p.id = none := lookup_none_iff.2 fun hm => by
          obtain ⟨b, hb, he⟩ := List.mem_map.1 hm
          exact hp (List.mem_append_left _ (he ▸ hbegun b hb))
        rw [List.lookup_append, hnone, Option.none_or, List.lookup_cons_self]
      have hstop : p.start + width indent inner = p.stop indent := by
        rw [Part.stop, width, htext]
      have hwidth : width indent (.begins p.id :: inner ++ .ends p.id :: rest) =
          width indent inner + width indent rest := by
        simp [width, Piece.render]
      rw [hwidth, ← Nat.add_assoc, hstop, List.append_assoc, List.cons_append, List.cons_append,
        partLengths, hread, hstop, partLengths, hlookup, hread', Option.getD_some, Part.stop,
        Nat.add_sub_cancel_left]
      simp only [List.append_assoc, List.cons_append, List.nil_append]

end Laid

theorem isText_line (depth : Nat) (s : List Char) : ∀ p ∈ Piece.line depth s, p.IsText := by
  simp [Piece.line, Piece.IsText]

theorem isText_opening (name : Option String) (kind : NodeKind) :
    ∀ p ∈ opening name kind, p.IsText := by
  cases name <;> simp [opening, definition, Piece.IsText]

theorem isText_value (depth : Nat) (field : String) (v : FieldValue) :
    ∀ p ∈ valuePieces depth field v, p.IsText := by
  have hline := isText_line
  cases v <;> simp only [valuePieces, List.forall_mem_append, List.forall_mem_flatMap] <;> tauto

mutual

theorem Block.laid (indent : Nat) (b : Block NodeId) (depth outer start : Nat)
    (names : List String) (h : b.Readable names) :
    Laid indent start (b.pieces depth) (b.parts indent depth outer start) :=
  match b, h with
  | .use _, _ => .text trivial (.nil _)
  | .node id name kind body, h => by
    have hclosing : Laid indent (start + width indent (opening name kind) +
        width indent (body.pieces (depth + 1))) (Piece.line depth ['}']) [] :=
      .of_text (isText_line depth ['}']) _
    have hinner := Laid.prepend (isText_opening name kind)
      ((body.laid indent (depth + 1) (outer + 1) _ kind _ h.2.2).append hclosing)
    have hpart := Laid.part ⟨id, name, kind, body, depth, outer, start⟩ (by simp [Part.text])
      hinner (.nil _)
    simpa [Block.pieces, Block.parts, opening, h.1] using hpart

theorem Body.laid (indent : Nat) (b : Body NodeId) (depth outer start : Nat) (kind : NodeKind)
    (names : List String) (h : b.Readable names kind) :
    Laid indent start (b.pieces depth) (b.parts indent depth outer start) :=
  match b, h with
  | .done, _ => .nil start
  | .value field v rest, h =>
    .prepend (isText_value depth field v) (rest.laid indent depth outer _ kind names h.2.2)
  | .single field b rest, h => by
    show Laid indent start
      ([.margin depth, .text (field.toList ++ [' '])] ++ (b.pieces depth ++ rest.pieces depth)) _
    exact .prepend (by simp [Piece.IsText]) ((b.laid indent depth outer _ names h.2.1).append
      (rest.laid indent depth outer _ kind _ h.2.2))
  | .list field bs rest, h => by
    have hrest := rest.laid indent depth outer (start +
      width indent (Piece.line depth (field.toList ++ [' ', '['])) +
      width indent (bs.pieces (depth + 1)) + width indent (Piece.line depth [']'])) kind _ h.2.2
    rw [Body.pieces, Body.parts, List.append_assoc, List.append_assoc]
    exact .prepend (isText_line depth _) ((bs.laid indent (depth + 1) outer _ names h.2.1).append
      (.prepend (isText_line depth _) hrest))

theorem Blocks.laid (indent : Nat) (bs : Blocks NodeId) (depth outer start : Nat)
    (names : List String) (h : bs.Readable names) :
    Laid indent start (bs.pieces depth) (bs.parts indent depth outer start) :=
  match bs, h with
  | .nil, _ => .nil start
  | .cons b bs, h => by
    show Laid indent start ([.margin depth] ++ (b.pieces depth ++ bs.pieces depth)) _
    exact .prepend (by simp [Piece.IsText]) ((b.laid indent depth outer _ names h.1).append
      (bs.laid indent depth outer _ _ h.2))

end

/-! ### The parts of the nodes that are met -/

variable {s : Scene} {met met' met'' : List NodeId} {meet : Meeting}

/-- The nodes that were met from one moment to another are those of some parts, in the order in
which these start, and the parts have the kinds and the names of their nodes. -/
structure Tracks (s : Scene) (met met' : List NodeId) (parts : List Part) : Prop where
  met : met' = (parts.map Part.id).reverse ++ met
  labels : ∀ p ∈ parts, s.kind? p.id = some p.kind ∧ p.name = s.sharedNames.lookup p.id

namespace Tracks

theorem nil (s : Scene) (met : List NodeId) : Tracks s met met [] :=
  ⟨rfl, fun _ h => absurd h List.not_mem_nil⟩

theorem append (h : Tracks s met met' parts) (h' : Tracks s met' met'' parts') :
    Tracks s met met'' (parts ++ parts') where
  met := by
    rw [h'.met, h.met, List.map_append, List.reverse_append, List.append_assoc]
  labels := List.forall_mem_append.2 ⟨h.labels, h'.labels⟩

end Tracks

/-- A meeting meets the nodes of the parts of the block that it gives. -/
def Traces (s : Scene) (meet : Meeting) : Prop :=
  ∀ id met indent depth outer start, Tracks s met (meet id met).2
    ((meet id met).1.elim [] (Block.parts indent depth outer start))

theorem Traces.list (h : Traces s meet) (ids : List NodeId) (met : List NodeId)
    (indent depth outer start : Nat) : Tracks s met (outlineList meet ids met).2
      ((outlineList meet ids met).1.parts indent depth outer start) := by
  induction ids generalizing met start with
  | nil => exact .nil s met
  | cons id ids ih =>
    have hfirst := h id met indent depth outer (start + width indent [.margin depth])
    rw [outlineList]
    generalize meet id met = first at hfirst ⊢
    obtain ⟨b, met₁⟩ := first
    cases b with
    | none => exact hfirst.append (ih met₁ start)
    | some b => exact hfirst.append (ih met₁ _)

theorem Traces.body (h : Traces s meet) (l : List (String × FieldValue)) (met : List NodeId)
    (indent depth outer start : Nat) : Tracks s met (outlineBody meet l met).2
      ((outlineBody meet l met).1.parts indent depth outer start) := by
  induction l generalizing met start with
  | nil => exact .nil s met
  | cons p l ih =>
    obtain ⟨field, v⟩ := p
    cases v with
    | one k x => exact ih met _
    | many k xs => exact ih met _
    | node t =>
      cases t with
      | none => exact ih met _
      | some id =>
        have hfirst := h id met indent depth outer
          (start + width indent [.margin depth, .text (field.toList ++ [' '])])
        simp only [outlineBody]
        generalize meet id met = first at hfirst ⊢
        obtain ⟨b, met₁⟩ := first
        cases b with
        | none => exact hfirst.append (ih met₁ _)
        | some b => exact hfirst.append (ih met₁ _)
    | nodes ids => exact (h.list ids met indent (depth + 1) outer _).append (ih _ _)

/-- **What an outline meets are the nodes of its parts.** -/
theorem traces_outlineNode (s : Scene) (bound : Nat) :
    Traces s (s.outlineNode s.sharedNames bound) := by
  induction bound with
  | zero => exact fun id met _ _ _ _ => .nil s met
  | succ bound ih =>
    intro id met indent depth outer start
    rw [Scene.outlineNode]
    by_cases hmet : id ∈ met
    · rw [if_pos (by simpa using hmet)]
      exact .nil s met
    · rw [if_neg (by simpa using hmet)]
      cases hn : s.node? id with
      | none => exact .nil s met
      | some n =>
        have hself (body : Body NodeId) : Tracks s met (id :: met)
            [⟨id, s.sharedNames.lookup id, n.kind, body, depth, outer, start⟩] :=
          ⟨rfl, List.forall_mem_singleton.2 ⟨Scene.kind?_of_node? hn, rfl⟩⟩
        exact (hself _).append (ih.body _ (id :: met) indent (depth + 1) (outer + 1) _)

/-! ### The top level -/

/-- The text of some entries of the top level from a place on: an entry is the part of its node
there, or the use of its name if the part of its node has stopped before. -/
inductive Entries (indent : Nat) (names : List (NodeId × String)) (parts : List Part) :
    Nat → List NodeId → List Char → Prop
  | nil (start : Nat) : Entries indent names parts start [] []
  | full {p : Part} {ids : List NodeId} {text : List Char} (hp : p ∈ parts)
      (h : Entries indent names parts (p.stop indent) ids text) :
      Entries indent names parts p.start (p.id :: ids) (p.text indent ++ text)
  | again {p : Part} {start : Nat} {name : String} {ids : List NodeId} {text : List Char}
      (hp : p ∈ parts) (hstop : p.stop indent ≤ start) (hname : names.lookup p.id = some name)
      (h : Entries indent names parts
        (start + ("USE ".toList ++ name.toList ++ ['\n']).length) ids text) :
      Entries indent names parts start (p.id :: ids)
        ("USE ".toList ++ name.toList ++ ['\n'] ++ text)

/-- A readable use is the use of a name. -/
theorem lookup_of_readable_use {names : List (NodeId × String)} {id : NodeId}
    {defined : List String}
    (h : (Block.use (α := NodeId) ((names.lookup id).getD "")).Readable defined) :
    ∃ name, names.lookup id = some name := by
  cases hname : names.lookup id with
  | some name => exact ⟨name, rfl⟩
  | none =>
    rw [hname] at h
    exact absurd rfl h.1.1

/-- Entries of the top level have no margins. -/
theorem parts_cons_top (b : Block NodeId) (bs : Blocks NodeId) (outer : Nat) :
    (Blocks.cons b bs).parts indent 0 outer start = b.parts indent 0 outer start ++
      bs.parts indent 0 outer (start + width indent (b.pieces 0)) := by
  simp [Blocks.parts, width, Piece.render]

theorem renderRow_cons_top (b : Block NodeId) (bs : Blocks NodeId) :
    renderRow indent ((Blocks.cons b bs).pieces 0) =
      renderRow indent (b.pieces 0) ++ renderRow indent (bs.pieces 0) := by
  simp [Blocks.pieces, Piece.render]

theorem renderRow_use (name : String) (depth : Nat) :
    renderRow indent ((Block.use name).pieces depth) =
      "USE ".toList ++ name.toList ++ ['\n'] := by
  simp [Block.pieces, Piece.render]

theorem renderRow_node (indent : Nat) (p : Part) (hk : p.kind.isRegistered = true) :
    renderRow indent ((Block.node p.id p.name p.kind p.body).pieces p.depth) = p.text indent := by
  simp [Block.pieces, Part.text, opening, hk, Piece.render]

theorem entries_outlineList {bound : Nat} {all : List Part} {ids : List NodeId}
    {defined : List String} (hnodes : ∀ a ∈ ids, (s.node? a).isSome)
    (hmet : ∀ a ∈ met, ∃ p ∈ all, p.id = a ∧ p.stop indent ≤ start)
    (hall : ∀ p ∈ (outlineList (s.outlineNode s.sharedNames (bound + 1)) ids met).1.parts
      indent 0 0 start, p ∈ all)
    (hread : (outlineList (s.outlineNode s.sharedNames (bound + 1)) ids met).1.Readable defined) :
    Entries indent s.sharedNames all start ids (renderRow indent
      ((outlineList (s.outlineNode s.sharedNames (bound + 1)) ids met).1.pieces 0)) := by
  induction ids generalizing met start defined with
  | nil => exact .nil start
  | cons id ids ih =>
    obtain ⟨hnode, hids⟩ := List.forall_mem_cons.1 hnodes
    obtain ⟨n, hn⟩ := Option.isSome_iff_exists.1 hnode
    have htraces := traces_outlineNode s (bound + 1) id met indent 0 0 start
    by_cases hm : id ∈ met
    · have hmeet : s.outlineNode s.sharedNames (bound + 1) id met =
          (some (.use ((s.sharedNames.lookup id).getD "")), met) := by
        rw [Scene.outlineNode, if_pos (by simpa using hm)]
      simp only [outlineList, hmeet] at hall hread ⊢
      obtain ⟨name, hname⟩ := lookup_of_readable_use hread.1
      obtain ⟨p, hp, rfl, hstop⟩ := hmet id hm
      rw [parts_cons_top, hname, List.forall_mem_append] at hall
      rw [renderRow_cons_top, hname, renderRow_use]
      refine .again hp hstop hname (ih hids (fun a ha => ?_) ?_ hread.2)
      · obtain ⟨q, hq, hid, hle⟩ := hmet a ha
        exact ⟨q, hq, hid, Nat.le_add_right_of_le hle⟩
      · rw [width, renderRow_use] at hall
        exact hall.2
    · obtain ⟨body, met', hmeet⟩ : ∃ body met', s.outlineNode s.sharedNames (bound + 1) id met =
          (some (.node id (s.sharedNames.lookup id) n.kind body), met') := by
        rw [Scene.outlineNode, if_neg (by simpa using hm), hn]
        exact ⟨_, _, rfl⟩
      rw [hmeet] at htraces
      have hmet' : met' = _ := htraces.met
      simp only [outlineList, hmeet] at hall hread ⊢
      rw [parts_cons_top, List.forall_mem_append] at hall
      have hrow := renderRow_node indent
        ⟨id, s.sharedNames.lookup id, n.kind, body, 0, 0, start⟩ hread.1.1
      rw [renderRow_cons_top, hrow]
      refine .full (hall.1 _ (List.mem_cons_self ..)) (ih hids (fun a ha => ?_) ?_ hread.2)
      · rw [hmet'] at ha
        rcases List.mem_append.1 ha with ha | ha
        · obtain ⟨q, hq, rfl⟩ := List.mem_map.1 (List.mem_reverse.1 ha)
          have hwithin := ((Block.laid indent _ 0 0 start defined hread.1).within q hq).2
          rw [width, hrow] at hwithin
          exact ⟨q, hall.1 q hq, rfl, hwithin⟩
        · obtain ⟨q, hq, hid, hle⟩ := hmet a ha
          exact ⟨q, hq, hid, Nat.le_add_right_of_le hle⟩
      · rw [Part.stop, ← hrow]
        exact hall.2

end Vrml

namespace Scene

open Vrml

variable {s : Scene}

/-- The parts of the text of a scene, in the order in which they start. -/
def parts (s : Scene) (indent : Nat) : List Part := s.outline.parts indent 0 0 headerLine.length

/-- The parts are those of the nodes met. -/
theorem tracks_parts (s : Scene) (indent : Nat) : Tracks s [] (outlined s) (s.parts indent) :=
  (traces_outlineNode s (s.size + 1)).list (s.children s.root) [] indent 0 0 headerLine.length

theorem map_id_parts (s : Scene) (indent : Nat) :
    (s.parts indent).map Part.id = (outlined s).reverse := by
  rw [(s.tracks_parts indent).met, List.append_nil, List.reverse_reverse]

theorem nodup_parts (hs : s.Writable) (indent : Nat) : ((s.parts indent).map Part.id).Nodup := by
  rw [map_id_parts, List.nodup_reverse]
  exact (sown_outline hs).2.nodup

theorem laid_parts (hs : s.Writable) (indent : Nat) :
    Laid indent headerLine.length (s.outline.pieces 0) (s.parts indent) :=
  s.outline.laid indent 0 0 headerLine.length [] (sown_outline hs).1

theorem toList_text_write (hs : s.Writable) (indent : Nat) :
    (s.write indent).text.toList = headerLine ++ renderRow indent (s.outline.pieces 0) := by
  rw [write, String.toList_ofList,
    renderAll_of_not_refused (filePieces_not_refused _ (sown_outline hs).1)]
  rfl

theorem lengths_perm_parts (hs : s.Writable) (indent : Nat) : (s.write indent).lengths.Perm
    ((s.parts indent).map fun p => (p.id, (p.text indent).length)) := by
  obtain ⟨lengths, begun, hperm, -, hread⟩ :=
    (laid_parts hs indent).exists_lengths (nodup_parts hs indent)
  have hwritten : (s.write indent).lengths =
      partLengths indent (s.outline.pieces 0 ++ []) headerLine.length [] := by
    simp [write, filePieces, partLengths, Piece.render]
  rw [hwritten, hread, partLengths, List.append_nil]
  exact hperm

/-- The nodes of the parts are those that are shown, but for the root. -/
theorem mem_parts_iff (hs : s.Writable) {indent : Nat} {a : NodeId} :
    a ∈ (s.parts indent).map Part.id ↔ s.ShownFrom s.root a ∧ a ≠ s.root := by
  have hsown := (sown_outline hs).2
  rw [map_id_parts, List.mem_reverse, hsown.shownFrom_iff hs]
  constructor
  · exact fun ha => ⟨.inr ha, (hsown.planted a ha).1.2⟩
  · rintro ⟨ha, hne⟩
    exact ha.resolve_left hne

/-- **The lengths told of a scene are those of the parts of its text.**  If the writing comes to its
end, there is one length for each node that is shown, but for the root; it is that of the node's
part, which stands in the text at its place.  Of two parts the later one lies within the earlier one
or after it.  The first line is followed by the parts of the entries of the top level, and by the
use of its name for each entry that has its part before, on the top level or in another node. -/
theorem lengths_write (hroot : s.kind? s.root = some .scene)
    (hwhole : ∀ a, s.ShownFrom s.root a → (s.node? a).isSome) {indent : Nat}
    (h : (s.write indent).failure = none) :
    (s.write indent).lengths.Perm
      ((s.parts indent).map fun p => (p.id, (p.text indent).length)) ∧
    ((s.write indent).lengths.map Prod.fst).Nodup ∧
    (∀ a, a ∈ (s.write indent).lengths.map Prod.fst ↔ s.ShownFrom s.root a ∧ a ≠ s.root) ∧
    (∀ p ∈ s.parts indent, s.kind? p.id = some p.kind ∧ p.name = s.sharedNames.lookup p.id ∧
      ∃ before after, (s.write indent).text.toList = before ++ p.text indent ++ after ∧
        before.length = p.start) ∧
    ((s.parts indent).Pairwise fun p q =>
      p.start ≤ q.start ∧ q.stop indent ≤ p.stop indent ∨ p.stop indent ≤ q.start) ∧
    ∃ entries, (s.write indent).text.toList = headerLine ++ entries ∧
      Entries indent s.sharedNames (s.parts indent) headerLine.length (s.children s.root)
        entries := by
  have hs := writable_of_write hroot hwhole h
  have hlaid := laid_parts hs indent
  have htext := toList_text_write hs indent
  have hperm := lengths_perm_parts hs indent
  have hkeys : ((s.write indent).lengths.map Prod.fst).Perm ((s.parts indent).map Part.id) := by
    have hmap := hperm.map Prod.fst
    rwa [List.map_map] at hmap
  refine ⟨hperm, hkeys.nodup_iff.2 (nodup_parts hs indent), fun a => ?_, fun p hp => ?_,
    hlaid.pairwise, _, htext, ?_⟩
  · rw [hkeys.mem_iff, mem_parts_iff hs]
  · obtain ⟨hkind, hname⟩ := (s.tracks_parts indent).labels p hp
    obtain ⟨before, after, hrow, hstart⟩ := hlaid.exists_text p hp
    refine ⟨hkind, hname, headerLine ++ before, after, ?_, ?_⟩
    · rw [htext, hrow, List.append_assoc, List.append_assoc, List.append_assoc]
    · rw [hstart, List.length_append]
  · refine entries_outlineList (fun a ha => ?_) (fun _ ha => absurd ha List.not_mem_nil)
      (fun _ hp => hp) (sown_outline hs).1
    exact hwhole a (.single ((shows_root_iff hs.root).2 ha))

theorem isSome_knot {a : NodeId} (h : knot.ShownFrom knot.root a) : (knot.node? a).isSome := by
  cases h with
  | refl => rfl
  | tail ha hab =>
    obtain ⟨k, hk, -⟩ := writable_knot.shown _ _ ha hab
    obtain ⟨n, hn, -⟩ := Option.map_eq_some_iff.1 hk
    exact Option.isSome_iff_exists.2 ⟨n, hn⟩

theorem lengths_write_knot : knot.kind? knot.root = some .scene ∧
    (∀ a, knot.ShownFrom knot.root a → (knot.node? a).isSome) ∧
    (knot.write 2).failure = none ∧
    (knot.write 2).lengths.Perm
      ((knot.parts 2).map fun p => (p.id, (p.text 2).length)) ∧
    ((knot.write 2).lengths.map Prod.fst).Nodup ∧
    (∀ a, a ∈ (knot.write 2).lengths.map Prod.fst ↔ knot.ShownFrom knot.root a ∧ a ≠ knot.root) ∧
    (∀ p ∈ knot.parts 2, knot.kind? p.id = some p.kind ∧ p.name = knot.sharedNames.lookup p.id ∧
      ∃ before after, (knot.write 2).text.toList = before ++ p.text 2 ++ after ∧
        before.length = p.start) ∧
    ((knot.parts 2).Pairwise fun p q =>
      p.start ≤ q.start ∧ q.stop 2 ≤ p.stop 2 ∨ p.stop 2 ≤ q.start) ∧
    ∃ entries, (knot.write 2).text.toList = headerLine ++ entries ∧
      Entries 2 knot.sharedNames (knot.parts 2) headerLine.length (knot.children knot.root)
        entries := by
  have h : (knot.write 2).failure = none := by decide +kernel
  exact ⟨rfl, fun _ => isSome_knot, h, lengths_write rfl (fun _ => isSome_knot) h⟩

end Scene

end SceneTidy

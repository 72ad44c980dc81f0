import SceneTidy.Command.Run
import SceneTidy.Proofs.Scene.Shown
import SceneTidy.Proofs.Vrml.Meaning
import SceneTidy.Proofs.Vrml.RoundTrip

/-!
# Written text with other line ends

A file that is read has a line feed in place of each line end.  Written text has line ends of its
own, which are line feeds already, and those that stand in strings.  So to change the line ends of
the text of some blocks is to change those of the strings in the blocks (`universalLines_file`), and
what is planted then is the same scene, but for its strings (`plant_lineFeeds`).  Main statement: a
scene is copied by the one with other line ends exactly if it shows no string with a carriage return
(`Scene.isCopy_lineFeeds_iff`), so that this is when the text of a scene may change its line ends
(`Scene.Writable.readVrml_universalLines`).
-/

namespace SceneTidy

open Command

/-! ### Values with other line ends -/

/-- The item with a line feed in place of each line end, if it is a string. -/
def ItemKind.lineFeeds : (k : ItemKind) → k.Value → k.Value
  | .string, t => universalLines t
  | _, v => v

/-- The value with a line feed in place of each line end of a string. -/
def FieldValue.lineFeeds : FieldValue → FieldValue
  | .one k v => .one k (k.lineFeeds v)
  | .many k vs => .many k (vs.map k.lineFeeds)
  | v => v

namespace FieldValue

@[simp] theorem kind_lineFeeds (v : FieldValue) : v.lineFeeds.kind = v.kind := by
  cases v <;> rfl

@[simp] theorem refs_lineFeeds (v : FieldValue) : v.lineFeeds.refs = v.refs := by
  cases v <;> rfl

end FieldValue

/-- What a field starts with has no line ends. -/
theorem NodeKind.lineFeeds_declared (k : NodeKind) :
    ∀ d ∈ k.fields, d.declared.lineFeeds = d.declared := by
  cases k <;> decide +kernel

namespace Node

/-- The node with a line feed in place of each line end of a string. -/
def lineFeeds (n : Node) : Node := n.mapValues FieldValue.lineFeeds FieldValue.kind_lineFeeds

variable (n : Node)

@[simp] theorem kind_lineFeeds : n.lineFeeds.kind = n.kind := rfl

theorem slots_lineFeeds : n.lineFeeds.slots = n.slots.map (Prod.map id FieldValue.lineFeeds) :=
  slots_mapValues n

theorem get?_lineFeeds (field : String) :
    n.lineFeeds.get? field = (n.get? field).map FieldValue.lineFeeds := get?_mapValues n field

theorem lineFeeds_create (k : NodeKind) (name : Option String) :
    (create k name).lineFeeds = create k name := by
  refine eq_of_get?_eq rfl rfl fun d hd => ?_
  rw [get?_lineFeeds, get?_create k name hd, Option.map_some, k.lineFeeds_declared d hd]

theorem lineFeeds_set (field : String) (v : FieldValue) :
    (n.set field v).lineFeeds = n.lineFeeds.set field v.lineFeeds := by
  refine eq_of_slots_eq rfl rfl ?_
  rw [slots_lineFeeds, slots_set, slots_set, slots_lineFeeds, List.map_map, List.map_map]
  refine List.map_congr_left fun p _ => ?_
  simp only [Function.comp_apply, Prod.map, id, FieldValue.kind_lineFeeds]
  split <;> rfl

theorem targets_lineFeeds (field : String) : n.lineFeeds.targets field = n.targets field := by
  rw [targets, targets, get?_lineFeeds]
  cases hv : n.get? field with
  | none => rfl
  | some v => cases v <;> rfl

theorem children_lineFeeds : n.lineFeeds.children = n.children := n.targets_lineFeeds _

theorem lineFeeds_setChildren (ts : List NodeId) :
    (n.setChildren ts).lineFeeds = n.lineFeeds.setChildren ts := n.lineFeeds_set _ _

end Node

namespace Scene

/-- The scene with a line feed in place of each line end of a string. -/
def lineFeeds (s : Scene) : Scene := { s with nodes := s.nodes.map Node.lineFeeds }

variable (s : Scene)

@[simp] theorem root_lineFeeds : s.lineFeeds.root = s.root := rfl

@[simp] theorem next_lineFeeds : s.lineFeeds.next = s.next := Array.size_map

theorem node?_lineFeeds (x : NodeId) : s.lineFeeds.node? x = (s.node? x).map Node.lineFeeds :=
  Array.getElem?_map

theorem lineFeeds_push (n : Node) : (s.push n).lineFeeds = s.lineFeeds.push n.lineFeeds := by
  rw [lineFeeds, lineFeeds, push, push, Array.map_push]

theorem lineFeeds_modify {f g : Node → Node} (h : ∀ n, (f n).lineFeeds = g n.lineFeeds)
    (id : NodeId) : (s.modify id f).lineFeeds = s.lineFeeds.modify id g := by
  refine ext_node? rfl fun x => ?_
  rw [node?_lineFeeds, node?_modify, node?_modify, node?_lineFeeds]
  split
  · rw [Option.map_map, Option.map_map]
    exact congrArg (fun k => (s.node? x).map k) (funext h)
  · rfl

theorem lineFeeds_appendTop (ts : List NodeId) :
    (s.appendTop ts).lineFeeds = s.lineFeeds.appendTop ts := by
  have hchildren : s.lineFeeds.children s.root = s.children s.root := by
    rw [children, children, node?_lineFeeds, Option.map_map]
    exact congrArg (fun k => ((s.node? s.root).map k).getD []) (funext Node.children_lineFeeds)
  rw [appendTop, appendTop, root_lineFeeds, hchildren]
  exact s.lineFeeds_modify (fun n => n.lineFeeds_setChildren _) s.root

end Scene

namespace Vrml

/-! ### Blocks with other line ends -/

variable {α : Type}

mutual

/-- A block with a line feed in place of each line end of a string. -/
def Block.lineFeeds : Block α → Block α
  | .use name => .use name
  | .node tag name kind body => .node tag name kind body.lineFeeds

/-- The fields of a node with other line ends. -/
def Body.lineFeeds : Body α → Body α
  | .done => .done
  | .value field v rest => .value field v.lineFeeds rest.lineFeeds
  | .single field b rest => .single field b.lineFeeds rest.lineFeeds
  | .list field bs rest => .list field bs.lineFeeds rest.lineFeeds

/-- Blocks with other line ends. -/
def Blocks.lineFeeds : Blocks α → Blocks α
  | .nil => .nil
  | .cons b bs => .cons b.lineFeeds bs.lineFeeds

end

/-- The bed with a line feed in place of each line end of a string. -/
def Bed.lineFeeds (bed : Bed) : Bed := ⟨bed.scene.lineFeeds, bed.names⟩

theorem Bed.lineFeeds_grow (bed : Bed) (kind : NodeKind) (name : Option String) :
    (bed.grow kind name).lineFeeds = bed.lineFeeds.grow kind name := by
  rw [grow, grow, lineFeeds, lineFeeds, Scene.lineFeeds_push, Node.lineFeeds_create,
    Scene.next_lineFeeds]

theorem Bed.lineFeeds_set (bed : Bed) (id : NodeId) (field : String) (v : FieldValue) :
    (bed.set id field v).lineFeeds = bed.lineFeeds.set id field v.lineFeeds :=
  congrArg (Bed.mk · bed.names)
    (bed.scene.lineFeeds_modify (fun n => n.lineFeeds_set field v) id)

mutual

theorem Block.plant_lineFeeds (b : Block α) (bed : Bed) :
    b.lineFeeds.plant bed.lineFeeds = ((b.plant bed).1, (b.plant bed).2.lineFeeds) :=
  match b with
  | .use _ => rfl
  | .node _ name kind body => by
    have hnext : bed.lineFeeds.scene.next = bed.scene.next := bed.scene.next_lineFeeds
    rw [Block.lineFeeds, Block.plant, Block.plant, ← Bed.lineFeeds_grow, hnext,
      body.plant_lineFeeds]

theorem Body.plant_lineFeeds (b : Body α) (id : NodeId) (bed : Bed) :
    b.lineFeeds.plant id bed.lineFeeds = (b.plant id bed).lineFeeds :=
  match b with
  | .done => rfl
  | .value field v rest => by
    rw [Body.lineFeeds, Body.plant, Body.plant, ← Bed.lineFeeds_set, rest.plant_lineFeeds]
  | .single field b rest => by
    rw [Body.lineFeeds, Body.plant, Body.plant, b.plant_lineFeeds]
    obtain ⟨target, grown⟩ := b.plant bed
    have hset := grown.lineFeeds_set id field (.node target)
    exact (congrArg (rest.lineFeeds.plant id) hset.symm).trans (rest.plant_lineFeeds id _)
  | .list field bs rest => by
    rw [Body.lineFeeds, Body.plant, Body.plant, bs.plant_lineFeeds]
    obtain ⟨targets, grown⟩ := bs.plant bed
    have hset := grown.lineFeeds_set id field (.nodes targets)
    exact (congrArg (rest.lineFeeds.plant id) hset.symm).trans (rest.plant_lineFeeds id _)

theorem Blocks.plant_lineFeeds (bs : Blocks α) (bed : Bed) :
    bs.lineFeeds.plant bed.lineFeeds = ((bs.plant bed).1, (bs.plant bed).2.lineFeeds) :=
  match bs with
  | .nil => rfl
  | .cons b bs => by
    rw [Blocks.lineFeeds, Blocks.plant, Blocks.plant, b.plant_lineFeeds]
    simp only [bs.plant_lineFeeds]

end

/-- Blocks with other line ends are planted as the same scene, but for its strings. -/
theorem plant_lineFeeds (bs : Blocks α) :
    Scene.empty.plant bs.lineFeeds.toList = (Scene.empty.plant bs.toList).lineFeeds := by
  have hempty : Bed.lineFeeds ⟨Scene.empty, []⟩ = ⟨Scene.empty, []⟩ := by
    rw [Bed.lineFeeds, Scene.lineFeeds, Scene.empty]
    simp [Node.lineFeeds_create]
  rw [Scene.plant, Scene.plant, Blocks.ofList_toList, Blocks.ofList_toList, ← hempty,
    bs.plant_lineFeeds, hempty]
  exact (Scene.lineFeeds_appendTop _ _).symm

mutual

theorem Block.readable_lineFeeds (b : Block α) (names : List String) (h : b.Readable names) :
    b.lineFeeds.Readable names ∧ b.lineFeeds.define names = b.define names :=
  match b, h with
  | .use _, h => ⟨h, rfl⟩
  | .node _ name kind body, h => by
    obtain ⟨hbody, hdefine⟩ := body.readable_lineFeeds _ kind h.2.2
    exact ⟨⟨h.1, h.2.1, hbody⟩, hdefine⟩

theorem Body.readable_lineFeeds (b : Body α) (names : List String) (kind : NodeKind)
    (h : b.Readable names kind) :
    b.lineFeeds.Readable names kind ∧ b.lineFeeds.define names = b.define names :=
  match b, h with
  | .done, _ => ⟨trivial, rfl⟩
  | .value field v rest, h => by
    obtain ⟨hd, hv, hr⟩ := h
    obtain ⟨hrest, hdefine⟩ := rest.readable_lineFeeds names kind hr
    have hplain : IsPlain v.lineFeeds := by cases v <;> exact hv
    exact ⟨⟨v.kind_lineFeeds.symm ▸ hd, hplain, hrest⟩, hdefine⟩
  | .single field b rest, h => by
    obtain ⟨hd, hb, hr⟩ := h
    obtain ⟨hblock, hdefine⟩ := b.readable_lineFeeds names hb
    obtain ⟨hrest, hdefine'⟩ := rest.readable_lineFeeds _ kind hr
    refine ⟨⟨hd, hblock, ?_⟩, ?_⟩
    · rwa [hdefine]
    · rw [Body.lineFeeds, Body.define, Body.define, hdefine, hdefine']
  | .list field bs rest, h => by
    obtain ⟨hd, hb, hr⟩ := h
    obtain ⟨hblocks, hdefine⟩ := bs.readable_lineFeeds names hb
    obtain ⟨hrest, hdefine'⟩ := rest.readable_lineFeeds _ kind hr
    refine ⟨⟨hd, hblocks, ?_⟩, ?_⟩
    · rwa [hdefine]
    · rw [Body.lineFeeds, Body.define, Body.define, hdefine, hdefine']

theorem Blocks.readable_lineFeeds (bs : Blocks α) (names : List String) (h : bs.Readable names) :
    bs.lineFeeds.Readable names ∧ bs.lineFeeds.define names = bs.define names :=
  match bs, h with
  | .nil, _ => ⟨trivial, rfl⟩
  | .cons b bs, h => by
    obtain ⟨hblock, hdefine⟩ := b.readable_lineFeeds names h.1
    obtain ⟨hblocks, hdefine'⟩ := bs.readable_lineFeeds _ h.2
    refine ⟨⟨hblock, ?_⟩, ?_⟩
    · rwa [hdefine]
    · rw [Blocks.lineFeeds, Blocks.define, Blocks.define, hdefine, hdefine']

end

/-! ### Text with other line ends -/

/-- A text with a line feed in place of each line end is another text, whatever follows. -/
def Unifies (t u : List Char) : Prop :=
  ∀ rest, Xml.normalizeLines (t ++ rest) = u ++ Xml.normalizeLines rest

theorem normalizeLines_cons_of_ne {c : Char} (h : c ≠ '\r') (r : List Char) :
    Xml.normalizeLines (c :: r) = c :: Xml.normalizeLines r := by
  rw [Xml.normalizeLines.eq_def]
  split
  · next hc => cases hc
  · next hc =>
    obtain ⟨hc, -⟩ := List.cons.inj hc
    exact absurd hc h
  · next hc =>
    obtain ⟨rfl, rfl⟩ := List.cons.inj hc
    rw [if_neg h]

namespace Unifies

variable {t u t' u' : List Char}

theorem nil : Unifies [] [] := fun _ => rfl

theorem append (h : Unifies t u) (h' : Unifies t' u') : Unifies (t ++ t') (u ++ u') := by
  intro rest
  rw [List.append_assoc, h, h', List.append_assoc]

theorem flatMap {β : Type} {f g : β → List Char} {l : List β} (h : ∀ a ∈ l, Unifies (f a) (g a)) :
    Unifies (l.flatMap f) (l.flatMap g) := by
  induction l with
  | nil => exact nil
  | cons a l ih =>
    obtain ⟨ha, hl⟩ := List.forall_mem_cons.1 h
    exact ha.append (ih hl)

/-- A text without carriage returns stays. -/
theorem self (h : '\r' ∉ t) : Unifies t t := by
  induction t with
  | nil => exact nil
  | cons c t ih =>
    rw [List.mem_cons, not_or] at h
    intro rest
    rw [List.cons_append, normalizeLines_cons_of_ne (Ne.symm h.1), ih h.2 rest, List.cons_append]

end Unifies

theorem unifies_word {w : List Char} (h : IsWord w) : Unifies w w :=
  .self fun hc => absurd (h.2 '\r' hc) (by decide)

theorem unifies_blanks (n : Nat) : Unifies (List.replicate n ' ') (List.replicate n ' ') :=
  .self fun hc => absurd (List.eq_of_mem_replicate hc) (by decide)

theorem normalizeLines_return {r : List Char} (h : r.head? ≠ some '\n') :
    Xml.normalizeLines ('\r' :: r) = '\n' :: Xml.normalizeLines r := by
  cases r with
  | nil => rfl
  | cons c r =>
    have hc : c ≠ '\n' := fun he => h (congrArg some he)
    rw [Xml.normalizeLines, if_pos rfl]
    rintro r' - he
    exact hc (List.cons.inj he).1

theorem head?_escape_append (s rest : List Char) :
    (Text.Quoted.escape s ++ '"' :: rest).head? = some '\n' ↔ s.head? = some '\n' := by
  cases s with
  | nil => simp [Text.Quoted.escape]
  | cons c r =>
    rw [Text.Quoted.escape]
    split
    · next h =>
      have hmark : c = '"' ∨ c = '\\' := by simpa using h
      rcases hmark with rfl | rfl <;> simp
    · simp

/-- Quotes and backslashes are no line ends, so that to escape them does not matter. -/
theorem normalizeLines_escape (s rest : List Char) :
    Xml.normalizeLines (Text.Quoted.escape s ++ '"' :: rest) =
      Text.Quoted.escape (Xml.normalizeLines s) ++ '"' :: Xml.normalizeLines rest := by
  fun_induction Xml.normalizeLines s with
  | case1 => exact normalizeLines_cons_of_ne (by decide) rest
  | case2 r ih => exact congrArg ('\n' :: ·) ih
  | case3 c r h ih =>
    by_cases hreturn : c = '\r'
    · subst hreturn
      have hhead : (Text.Quoted.escape r ++ '"' :: rest).head? ≠ some '\n' := by
        rw [ne_eq, head?_escape_append, List.head?_eq_some_iff]
        rintro ⟨r', rfl⟩
        exact h r' rfl rfl
      exact (normalizeLines_return hhead).trans (congrArg ('\n' :: ·) ih)
    · rw [if_neg hreturn, Text.Quoted.escape, Text.Quoted.escape]
      split
      · rw [List.cons_append, List.cons_append, normalizeLines_cons_of_ne (by decide),
          normalizeLines_cons_of_ne hreturn, ih]
        rfl
      · rw [List.cons_append, normalizeLines_cons_of_ne hreturn, ih]
        rfl

theorem unifies_encode (s : List Char) :
    Unifies (Text.Quoted.encode s) (Text.Quoted.encode (Xml.normalizeLines s)) := by
  intro rest
  rw [Text.Quoted.encode, Text.Quoted.encode, List.cons_append, List.append_assoc,
    normalizeLines_cons_of_ne (by decide)]
  show '"' :: Xml.normalizeLines (Text.Quoted.escape s ++ '"' :: rest) = _
  rw [normalizeLines_escape]
  simp

theorem unifies_words {ws : List (List Char)} (h : ∀ w ∈ ws, IsWord w) :
    Unifies ([' '].intercalate ws) ([' '].intercalate ws) := by
  induction ws with
  | nil => exact .nil
  | cons w ws ih =>
    obtain ⟨hw, hws⟩ := List.forall_mem_cons.1 h
    cases ws with
    | nil =>
      rw [List.intercalate_singleton]
      exact unifies_word hw
    | cons u us =>
      rw [List.intercalate_cons_cons]
      exact ((unifies_word hw).append (unifies_blanks 1)).append (ih hws)

theorem unifies_item (k : ItemKind) (v : k.Value) :
    Unifies (k.text v) (k.text (k.lineFeeds v)) := by
  by_cases hk : k = .string
  · subst hk
    have htext : (universalLines v).toList = Xml.normalizeLines v.toList := String.toList_ofList
    show Unifies (Text.Quoted.encode v.toList) (Text.Quoted.encode (universalLines v).toList)
    rw [htext]
    exact unifies_encode v.toList
  · have hsame : k.lineFeeds v = v := by cases k <;> first | rfl | exact absurd rfl hk
    have htext : k.text v = [' '].intercalate (k.words v) := by
      cases k <;> first | rfl | exact absurd rfl hk
    rw [hsame, htext]
    exact unifies_words (ItemKind.isWord_of_mem_words hk v)

/-! ### The text of blocks with other line ends -/

theorem unifies_margin (indent depth : Nat) :
    Unifies ((Piece.margin depth).render indent) ((Piece.margin depth).render indent) :=
  unifies_blanks _

theorem unifies_line {t u : List Char} (indent depth : Nat) (h : Unifies t u) :
    Unifies (renderRow indent (Piece.line depth t)) (renderRow indent (Piece.line depth u)) := by
  have hend : Unifies ['\n'] ['\n'] := .self (by decide)
  simpa [Piece.line, Piece.render] using (unifies_margin indent depth).append (h.append hend)

theorem unifies_closing {t : List Char} (h : '\r' ∉ t) (indent depth : Nat) :
    Unifies (renderRow indent (Piece.line depth t)) (renderRow indent (Piece.line depth t)) :=
  unifies_line indent depth (.self h)

theorem unifies_opening {field : String} (h : IsWord field.toList) (indent depth : Nat) :
    Unifies (renderRow indent (Piece.line depth (field.toList ++ [' ', '['])))
      (renderRow indent (Piece.line depth (field.toList ++ [' ', '[']))) :=
  unifies_line indent depth ((unifies_word h).append (.self (by decide)))

theorem unifies_value {field : String} (hf : IsWord field.toList) {v : FieldValue} (hv : IsPlain v)
    (indent depth : Nat) : Unifies (renderRow indent (valuePieces depth field v))
      (renderRow indent (valuePieces depth field v.lineFeeds)) := by
  cases v with
  | one k v =>
    exact unifies_line indent depth
      ((unifies_word hf).append ((unifies_blanks 1).append (unifies_item k v)))
  | many k vs =>
    have hitems : Unifies
        (renderRow indent (vs.flatMap fun v => Piece.line (depth + 1) (k.text v)))
        (renderRow indent ((vs.map k.lineFeeds).flatMap fun v => Piece.line (depth + 1) (k.text v)))
        := by
      rw [renderRow, renderRow, List.flatMap_assoc, List.flatMap_assoc, List.flatMap_map]
      exact .flatMap fun v _ => unifies_line indent (depth + 1) (unifies_item k v)
    have := ((unifies_opening hf indent depth).append hitems).append
      (unifies_closing (t := [']']) (by decide) indent depth)
    simpa [valuePieces, FieldValue.lineFeeds] using this
  | node t => exact absurd hv id
  | nodes ts => exact absurd hv id

theorem unifies_definition {name : Option String} (h : ∀ n ∈ name, IsWord n.toList)
    (indent : Nat) :
    Unifies (renderRow indent (definition name)) (renderRow indent (definition name)) := by
  cases name with
  | none => exact .nil
  | some n =>
    have := ((Unifies.self (t := ['D', 'E', 'F', ' ']) (by decide)).append
      (unifies_word (h n rfl))).append (unifies_blanks 1)
    simpa [definition, Piece.render] using this

mutual

theorem Block.unifies (indent : Nat) (b : Block NodeId) (depth : Nat) (names : List String)
    (h : b.Readable names) :
    Unifies (renderRow indent (b.pieces depth)) (renderRow indent (b.lineFeeds.pieces depth)) :=
  match b, h with
  | .use name, h => by
    have := ((Unifies.self (t := ['U', 'S', 'E', ' ']) (by decide)).append
      (unifies_word h.1)).append (.self (t := ['\n']) (by decide))
    simpa [Block.lineFeeds, Block.pieces, Piece.render] using this
  | .node id name kind body, h => by
    obtain ⟨hk, hn, hb⟩ := h
    have hhead : Unifies (kind.typeName.toList ++ [' ', '{', '\n'])
        (kind.typeName.toList ++ [' ', '{', '\n']) :=
      (unifies_word (isWord_typeName kind)).append (.self (by decide))
    have := (((unifies_definition hn indent).append hhead).append
      (body.unifies indent (depth + 1) kind _ hb)).append
        (unifies_closing (t := ['}']) (by decide) indent depth)
    simpa [Block.lineFeeds, Block.pieces, Piece.render, hk] using this

theorem Body.unifies (indent : Nat) (b : Body NodeId) (depth : Nat) (kind : NodeKind)
    (names : List String) (h : b.Readable names kind) :
    Unifies (renderRow indent (b.pieces depth)) (renderRow indent (b.lineFeeds.pieces depth)) :=
  match b, h with
  | .done, _ => .nil
  | .value field v rest, h => by
    obtain ⟨hd, hv, hr⟩ := h
    have := (unifies_value hd.isWord hv indent depth).append
      (rest.unifies indent depth kind names hr)
    simpa [Body.lineFeeds, Body.pieces] using this
  | .single field b rest, h => by
    obtain ⟨hd, hb, hr⟩ := h
    have hname : Unifies (field.toList ++ [' ']) (field.toList ++ [' ']) :=
      (unifies_word hd.isWord).append (unifies_blanks 1)
    have := (((unifies_margin indent depth).append hname).append
      (b.unifies indent depth names hb)).append (rest.unifies indent depth kind _ hr)
    simpa [Body.lineFeeds, Body.pieces, Piece.render] using this
  | .list field bs rest, h => by
    obtain ⟨hd, hb, hr⟩ := h
    have := (((unifies_opening hd.isWord indent depth).append
      (bs.unifies indent (depth + 1) names hb)).append
        (unifies_closing (t := [']']) (by decide) indent depth)).append
          (rest.unifies indent depth kind _ hr)
    simpa [Body.lineFeeds, Body.pieces] using this

/-- The text of readable blocks with other line ends is that of the blocks with other line ends. -/
theorem Blocks.unifies (indent : Nat) (bs : Blocks NodeId) (depth : Nat) (names : List String)
    (h : bs.Readable names) :
    Unifies (renderRow indent (bs.pieces depth)) (renderRow indent (bs.lineFeeds.pieces depth)) :=
  match bs, h with
  | .nil, _ => .nil
  | .cons b bs, h => by
    have := ((unifies_margin indent depth).append (b.unifies indent depth names h.1)).append
      (bs.unifies indent depth _ h.2)
    simpa [Blocks.lineFeeds, Blocks.pieces] using this

end

/-- **To change the line ends of a file of readable blocks is to change those of the strings in the
blocks.** -/
theorem universalLines_file (bs : Blocks NodeId) (h : bs.Readable []) (indent : Nat) :
    universalLines (String.ofList (renderAll indent (filePieces bs))) =
      String.ofList (renderAll indent (filePieces bs.lineFeeds)) := by
  have hkeep := filePieces_not_refused bs h
  have hkeep' := filePieces_not_refused bs.lineFeeds (bs.readable_lineFeeds [] h).1
  have hheader : Unifies headerLine headerLine := .self (by decide)
  have hfile := hheader.append (bs.unifies indent 0 [] h) []
  rw [universalLines, String.toList_ofList, renderAll_of_not_refused hkeep,
    renderAll_of_not_refused hkeep']
  simpa [filePieces, Piece.render, Xml.normalizeLines] using congrArg String.ofList hfile

end Vrml

/-! ### Copies with other line ends -/

theorem not_mem_normalizeLines (s : List Char) : '\r' ∉ Xml.normalizeLines s := by
  fun_induction Xml.normalizeLines s with
  | case1 => exact List.not_mem_nil
  | case2 r ih => simpa using ih
  | case3 c r h ih =>
    rw [List.mem_cons, not_or]
    refine ⟨?_, ih⟩
    split
    · decide
    · next hc => exact Ne.symm hc

/-- A text is its own form with line feeds exactly if it has no carriage return. -/
theorem universalLines_eq_self_iff {t : String} : universalLines t = t ↔ '\r' ∉ t.toList := by
  constructor
  · intro h
    rw [← h, universalLines, String.toList_ofList]
    exact not_mem_normalizeLines _
  · intro h
    have hself := Vrml.Unifies.self h []
    rw [List.append_nil, Xml.normalizeLines, List.append_nil] at hself
    rw [universalLines, hself, String.ofList_toList]

namespace FieldValue

theorem strings_lineFeeds (v : FieldValue) :
    v.lineFeeds.strings = v.strings.map universalLines := by
  cases v with
  | one k t => cases k <;> rfl
  | many k ts => cases k <;> rfl
  | _ => rfl

theorem lineFeeds_of_strings {v : FieldValue} (h : ∀ t ∈ v.strings, universalLines t = t) :
    v.lineFeeds = v := by
  cases v with
  | one k t =>
    cases k with
    | string => exact congrArg (one .string) (h t (List.mem_singleton_self t))
    | _ => rfl
  | many k ts =>
    cases k with
    | string => exact congrArg (many .string) (List.map_congr_left h |>.trans (List.map_id ts))
    | _ => exact congrArg (many _) (List.map_id ts)
  | _ => rfl

end FieldValue

namespace Scene

variable {s : Scene}

/-- What a node holds agrees with what it holds with other line ends, if it is its own copy. -/
theorem IsCopy.agrees_lineFeeds {f : NodeId → NodeId} (h : s.IsCopy s.lineFeeds f) {a : NodeId}
    (ha : s.ShownFrom s.root a) (hfix : f a = a) {n : Node} (hn : s.node? a = some n)
    {p : FieldDecl × FieldValue} (hp : p ∈ n.slots) (hx : p.1.exposed = true) :
    (p.2.relink f).Agrees p.2.lineFeeds := by
  obtain ⟨n', m, hn', hm, -, hfields⟩ := h.exists_nodes ha
  obtain rfl := Option.some.inj (hn.symm.trans hn')
  rw [hfix, node?_lineFeeds, hn, Option.map_some] at hm
  obtain rfl := Option.some.inj hm
  have hd := Node.mem_fields_of_mem_slots hp
  have hv := Node.get?_of_mem_slots hp
  have hw : n.lineFeeds.get? p.1.name = some p.2.lineFeeds := by
    rw [n.get?_lineFeeds, hv, Option.map_some]
  have hagrees := hfields p.1 hd hx
  rwa [Node.value_of_get? hv, Node.value_of_get? hw] at hagrees

/-- To change line ends changes no references, so that a copy leaves each node that is shown at its
place. -/
theorem IsCopy.eq_of_shownFrom {f : NodeId → NodeId} (h : s.IsCopy s.lineFeeds f) {a : NodeId}
    (ha : s.ShownFrom s.root a) : f a = a := by
  induction ha with
  | refl => exact h.root
  | @tail a b ha hab ih =>
    obtain ⟨n, hn, p, hp, hx, hb⟩ := hab
    have hrefs := (h.agrees_lineFeeds ha ih hn hp hx).refs_eq
    rw [FieldValue.refs_relink, FieldValue.refs_lineFeeds] at hrefs
    exact List.map_inj_left.1 (hrefs.trans (List.map_id _).symm) b hb

/-- **A scene whose nodes are all shown is copied by the one with other line ends exactly if no
string that it shows has a carriage return.** -/
theorem isCopy_lineFeeds_iff (hshown : ∀ a, s.ShownFrom s.root a ↔ (s.node? a).isSome) :
    (∃ f, s.IsCopy s.lineFeeds f) ↔ ∀ t, s.ShowsString t → '\r' ∉ t.toList := by
  constructor
  · rintro ⟨f, h⟩ t ⟨a, ha, n, hn, p, hp, hx, ht⟩
    have hstrings := (h.agrees_lineFeeds ha (h.eq_of_shownFrom ha) hn hp hx).strings_eq
    rw [FieldValue.strings_relink, FieldValue.strings_lineFeeds] at hstrings
    exact universalLines_eq_self_iff.1
      (List.map_inj_left.1 (hstrings.symm.trans (List.map_id _).symm) t ht)
  · intro h
    refine ⟨id, rfl, ⟨fun a ha => ?_, Set.injOn_id _, fun a ha => ⟨a, ?_, rfl⟩⟩, fun a _ => ?_,
      fun a n m ha hn hm d hd hx => ?_⟩
    · show (s.lineFeeds.node? a).isSome
      rw [node?_lineFeeds, Option.isSome_map]
      exact (hshown a).1 ha
    · refine (hshown a).2 ?_
      have hthere : (s.lineFeeds.node? a).isSome := ha
      rwa [node?_lineFeeds, Option.isSome_map] at hthere
    · rw [kind?, kind?, id, node?_lineFeeds, Option.map_map]
      rfl
    · rw [id, node?_lineFeeds, hn, Option.map_some] at hm
      obtain rfl := Option.some.inj hm
      have hget := Node.get?_eq_value hd
      have hsame : (n.value d).lineFeeds = n.value d :=
        FieldValue.lineFeeds_of_strings fun t ht => universalLines_eq_self_iff.2
          (h t ⟨a, ha, n, hn, _, Node.mem_slots_value hd, hx, ht⟩)
      refine ⟨n.value d, n.value d, hget, ?_, .inl (FieldValue.relink_of_fixed fun _ _ => rfl)⟩
      rw [n.get?_lineFeeds, hget, Option.map_some, hsame]

open Vrml in
/-- The text of a writable scene and the same text with other line ends are both read.  What they
are read as differs in the line ends of strings only, and one is a copy of the other exactly if the
scene shows no string with a carriage return. -/
theorem Writable.readVrml_universalLines (hs : s.Writable) (indent : Nat) :
    (Scene.empty.readVrml (s.write indent).text).result = .ok () ∧
      (Scene.empty.readVrml (universalLines (s.write indent).text)).result = .ok () ∧
      (Scene.empty.readVrml (universalLines (s.write indent).text)).scene =
        (Scene.empty.readVrml (s.write indent).text).scene.lineFeeds ∧
      ((∃ f, (Scene.empty.readVrml (s.write indent).text).scene.IsCopy
          (Scene.empty.readVrml (universalLines (s.write indent).text)).scene f) ↔
        ∀ t, s.ShowsString t → '\r' ∉ t.toList) := by
  obtain ⟨hread, hsown⟩ := sown_outline hs
  have hcopy := hsown.isCopy hs
  have htext : (s.write indent).text = String.ofList (renderAll indent (filePieces s.outline)) :=
    rfl
  obtain ⟨hresult, hscene⟩ := readVrml_file s.outline hread indent
  obtain ⟨hresult', hscene'⟩ :=
    readVrml_file s.outline.lineFeeds (s.outline.readable_lineFeeds [] hread).1 indent
  rw [← universalLines_file s.outline hread, ← htext, plant_lineFeeds] at hscene'
  rw [← universalLines_file s.outline hread, ← htext] at hresult'
  rw [← htext] at hresult hscene
  rw [hscene, hscene']
  refine ⟨hresult, hresult', rfl, ?_⟩
  have hiff := isCopy_lineFeeds_iff fun a => hcopy.shownFrom_iff (b := a)
  exact hiff.trans (forall_congr' fun t => imp_congr_left hcopy.showsString_iff)

end Scene

end SceneTidy

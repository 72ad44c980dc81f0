import SceneTidy.Proofs.Vrml.Descent
import SceneTidy.Proofs.Vrml.Growth

/-!
# What the grammar says is read

Signs of the grammar are accepted by the reader within any bound that is not below their number, and
what is read plants the nodes that the grammar says are made (`IsNode.accepted` and its siblings).
The reader fails on a statement exactly where none stands (`stuck_iff`).  Main statement: a row of
tokens is read without a failure exactly if it is a sequence of statements, and the scene then holds
what these make (`take_readTokens_iff`).
-/

namespace SceneTidy

namespace Scene

variable {s : Scene} {id : NodeId}

/-- Add nodes to the store, at the next places. -/
def pushAll (s : Scene) (ns : List Node) : Scene := { s with nodes := s.nodes ++ ns.toArray }

@[simp] theorem pushAll_nil (s : Scene) : s.pushAll [] = s := by simp [pushAll]

@[simp] theorem size_pushAll (s : Scene) (ns : List Node) :
    (s.pushAll ns).size = s.size + ns.length := by
  simp [pushAll, size]

theorem pushAll_append (s : Scene) (ns ms : List Node) :
    s.pushAll (ns ++ ms) = (s.pushAll ns).pushAll ms := by
  simp [pushAll, Array.append_assoc]

theorem pushAll_cons (s : Scene) (n : Node) (ns : List Node) :
    s.pushAll (n :: ns) = (s.push n).pushAll ns := by
  simp [pushAll, push]

theorem node?_pushAll (s : Scene) (ns : List Node) (x : NodeId) :
    (s.pushAll ns).node? x = if x < s.size then s.node? x else ns[x - s.size]? := by
  have hnew : ns.toArray[x - s.nodes.size]? = ns[x - s.nodes.size]? := by simp
  rw [node?, pushAll, Array.getElem?_append, hnew]
  rfl

/-- A change of an old node and new nodes do not disturb each other. -/
theorem modify_pushAll (ns : List Node) (f : Node → Node) (h : id < s.size) :
    (s.pushAll ns).modify id f = (s.modify id f).pushAll ns := by
  refine ext_node? rfl fun x => ?_
  rw [node?_modify, node?_pushAll, node?_pushAll, node?_modify, size_modify]
  by_cases hx : x < s.size
  · simp [hx]
  · have hne : id ≠ x := by
      rintro rfl
      exact hx h
    simp [hx, hne]

theorem modify_id (s : Scene) (id : NodeId) : (s.modify id fun n => n) = s := by
  refine ext_node? rfl fun x => ?_
  rw [node?_modify]
  split <;> simp

theorem modify_push_self (s : Scene) (n : Node) (f : Node → Node) :
    (s.push n).modify s.next f = s.push (f n) := by
  refine ext_node? rfl fun x => ?_
  rw [node?_modify, node?_push, node?_push]
  by_cases hx : x = s.next
  · simp [hx]
  · simp [hx, Ne.symm hx]

end Scene

namespace Vrml

open Reader

/-! ### Readers that accept signs -/

namespace Reader

variable {α β : Type} {r : Reader α} {ws m : List Sign} {names names' names'' : List String}

/-- A reader comes to a result over all tokens of given signs, whatever follows them, and may tell
something; the names known before and after it are given as well. -/
def Accepts (r : Reader α) (ws : List Sign) (names names' : List String) (a : α) : Prop :=
  ∀ ts rest ns, ts.map Token.sign = ws →
    ∃ ns', r ⟨ts ++ rest, names, ns⟩ = .ok a ⟨rest, names', ns'⟩

theorem Passes.accepts {a : α} (h : Passes r ws names names' a) : Accepts r ws names names' a :=
  fun ts rest ns hts => ⟨ns, h ts rest ns hts⟩

theorem Accepts.bind {f : α → Reader β} {a : α} {b : β} (hr : Accepts r ws names names' a)
    (hf : Accepts (f a) m names' names'' b) : Accepts (r >>= f) (ws ++ m) names names'' b := by
  intro ts rest ns h
  obtain ⟨ts₁, ts₂, rfl, h₁, h₂⟩ := List.map_eq_append_iff.1 h
  obtain ⟨ns₁, hrun⟩ := hr ts₁ (ts₂ ++ rest) ns h₁
  rw [bind_apply, List.append_assoc, hrun]
  exact hf ts₂ rest ns₁ h₂

theorem Accepts.bind_pure {f : α → β} {a : α} (hr : Accepts r ws names names' a) :
    Accepts (do return f (← r)) ws names names' (f a) := by
  have hpure : Accepts (pure (f a) : Reader β) [] names' names' (f a) := (passes_pure (f a)).accepts
  have hall := hr.bind (f := fun a => pure (f a)) hpure
  rwa [List.append_nil] at hall

theorem accepts_peek {w : Sign} {f : Token → Reader β} {b : β}
    (h : ∀ t : Token, t.sign = w → Accepts (f t) (w :: ws) names names' b) :
    Accepts (peek >>= f) (w :: ws) names names' b := by
  intro ts rest ns hts
  obtain ⟨t, ts, rfl, ht, -⟩ := List.map_eq_cons_iff.1 hts
  exact h t ht (t :: ts) rest ns hts

theorem accepts_next {w : Sign} {f : Token → Reader β} {b : β}
    (h : ∀ t : Token, t.sign = w → Accepts (f t) ws names names' b) :
    Accepts (next >>= f) (w :: ws) names names' b := by
  intro ts rest ns hts
  obtain ⟨t, ts, rfl, ht, hts'⟩ := List.map_eq_cons_iff.1 hts
  exact h t ht ts rest ns hts'

theorem accepts_skipRoute (source target : String) :
    Accepts skipRoute (routeSigns source target) names names () := by
  have htell : ∀ n : Notice, Accepts (tell n) [] names names () := by
    intro n ts rest ns hts
    obtain rfl := List.map_eq_nil_iff.1 hts
    exact ⟨_, rfl⟩
  refine accepts_next fun start _ => ?_
  refine (passes_word source).accepts.bind (m := [(.word, "TO"), (.word, target)]) ?_
  refine (passes_word "TO").accepts.bind (m := [(.word, target)]) ?_
  rw [if_pos rfl]
  exact (passes_word target).accepts.bind (htell _)

theorem accepts_stop {c : Char} {route : Reader β} {go : Token → Reader β} {b : β} :
    Accepts (peek >>= fun t => if t.isThisMark c then (next >>= fun _ => pure b) else
      if t.isThisWord "ROUTE" then route else go t) [markSign c] names names b :=
  passes_stop.accepts

/-- A route is ahead, and no other statement. -/
theorem accepts_route {c : Char} {stop more : Reader β} {go : Token → Reader β} {b : β}
    (source target : String) (h : Accepts more ws names names' b) :
    Accepts (peek >>= fun t => if t.isThisMark c then stop else
      if t.isThisWord "ROUTE" then (skipRoute >>= fun _ => more) else go t)
      (routeSigns source target ++ ws) names names' b := by
  refine accepts_peek fun t ht => ?_
  rw [if_neg, if_pos (isThisWord_iff.2 ht)]
  · exact (accepts_skipRoute source target).bind h
  · rw [isThisMark_iff, ht]
    exact fun he => nomatch congrArg Prod.fst he

/-- Neither the end of a list nor a route is ahead. -/
theorem accepts_ahead {c : Char} {w : String} {stop route : Reader β} {go : Token → Reader β}
    {b : β} (hw : w ≠ "ROUTE")
    (h : ∀ t : Token, t.sign = (.word, w) → Accepts (go t) ((.word, w) :: ws) names names' b) :
    Accepts (peek >>= fun t => if t.isThisMark c then stop else
      if t.isThisWord "ROUTE" then route else go t) ((.word, w) :: ws) names names' b := by
  refine accepts_peek fun t ht => ?_
  rw [if_neg, if_neg]
  · exact h t ht
  · rw [isThisWord_iff, ht]
    exact fun he => hw (congrArg Prod.snd he)
  · rw [isThisMark_iff, ht]
    exact fun he => nomatch congrArg Prod.fst he

end Reader

/-! ### What is planted -/

/-- Plant what was read of a node, which may be that there is none. -/
def plantRead (b : Option (Block Unit)) (bed : Bed) : Option NodeId × Bed :=
  match b with
  | none => (none, bed)
  | some b => b.plant bed

/-- A scene in which the nodes opened so far stand, the first of them at the place `base`, with
their names. -/
structure Bed.Holds (bed : Bed) (base : NodeId) (opened : List (Option String)) : Prop where
  size : bed.scene.size = base + opened.length
  names : bed.names = defined base opened

/-- Some nodes were made, and nothing else changed. -/
def Bed.make (bed : Bed) (base : NodeId) (opened : List (Option String)) (made : List Made) : Bed :=
  ⟨bed.scene.pushAll (made.map Made.node), defined base (opened ++ made.map Made.name)⟩

namespace Bed

variable {bed : Bed} {base : NodeId} {opened : List (Option String)} {made : List Made}

theorem Holds.make (h : bed.Holds base opened) (made : List Made) :
    (bed.make base opened made).Holds base (opened ++ made.map Made.name) := by
  refine ⟨?_, rfl⟩
  rw [Bed.make, Scene.size_pushAll, h.size]
  simp
  omega

theorem Holds.make_nil (h : bed.Holds base opened) : bed.make base opened [] = bed := by
  rw [Bed.make, List.map_nil, List.map_nil, Scene.pushAll_nil, List.append_nil, ← h.names]

theorem make_append (bed : Bed) (base : NodeId) (opened : List (Option String))
    (made more : List Made) :
    (bed.make base opened made).make base (opened ++ made.map Made.name) more =
      bed.make base opened (made ++ more) := by
  simp only [Bed.make, List.map_append, List.append_assoc, Scene.pushAll_append]

theorem Holds.set (h : bed.Holds base opened) (id : NodeId) (field : String) (v : FieldValue) :
    (bed.set id field v).Holds base opened := ⟨by rw [size_set, h.size], h.names⟩

theorem Holds.grow (h : bed.Holds base opened) (kind : NodeKind) (name : Option String) :
    (bed.grow kind name).Holds base (opened ++ [name]) := by
  refine ⟨by simp [h.size, Nat.add_assoc], ?_⟩
  rw [defined_concat, ← h.size, ← h.names]
  rfl

end Bed

/-- What was read of a node plants the nodes made, and comes to a node. -/
def BlockMeans (base : NodeId) (opened : List (Option String)) (target : Option NodeId)
    (made : List Made) (b : Option (Block Unit)) : Prop :=
  ∀ bed : Bed, bed.Holds base opened → plantRead b bed = (target, bed.make base opened made)

/-- What was read of the items of a body gives its owner the values, and plants the nodes made. -/
def BodyMeans (base : NodeId) (opened : List (Option String)) (given : List (String × FieldValue))
    (made : List Made) (body : Body Unit) : Prop :=
  ∀ (bed : Bed) id, bed.Holds base opened → id < bed.scene.size → body.plant id bed =
    Bed.make ⟨bed.scene.modify id (·.setAll given), bed.names⟩ base opened made

/-- What was read of a value plants the nodes made and gives the owner the value, before the rest of
the body is planted. -/
def ValueMeans (base : NodeId) (opened : List (Option String)) (field : String) (v : FieldValue)
    (made : List Made) (first : Body Unit → Body Unit) : Prop :=
  ∀ rest (bed : Bed) id, bed.Holds base opened →
    (first rest).plant id bed = rest.plant id ((bed.make base opened made).set id field v)

/-- What was read of statements plants the nodes made, and comes to the nodes listed. -/
def BlocksMean (base : NodeId) (opened : List (Option String)) (targets : List NodeId)
    (made : List Made) (bs : Blocks Unit) : Prop :=
  ∀ bed : Bed, bed.Holds base opened → bs.plant bed = (targets, bed.make base opened made)

variable {base : NodeId} {opened : List (Option String)}

/-- A body is planted in the node that it opens. -/
theorem BodyMeans.node {name : Option String} {given : List (String × FieldValue)}
    {made : List Made} {body : Body Unit} (kind : NodeKind)
    (h : BodyMeans base (opened ++ [name]) given made body) :
    BlockMeans base opened (some (base + opened.length)) (⟨name, kind, given⟩ :: made)
      (some (.node () name kind body)) := by
  intro bed hbed
  have hgrow := hbed.grow kind name
  have hlt : bed.scene.next < (bed.grow kind name).scene.size := by
    rw [Bed.size_grow]
    exact Nat.lt_succ_self _
  have hnode : (bed.grow kind name).scene.modify bed.scene.next (·.setAll given) =
      bed.scene.push (Made.node ⟨name, kind, given⟩) :=
    Scene.modify_push_self ..
  rw [plantRead, Block.plant, h _ _ hgrow hlt, hnode]
  refine Prod.ext (congrArg some hbed.size) ?_
  show Bed.make _ _ _ _ = Bed.make _ _ _ _
  rw [Bed.make, Bed.make, List.map_cons, List.map_cons, Scene.pushAll_cons, List.append_assoc]
  rfl

/-- One value is planted before the rest of a body. -/
theorem ValueMeans.cons {field : String} {v : FieldValue} {given : List (String × FieldValue)}
    {made more : List Made} {first : Body Unit → Body Unit} {rest : Body Unit}
    (h : ValueMeans base opened field v made first)
    (hrest : BodyMeans base (opened ++ made.map Made.name) given more rest) :
    BodyMeans base opened ((field, v) :: given) (made ++ more) (first rest) := by
  intro bed id hbed hid
  have hmade := (hbed.make made).set id field v
  have hlt : id < ((bed.make base opened made).set id field v).scene.size := by
    rw [Bed.size_set, Bed.make, Scene.size_pushAll]
    omega
  rw [h rest bed id hbed, hrest _ id hmade hlt, ← Bed.make_append]
  -- both changes of the owner can be made before the nodes are added
  have howner : ((bed.make base opened made).set id field v).scene.modify id (·.setAll given) =
      (bed.scene.modify id (·.setAll ((field, v) :: given))).pushAll (made.map Made.node) := by
    have hset : (bed.scene.pushAll (made.map Made.node)).set id field v =
        (bed.scene.set id field v).pushAll (made.map Made.node) :=
      Scene.modify_pushAll _ _ hid
    show ((bed.scene.pushAll (made.map Made.node)).set id field v).modify id _ = _
    rw [hset, Scene.modify_pushAll _ _ (by rwa [Scene.size_set]), Scene.set, Scene.modify_modify]
    rfl
  rw [howner]
  rfl

/-- A node that is read for a single reference. -/
theorem BlockMeans.single {target : Option NodeId} {made : List Made} {b : Option (Block Unit)}
    (h : BlockMeans base opened target made b) (field : String) :
    ValueMeans base opened field (.node target) made (startNode field b) := by
  intro rest bed id hbed
  have hplant := h bed hbed
  cases b with
  | none =>
    obtain ⟨rfl, hmade⟩ := Prod.mk.inj hplant
    rw [← hmade]
    rfl
  | some b =>
    have hb : b.plant bed = (target, bed.make base opened made) := hplant
    rw [startNode, Body.plant, hb]

/-- A node that is read for a list of references. -/
theorem BlockMeans.list {target : Option NodeId} {made : List Made} {b : Option (Block Unit)}
    (h : BlockMeans base opened target made b) (field : String) :
    ValueMeans base opened field (.nodes target.toList) made (startNodes field b) := by
  intro rest bed id hbed
  have hplant := h bed hbed
  cases b with
  | none =>
    obtain ⟨rfl, hmade⟩ := Prod.mk.inj hplant
    rw [← hmade]
    rfl
  | some b =>
    have hb : b.plant bed = (target, bed.make base opened made) := hplant
    rw [startNodes, Body.plant, Blocks.plant, hb]
    simp [Blocks.plant]

/-- Statements that are read for a list of references. -/
theorem BlocksMean.list {targets : List NodeId} {made : List Made} {bs : Blocks Unit}
    (h : BlocksMean base opened targets made bs) (field : String) :
    ValueMeans base opened field (.nodes targets) made (.list field bs) := by
  intro rest bed id hbed
  rw [Body.plant, h bed hbed]

theorem BlocksMean.nil : BlocksMean base opened [] [] .nil :=
  fun _ hbed => Prod.ext rfl hbed.make_nil.symm

/-- One node is planted before the rest of a list. -/
theorem BlockMeans.cons {target : Option NodeId} {made more : List Made} {b : Option (Block Unit)}
    {targets : List NodeId} {bs : Blocks Unit} (h : BlockMeans base opened target made b)
    (hrest : BlocksMean base (opened ++ made.map Made.name) targets more bs) :
    BlocksMean base opened (target.toList ++ targets) (made ++ more)
      (Blocks.ofList (b.toList ++ bs.toList)) := by
  intro bed hbed
  have hplant := h bed hbed
  have hmore := hrest _ (hbed.make made)
  rw [Bed.make_append] at hmore
  cases b with
  | none =>
    obtain ⟨rfl, hmade⟩ := Prod.mk.inj hplant
    rw [← hmade] at hmore
    simpa [Blocks.ofList_toList] using hmore
  | some b =>
    have hb : b.plant bed = (target, bed.make base opened made) := hplant
    simp only [Option.toList_some, List.singleton_append, Blocks.ofList, Blocks.ofList_toList,
      Blocks.plant, hb, hmore]

/-! ### Signs of the grammar are accepted -/

theorem accepts_use {name : String} {k : Nat} (h : StandsFor opened name k) (fuel : Nat) :
    Accepts (block (fuel + 1)) [(.word, "USE"), (.word, name)] (known opened) (known opened)
      (some (.use name)) := by
  rw [block]
  exact (passes_head_use h.mem_known).accepts.bind (m := []) (passes_pure _).accepts

theorem accepts_null (fuel : Nat) :
    Accepts (block (fuel + 1)) [(.word, "NULL")] (known opened) (known opened) none := by
  rw [block]
  have hhead : Accepts head [(.word, "NULL")] (known opened) (known opened) .null := by
    refine (passes_word "NULL").accepts.bind (m := []) ?_
    rw [if_pos rfl]
    exact (passes_pure _).accepts
  exact hhead.bind (m := []) (passes_pure _).accepts

/-- The start of a node is read with the type that the text calls its kind by. -/
theorem eq_typeName {type : String} {kind : NodeKind} (h : NodeKind.ofTypeName? type = some kind) :
    type = kind.typeName ∧ kind.isRegistered = true := by
  refine ⟨?_, (NodeKind.mem_registered_iff kind).1 (List.mem_of_find?_eq_some h)⟩
  have hname : kind.typeName = type := by simpa using List.find?_some h
  exact hname.symm

/-- A node starts with a word that starts neither a route nor a declaration. -/
theorem IsNode.exists_eq_cons {ws : List Sign} {target : Option NodeId} {made : List Made}
    (h : IsNode base opened ws target made) :
    ∃ w us, ws = (.word, w) :: us ∧ w ∉ ["ROUTE", "PROTO", "EXTERNPROTO"] := by
  cases h with
  | null => exact ⟨_, _, rfl, by decide⟩
  | use _ => exact ⟨_, _, rfl, by decide⟩
  | @body _ name type kind ws _ _ hk _ =>
    cases name with
    | some name => exact ⟨"DEF", _, rfl, by decide⟩
    | none =>
      obtain ⟨rfl, -⟩ := eq_typeName hk
      refine ⟨_, _, rfl, fun hm => typeName_not_reserved kind ?_⟩
      simp only [List.mem_cons, List.not_mem_nil, or_false, reservedWords] at hm ⊢
      rcases hm with hm | hm | hm <;> simp [hm]

mutual

theorem IsNode.accepted {opened : List (Option String)} {ws : List Sign} {target : Option NodeId}
    {made : List Made} (h : IsNode base opened ws target made) :
    ∃ b, BlockMeans base opened target made b ∧ ∀ fuel, ws.length ≤ fuel →
      Accepts (block fuel) ws (known opened) (known (opened ++ made.map Made.name)) b :=
  match h with
  | .null => by
    refine ⟨none, fun bed hbed => Prod.ext rfl hbed.make_nil.symm, fun fuel hf => ?_⟩
    cases fuel with
    | zero => simp at hf
    | succ fuel => simpa using accepts_null fuel
  | @IsNode.use _ opened name k hk => by
    refine ⟨some (.use name), fun bed hbed => ?_, fun fuel hf => ?_⟩
    · refine Prod.ext ?_ hbed.make_nil.symm
      show bed.names.lookup name = _
      rw [hbed.names, hk.lookup_defined]
    · cases fuel with
      | zero => simp at hf
      | succ fuel => simpa using accepts_use hk fuel
  | @IsNode.body _ opened name type kind us given made hk hitems => by
    obtain ⟨body, hmeans, haccept⟩ := hitems.accepted
    obtain ⟨rfl, hreg⟩ := eq_typeName hk
    refine ⟨some (.node () name kind body), hmeans.node kind, fun fuel hf => ?_⟩
    cases fuel with
    | zero => simp at hf
    | succ fuel =>
      have hfuel : (us ++ [markSign '}']).length ≤ fuel := by
        simp only [List.length_append, List.length_cons, List.length_nil] at hf ⊢
        omega
      have hsplit : definitionSigns name ++ (.word, kind.typeName) :: markSign '{' :: us ++
          [markSign '}'] = (definitionSigns name ++ [(.word, kind.typeName), markSign '{']) ++
            (us ++ [markSign '}']) := by
        simp
      have hbody := (haccept fuel hfuel).bind_pure
        (f := fun body => some (Block.node () name kind body))
      rw [known_concat] at hbody
      have hhead : Passes head _ (known opened) (name.toList ++ known opened) (.opens name kind) :=
        passes_head_node hreg
      have hopen : opened ++ (Made.mk name kind given :: made).map Made.name =
          opened ++ [name] ++ made.map Made.name := by
        simp
      rw [block, hsplit, hopen]
      refine hhead.accepts.bind ?_
      exact hbody

theorem IsItems.accepted {kind : NodeKind} {opened : List (Option String)} {ws : List Sign}
    {given : List (String × FieldValue)} {made : List Made}
    (h : IsItems base kind opened ws given made) :
    ∃ body, BodyMeans base opened given made body ∧
      ∀ fuel, (ws ++ [markSign '}']).length ≤ fuel → Accepts (fields fuel kind)
        (ws ++ [markSign '}']) (known opened) (known (opened ++ made.map Made.name)) body :=
  match h with
  | .nil => by
    refine ⟨.done, fun bed id hbed _ => ?_, fun fuel hf => ?_⟩
    · have hsame : (bed.scene.modify id fun n => n.setAll []) = bed.scene :=
        bed.scene.modify_id id
      rw [hsame, hbed.make_nil]
      rfl
    · cases fuel with
      | zero => simp at hf
      | succ fuel =>
        rw [fields_succ]
        simpa using accepts_stop
  | @IsItems.route _ _ _ source target ws _ _ hitems => by
    obtain ⟨body, hmeans, haccept⟩ := hitems.accepted
    refine ⟨body, hmeans, fun fuel hf => ?_⟩
    cases fuel with
    | zero => simp at hf
    | succ fuel =>
      have hfuel : (ws ++ [markSign '}']).length ≤ fuel := by
        simp only [routeSigns, List.length_append, List.length_cons, List.length_nil] at hf ⊢
        omega
      rw [fields_succ, List.append_assoc]
      exact accepts_route source target (haccept fuel hfuel)
  | @IsItems.field _ kind opened field d us v made ws given more hd hv hitems => by
    obtain rfl : d.name = field := by simpa using List.find?_some hd
    obtain ⟨first, hfirst, hvalue⟩ := hv.accepted d rfl
    obtain ⟨rest, hrest, haccept⟩ := hitems.accepted
    refine ⟨first rest, hfirst.cons hrest, fun fuel hf => ?_⟩
    cases fuel with
    | zero => simp at hf
    | succ fuel =>
      have hfuel : us.length ≤ fuel ∧ (ws ++ [markSign '}']).length ≤ fuel := by
        simp only [List.length_append, List.length_cons, List.length_nil] at hf ⊢
        omega
      have hroute := ne_route_of_mem_fields kind d (List.mem_of_find?_eq_some hd)
      rw [fields_succ, List.cons_append, List.cons_append, List.append_assoc, List.map_append,
        ← List.append_assoc opened]
      exact accepts_ahead hroute fun _ _ => (passes_fieldName hd).accepts.bind
        ((hvalue fuel hfuel.1).bind (haccept fuel hfuel.2).bind_pure)

theorem IsValue.accepted {kind : FieldKind} {opened : List (Option String)} {ws : List Sign}
    {v : FieldValue} {made : List Made} (h : IsValue base kind opened ws v made) (d : FieldDecl)
    (hd : d.kind = kind) :
    ∃ first, ValueMeans base opened d.name v made first ∧ ∀ fuel, ws.length ≤ fuel →
      Accepts (fieldValue fuel d) ws (known opened) (known (opened ++ made.map Made.name)) first :=
  match h with
  | .node hnode => by
    obtain ⟨b, hmeans, haccept⟩ := hnode.accepted
    refine ⟨startNode d.name b, hmeans.single d.name, fun fuel hf => ?_⟩
    rw [fieldValue, hd]
    exact (haccept fuel hf).bind_pure
  | .nodes hnode => by
    obtain ⟨b, hmeans, haccept⟩ := hnode.accepted
    obtain ⟨w, us, rfl, -⟩ := hnode.exists_eq_cons
    refine ⟨startNodes d.name b, hmeans.list d.name, fun fuel hf => ?_⟩
    rw [fieldValue, hd]
    refine accepts_peek fun t ht => ?_
    rw [if_neg]
    · exact (haccept fuel hf).bind_pure
    · rw [isThisMark_iff, ht]
      exact fun he => nomatch congrArg Prod.fst he
  | @IsValue.list _ opened us targets made hlist => by
    obtain ⟨bs, hmeans, haccept⟩ := hlist.accepted
    refine ⟨.list d.name bs, hmeans.list d.name, fun fuel hf => ?_⟩
    have hfuel : (us ++ [markSign ']']).length ≤ fuel := by
      simp only [List.length_append, List.length_cons, List.length_nil] at hf ⊢
      omega
    rw [fieldValue, hd]
    refine accepts_peek fun t ht => ?_
    rw [if_pos (isThisMark_iff.2 ht)]
    exact accepts_next fun _ _ => (haccept fuel hfuel).bind_pure
  | @IsValue.plain _ kind opened ws v hplain => by
    have hpass : Accepts (plainValue kind) ws (known opened) (known opened) v :=
      (passes_plainValue hplain).accepts
    refine ⟨.value d.name v, fun rest bed id hbed => ?_, fun fuel hf => ?_⟩
    · rw [hbed.make_nil, Body.plant]
    · rw [List.map_nil, List.append_nil, fieldValue, hd]
      cases hplain with
      | one _ _ | item _ _ | list _ => exact hpass.bind_pure

theorem IsStatements.accepted {opened : List (Option String)} {ws : List Sign}
    {targets : List NodeId} {made : List Made} (h : IsStatements base opened ws targets made) :
    ∃ bs, BlocksMean base opened targets made bs ∧
      ∀ fuel, (ws ++ [markSign ']']).length ≤ fuel → Accepts (blocks fuel)
        (ws ++ [markSign ']']) (known opened) (known (opened ++ made.map Made.name)) bs :=
  match h with
  | .nil => by
    refine ⟨.nil, .nil, fun fuel hf => ?_⟩
    cases fuel with
    | zero => simp at hf
    | succ fuel =>
      rw [blocks]
      simpa using accepts_stop
  | @IsStatements.route _ _ source target ws _ _ hlist => by
    obtain ⟨bs, hmeans, haccept⟩ := hlist.accepted
    refine ⟨bs, hmeans, fun fuel hf => ?_⟩
    cases fuel with
    | zero => simp at hf
    | succ fuel =>
      have hfuel : (ws ++ [markSign ']']).length ≤ fuel := by
        simp only [routeSigns, List.length_append, List.length_cons, List.length_nil] at hf ⊢
        omega
      rw [blocks, List.append_assoc]
      exact accepts_route source target (haccept fuel hfuel)
  | @IsStatements.node _ opened us target made ws targets more hnode hlist => by
    obtain ⟨b, hb, hblock⟩ := hnode.accepted
    obtain ⟨bs, hbs, haccept⟩ := hlist.accepted
    obtain ⟨w, us, rfl, hw⟩ := hnode.exists_eq_cons
    simp only [List.mem_cons, List.not_mem_nil, or_false, not_or] at hw
    refine ⟨Blocks.ofList (b.toList ++ bs.toList), hb.cons hbs, fun fuel hf => ?_⟩
    cases fuel with
    | zero => simp at hf
    | succ fuel =>
      have hfuel : ((TokenKind.word, w) :: us).length ≤ fuel ∧
          (ws ++ [markSign ']']).length ≤ fuel := by
        simp only [List.length_append, List.length_cons, List.length_nil] at hf ⊢
        omega
      have hrest := haccept fuel hfuel.2
      have hall : Accepts (block fuel >>= fun b => match b with
          | none => blocks fuel
          | some b => do return .cons b (← blocks fuel))
          (((.word, w) :: us) ++ (ws ++ [markSign ']'])) (known opened)
          (known (opened ++ made.map Made.name ++ more.map Made.name))
          (Blocks.ofList (b.toList ++ bs.toList)) := by
        refine (hblock fuel hfuel.1).bind ?_
        cases b with
        | none => simpa [Blocks.ofList_toList] using hrest
        | some b => simpa [Blocks.ofList, Blocks.ofList_toList] using
            hrest.bind_pure (f := Blocks.cons b)
      rw [blocks, List.append_assoc, List.cons_append, List.map_append, ← List.append_assoc opened]
      refine accepts_ahead hw.1 fun t ht => ?_
      rw [if_neg]
      · exact hall
      · simpa [isThisWord_iff, ht] using hw.2

end

/-! ### Whole files -/

theorem accepts_statement_route (fuel : Nat) (source target : String) (names : List String) :
    Accepts (statement fuel) (routeSigns source target) names names none := by
  refine accepts_peek fun t ht => ?_
  rw [if_pos (isThisWord_iff.2 ht)]
  exact (accepts_skipRoute source target).bind (m := []) (passes_pure _).accepts

/-- A node is a statement of its own. -/
theorem IsNode.accepts_statement {opened : List (Option String)} {ws : List Sign}
    {target : Option NodeId} {made : List Made} (h : IsNode base opened ws target made) {fuel : Nat}
    {names names' : List String} {b : Option (Block Unit)}
    (hb : Accepts (block fuel) ws names names' b) : Accepts (statement fuel) ws names names' b := by
  obtain ⟨w, us, rfl, hw⟩ := h.exists_eq_cons
  simp only [List.mem_cons, List.not_mem_nil, or_false, not_or] at hw
  refine accepts_peek fun t ht => ?_
  rw [if_neg, if_neg]
  · exact hb
  · simpa [isThisWord_iff, ht] using hw.2
  · simpa [isThisWord_iff, ht] using hw.1

/-- A statement is accepted, and plants what it makes. -/
theorem IsStatement.accepted {ws : List Sign} {target : Option NodeId} {made : List Made}
    (h : IsStatement base opened ws target made) :
    ∃ b, BlockMeans base opened target made b ∧ ∀ fuel, ws.length ≤ fuel → Accepts (statement fuel)
      ws (known opened) (known (opened ++ made.map Made.name)) b := by
  cases h with
  | @route source target =>
    refine ⟨none, fun bed hbed => Prod.ext rfl hbed.make_nil.symm, fun fuel _ => ?_⟩
    simpa using accepts_statement_route fuel source target (known opened)
  | node h =>
    obtain ⟨b, hmeans, hblock⟩ := h.accepted
    exact ⟨b, hmeans, fun fuel hf => h.accepts_statement (hblock fuel hf)⟩

/-- A statement that is accepted comes before the rest of a reading. -/
theorem readStatements_append {fuel : Nat} (bound : Nat) {ws : List Sign}
    {names names' : List String} {b : Option (Block Unit)}
    (h : Accepts (statement fuel) ws names names' b) (hne : ws ≠ []) {ts : List Token}
    (hts : ts.map Token.sign = ws) (us : List Token) (ns : List Notice) :
    ∃ ns', readStatements fuel (bound + 1) ⟨ts ++ us, names, ns⟩ =
      { readStatements fuel bound ⟨us, names', ns'⟩ with
        blocks := b.toList ++ (readStatements fuel bound ⟨us, names', ns'⟩).blocks } := by
  obtain ⟨ns', hrun⟩ := h ts us ns hts
  have hsome : ts ++ us ≠ [] := by
    rintro hnil
    rw [List.append_eq_nil_iff.1 hnil |>.1] at hts
    exact hne hts.symm
  refine ⟨ns', ?_⟩
  rw [readStatements, if_neg (by simpa using hsome), hrun]

/-- Statements are read before whatever follows them. -/
theorem IsStatements.read_append {opened : List (Option String)} {ws : List Sign}
    {targets : List NodeId} {made : List Made} (h : IsStatements base opened ws targets made)
    {ts : List Token} (hts : ts.map Token.sign = ws) (us : List Token) (depth bound : Nat)
    (hd : ws.length ≤ depth) (hb : ws.length ≤ bound) (ns : List Notice) :
    ∃ bs ns' left, bound ≤ left + ws.length ∧ BlocksMean base opened targets made (.ofList bs) ∧
      readStatements depth bound ⟨ts ++ us, known opened, ns⟩ =
        { readStatements depth left ⟨us, known (opened ++ made.map Made.name), ns'⟩ with
          blocks := bs ++ (readStatements depth left
            ⟨us, known (opened ++ made.map Made.name), ns'⟩).blocks } := by
  induction h using IsStatements.statementInduction generalizing ts bound ns with
  | nil opened =>
    obtain rfl := List.map_eq_nil_iff.1 hts
    exact ⟨[], ns, bound, Nat.le_refl _, .nil, by simp⟩
  | @cons opened vs target made ws targets more hstatement _ ih =>
    obtain ⟨ts₁, ts₂, rfl, h₁, h₂⟩ := List.map_eq_append_iff.1 hts
    have hpos : 0 < vs.length := List.length_pos_of_ne_nil hstatement.ne_nil
    rw [List.length_append] at hd hb
    obtain ⟨bound, rfl⟩ : ∃ k, bound = k + 1 := ⟨bound - 1, by omega⟩
    obtain ⟨b, hmeans, haccept⟩ := hstatement.accepted
    obtain ⟨ns₁, hstep⟩ := readStatements_append bound (haccept depth (by omega)) hstatement.ne_nil
      h₁ (ts₂ ++ us) ns
    obtain ⟨bs, ns', left, hleft, hrest, hread⟩ := ih h₂ bound (by omega) (by omega) ns₁
    refine ⟨b.toList ++ bs, ns', left, by rw [List.length_append]; omega, ?_, ?_⟩
    · have hcons := hmeans.cons hrest
      rwa [Blocks.toList_ofList] at hcons
    · rw [List.append_assoc, hstep, hread, List.map_append, List.append_assoc, List.append_assoc]

theorem readStatements_nil (depth bound : Nat) (names : List String) (ns : List Notice) :
    readStatements depth bound ⟨[], names, ns⟩ = ⟨[], ns, none⟩ := by
  cases bound <;> rfl

/-- What statements make is planted. -/
theorem BlocksMean.plant {s : Scene} {targets : List NodeId} {made : List Made}
    {bs : List (Block Unit)} (h : BlocksMean s.size [] targets made (.ofList bs)) :
    s.plant bs = (s.pushAll (made.map Made.node)).appendTop targets := by
  have hbed : Bed.Holds ⟨s, []⟩ s.size [] := ⟨rfl, rfl⟩
  rw [Scene.plant, h _ hbed]
  rfl

/-- Tokens are stuck exactly if the reader fails on a statement there. -/
theorem stuck_iff {ts : List Token} (hne : ts ≠ []) {depth : Nat} (hd : ts.length ≤ depth)
    (ns : List Notice) : Stuck base opened ts ↔
      ∃ e st, statement depth ⟨ts, known opened, ns⟩ = .error e st := by
  constructor
  · intro h
    cases hrun : statement depth ⟨ts, known opened, ns⟩ with
    | error e st => exact ⟨e, st, rfl⟩
    | ok b st =>
      obtain ⟨ws, target, made, hstatement, hpass⟩ := statement_sound base hrun rfl
      obtain ⟨us, rfl, hsplit⟩ := hpass.tokens
      exact absurd ⟨us, _, target, made, hsplit, hstatement⟩ h
  · rintro ⟨e, st, hrun⟩ ⟨us, vs, target, made, rfl, hstatement⟩
    have hlen : (us.map Token.sign).length ≤ depth := by
      rw [List.length_map]
      rw [List.length_append] at hd
      omega
    obtain ⟨b, -, haccept⟩ := hstatement.accepted
    obtain ⟨ns', hok⟩ := haccept depth hlen us vs ns rfl
    cases hrun.symm.trans hok

/-- A reader that is stuck before the end fails. -/
theorem Stuck.exists_failure {ts : List Token} (h : Stuck base opened ts) (hne : ts ≠ [])
    (depth bound : Nat) (hd : ts.length ≤ depth) (hb : 0 < bound) (ns : List Notice) :
    ∃ e ns', readStatements depth bound ⟨ts, known opened, ns⟩ = ⟨[], ns', some e⟩ := by
  obtain ⟨bound, rfl⟩ := Nat.exists_eq_succ_of_ne_zero hb.ne'
  obtain ⟨e, st, hrun⟩ := (stuck_iff hne hd ns).1 h
  refine ⟨e, st.notices, ?_⟩
  rw [readStatements, if_neg (by simpa using hne), hrun]

/-- What is read are the statements before the stop, and the reading fails if there is more. -/
theorem StopsAt.reading {ts done rest : List Token} {targets : List NodeId} {made : List Made}
    (h : StopsAt base ts done rest targets made) :
    ((readTokens ts).failure = none ↔ rest = []) ∧
      BlocksMean base [] targets made (.ofList (readTokens ts).blocks) := by
  obtain ⟨rfl, hlist, hstuck⟩ := h
  have hlen : (done.map Token.sign).length = done.length := List.length_map ..
  have htotal : (done ++ rest).length = done.length + rest.length := List.length_append
  obtain ⟨bs, ns', left, hleft, hmeans, hread⟩ := hlist.read_append rfl rest
    (2 * (done ++ rest).length + 2) (done ++ rest).length (by omega) (by omega) []
  rw [List.nil_append] at hread
  by_cases hnil : rest = []
  · subst hnil
    have hrun : readTokens (done ++ []) = ⟨bs, ns', none⟩ := by
      rw [readStatements_nil, List.append_nil bs] at hread
      exact hread
    rw [hrun]
    exact ⟨⟨fun _ => rfl, fun _ => rfl⟩, hmeans⟩
  · have hpos : 0 < rest.length := List.length_pos_of_ne_nil hnil
    obtain ⟨e, ns'', hfail⟩ := hstuck.exists_failure hnil
      (2 * (done ++ rest).length + 2) left (by omega) (by omega) ns'
    have hrun : readTokens (done ++ rest) = ⟨bs, ns'', some e⟩ := by
      rw [hfail, List.append_nil bs] at hread
      exact hread
    rw [hrun]
    exact ⟨⟨fun hnone => absurd hnone nofun, fun h => absurd h hnil⟩, hmeans⟩

/-- Statements are read without a failure, and what is read plants what they make. -/
theorem IsStatements.reading {s : Scene} {ts : List Token} {targets : List NodeId}
    {made : List Made} (h : IsStatements s.size [] (ts.map Token.sign) targets made) :
    (readTokens ts).failure = none ∧
      s.plant (readTokens ts).blocks = (s.pushAll (made.map Made.node)).appendTop targets := by
  have hstop : StopsAt s.size ts ts [] targets made := ⟨(List.append_nil ts).symm, h, stuck_nil⟩
  exact ⟨hstop.reading.1.2 rfl, hstop.reading.2.plant⟩

/-- The tokens of a reading without a failure are statements of the grammar. -/
theorem isStatements_of_readTokens (base : NodeId) {ts : List Token}
    (h : (readTokens ts).failure = none) :
    ∃ targets made, IsStatements base [] (ts.map Token.sign) targets made := by
  obtain ⟨done, rest, targets, made, hstop⟩ := exists_stopsAt base ts
  obtain rfl := hstop.reading.1.1 h
  obtain ⟨rfl, hlist, -⟩ := hstop
  rw [List.append_nil]
  exact ⟨targets, made, hlist⟩

end Vrml

open Vrml

namespace Scene

/-- **The reader accepts exactly the statements of the grammar, and makes what they say.**  The
nodes that the text makes stand at the next places of the store, one for each body; each of their
fields holds the last value that the body gives to it, or what it was declared with; and the nodes
that the statements list come to the end of the top level. -/
theorem take_readTokens_iff (s t : Scene) (ts : List Token) :
    (s.take (readTokens ts)).result = .ok () ∧ (s.take (readTokens ts)).scene = t ↔
      ∃ targets made, IsStatements s.size [] (ts.map Token.sign) targets made ∧
        t = (s.pushAll (made.map Made.node)).appendTop targets ∧
        ∀ m ∈ made, ∀ d ∈ m.kind.fields,
          m.node.get? d.name = some ((m.last? d.name).getD d.declared) := by
  constructor
  · rintro ⟨hresult, rfl⟩
    have hfailure : (readTokens ts).failure = none := by
      cases hf : (readTokens ts).failure with
      | none => rfl
      | some e => simp [take, hf] at hresult
    obtain ⟨targets, made, hlist⟩ := isStatements_of_readTokens s.size hfailure
    exact ⟨targets, made, hlist, hlist.reading.2, fun m hm d hd =>
      Made.get?_node (hlist.suits m hm) hd⟩
  · rintro ⟨targets, made, hlist, rfl, -⟩
    obtain ⟨hfailure, hplant⟩ := hlist.reading
    refine ⟨?_, hplant⟩
    simp [take, hfailure]

end Scene

end SceneTidy

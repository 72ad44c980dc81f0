import Mathlib.Data.List.Induction
import Mathlib.Data.List.ReduceOption
import SceneTidy.Proofs.Scene.Copy
import SceneTidy.Proofs.Vrml.Spelling

/-!
# The grammar of scene files

Which rows of signs are statements, and what they make: `IsStatements` relates a row of signs to the
nodes it lists and to the nodes it makes, in the order in which their bodies are opened.  A name
stands for the node that was opened last under it, which may still be open.  Statements come one
after the other (`IsStatement`), and every row of tokens is a sequence of statements with tokens
behind it that start with none (`exists_stopsAt`).  Nothing here mentions the reader.
-/

namespace SceneTidy.Vrml

/-! ### What a text makes -/

/-- A node that a text makes: its name, its kind, and the values that its body gives to fields, in
the order of the text. -/
structure Made where
  name : Option String
  kind : NodeKind
  given : List (String × FieldValue)

namespace Made

/-- The node that is made. -/
def node (m : Made) : Node := (Node.create m.kind m.name).setAll m.given

/-- The value that is given to a field last. -/
def last? (m : Made) (field : String) : Option FieldValue :=
  (m.given.reverse.find? (·.1 = field)).map Prod.snd

end Made

/-- The place among the nodes opened so far of the last one that was opened under a name. -/
def StandsFor (opened : List (Option String)) (name : String) (k : Nat) : Prop :=
  opened[k]? = some (some name) ∧ ∀ j, k < j → opened[j]? ≠ some (some name)

/-! ### The grammar -/

/-- The signs of a route from one name to another. -/
def routeSigns (source target : String) : List Sign :=
  [(.word, "ROUTE"), (.word, source), (.word, "TO"), (.word, target)]

/-- The signs are the words of a value of some kind: strings for a kind of strings, and words for
any other. -/
def Decodes (kind : FieldKind) (ws : List Sign) (v : FieldValue) : Prop :=
  ∃ parts, ws = parts.map (fun p => (if kind.isText then .string else .word, p)) ∧
    kind.read parts = .ok v

/-- Signs that are a value without references: as many as one item takes, or for a list any number
in brackets. -/
inductive IsPlainValue : FieldKind → List Sign → FieldValue → Prop
  | one {k ws v} (hn : ws.length = k.components) (h : Decodes (.one k) ws v) :
      IsPlainValue (.one k) ws v
  | item {k ws v} (hn : ws.length = k.components) (h : Decodes (.many k) ws v) :
      IsPlainValue (.many k) ws v
  | list {k ws v} (h : Decodes (.many k) ws v) :
      IsPlainValue (.many k) (markSign '[' :: ws ++ [markSign ']']) v

mutual

/-- Signs that are a node, which need not be there.  The first node that the text makes stands at
the place `base`, and the list of names is that of the nodes opened so far. -/
inductive IsNode (base : NodeId) :
    List (Option String) → List Sign → Option NodeId → List Made → Prop
  | null {opened} : IsNode base opened [(.word, "NULL")] none []
  | use {opened name k} (h : StandsFor opened name k) :
      IsNode base opened [(.word, "USE"), (.word, name)] (some (base + k)) []
  | body {opened name type kind ws given made} (hk : NodeKind.ofTypeName? type = some kind)
      (h : IsItems base kind (opened ++ [name]) ws given made) :
      IsNode base opened
        (definitionSigns name ++ (.word, type) :: markSign '{' :: ws ++ [markSign '}'])
        (some (base + opened.length)) (⟨name, kind, given⟩ :: made)

/-- Signs that are the items of a body of some kind. -/
inductive IsItems (base : NodeId) :
    NodeKind → List (Option String) → List Sign → List (String × FieldValue) → List Made → Prop
  | nil {kind opened} : IsItems base kind opened [] [] []
  | route {kind opened source target ws given made} (h : IsItems base kind opened ws given made) :
      IsItems base kind opened (routeSigns source target ++ ws) given made
  | field {kind opened field d us v made ws given more} (hd : kind.field? field = some d)
      (hv : IsValue base d.kind opened us v made)
      (h : IsItems base kind (opened ++ made.map Made.name) ws given more) :
      IsItems base kind opened ((.word, field) :: us ++ ws) ((field, v) :: given) (made ++ more)

/-- Signs that are a value of some kind. -/
inductive IsValue (base : NodeId) :
    FieldKind → List (Option String) → List Sign → FieldValue → List Made → Prop
  | node {opened ws target made} (h : IsNode base opened ws target made) :
      IsValue base .node opened ws (.node target) made
  | nodes {opened ws target made} (h : IsNode base opened ws target made) :
      IsValue base .nodes opened ws (.nodes target.toList) made
  | list {opened ws targets made} (h : IsStatements base opened ws targets made) :
      IsValue base .nodes opened (markSign '[' :: ws ++ [markSign ']']) (.nodes targets) made
  | plain {kind opened ws v} (h : IsPlainValue kind ws v) : IsValue base kind opened ws v []

/-- Signs that are a sequence of statements. -/
inductive IsStatements (base : NodeId) :
    List (Option String) → List Sign → List NodeId → List Made → Prop
  | nil {opened} : IsStatements base opened [] [] []
  | route {opened source target ws targets made} (h : IsStatements base opened ws targets made) :
      IsStatements base opened (routeSigns source target ++ ws) targets made
  | node {opened us target made ws targets more} (hn : IsNode base opened us target made)
      (h : IsStatements base (opened ++ made.map Made.name) ws targets more) :
      IsStatements base opened (us ++ ws) (target.toList ++ targets) (made ++ more)

end

/-! ### Fields of a made node -/

theorem get?_setAll_eq {n : Node} {d : FieldDecl} (hd : d ∈ n.kind.fields)
    {l : List (String × FieldValue)} (hl : ∀ p ∈ l, p.1 = d.name → p.2.kind = d.kind) :
    (n.setAll l).get? d.name =
      ((l.reverse.find? (·.1 = d.name)).map Prod.snd).or (n.get? d.name) := by
  induction l generalizing n with
  | nil => simp [Node.setAll]
  | cons p l ih =>
    have hrest := ih (n := n.set p.1 p.2) hd fun q hq => hl q (List.mem_cons_of_mem _ hq)
    have hset : (n.setAll (p :: l)) = (n.set p.1 p.2).setAll l := rfl
    rw [hset, hrest, List.reverse_cons, List.find?_append]
    cases hfind : l.reverse.find? (·.1 = d.name) with
    | some q => simp
    | none =>
      by_cases hp : p.1 = d.name
      · obtain ⟨w, hw⟩ := Node.exists_mem_slots hd
        have hget := Node.get?_of_mem_slots hw
        have hkind : p.2.kind = w.kind :=
          (hl p (List.mem_cons_self ..) hp).trans (Node.kind_of_mem_slots hw).symm
        simp [hp, Node.get?_set_self hget hkind]
      · simp [hp, n.get?_set_of_ne hp p.2]

/-- The values given to a node suit its fields. -/
def Made.Suits (m : Made) : Prop :=
  ∀ p ∈ m.given, ∃ d, m.kind.field? p.1 = some d ∧ p.2.kind = d.kind

/-- A field of a made node holds the last value that was given to it, or what it was declared
with. -/
theorem Made.get?_node {m : Made} (h : m.Suits) {d : FieldDecl} (hd : d ∈ m.kind.fields) :
    m.node.get? d.name = some ((m.last? d.name).getD d.declared) := by
  have hsuits : ∀ p ∈ m.given, p.1 = d.name → p.2.kind = d.kind := by
    intro p hp he
    obtain ⟨e, hfield, hkind⟩ := h p hp
    rw [he, NodeKind.field?_of_mem hd] at hfield
    obtain rfl := Option.some.inj hfield
    exact hkind
  have hget := get?_setAll_eq (n := Node.create m.kind m.name) hd hsuits
  rw [Node.get?_create m.kind m.name hd] at hget
  rw [Made.node, hget, Made.last?]
  cases m.given.reverse.find? (·.1 = d.name) <;> rfl

theorem kind_of_read {kind : FieldKind} {parts : List String} {v : FieldValue}
    (h : kind.read parts = .ok v) : v.kind = kind := by
  cases kind with
  | one k =>
    cases hr : k.read parts with
    | error e => simp [FieldKind.read, hr, Except.map] at h
    | ok w =>
      obtain rfl : FieldValue.one k w = v := by simpa [FieldKind.read, hr, Except.map] using h
      rfl
  | many k =>
    cases hr : k.readList parts with
    | error e => simp [FieldKind.read, hr, Except.map] at h
    | ok ws =>
      obtain rfl : FieldValue.many k ws = v := by simpa [FieldKind.read, hr, Except.map] using h
      rfl
  | node =>
    rw [FieldKind.read] at h
    split at h <;> cases h
  | nodes =>
    rw [FieldKind.read] at h
    split at h
    · cases h
      rfl
    · cases h

theorem Decodes.ne_mark {kind : FieldKind} {ws : List Sign} {v : FieldValue}
    (h : Decodes kind ws v) : ∀ w ∈ ws, w.1 ≠ .mark := by
  obtain ⟨parts, rfl, -⟩ := h
  intro w hw
  obtain ⟨p, -, rfl⟩ := List.mem_map.1 hw
  show (if _ then TokenKind.string else TokenKind.word) ≠ .mark
  split <;> decide

theorem IsPlainValue.kind_eq {kind : FieldKind} {ws : List Sign} {v : FieldValue}
    (h : IsPlainValue kind ws v) : v.kind = kind := by
  cases h with
  | one _ h | item _ h | list h =>
    obtain ⟨parts, -, hread⟩ := h
    exact kind_of_read hread

/-- The signs that are written for a value are the value. -/
theorem isPlainValue_signs {v : FieldValue} (hv : IsPlain v) :
    IsPlainValue v.kind (valueSigns v) v := by
  cases v with
  | one k v =>
    refine .one ?_ ⟨k.parts v, rfl, ?_⟩
    · rw [valueSigns, itemSigns, List.length_map, ItemKind.length_parts]
    · rw [FieldKind.read, ItemKind.read_words]
      rfl
  | many k vs =>
    refine .list ⟨vs.flatMap k.parts, ?_, ?_⟩
    · rw [List.map_flatMap]
      cases k <;> rfl
    · rw [FieldKind.read, ItemKind.readList_words]
      rfl
  | node t => exact absurd hv id
  | nodes ts => exact absurd hv id

variable {base : NodeId}

theorem IsValue.kind_eq {fieldKind : FieldKind} {opened : List (Option String)} {ws : List Sign}
    {v : FieldValue} {made : List Made} (h : IsValue base fieldKind opened ws v made) :
    v.kind = fieldKind := by
  cases h with
  | node _ | nodes _ | list _ => rfl
  | plain h => exact h.kind_eq

/-- The values that a body gives suit its kind. -/
theorem IsItems.suits {kind : NodeKind} {opened : List (Option String)} {ws : List Sign}
    {given : List (String × FieldValue)} {made : List Made}
    (h : IsItems base kind opened ws given made) :
    ∀ p ∈ given, ∃ d, kind.field? p.1 = some d ∧ p.2.kind = d.kind := by
  match h with
  | .nil => simp
  | .route h => exact h.suits
  | .field hd hv h =>
    intro p hp
    rcases List.mem_cons.1 hp with rfl | hp
    · exact ⟨_, hd, hv.kind_eq⟩
    · exact h.suits p hp

/-- The fields of a body are words among its signs. -/
theorem IsItems.word_mem {kind : NodeKind} {opened : List (Option String)} {ws : List Sign}
    {given : List (String × FieldValue)} {made : List Made}
    (h : IsItems base kind opened ws given made) : ∀ p ∈ given, (.word, p.1) ∈ ws := by
  match h with
  | .nil => simp
  | .route h => exact fun p hp => List.mem_append_right _ (h.word_mem p hp)
  | .field hd hv h =>
    intro p hp
    rcases List.mem_cons.1 hp with rfl | hp
    · exact List.mem_append_left _ (List.mem_cons_self ..)
    · exact List.mem_append_right _ (h.word_mem p hp)

/-- The signs have a part that are the items of a node. -/
def HasItems (base : NodeId) (ws : List Sign) (m : Made) : Prop :=
  ∃ opened us made, IsItems base m.kind opened us m.given made ∧ us ⊆ ws

theorem HasItems.mono {us ws : List Sign} {m : Made} (h : HasItems base us m) (hsub : us ⊆ ws) :
    HasItems base ws m := by
  obtain ⟨opened, vs, made, hitems, hvs⟩ := h
  exact ⟨opened, vs, made, hitems, fun w hw => hsub (hvs hw)⟩

mutual

theorem IsNode.hasItems {opened : List (Option String)} {ws : List Sign} {target : Option NodeId}
    {made : List Made} (h : IsNode base opened ws target made) :
    ∀ m ∈ made, HasItems base ws m := by
  match h with
  | .null | .use _ => simp
  | .body _ h =>
    intro m hm
    rcases List.mem_cons.1 hm with rfl | hm
    · exact ⟨_, _, _, h, fun w hw => by simp [hw]⟩
    · exact (h.hasItems m hm).mono fun w hw => by simp [hw]

theorem IsItems.hasItems {kind : NodeKind} {opened : List (Option String)} {ws : List Sign}
    {given : List (String × FieldValue)} {made : List Made}
    (h : IsItems base kind opened ws given made) : ∀ m ∈ made, HasItems base ws m := by
  match h with
  | .nil => simp
  | .route h => exact fun m hm => (h.hasItems m hm).mono (List.subset_append_right _ _)
  | .field _ hv h =>
    refine List.forall_mem_append.2 ⟨fun m hm => ?_, fun m hm => ?_⟩
    · exact (hv.hasItems m hm).mono fun w hw => by simp [hw]
    · exact (h.hasItems m hm).mono (List.subset_append_right _ _)

theorem IsValue.hasItems {fieldKind : FieldKind} {opened : List (Option String)} {ws : List Sign}
    {v : FieldValue} {made : List Made} (h : IsValue base fieldKind opened ws v made) :
    ∀ m ∈ made, HasItems base ws m := by
  match h with
  | .node h | .nodes h => exact h.hasItems
  | .list h => exact fun m hm => (h.hasItems m hm).mono fun w hw => by simp [hw]
  | .plain _ => simp

/-- Every node that statements make has its items among their signs. -/
theorem IsStatements.hasItems {opened : List (Option String)} {ws : List Sign}
    {targets : List NodeId} {made : List Made} (h : IsStatements base opened ws targets made) :
    ∀ m ∈ made, HasItems base ws m := by
  match h with
  | .nil => simp
  | .route h => exact fun m hm => (h.hasItems m hm).mono (List.subset_append_right _ _)
  | .node hn h =>
    refine List.forall_mem_append.2 ⟨fun m hm => ?_, fun m hm => ?_⟩
    · exact (hn.hasItems m hm).mono (List.subset_append_left _ _)
    · exact (h.hasItems m hm).mono (List.subset_append_right _ _)

end

/-- Every node that statements make is given values that suit it. -/
theorem IsStatements.suits {opened : List (Option String)} {ws : List Sign}
    {targets : List NodeId} {made : List Made} (h : IsStatements base opened ws targets made) :
    ∀ m ∈ made, m.Suits := by
  intro m hm
  obtain ⟨_, _, _, hitems, -⟩ := h.hasItems m hm
  exact hitems.suits

/-- Every field that statements give a value is a word among their signs. -/
theorem IsStatements.word_mem {opened : List (Option String)} {ws : List Sign}
    {targets : List NodeId} {made : List Made} (h : IsStatements base opened ws targets made) :
    ∀ m ∈ made, ∀ p ∈ m.given, (.word, p.1) ∈ ws := by
  intro m hm p hp
  obtain ⟨_, us, _, hitems, hsub⟩ := h.hasItems m hm
  exact hsub (hitems.word_mem p hp)

/-- A node has a sign of its own at least. -/
theorem IsNode.ne_nil {opened : List (Option String)} {ws : List Sign} {target : Option NodeId}
    {made : List Made} (h : IsNode base opened ws target made) : ws ≠ [] := by
  cases h with
  | null | use _ => simp
  | body _ _ => simp

/-! ### Names -/

/-- The names of the nodes opened so far, the last one first. -/
def known (opened : List (Option String)) : List String := opened.reverse.reduceOption

/-- The names of the nodes opened so far with the places of these, the last one first. -/
def defined (base : NodeId) (opened : List (Option String)) : List (String × NodeId) :=
  ((opened.zipIdx base).filterMap fun p => p.1.map (·, p.2)).reverse

theorem known_concat (opened : List (Option String)) (name : Option String) :
    known (opened ++ [name]) = name.toList ++ known opened := by
  cases name <;> simp [known]

theorem defined_concat (base : NodeId) (opened : List (Option String)) (name : Option String) :
    defined base (opened ++ [name]) =
      (name.map (·, base + opened.length)).toList ++ defined base opened := by
  cases name <;> simp [defined, List.zipIdx_append]

theorem standsFor_concat_self (opened : List (Option String)) (name : String) :
    StandsFor (opened ++ [some name]) name opened.length := by
  refine ⟨by simp, fun j hj => ?_⟩
  rw [List.getElem?_eq_none (by simp; omega)]
  simp

theorem standsFor_concat {opened : List (Option String)} {n : Option String} {name : String}
    (hn : n ≠ some name) {k : Nat} :
    StandsFor (opened ++ [n]) name k ↔ StandsFor opened name k := by
  have hget : ∀ j : Nat,
      (opened ++ [n])[j]? = some (some name) ↔ opened[j]? = some (some name) := by
    intro j
    by_cases hj : j < opened.length
    · rw [List.getElem?_append_left hj]
    · rw [List.getElem?_append_right (Nat.le_of_not_lt hj), List.getElem?_eq_none (l := opened)
        (Nat.le_of_not_lt hj), List.getElem?_singleton]
      split <;> simp [hn]
  simp only [StandsFor, ne_eq, hget]

/-- A name that is known stands for a node. -/
theorem exists_standsFor {opened : List (Option String)} {name : String}
    (h : name ∈ known opened) : ∃ k, StandsFor opened name k := by
  induction opened using List.reverseRecOn with
  | nil => simp [known] at h
  | append_singleton opened n ih =>
    by_cases hn : n = some name
    · exact ⟨opened.length, hn ▸ standsFor_concat_self opened name⟩
    · have hold : name ∈ known opened := by
        rw [known_concat, List.mem_append, Option.mem_toList] at h
        exact h.resolve_left hn
      obtain ⟨k, hk⟩ := ih hold
      exact ⟨k, (standsFor_concat hn).2 hk⟩

/-- A name that stands for a node is looked up as that node. -/
theorem StandsFor.lookup_defined {opened : List (Option String)} {name : String} {k : Nat}
    (h : StandsFor opened name k) (base : NodeId) :
    (defined base opened).lookup name = some (base + k) := by
  induction opened using List.reverseRecOn with
  | nil => simp [StandsFor] at h
  | append_singleton opened n ih =>
    rw [defined_concat]
    by_cases hn : n = some name
    · subst hn
      have hk : k = opened.length := by
        have hlast := standsFor_concat_self opened name
        rcases Nat.lt_trichotomy k opened.length with hlt | he | hgt
        · exact absurd hlast.1 (h.2 _ hlt)
        · exact he
        · exact absurd h.1 (hlast.2 _ hgt)
      simp [hk]
    · have hold := ih ((standsFor_concat hn).1 h)
      cases n with
      | none => simpa using hold
      | some other =>
        have hne : (name == other) = false := by
          rw [beq_eq_false_iff_ne]
          rintro rfl
          exact hn rfl
        simpa [List.lookup_cons, hne] using hold

theorem map_fst_defined (base : NodeId) (opened : List (Option String)) :
    (defined base opened).map Prod.fst = known opened := by
  induction opened using List.reverseRecOn with
  | nil => rfl
  | append_singleton opened n ih =>
    rw [defined_concat, known_concat, List.map_append, ih]
    cases n <;> rfl

theorem StandsFor.mem_known {opened : List (Option String)} {name : String} {k : Nat}
    (h : StandsFor opened name k) : name ∈ known opened := by
  obtain ⟨l₁, l₂, hsplit, -⟩ := List.lookup_eq_some_iff.1 (h.lookup_defined 0)
  rw [← map_fst_defined 0, hsplit]
  simp

/-! ### One statement after the other -/

variable {opened : List (Option String)}

/-- Signs that are one statement, which lists a node or none. -/
inductive IsStatement (base : NodeId) (opened : List (Option String)) :
    List Sign → Option NodeId → List Made → Prop
  | route {source target} : IsStatement base opened (routeSigns source target) none []
  | node {ws target made} (h : IsNode base opened ws target made) :
      IsStatement base opened ws target made

/-- No statement stands at the start of some tokens. -/
def Stuck (base : NodeId) (opened : List (Option String)) (ts : List Token) : Prop :=
  ¬∃ us vs target made, ts = us ++ vs ∧ IsStatement base opened (us.map Token.sign) target made

/-- Tokens are complete statements, up to a place where no statement starts. -/
structure StopsAt (base : NodeId) (ts done rest : List Token) (targets : List NodeId)
    (made : List Made) : Prop where
  tokens : ts = done ++ rest
  statements : IsStatements base [] (done.map Token.sign) targets made
  stuck : Stuck base (made.map Made.name) rest

theorem IsStatement.ne_nil {ws : List Sign} {target : Option NodeId} {made : List Made}
    (h : IsStatement base opened ws target made) : ws ≠ [] := by
  cases h with
  | route => exact List.cons_ne_nil _ _
  | node h => exact h.ne_nil

theorem IsStatement.cons {us ws : List Sign} {target : Option NodeId} {targets : List NodeId}
    {made more : List Made} (h : IsStatement base opened us target made)
    (hrest : IsStatements base (opened ++ made.map Made.name) ws targets more) :
    IsStatements base opened (us ++ ws) (target.toList ++ targets) (made ++ more) := by
  cases h with
  | route =>
    rw [List.map_nil, List.append_nil] at hrest
    exact .route hrest
  | node h => exact .node h hrest

theorem stuck_nil : Stuck base opened [] := by
  rintro ⟨us, vs, target, made, hnil, hstatement⟩
  obtain rfl := (List.append_eq_nil_iff.1 hnil.symm).1
  exact hstatement.ne_nil rfl

/-- What holds of no statements, and of one statement before others, holds of all of them. -/
theorem IsStatements.statementInduction
    {motive : ∀ opened ws targets made, IsStatements base opened ws targets made → Prop}
    (nil : ∀ opened, motive opened [] [] [] .nil)
    (cons : ∀ {opened us target made ws targets more} (h : IsStatement base opened us target made)
      (hrest : IsStatements base (opened ++ made.map Made.name) ws targets more),
      motive _ ws targets more hrest → motive opened _ _ _ (h.cons hrest))
    {opened : List (Option String)} {ws : List Sign} {targets : List NodeId} {made : List Made}
    (h : IsStatements base opened ws targets made) : motive opened ws targets made h := by
  match h with
  | .nil => exact nil opened
  | @IsStatements.route _ opened source target ws targets made h =>
    -- a route opens no nodes
    have ih := h.statementInduction nil cons
    have hroute : ∀ others, others = opened → ∀ hrest : IsStatements base others ws targets made,
        motive others ws targets made hrest := by
      rintro _ rfl _
      exact ih
    have hsame : opened ++ [].map Made.name = opened := List.append_nil opened
    exact cons (@IsStatement.route _ _ source target) (hsame.symm ▸ h) (hroute _ hsame _)
  | .node hn h => exact cons (.node hn) h (h.statementInduction nil cons)

/-- Tokens are statements as far as these go. -/
theorem exists_stuck (base : NodeId) (opened : List (Option String)) (ts : List Token) :
    ∃ done rest targets made, ts = done ++ rest ∧
      IsStatements base opened (done.map Token.sign) targets made ∧
      Stuck base (opened ++ made.map Made.name) rest := by
  induction hlen : ts.length using Nat.strong_induction_on generalizing ts opened with
  | _ n ih =>
    by_cases hstuck : Stuck base opened ts
    · exact ⟨[], ts, [], [], rfl, .nil, by simpa using hstuck⟩
    · obtain ⟨us, vs, target, made, rfl, hstatement⟩ := not_not.1 hstuck
      have hpos : 0 < us.length := by
        rw [← List.length_map]
        exact List.length_pos_of_ne_nil hstatement.ne_nil
      have hlt : vs.length < n := by
        rw [← hlen, List.length_append]
        omega
      obtain ⟨done, rest, targets, more, rfl, hlist, hrest⟩ :=
        ih _ hlt (opened ++ made.map Made.name) vs rfl
      refine ⟨us ++ done, rest, target.toList ++ targets, made ++ more, ?_, ?_, ?_⟩
      · rw [List.append_assoc]
      · rw [List.map_append]
        exact hstatement.cons hlist
      · rwa [List.map_append, ← List.append_assoc]

theorem exists_stopsAt (base : NodeId) (ts : List Token) :
    ∃ done rest targets made, StopsAt base ts done rest targets made := by
  obtain ⟨done, rest, targets, made, hsplit, hlist, hstuck⟩ := exists_stuck base [] ts
  exact ⟨done, rest, targets, made, hsplit, hlist, hstuck⟩

end SceneTidy.Vrml

import Mathlib.Data.List.TakeDrop
import SceneTidy.Proofs.Vrml.Grammar
import SceneTidy.Vrml.Reader

/-!
# Reading what blocks spell

A reader passes over a row of signs if it succeeds on all tokens that say so, whatever follows them
(`Reader.Passes`).  Main statement: from the tokens of readable blocks the reader gets the blocks
back, without their tags (`readTokens_signs`).  Each block has a token of its own at least, so the
number of tokens bounds the depth of the descent.
-/

namespace SceneTidy

open Vrml

/-- The words that start a statement which is no node, or a node that is not written in full. -/
def reservedWords : List String := ["ROUTE", "PROTO", "EXTERNPROTO", "NULL", "USE", "DEF"]

theorem typeName_not_reserved (kind : NodeKind) : kind.typeName ∉ reservedWords := by
  cases kind <;> decide +kernel

theorem ofTypeName?_typeName {kind : NodeKind} (h : kind.isRegistered) :
    NodeKind.ofTypeName? kind.typeName = some kind := by
  revert h
  cases kind <;> decide +kernel

theorem ne_route_of_mem_fields (kind : NodeKind) : ∀ d ∈ kind.fields, d.name ≠ "ROUTE" := by
  cases kind <;> decide +kernel

namespace Vrml

namespace Reader

variable {α β : Type} {r : Reader α} {ws m : List Sign} {names names' names'' : List String}

/-- A reader comes to a result over all tokens of given signs, whatever follows them, and tells
nothing; the names known before and after it are given as well. -/
def Passes (r : Reader α) (ws : List Sign) (names names' : List String) (a : α) : Prop :=
  ∀ ts rest ns, ts.map Token.sign = ws →
    r ⟨ts ++ rest, names, ns⟩ = .ok a ⟨rest, names', ns⟩

theorem passes_pure (a : α) : Passes (pure a) [] names names a := by
  intro ts rest ns h
  obtain rfl := List.map_eq_nil_iff.1 h
  rfl

theorem bind_apply {ε σ : Type} (r : EStateM ε σ α) (f : α → EStateM ε σ β) (st : σ) :
    (r >>= f) st = match r st with
      | .ok a st => f a st
      | .error e st => .error e st := by
  show EStateM.bind r f st = _
  rw [EStateM.bind]
  cases r st <;> rfl

theorem get_apply (st : ReadState) : (get : Reader ReadState) st = .ok st st := rfl

theorem Passes.bind {f : α → Reader β} {a : α} {b : β} (hr : Passes r ws names names' a)
    (hf : Passes (f a) m names' names'' b) : Passes (r >>= f) (ws ++ m) names names'' b := by
  intro ts rest ns h
  obtain ⟨ts₁, ts₂, rfl, h₁, h₂⟩ := List.map_eq_append_iff.1 h
  rw [bind_apply, List.append_assoc, hr _ _ _ h₁]
  exact hf _ _ _ h₂

theorem Passes.bind_pure {f : α → β} {a : α} (hr : Passes r ws names names' a) :
    Passes (do return f (← r)) ws names names' (f a) := by
  have := hr.bind (f := fun a => pure (f a)) (passes_pure (f a))
  rwa [List.append_nil] at this

/-- To look ahead, and go on without passing over the token. -/
theorem passes_peek {w : Sign} {f : Token → Reader β} {b : β}
    (h : ∀ t : Token, t.sign = w → Passes (f t) (w :: ws) names names' b) :
    Passes (peek >>= f) (w :: ws) names names' b := by
  intro ts rest ns hts
  obtain ⟨t, ts, rfl, ht, hts'⟩ := List.map_eq_cons_iff.1 hts
  exact h t ht (t :: ts) rest ns hts

/-- To pass over one token. -/
theorem passes_next {w : Sign} {f : Token → Reader β} {b : β}
    (h : ∀ t : Token, t.sign = w → Passes (f t) ws names names' b) :
    Passes (next >>= f) (w :: ws) names names' b := by
  intro ts rest ns hts
  obtain ⟨t, ts, rfl, ht, hts'⟩ := List.map_eq_cons_iff.1 hts
  exact h t ht ts rest ns hts'

theorem passes_word (w : String) : Passes word [(.word, w)] names names w := by
  refine passes_next fun t ht => ?_
  obtain ⟨hk, rfl⟩ := Prod.mk.inj ht
  rw [if_pos hk]
  exact passes_pure _

theorem isThisMark_iff {t : Token} {c : Char} : t.isThisMark c ↔ t.sign = markSign c := by
  simp [Token.isThisMark, Token.sign, markSign]

theorem isThisWord_iff {t : Token} {w : String} : t.isThisWord w ↔ t.sign = (.word, w) := by
  simp [Token.isThisWord, Token.sign]

theorem passes_expectMark (c : Char) : Passes (expectMark c) [markSign c] names names () := by
  refine passes_next fun t ht => ?_
  rw [if_pos (isThisMark_iff.2 ht)]
  exact passes_pure _

/-! ### Values -/

/-- The tokens that `take` gives are those it passed over. -/
theorem passes_take {f : List Token → Reader β} {b : β} (hws : ∀ w ∈ ws, w.1 ≠ .mark)
    (h : ∀ ts : List Token, ts.map Token.sign = ws → Passes (f ts) m names names' b) :
    Passes (take ws.length >>= f) (ws ++ m) names names' b := by
  intro ts rest ns hts
  obtain ⟨ts₁, ts₂, rfl, h₁, h₂⟩ := List.map_eq_append_iff.1 hts
  have key : ∀ (ts : List Token) (more : List Token), (∀ t ∈ ts, t.kind ≠ .mark) →
      take ts.length ⟨ts ++ more, names, ns⟩ = .ok ts ⟨more, names, ns⟩ := by
    intro ts more hall
    induction ts with
    | nil => rfl
    | cons t ts ih =>
      have ht := hall t (List.mem_cons_self ..)
      have hrest := ih fun u hu => hall u (List.mem_cons_of_mem _ hu)
      show (if t.kind = .mark then refuse _ else (take ts.length >>= fun m => pure (t :: m)))
        ⟨ts ++ more, names, ns⟩ = _
      rw [if_neg ht, bind_apply, hrest]
      rfl
  have hmark : ∀ t ∈ ts₁, t.kind ≠ .mark := fun t ht =>
    hws t.sign (h₁ ▸ List.mem_map_of_mem ht)
  rw [bind_apply, ← h₁, List.length_map, List.append_assoc, key ts₁ _ hmark]
  exact h ts₁ h₁ ts₂ rest ns h₂

/-- The tokens up to the closing bracket. -/
theorem upToBracket_append {ts : List Token} {t : Token}
    (hts : ∀ w ∈ ts.map Token.sign, w.1 ≠ .mark) (ht : t.isThisMark ']') (rest : List Token)
    (names : List String) (ns : List Notice) :
    upToBracket ⟨ts ++ t :: rest, names, ns⟩ = .ok ts ⟨rest, names, ns⟩ := by
  have hall : ∀ u ∈ ts, (!u.isThisMark ']') = true := fun u hu => by
    have hmark : u.kind ≠ .mark := hts u.sign (List.mem_map_of_mem hu)
    simp [Token.isThisMark, hmark]
  have hstop : (!t.isThisMark ']') = false := by simp [ht]
  have hspan : (ts ++ t :: rest).span (!·.isThisMark ']') = (ts, t :: rest) := by
    rw [List.span_eq_takeWhile_dropWhile, List.takeWhile_append_of_pos hall,
      List.dropWhile_append_of_pos hall, List.takeWhile_cons_of_neg (by simp [hstop]),
      List.dropWhile_cons_of_neg (by simp [hstop]), List.append_nil]
  rw [upToBracket, bind_apply, get_apply]
  simp only [hspan]
  rfl

/-- In brackets, the tokens of a list are decoded as they are. -/
theorem exists_plainValue_eq_decode {k : ItemKind} {ts : List Token}
    (hts : ts.map Token.sign = markSign '[' :: ws ++ [markSign ']'])
    (hws : ∀ w ∈ ws, w.1 ≠ .mark) :
    ∃ us : List Token, us.map Token.sign = ws ∧ ∀ rest names ns,
      plainValue (.many k) ⟨ts ++ rest, names, ns⟩ = decode (.many k) us ⟨rest, names, ns⟩ := by
  obtain ⟨opening, inner, rfl, ho, hinner⟩ := List.map_eq_cons_iff.1 hts
  obtain ⟨us, cs, rfl, hus, hcs⟩ := List.map_eq_append_iff.1 hinner
  obtain ⟨closing, rfl, hc⟩ := List.map_eq_singleton_iff.1 hcs
  refine ⟨us, hus, fun rest names ns => ?_⟩
  show (peek >>= fun t => if t.isThisMark '[' then next >>= fun _ =>
    upToBracket >>= decode (.many k) else _) _ = _
  have hpeek : ∀ l : List Token, peek ⟨opening :: l, names, ns⟩ =
    .ok opening ⟨opening :: l, names, ns⟩ := fun _ => rfl
  have hnext : ∀ l : List Token, next ⟨opening :: l, names, ns⟩ = .ok opening ⟨l, names, ns⟩ :=
    fun _ => rfl
  rw [List.cons_append, List.append_assoc, List.singleton_append, bind_apply, hpeek]
  dsimp only
  rw [if_pos (isThisMark_iff.2 ho), bind_apply, hnext]
  dsimp only
  rw [bind_apply, upToBracket_append (hus.symm ▸ hws) (isThisMark_iff.2 hc)]

theorem passes_texts {kind : FieldKind} {parts : List String} {ts : List Token}
    (h : ts.map Token.sign = parts.map fun w => (if kind.isText then .string else .word, w)) :
    Passes (texts kind ts) [] names names parts := by
  induction ts generalizing parts with
  | nil =>
    obtain rfl : parts = [] := by simpa using h.symm
    exact passes_pure _
  | cons t ts ih =>
    cases parts with
    | nil => simp at h
    | cons p parts =>
      rw [List.map_cons, List.map_cons, List.cons.injEq] at h
      obtain ⟨hk, rfl⟩ := Prod.mk.inj h.1
      rw [texts, if_pos hk]
      exact (ih h.2).bind_pure

theorem passes_decode {v : FieldValue} {kind : FieldKind} {ts : List Token}
    (hts : ts.map Token.sign = ws) (h : Decodes kind ws v) :
    Passes (decode kind ts) [] names names v := by
  obtain ⟨parts, rfl, hread⟩ := h
  refine (passes_texts hts).bind ?_
  rw [hread]
  exact passes_pure v

theorem passes_take_decode {n : Nat} {v : FieldValue} {kind : FieldKind} (hn : ws.length = n)
    (h : Decodes kind ws v) : Passes (take n >>= decode kind) ws names names v := by
  subst hn
  have hall : Passes (take ws.length >>= decode kind) (ws ++ []) names names v :=
    passes_take h.ne_mark fun _ hts => passes_decode hts h
  rwa [List.append_nil] at hall

/-- **The signs of a value are read as the value.** -/
theorem passes_plainValue {v : FieldValue} {kind : FieldKind} (h : IsPlainValue kind ws v) :
    Passes (plainValue kind) ws names names v := by
  cases h with
  | @one k ws v hn h =>
    obtain ⟨w, ws, rfl⟩ := List.exists_cons_of_length_pos (hn ▸ k.components_pos)
    show Passes (peek >>= fun _ => take k.components >>= decode (.one k)) _ _ _ _
    exact passes_peek fun _ _ => passes_take_decode hn h
  | @item k ws v hn h =>
    have hmark := h.ne_mark
    obtain ⟨w, ws, rfl⟩ := List.exists_cons_of_length_pos (hn ▸ k.components_pos)
    show Passes (peek >>= fun t => if t.isThisMark '[' then _ else
      take k.components >>= decode (.many k)) _ _ _ _
    refine passes_peek fun t ht => ?_
    rw [if_neg]
    · exact passes_take_decode hn h
    · rw [isThisMark_iff, ht]
      exact fun he => hmark w (List.mem_cons_self ..) (congrArg Prod.fst he)
  | @list k ws v h =>
    intro ts rest ns hts
    obtain ⟨us, hus, hread⟩ := exists_plainValue_eq_decode (k := k) hts h.ne_mark
    rw [hread]
    exact passes_decode hus h [] rest ns rfl

/-! ### Blocks -/

theorem passes_nodeKind {kind : NodeKind} (h : kind.isRegistered) :
    Passes (nodeKind kind.typeName) [] names names kind := by
  rw [nodeKind, ofTypeName?_typeName h]
  exact passes_pure kind

theorem passes_head_use {name : String} (h : name ∈ names) :
    Passes head [wordSign ['U', 'S', 'E'], (.word, name)] names names (.use name) := by
  refine (passes_word "USE").bind ?_
  rw [if_neg (by decide), if_pos rfl]
  refine (passes_word name).bind (m := []) fun ts rest ns hts => ?_
  obtain rfl := List.map_eq_nil_iff.1 hts
  show (if names.contains name then pure (Head.use name) else throw _ : Reader Head) _ = _
  rw [if_pos (by simpa using h)]
  rfl

theorem passes_head_node {name : Option String} {kind : NodeKind} (h : kind.isRegistered) :
    Passes head (definitionSigns name ++ [(.word, kind.typeName), markSign '{']) names
      (name.toList ++ names) (.opens name kind) := by
  have hnew := typeName_not_reserved kind
  simp only [reservedWords, List.mem_cons, not_or] at hnew
  obtain ⟨-, -, -, hnull, huse, hdef, -⟩ := hnew
  cases name with
  | none =>
    refine (passes_word kind.typeName).bind (m := [markSign '{']) ?_
    rw [if_neg hnull, if_neg huse, if_neg hdef]
    exact (passes_nodeKind h).bind (m := [markSign '{'])
      ((passes_expectMark '{').bind (passes_pure _))
  | some name =>
    refine (passes_word "DEF").bind (m := [(.word, name), (.word, kind.typeName), markSign '{']) ?_
    rw [if_neg (by decide), if_neg (by decide), if_pos rfl]
    refine (passes_word name).bind (m := [(.word, kind.typeName), markSign '{']) ?_
    refine (passes_word kind.typeName).bind (m := [markSign '{']) ?_
    refine (passes_nodeKind h).bind (m := [markSign '{']) ?_
    have hmodify : Passes (modify fun st => { st with names := name :: st.names }) [] names
        (name :: names) () := by
      intro ts rest ns hts
      obtain rfl := List.map_eq_nil_iff.1 hts
      rfl
    exact hmodify.bind (m := [markSign '{']) ((passes_expectMark '{').bind (passes_pure _))

theorem passes_fieldName {kind : NodeKind} {d : FieldDecl} (h : kind.field? d.name = some d) :
    Passes (fieldName kind) [(.word, d.name)] names names d := by
  refine passes_next fun t ht => ?_
  obtain ⟨hk, ht⟩ := Prod.mk.inj ht
  rw [if_pos hk, ht, h]
  exact passes_pure d

/-- Neither the end of a list nor a route is ahead. -/
theorem passes_ahead {c : Char} {w : String} {stop route : Reader β} {go : Token → Reader β} {b : β}
    (hw : w ≠ "ROUTE")
    (h : ∀ t : Token, t.sign = (.word, w) → Passes (go t) ((.word, w) :: ws) names names' b) :
    Passes (peek >>= fun t => if t.isThisMark c then stop else
      if t.isThisWord "ROUTE" then route else go t) ((.word, w) :: ws) names names' b := by
  refine passes_peek fun t ht => ?_
  rw [if_neg, if_neg]
  · exact h t ht
  · rw [isThisWord_iff, ht]
    exact fun he => hw (Prod.mk.inj he).2
  · rw [isThisMark_iff, ht]
    exact fun he => nomatch (Prod.mk.inj he).1

theorem passes_stop {c : Char} {route : Reader β} {go : Token → Reader β} {b : β} :
    Passes (peek >>= fun t => if t.isThisMark c then (next >>= fun _ => pure b) else
      if t.isThisWord "ROUTE" then route else go t) [markSign c] names names b := by
  refine passes_peek fun t ht => ?_
  rw [if_pos (isThisMark_iff.2 ht)]
  exact passes_next fun _ _ => passes_pure b

end Reader

open Reader

mutual

/-- A block without its tags. -/
def Block.bare : Block α → Block Unit
  | .use name => .use name
  | .node _ name kind body => .node () name kind body.bare

/-- The fields of a node without tags. -/
def Body.bare : Body α → Body Unit
  | .done => .done
  | .value field v rest => .value field v rest.bare
  | .single field b rest => .single field b.bare rest.bare
  | .list field bs rest => .list field bs.bare rest.bare

/-- A list of blocks without tags. -/
def Blocks.bare : Blocks α → Blocks Unit
  | .nil => .nil
  | .cons b bs => .cons b.bare bs.bare

end

variable {α : Type}

/-- A block starts with a word that starts neither a route nor a declaration. -/
theorem Block.exists_signs_eq (b : Block α) :
    ∃ w ws, b.signs = (.word, w) :: ws ∧ w ∉ ["ROUTE", "PROTO", "EXTERNPROTO"] := by
  match b with
  | .use name => exact ⟨_, _, rfl, by decide⟩
  | .node _ none kind body =>
    refine ⟨_, _, rfl, fun h => typeName_not_reserved kind ?_⟩
    simp only [List.mem_cons, reservedWords] at h ⊢
    rcases h with h | h | h | h
    · exact .inl h
    · exact .inr (.inl h)
    · exact .inr (.inr (.inl h))
    · exact absurd h (List.not_mem_nil)
  | .node _ (some name) kind body => exact ⟨_, _, rfl, by decide⟩

theorem Declares.exists_decl {kind : NodeKind} {field : String} {value : FieldKind}
    (h : Declares kind field value) :
    ∃ d : FieldDecl, d.name = field ∧ d.name ≠ "ROUTE" ∧ kind.field? d.name = some d ∧
      d.kind = value := by
  obtain ⟨d, hd, hk⟩ := h
  obtain rfl : d.name = field := by simpa using List.find?_some hd
  exact ⟨d, rfl, ne_route_of_mem_fields kind d (List.mem_of_find?_eq_some hd), hd, hk⟩

mutual

theorem Block.passes (b : Block α) (names : List String) (h : b.Readable names) (fuel : Nat)
    (hf : b.signs.length ≤ fuel) :
    Passes (Reader.block fuel) b.signs names (b.define names) (some b.bare) :=
  match b, fuel, h, hf with
  | .use name, fuel + 1, h, _ => by
    rw [Reader.block]
    exact (passes_head_use h.2).bind (m := []) (passes_pure _)
  | .node tag name kind body, fuel + 1, h, hf => by
    obtain ⟨hk, -, hb⟩ := h
    have hfuel : (body.signs ++ [markSign '}']).length ≤ fuel := by
      simp only [Block.signs, List.length_append, List.length_cons, List.length_nil] at hf ⊢
      omega
    have hsplit : (Block.node tag name kind body).signs =
        (definitionSigns name ++ [(.word, kind.typeName), markSign '{']) ++
          (body.signs ++ [markSign '}']) := by
      simp [Block.signs]
    rw [Reader.block, hsplit]
    exact (passes_head_node hk).bind (body.passes kind _ hb fuel hfuel).bind_pure
  | .node .., 0, _, hf => by simp [Block.signs] at hf

theorem Body.passes (b : Body α) (kind : NodeKind) (names : List String)
    (h : b.Readable names kind) (fuel : Nat) (hf : (b.signs ++ [markSign '}']).length ≤ fuel) :
    Passes (Reader.fields fuel kind) (b.signs ++ [markSign '}']) names (b.define names) b.bare :=
  match b, fuel, h, hf with
  | .done, fuel + 1, _, _ => by
    rw [Reader.fields]
    exact passes_stop
  -- the reader goes by the kind that the field is declared with, which is that of the value
  | .value field v rest, fuel + 1, h, hf => by
    obtain ⟨hd, hv, hr⟩ := h
    obtain ⟨d, rfl, hroute, hd, hk⟩ := hd.exists_decl
    have hfuel : (rest.signs ++ [markSign '}']).length ≤ fuel := by
      simp only [Body.signs, List.length_append, List.length_cons, List.length_nil] at hf ⊢
      omega
    have hrest := (rest.passes kind names hr fuel hfuel).bind_pure (f := Body.value d.name v)
    have hplain : Passes (plainValue v.kind) (valueSigns v) names names v :=
      passes_plainValue (isPlainValue_signs hv)
    rw [Reader.fields]
    simp only [Body.signs, List.cons_append, List.append_assoc]
    refine passes_ahead hroute fun _ _ => (passes_fieldName hd).bind ?_
    rw [hk]
    cases v with
    | one k v => exact hplain.bind hrest
    | many k vs => exact hplain.bind hrest
    | node t => exact absurd hv id
    | nodes ts => exact absurd hv id
  | .single field b rest, fuel + 1, h, hf => by
    obtain ⟨hd, hb, hr⟩ := h
    obtain ⟨d, rfl, hroute, hd, hk⟩ := hd.exists_decl
    have hfuel : b.signs.length ≤ fuel ∧ (rest.signs ++ [markSign '}']).length ≤ fuel := by
      simp only [Body.signs, List.length_append, List.length_cons, List.length_nil] at hf ⊢
      omega
    have hrest := (rest.passes kind _ hr fuel hfuel.2).bind_pure (f := Body.single d.name b.bare)
    rw [Reader.fields]
    simp only [Body.signs, List.cons_append, List.append_assoc]
    refine passes_ahead hroute fun _ _ => (passes_fieldName hd).bind ?_
    rw [hk]
    exact (b.passes names hb fuel hfuel.1).bind hrest
  | .list field bs rest, fuel + 1, h, hf => by
    obtain ⟨hd, hb, hr⟩ := h
    obtain ⟨d, rfl, hroute, hd, hk⟩ := hd.exists_decl
    have hfuel : (bs.signs ++ [markSign ']']).length ≤ fuel ∧
        (rest.signs ++ [markSign '}']).length ≤ fuel := by
      simp only [Body.signs, List.length_append, List.length_cons, List.length_nil] at hf ⊢
      omega
    have hrest := (rest.passes kind _ hr fuel hfuel.2).bind_pure (f := Body.list d.name bs.bare)
    have hsplit : (Body.list d.name bs rest).signs ++ [markSign '}'] =
        (.word, d.name) :: markSign '[' ::
          ((bs.signs ++ [markSign ']']) ++ (rest.signs ++ [markSign '}'])) := by
      simp [Body.signs]
    rw [Reader.fields, hsplit]
    refine passes_ahead hroute fun _ _ => (passes_fieldName hd).bind ?_
    rw [hk]
    refine passes_peek fun t ht => ?_
    rw [if_pos (isThisMark_iff.2 ht)]
    exact passes_next fun _ _ => (bs.passes names hb fuel hfuel.1).bind hrest
  | .done, 0, _, hf => by simp at hf
  | .value .., 0, _, hf => by simp at hf
  | .single .., 0, _, hf => by simp at hf
  | .list .., 0, _, hf => by simp at hf

theorem Blocks.passes (bs : Blocks α) (names : List String) (h : bs.Readable names) (fuel : Nat)
    (hf : (bs.signs ++ [markSign ']']).length ≤ fuel) :
    Passes (Reader.blocks fuel) (bs.signs ++ [markSign ']']) names (bs.define names) bs.bare :=
  match bs, fuel, h, hf with
  | .nil, fuel + 1, _, _ => by
    rw [Reader.blocks]
    exact passes_stop
  | .cons b bs, fuel + 1, h, hf => by
    obtain ⟨w, ws, hw, hnew⟩ := b.exists_signs_eq
    have hfuel : b.signs.length ≤ fuel ∧ (bs.signs ++ [markSign ']']).length ≤ fuel := by
      simp only [Blocks.signs, hw, List.length_append, List.length_cons, List.length_nil] at hf ⊢
      omega
    have hrest := (bs.passes _ h.2 fuel hfuel.2).bind_pure (f := Blocks.cons b.bare)
    have hblock := b.passes names h.1 fuel hfuel.1
    rw [Reader.blocks]
    simp only [Blocks.signs, List.append_assoc]
    rw [hw] at hblock ⊢
    simp only [List.mem_cons, not_or] at hnew
    refine passes_ahead hnew.1 fun t ht => ?_
    rw [if_neg]
    · exact hblock.bind hrest
    · simpa [isThisWord_iff, ht] using hnew.2
  | .nil, 0, _, hf => by simp at hf
  | .cons .., 0, _, hf => by simp at hf

end

/-! ### Files -/

theorem passes_statement (b : Block α) (names : List String) (h : b.Readable names) (fuel : Nat)
    (hf : b.signs.length ≤ fuel) :
    Passes (statement fuel) b.signs names (b.define names) (some b.bare) := by
  obtain ⟨w, ws, hw, hnew⟩ := b.exists_signs_eq
  have hblock := b.passes names h fuel hf
  rw [hw] at hblock ⊢
  simp only [List.mem_cons, not_or] at hnew
  refine passes_peek fun t ht => ?_
  rw [if_neg, if_neg]
  · exact hblock
  · simpa [isThisWord_iff, ht] using hnew.2
  · simpa [isThisWord_iff, ht] using hnew.1

theorem readStatements_signs (bs : Blocks α) {names : List String} (h : bs.Readable names)
    {ts : List Token} (hts : ts.map Token.sign = bs.signs) {depth bound : Nat}
    (hd : ts.length ≤ depth) (hb : ts.length ≤ bound) (ns : List Notice) :
    readStatements depth bound ⟨ts, names, ns⟩ = ⟨bs.bare.toList, ns, none⟩ := by
  induction bound generalizing bs names ts with
  | zero =>
    obtain rfl := List.eq_nil_of_length_eq_zero (Nat.le_zero.1 hb)
    cases bs with
    | nil => rfl
    | cons b bs =>
      obtain ⟨w, ws, hw, -⟩ := b.exists_signs_eq
      simp [Blocks.signs, hw] at hts
  | succ bound ih =>
    cases bs with
    | nil =>
      obtain rfl := List.map_eq_nil_iff.1 hts
      rfl
    | cons b bs =>
      obtain ⟨ts₁, ts₂, rfl, h₁, h₂⟩ := List.map_eq_append_iff.1 hts
      obtain ⟨w, ws, hw, -⟩ := b.exists_signs_eq
      have hlen : ts₁.length = ws.length + 1 := by
        rw [← List.length_map, h₁, hw, List.length_cons]
      rw [List.length_append] at hd hb
      have hread := passes_statement b names h.1 depth (by rw [hw, List.length_cons]; omega) ts₁ ts₂
        ns h₁
      have hne : (ts₁ ++ ts₂).isEmpty = false := by
        cases ts₁ with
        | nil => simp at hlen
        | cons t ts₁ => rfl
      rw [readStatements, hne]
      simp only [Bool.false_eq_true, if_false, hread, ih bs h.2 h₂ (by omega) (by omega)]
      rfl

/-- **The tokens of readable blocks are read as the blocks.** -/
theorem readTokens_signs (bs : Blocks α) (h : bs.Readable []) {ts : List Token}
    (hts : ts.map Token.sign = bs.signs) : readTokens ts = ⟨bs.bare.toList, [], none⟩ :=
  readStatements_signs bs h hts (by omega) (Nat.le_refl _) []

/-- The characters of the file of some blocks. -/
theorem spells_file (bs : Blocks NodeId) (h : bs.Readable []) (indent : Nat) :
    Spells (renderAll indent (filePieces bs)) bs.signs := by
  rw [renderAll_of_not_refused (filePieces_not_refused bs h)]
  exact spells_headerLine.append (bs.spells indent 0 [] h)

/-- **The file of readable blocks is read as the blocks, for every indent.** -/
theorem readText_file (bs : Blocks NodeId) (h : bs.Readable []) (indent : Nat) :
    readText (String.ofList (renderAll indent (filePieces bs))) = ⟨bs.bare.toList, [], none⟩ := by
  obtain ⟨ts, hcut, hts⟩ := ((spells_file bs h indent).before NoWordAhead).tokenize_eq
  rw [readText, hcut]
  exact readTokens_signs bs h hts

end Vrml

end SceneTidy

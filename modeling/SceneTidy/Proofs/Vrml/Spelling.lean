import SceneTidy.Proofs.Field.WordsReadBack
import SceneTidy.Proofs.Vrml.Cutting
import SceneTidy.Vrml.Layout

/-!
# What written blocks spell

The signs of a block are what its tokens say.  A block is readable if its kinds have a place in
files, its names are words that are defined before they are used, and its fields are declared and
hold values of their kinds.  Main statement: the text laid out for readable blocks spells their
signs, for every indent (`Blocks.spells`), and the writing does not stop (`Blocks.not_refused`).
-/

namespace SceneTidy

open Vrml

/-! ### Items -/

theorem isWordChar_of_isNumberChar {c : Char} (h : isNumberChar c) : isWordChar c :=
  forall_isNumberChar (p := fun c => isWordChar c = true) (by decide) h

theorem isWord_text (x : Binary64) : IsWord x.text := by
  refine ⟨fun h => ?_, fun c hc => isWordChar_of_isNumberChar (isNumberChar_of_mem_text hc)⟩
  have := readReal?_text x
  rw [h] at this
  exact absurd this (by rw [show readReal? [] = none from rfl]; exact nofun)

theorem isWord_integerText (n : Int) : IsWord (integerText n) := by
  refine ⟨?_, fun c hc => isWordChar_of_isNumberChar (isNumberChar_of_mem_integerText hc)⟩
  exact List.append_ne_nil_of_right_ne_nil _ Nat.toDigits_ne_nil

/-- Every item but a string is written with words. -/
theorem ItemKind.isWord_of_mem_words {k : ItemKind} (hk : k ≠ .string) (v : k.Value) :
    ∀ w ∈ k.words v, IsWord w := by
  cases k with
  | bool => cases v <;> decide
  | int32 => exact List.forall_mem_singleton.2 (isWord_integerText v)
  | float => exact List.forall_mem_singleton.2 (isWord_text v)
  | time => exact List.forall_mem_singleton.2 (isWord_text v)
  | string => exact absurd rfl hk
  | vec2f => simp [words, isWord_text]
  | vec3f => simp [words, isWord_text]
  | color => simp [words, isWord_text]
  | rotation => simp [words, isWord_text]

namespace Vrml

/-- The signs of an item: a string for a string, and words for any other. -/
def itemSigns (k : ItemKind) (v : k.Value) : List Sign :=
  (k.parts v).map fun w => (if (FieldKind.one k).isText then .string else .word, w)

theorem itemSigns_of_ne {k : ItemKind} (hk : k ≠ .string) (v : k.Value) :
    itemSigns k v = (k.words v).map wordSign := by
  simp [itemSigns, FieldKind.isText_one_iff.2 hk, ItemKind.parts, wordSign, Function.comp_def]

/-- Words with a blank between two of them. -/
theorem spellsBefore_words {ws : List (List Char)} (hne : ws ≠ []) (h : ∀ w ∈ ws, IsWord w) :
    SpellsBefore NoWordAhead ([' '].intercalate ws) (ws.map wordSign) := by
  induction ws with
  | nil => exact absurd rfl hne
  | cons w ws ih =>
    have hw := h w (List.mem_cons_self ..)
    cases ws with
    | nil =>
      rw [List.intercalate_singleton]
      exact spellsBefore_word hw
    | cons u us =>
      rw [List.intercalate_cons_cons]
      exact ((spells_word hw (by decide)).before fun _ => True).append
        (ih (by simp) fun x hx => h x (List.mem_cons_of_mem _ hx)) fun _ _ => trivial

theorem spellsBefore_item (k : ItemKind) (v : k.Value) :
    SpellsBefore NoWordAhead (k.text v) (itemSigns k v) := by
  by_cases hk : k = .string
  · subst hk
    have hsigns : itemSigns .string v = [stringSign v.toList] := by
      simp [itemSigns, ItemKind.parts, ItemKind.words, stringSign, FieldKind.isText]
    rw [hsigns]
    exact (spells_string v.toList).before _
  · have htext : k.text v = [' '].intercalate (k.words v) := by
      cases k <;> first | rfl | exact absurd rfl hk
    have hne : k.words v ≠ [] := by cases k <;> simp [ItemKind.words]
    rw [htext, itemSigns_of_ne hk]
    exact spellsBefore_words hne (ItemKind.isWord_of_mem_words hk v)

/-- An item on a line of its own. -/
theorem spells_item (k : ItemKind) (v : k.Value) :
    Spells (k.text v ++ ['\n']) (itemSigns k v) :=
  (spellsBefore_item k v).append_separator (by decide)

/-! ### Blocks -/

/-- The signs of a field value; references have none of their own. -/
def valueSigns : FieldValue → List Sign
  | .one k v => itemSigns k v
  | .many k vs => markSign '[' :: vs.flatMap (itemSigns k) ++ [markSign ']']
  | .node _ | .nodes _ => []

/-- The signs that define a name. -/
def definitionSigns : Option String → List Sign
  | none => []
  | some name => [wordSign ['D', 'E', 'F'], (.word, name)]

mutual

/-- The signs of a block. -/
def Block.signs : Block α → List Sign
  | .use name => [wordSign ['U', 'S', 'E'], (.word, name)]
  | .node _ name kind body =>
    definitionSigns name ++ (.word, kind.typeName) :: markSign '{' :: body.signs ++ [markSign '}']

/-- The signs of the fields of a node. -/
def Body.signs : Body α → List Sign
  | .done => []
  | .value field v rest => (.word, field) :: valueSigns v ++ rest.signs
  | .single field b rest => (.word, field) :: b.signs ++ rest.signs
  | .list field bs rest =>
    (.word, field) :: markSign '[' :: bs.signs ++ markSign ']' :: rest.signs

/-- The signs of a list of blocks. -/
def Blocks.signs : Blocks α → List Sign
  | .nil => []
  | .cons b bs => b.signs ++ bs.signs

end

mutual

/-- The names defined after a block, given those before it. -/
def Block.define (names : List String) : Block α → List String
  | .use _ => names
  | .node _ name _ body => body.define (name.toList ++ names)

/-- The names defined after the fields of a node. -/
def Body.define (names : List String) : Body α → List String
  | .done => names
  | .value _ _ rest => rest.define names
  | .single _ b rest => rest.define (b.define names)
  | .list _ bs rest => rest.define (bs.define names)

/-- The names defined after a list of blocks. -/
def Blocks.define (names : List String) : Blocks α → List String
  | .nil => names
  | .cons b bs => bs.define (b.define names)

end

/-- Whether a kind declares a field for values of some kind. -/
def Declares (kind : NodeKind) (field : String) (value : FieldKind) : Prop :=
  ∃ d, kind.field? field = some d ∧ d.kind = value

/-- Whether a value consists of items. -/
def IsPlain : FieldValue → Prop
  | .one _ _ | .many _ _ => True
  | .node _ | .nodes _ => False

mutual

/-- Whether a block can be read when some names are defined. -/
def Block.Readable (names : List String) : Block α → Prop
  | .use name => IsWord name.toList ∧ name ∈ names
  | .node _ name kind body =>
    kind.isRegistered ∧ (∀ n ∈ name, IsWord n.toList) ∧ body.Readable (name.toList ++ names) kind

/-- Whether the fields of a node of some kind can be read. -/
def Body.Readable (names : List String) (kind : NodeKind) : Body α → Prop
  | .done => True
  | .value field v rest => Declares kind field v.kind ∧ IsPlain v ∧ rest.Readable names kind
  | .single field b rest =>
    Declares kind field .node ∧ b.Readable names ∧ rest.Readable (b.define names) kind
  | .list field bs rest =>
    Declares kind field .nodes ∧ bs.Readable names ∧ rest.Readable (bs.define names) kind

/-- Whether a list of blocks can be read. -/
def Blocks.Readable (names : List String) : Blocks α → Prop
  | .nil => True
  | .cons b bs => b.Readable names ∧ bs.Readable (b.define names)

end

/-! ### The text of blocks -/

theorem isWordChar_of_isAlpha {c : Char} (h : c.isAlpha) : isWordChar c := by
  have hn : (65 ≤ c.toNat ∧ c.toNat ≤ 90) ∨ (97 ≤ c.toNat ∧ c.toNat ≤ 122) := by
    have hcases : (c.isUpper || c.isLower) = true := h
    rcases Bool.or_eq_true_iff.1 hcases with hu | hl
    · have hrange : 'A'.val ≤ c.val ∧ c.val ≤ 'Z'.val := of_decide_eq_true hu
      exact .inl ⟨UInt32.le_iff_toNat_le.1 hrange.1, UInt32.le_iff_toNat_le.1 hrange.2⟩
    · obtain ⟨hlow, hhigh⟩ := Bool.and_eq_true_iff.1 hl
      exact .inr ⟨UInt32.le_iff_toNat_le.1 (of_decide_eq_true hlow),
        UInt32.le_iff_toNat_le.1 (of_decide_eq_true hhigh)⟩
  have hne : ∀ d : Char, d.toNat < 65 ∨ 90 < d.toNat ∧ d.toNat < 97 ∨ 122 < d.toNat → c ≠ d := by
    rintro d hd rfl
    omega
  have hblank : Text.isBlank c = false := by
    simp [Text.isBlank]
    omega
  simp [isWordChar, isSeparator, isMark, hblank, hne ',' (by decide), hne '{' (by decide),
    hne '}' (by decide), hne '[' (by decide), hne ']' (by decide), hne '#' (by decide),
    hne '"' (by decide)]

theorem isWord_of_isAlpha {w : List Char} (h : w ≠ [] ∧ w.all Char.isAlpha) : IsWord w :=
  ⟨h.1, fun c hc => isWordChar_of_isAlpha (List.all_eq_true.1 h.2 c hc)⟩

theorem isWord_typeName (kind : NodeKind) : IsWord kind.typeName.toList :=
  isWord_of_isAlpha (by cases kind <;> decide +kernel)

theorem isWord_fields (kind : NodeKind) : ∀ d ∈ kind.fields, IsWord d.name.toList := by
  have key : ∀ d ∈ kind.fields, d.name.toList ≠ [] ∧ d.name.toList.all Char.isAlpha := by
    cases kind <;> decide +kernel
  exact fun d hd => isWord_of_isAlpha (key d hd)

theorem Declares.isWord {kind : NodeKind} {field : String} {value : FieldKind}
    (h : Declares kind field value) : IsWord field.toList := by
  obtain ⟨d, hd, -⟩ := h
  have hname : d.name = field := by simpa using List.find?_some hd
  exact hname ▸ isWord_fields kind d (List.mem_of_find?_eq_some hd)

/-- The characters of a row of pieces. -/
def renderRow (indent : Nat) (ps : List Piece) : List Char := ps.flatMap (·.render indent)

@[simp] theorem renderRow_nil (indent : Nat) : renderRow indent [] = [] := rfl

@[simp] theorem renderRow_cons (indent : Nat) (p : Piece) (ps : List Piece) :
    renderRow indent (p :: ps) = p.render indent ++ renderRow indent ps := rfl

@[simp] theorem renderRow_append (indent : Nat) (ps qs : List Piece) :
    renderRow indent (ps ++ qs) = renderRow indent ps ++ renderRow indent qs :=
  List.flatMap_append

theorem spells_margin (indent depth : Nat) : Spells ((Piece.margin depth).render indent) [] :=
  spells_blanks _

theorem spells_line {s : List Char} {ws : List Sign} (indent depth : Nat)
    (h : Spells (s ++ ['\n']) ws) : Spells (renderRow indent (Piece.line depth s)) ws := by
  simpa [Piece.line, Piece.render] using (spells_margin indent depth).append h

/-- A word in front of more text on its line. -/
theorem Spells.word_append {s : List Char} {ws : List Sign} {w : String} (hw : IsWord w.toList)
    (h : Spells s ws) : Spells (w.toList ++ ' ' :: s) ((.word, w) :: ws) := by
  have := (spells_word hw (c := ' ') (by decide)).append h
  simpa [wordSign] using this

theorem spells_mark_line {c : Char} (h : isMark c) : Spells [c, '\n'] [markSign c] :=
  (spells_mark h).append (spells_separator (c := '\n') (by decide))

/-- A field with its item. -/
theorem spells_item_field {field : String} (h : IsWord field.toList) (k : ItemKind)
    (v : k.Value) :
    Spells (field.toList ++ ' ' :: k.text v ++ ['\n']) ((.word, field) :: itemSigns k v) := by
  rw [List.append_assoc]
  exact (spells_item k v).word_append h

/-- A field that opens a list. -/
theorem spells_list_field {field : String} (h : IsWord field.toList) :
    Spells (field.toList ++ [' ', '['] ++ ['\n']) [(.word, field), markSign '['] := by
  rw [List.append_assoc]
  exact (spells_mark_line (c := '[') rfl).word_append h

theorem spells_opening {field : String} (h : IsWord field.toList) (indent depth : Nat) :
    Spells (renderRow indent (Piece.line depth (field.toList ++ [' ', '['])))
      [(.word, field), markSign '['] :=
  spells_line indent depth (spells_list_field h)

theorem spells_closing {c : Char} (h : isMark c) (indent depth : Nat) :
    Spells (renderRow indent (Piece.line depth [c])) [markSign c] :=
  spells_line indent depth (spells_mark_line h)

theorem spells_value {field : String} (hf : IsWord field.toList) {v : FieldValue} (hv : IsPlain v)
    (indent depth : Nat) :
    Spells (renderRow indent (valuePieces depth field v)) ((.word, field) :: valueSigns v) := by
  cases v with
  | one k v => exact spells_line indent depth (spells_item_field hf k v)
  | many k vs =>
    have hitems : Spells (renderRow indent (vs.flatMap fun v => Piece.line (depth + 1) (k.text v)))
        (vs.flatMap (itemSigns k)) := by
      rw [renderRow, List.flatMap_assoc]
      exact .flatMap fun v _ => spells_line indent (depth + 1) (spells_item k v)
    have := ((spells_opening hf indent depth).append hitems).append
      (spells_closing (c := ']') rfl indent depth)
    simpa [valuePieces, valueSigns] using this
  | node t => exact absurd hv id
  | nodes ts => exact absurd hv id

/-- A keyword with a name behind it. -/
theorem spells_keyword (keyword name : String) (hk : IsWord keyword.toList)
    (hn : IsWord name.toList) {c : Char} (hc : isSeparator c) :
    Spells (keyword.toList ++ ' ' :: (name.toList ++ [c])) [(.word, keyword), (.word, name)] := by
  have := (spells_word hn hc).word_append hk
  simpa [wordSign] using this

theorem spells_definition {name : Option String} (h : ∀ n ∈ name, IsWord n.toList)
    (indent : Nat) : Spells (renderRow indent (definition name)) (definitionSigns name) := by
  cases name with
  | none => exact .nil
  | some n =>
    have := spells_keyword "DEF" n (by decide) (h n rfl) (c := ' ') (by decide)
    simpa [definition, definitionSigns, Piece.render, wordSign] using this

theorem spells_headerLine : Spells headerLine [] := by
  have hline : "VRML V2.0 utf8".toList.all (!isLineEnd ·) := by decide
  exact spells_comment (List.all_eq_true.1 hline) rfl

/-- The type of a node, and the brace that opens its body. -/
theorem spells_type (kind : NodeKind) :
    Spells (kind.typeName.toList ++ [' ', '{', '\n']) [(.word, kind.typeName), markSign '{'] :=
  (spells_mark_line (c := '{') rfl).word_append (isWord_typeName kind)

mutual

theorem Block.spells (indent : Nat) (b : Block NodeId) (depth : Nat) (names : List String)
    (h : b.Readable names) : Spells (renderRow indent (b.pieces depth)) b.signs :=
  match b, h with
  | .use name, h => by
    have := spells_keyword "USE" name (by decide) h.1 (c := '\n') (by decide)
    simpa [Block.pieces, Block.signs, Piece.render, wordSign] using this
  | .node id name kind body, h => by
    obtain ⟨hk, hn, hb⟩ := h
    have hopen := (spells_definition hn indent).append (spells_type kind)
    have := (hopen.append (body.spells indent (depth + 1) kind _ hb)).append
      (spells_closing (c := '}') rfl indent depth)
    simpa [Block.pieces, Block.signs, Piece.render, hk] using this

theorem Body.spells (indent : Nat) (b : Body NodeId) (depth : Nat) (kind : NodeKind)
    (names : List String) (h : b.Readable names kind) :
    Spells (renderRow indent (b.pieces depth)) b.signs :=
  match b, h with
  | .done, _ => .nil
  | .value field v rest, h => by
    obtain ⟨hd, hv, hr⟩ := h
    have := (spells_value hd.isWord hv indent depth).append (rest.spells indent depth kind names hr)
    simpa [Body.pieces, Body.signs] using this
  | .single field b rest, h => by
    obtain ⟨hd, hb, hr⟩ := h
    have := (spells_margin indent depth).append
      (((b.spells indent depth names hb).append (rest.spells indent depth kind _ hr)).word_append
        hd.isWord)
    simpa [Body.pieces, Body.signs, Piece.render] using this
  | .list field bs rest, h => by
    obtain ⟨hd, hb, hr⟩ := h
    have := (((spells_opening hd.isWord indent depth).append
      (bs.spells indent (depth + 1) names hb)).append
        (spells_closing (c := ']') rfl indent depth)).append (rest.spells indent depth kind _ hr)
    simpa [Body.pieces, Body.signs] using this

/-- **The text laid out for readable blocks spells their signs.** -/
theorem Blocks.spells (indent : Nat) (bs : Blocks NodeId) (depth : Nat) (names : List String)
    (h : bs.Readable names) : Spells (renderRow indent (bs.pieces depth)) bs.signs :=
  match bs, h with
  | .nil, _ => .nil
  | .cons b bs, h => by
    have := ((spells_margin indent depth).append (b.spells indent depth names h.1)).append
      (bs.spells indent depth _ h.2)
    simpa [Blocks.pieces, Blocks.signs] using this

end

/-! ### Writing to the end -/

theorem any_isRefused_line (depth : Nat) (s : List Char) :
    (Piece.line depth s).any Piece.isRefused = false := rfl

theorem any_isRefused_value (depth : Nat) (field : String) (v : FieldValue) :
    (valuePieces depth field v).any Piece.isRefused = false := by
  cases v <;> simp [valuePieces, any_isRefused_line, List.any_flatMap]

theorem any_isRefused_definition (name : Option String) :
    (definition name).any Piece.isRefused = false := by
  cases name <;> rfl

mutual

theorem Block.not_refused (b : Block NodeId) (depth : Nat) (names : List String)
    (h : b.Readable names) : (b.pieces depth).any Piece.isRefused = false :=
  match b, h with
  | .use name, _ => rfl
  | .node id name kind body, h => by
    obtain ⟨hk, -, hb⟩ := h
    simp [Block.pieces, hk, any_isRefused_definition, any_isRefused_line,
      body.not_refused (depth + 1) kind _ hb, Piece.isRefused]

theorem Body.not_refused (b : Body NodeId) (depth : Nat) (kind : NodeKind) (names : List String)
    (h : b.Readable names kind) : (b.pieces depth).any Piece.isRefused = false :=
  match b, h with
  | .done, _ => rfl
  | .value field v rest, h => by
    simp [Body.pieces, any_isRefused_value, rest.not_refused depth kind names h.2.2]
  | .single field b rest, h => by
    simp [Body.pieces, b.not_refused depth names h.2.1, rest.not_refused depth kind _ h.2.2,
      Piece.isRefused]
  | .list field bs rest, h => by
    simp [Body.pieces, any_isRefused_line, bs.not_refused (depth + 1) names h.2.1,
      rest.not_refused depth kind _ h.2.2]

/-- The writing does not stop within readable blocks. -/
theorem Blocks.not_refused (bs : Blocks NodeId) (depth : Nat) (names : List String)
    (h : bs.Readable names) : (bs.pieces depth).any Piece.isRefused = false :=
  match bs, h with
  | .nil, _ => rfl
  | .cons b bs, h => by
    simp [Blocks.pieces, b.not_refused depth names h.1, bs.not_refused depth _ h.2, Piece.isRefused]

end

theorem filePieces_not_refused (bs : Blocks NodeId) (h : bs.Readable []) :
    (filePieces bs).any Piece.isRefused = false := bs.not_refused 0 [] h

theorem renderAll_of_not_refused {ps : List Piece} (h : ps.any Piece.isRefused = false)
    (indent : Nat) : renderAll indent ps = renderRow indent ps := by
  have hall : ∀ p ∈ ps, (!p.isRefused) = true := by simpa using h
  have htake : (ps ++ []).takeWhile (!·.isRefused) = ps ++ [] := List.takeWhile_append_of_pos hall
  rw [List.append_nil] at htake
  rw [renderAll, htake, renderRow]

theorem refusal?_of_not_refused {ps : List Piece} (h : ps.any Piece.isRefused = false) :
    refusal? ps = none := by
  rw [refusal?, List.findSome?_eq_none_iff]
  rintro (s | d | i | i | type) hp
  · rfl
  · rfl
  · rfl
  · rfl
  · rw [List.any_eq_false] at h
    exact absurd rfl (h _ hp)

end Vrml

end SceneTidy

import SceneTidy.Proofs.Field.Literals
import SceneTidy.Proofs.Text.Runs
import SceneTidy.Proofs.Vrml.Descent
import SceneTidy.Proofs.Vrml.Rendering
import SceneTidy.X3d.Reader

/-!
# Texts of values

Files and documents write the values of plain fields alike: strings stand in quotes, and all else is
words between separators.  Main statements: a row of quoted strings is taken apart into the same
strings in both formats (`splitStrings_and_tokenize_row`); a text without marks, quotes and comments
has the same words in both, and what an attribute is read as is also read from a file
(`attributeValue_and_plainValue`); and the text of an item is cut into tokens that read back as the
item (`itemText_reads_back`).
-/

namespace SceneTidy

open Text Vrml

/-! ### Rows of quoted strings -/

namespace Text.Quoted

theorem items_cons_quote (r : List Char) : items ('"' :: r) = match read r with
    | some (s, rest) => s :: items rest
    | none => [] := by
  rw [items.eq_def]
  dsimp only
  rw [if_pos rfl]
  split <;> simp_all

theorem items_encode (s rest : List Char) : items (encode s ++ rest) = s :: items rest := by
  rw [encode, List.cons_append, List.append_assoc, List.singleton_append, items_cons_quote,
    read_escape]

theorem items_append_of_ne {g : List Char} (h : ∀ c ∈ g, c ≠ '"') (rest : List Char) :
    items (g ++ rest) = items rest := by
  induction g with
  | nil => rfl
  | cons c g ih =>
    obtain ⟨hc, hg⟩ := List.forall_mem_cons.1 h
    rw [List.cons_append, items.eq_def]
    dsimp only
    rw [if_neg hc, ih hg]

end Text.Quoted

/-- Strings in quotes, one after the other, with separators between them. -/
inductive IsQuotedRow : List String → String → Prop
  | nil : IsQuotedRow [] ""
  | single (x : String) : IsQuotedRow [x] (Quoted.quote x)
  | cons (x : String) {y : String} {xs : List String} {g t : String}
      (hg : ∀ c ∈ g.toList, isSeparator c) (h : IsQuotedRow (y :: xs) t) :
      IsQuotedRow (x :: y :: xs) (Quoted.quote x ++ g ++ t)

namespace IsQuotedRow

variable {xs : List String} {t : String}

theorem items_eq (h : IsQuotedRow xs t) : Quoted.items t.toList = xs.map String.toList := by
  induction h with
  | nil => rw [Quoted.items.eq_def]; rfl
  | single x =>
    have hitems := Quoted.items_encode x.toList []
    rw [List.append_nil, Quoted.items.eq_def []] at hitems
    rw [Quoted.quote, String.toList_ofList, hitems]
    rfl
  | @cons x y xs g t hg _ ih =>
    have hne : ∀ c ∈ g.toList, c ≠ '"' := by
      rintro c hc rfl
      exact absurd (hg _ hc) (by decide)
    rw [String.toList_append, String.toList_append, Quoted.quote, String.toList_ofList,
      List.append_assoc, Quoted.items_encode, Quoted.items_append_of_ne hne, ih]
    rfl

theorem spells (h : IsQuotedRow xs t) : Spells t.toList (xs.map fun x => (.string, x)) := by
  have hquote : ∀ x : String, Spells (Quoted.quote x).toList [(.string, x)] := fun x => by
    have hstring := spells_string x.toList
    rwa [stringSign, String.ofList_toList, ← String.toList_ofList (l := Quoted.encode _)] at hstring
  induction h with
  | nil => exact .nil
  | single x => exact hquote x
  | cons x hg _ ih =>
    rw [String.toList_append, String.toList_append, List.append_assoc]
    exact (hquote x).append ((isGap_of_isSeparator hg).spells.append ih)

end IsQuotedRow

/-- **Quoted strings with separators between them are taken apart into the strings in both
formats**: the reader of attributes finds them, and a file has one token for each. -/
theorem splitStrings_and_tokenize_row {xs : List String} {t : String} (h : IsQuotedRow xs t) :
    (X3d.splitStrings t.toList).map String.ofList = xs ∧
      ∃ ts, tokenize t = ⟨ts, none⟩ ∧ ts.map Token.sign = xs.map fun x => (.string, x) := by
  constructor
  · rw [X3d.splitStrings, h.items_eq]
    cases h with
    | nil => rfl
    | single x => simp
    | cons x hg h => simp
  · have hcut := (h.spells.before NoWordAhead).tokenize_eq
    rwa [String.ofList_toList] at hcut

theorem splitStrings_and_tokenize_row_mixed :
    IsQuotedRow ["", "say \"\\\"", "two\nlines"] (Quoted.quote "" ++ " ,\t" ++
      (Quoted.quote "say \"\\\"" ++ "" ++ Quoted.quote "two\nlines")) ∧
    (X3d.splitStrings (Quoted.quote "" ++ " ,\t" ++
      (Quoted.quote "say \"\\\"" ++ "" ++ Quoted.quote "two\nlines")).toList).map String.ofList =
        ["", "say \"\\\"", "two\nlines"] ∧
    ∃ ts, tokenize (Quoted.quote "" ++ " ,\t" ++
        (Quoted.quote "say \"\\\"" ++ "" ++ Quoted.quote "two\nlines")) = ⟨ts, none⟩ ∧
      ts.map Token.sign = ["", "say \"\\\"", "two\nlines"].map fun x => (.string, x) := by
  have hgap : " ,\t".toList.all isSeparator := by decide
  have hrow := (IsQuotedRow.single "two\nlines").cons "say \"\\\"" (g := "")
    fun c hc => absurd hc List.not_mem_nil
  have h := hrow.cons "" (List.all_eq_true.1 hgap)
  exact ⟨h, splitStrings_and_tokenize_row h⟩

/-! ### Words of both formats -/

/-- Whether the character has a meaning of its own in a file: a mark, or the start of a string or a
comment. -/
def isReserved (c : Char) : Bool := isMark c || c = '#' || c = '"'

theorem forall_isReserved {p : Char → Bool} (h : ['{', '}', '[', ']', '#', '"'].all p) {c : Char}
    (hc : isReserved c) : p c := by
  refine List.all_eq_true.1 h c ?_
  simp only [isReserved, isMark, Bool.or_eq_true, decide_eq_true_eq] at hc
  simp only [List.mem_cons, List.not_mem_nil]
  tauto

theorem isWordChar_of_not_isReserved {c : Char} (hc : isReserved c = false)
    (hs : isSeparator c = false) : isWordChar c := by
  simp only [isReserved, Bool.or_eq_false_iff] at hc
  simp [isWordChar, hs, hc.1.1, hc.1.2, hc.2]

/-- A text without reserved characters is cut into the words that the reader of attributes finds. -/
theorem spellsBefore_unreserved {s : List Char} (h : ∀ c ∈ s, isReserved c = false) :
    SpellsBefore NoWordAhead s ((X3d.splitNumbers s).map wordSign) := by
  -- induction on the length, a separator or a whole word at a time
  induction hlen : s.length using Nat.strong_induction_on generalizing s with
  | _ n ih =>
    have hsplit : ∀ u, X3d.splitNumbers u = runsOutside isSeparator u := fun _ => rfl
    cases s with
    | nil => exact Spells.nil.before _
    | cons c r =>
      obtain ⟨hc, hr⟩ := List.forall_mem_cons.1 h
      cases hsep : isSeparator c with
      | true =>
        rw [hsplit, runsOutside_cons hsep]
        exact ((spells_separator hsep).before fun _ => True).append
          (ih r.length (by simp [← hlen]) hr rfl) fun _ _ => trivial
      | false =>
        obtain ⟨w, rest, hcut, hw, hrest⟩ := exists_isWord (isWordChar_of_not_isReserved hc hsep) r
        rw [hcut] at h hlen ⊢
        have hshort : rest.length < n := by
          have hpos : 0 < w.length := List.length_pos_of_ne_nil hw.1
          rw [← hlen, List.length_append]
          omega
        have hwords : ∀ d ∈ w, isSeparator d = false := fun d hd =>
          (isWordChar_iff.1 (hw.2 d hd)).1
        have hstop : ∀ d ∈ rest.head?, isSeparator d = true := fun d hd => by
          by_contra hs
          have hmem : d ∈ w ++ rest := List.mem_append_right _ (List.mem_of_mem_head? hd)
          have hchar := isWordChar_of_not_isReserved (h d hmem) (by simpa using hs)
          exact absurd ((hrest d hd).symm.trans hchar) Bool.false_ne_true
        rw [hsplit, runsOutside_append hw.1 hwords hstop]
        exact (spellsBefore_word hw).append
          (ih rest.length hshort (fun d hd => h d (List.mem_append_right _ hd)) rfl)
          fun _ => hrest.append

theorem not_isLiteralChar_of_isReserved {c : Char} (h : isReserved c) :
    isLiteralChar c = false := by
  simpa using forall_isReserved (p := (!isLiteralChar ·)) (by decide) h

theorem not_isSeparator_of_isReserved {c : Char} (h : isReserved c) : isSeparator c = false := by
  simpa using forall_isReserved (p := (!isSeparator ·)) (by decide) h

section Attributes

variable {kind : FieldKind} {t : String} {v : FieldValue}

theorem attributeValue_eq (hk : kind.isText = false) (t : String) :
    X3d.Reader.attributeValue kind t =
      kind.read ((X3d.splitNumbers t.toList).map String.ofList) := by
  unfold X3d.Reader.attributeValue
  split
  · cases hk
  · cases hk
  · rfl

/-- An attribute that is read has no reserved characters, but for one of a field of strings. -/
theorem not_isReserved_of_attributeValue (hk : kind.isText = false)
    (h : X3d.Reader.attributeValue kind t = .ok v) : ∀ c ∈ t.toList, isReserved c = false := by
  rw [attributeValue_eq hk] at h
  intro c hc
  by_contra hres
  have hres : isReserved c = true := by simpa using hres
  obtain ⟨w, hw, hcw⟩ := exists_mem_runsOutside (not_isSeparator_of_isReserved hres) hc
  have hliteral := FieldKind.isLiteral_of_read hk h _ (List.mem_map_of_mem hw)
  rw [String.toList_ofList] at hliteral
  exact absurd ((not_isLiteralChar_of_isReserved hres).symm.trans (hliteral c hcw))
    Bool.false_ne_true

end Attributes

/-- The text of a value as a file has it: that of a list stands in brackets. -/
def FieldKind.fileText (kind : FieldKind) (t : String) : String :=
  if kind.isList then "[" ++ t ++ "]" else t

namespace Vrml.Reader

theorem decode_eq_ok_iff {kind : FieldKind} {ts : List Token} {v : FieldValue}
    {st st' : ReadState} :
    decode kind ts st = .ok v st' ↔ st = st' ∧ Decodes kind (ts.map Token.sign) v := by
  refine ⟨decode_eq_ok, ?_⟩
  rintro ⟨rfl, h⟩
  obtain ⟨tokens, names, notices⟩ := st
  exact passes_decode rfl h [] tokens notices rfl

end Vrml.Reader

/-- Words are the value that their texts are read as. -/
theorem Vrml.decodes_words_iff {kind : FieldKind} (hk : kind.isText = false)
    {ws : List (List Char)} {v : FieldValue} :
    Decodes kind (ws.map wordSign) v ↔ kind.read (ws.map String.ofList) = .ok v := by
  have hsigns : ws.map wordSign = (ws.map String.ofList).map fun p =>
      (if kind.isText then .string else .word, p) := by
    rw [hk, List.map_map]
    rfl
  constructor
  · rintro ⟨parts, hparts, hread⟩
    have hsame := congrArg (List.map Prod.snd) (hsigns.symm.trans hparts)
    rw [List.map_map, List.map_map] at hsame
    obtain rfl : ws.map String.ofList = parts := by simpa using hsame
    exact hread
  · exact fun hread => ⟨_, hsigns, hread⟩

theorem ItemKind.length_of_read {k : ItemKind} {parts : List String} {v : k.Value}
    (h : k.read parts = .ok v) : parts.length = k.components := by
  unfold read at h
  split at h
  · assumption
  · cases h

section Texts

variable {t : String}

/-- A single item is read from the words of its text. -/
theorem exists_plainValue_one {k : ItemKind} (hk : (FieldKind.one k).isText = false)
    (ht : ∀ c ∈ t.toList, isReserved c = false) {v : FieldValue}
    (h : X3d.Reader.attributeValue (.one k) t = .ok v) :
    ∃ ts, tokenize t = ⟨ts, none⟩ ∧ ∀ st : ReadState,
      Reader.plainValue (.one k) { st with tokens := ts ++ st.tokens } = .ok v st := by
  rw [attributeValue_eq hk] at h
  obtain ⟨ts, hcut, hts⟩ := (spellsBefore_unreserved ht).tokenize_eq
  rw [String.ofList_toList] at hcut
  have hlength : ((X3d.splitNumbers t.toList).map wordSign).length = k.components := by
    rw [FieldKind.read] at h
    cases hread : k.read ((X3d.splitNumbers t.toList).map String.ofList) with
    | error e =>
      rw [hread] at h
      cases h
    | ok x => simpa using ItemKind.length_of_read hread
  have hvalue := IsPlainValue.one hlength ((decodes_words_iff hk).2 h)
  exact ⟨ts, hcut, fun st => Reader.passes_plainValue hvalue ts st.tokens st.notices hts⟩

/-- A list in brackets is read from the words between them, and from nothing else. -/
theorem exists_plainValue_many {k : ItemKind} (hk : (FieldKind.many k).isText = false)
    (ht : ∀ c ∈ t.toList, isReserved c = false) :
    ∃ ts, tokenize ((FieldKind.many k).fileText t) = ⟨ts, none⟩ ∧ ∀ (st : ReadState) v st',
      Reader.plainValue (.many k) { st with tokens := ts ++ st.tokens } = .ok v st' ↔
        X3d.Reader.attributeValue (.many k) t = .ok v ∧ st' = st := by
  have hspells := (spells_mark (c := '[') rfl).append
    ((spellsBefore_unreserved ht).append_spells (spells_mark (c := ']') rfl) fun rest =>
      noWordAhead_cons rfl rest)
  obtain ⟨ts, hcut, hts⟩ := (hspells.before NoWordAhead).tokenize_eq
  have htext : String.ofList (['['] ++ (t.toList ++ [']'])) = (FieldKind.many k).fileText t := by
    rw [← String.toList_inj, String.toList_ofList]
    simp [FieldKind.fileText, FieldKind.isList]
  have hmark : ∀ w ∈ (X3d.splitNumbers t.toList).map wordSign, w.1 ≠ .mark :=
    List.forall_mem_map.2 fun _ _ => by simp [wordSign]
  obtain ⟨us, hus, hread⟩ := Reader.exists_plainValue_eq_decode (k := k) hts hmark
  refine ⟨ts, htext ▸ hcut, fun st v st' => ?_⟩
  rw [hread, Reader.decode_eq_ok_iff, hus, decodes_words_iff hk, ← attributeValue_eq hk, and_comm,
    @eq_comm _ st]

end Texts

/-- **Both readers decode values alike**: the words of a text without reserved characters are the
same, what an attribute that holds no strings is read as is also read from a file, and in brackets
the two accept the same texts. -/
theorem attributeValue_and_plainValue (t : String) :
    ((∀ c ∈ t.toList, isReserved c = false) →
      ∃ ts, tokenize t = ⟨ts, none⟩ ∧
        ts.map Token.sign = (X3d.splitNumbers t.toList).map wordSign) ∧
    (∀ kind : FieldKind, kind.isText = false → kind ≠ .node → kind ≠ .nodes → ∀ v,
      X3d.Reader.attributeValue kind t = .ok v →
      ∃ ts, tokenize (kind.fileText t) = ⟨ts, none⟩ ∧ ∀ st : ReadState,
        Reader.plainValue kind { st with tokens := ts ++ st.tokens } = .ok v st) ∧
    ∀ k : ItemKind, k ≠ .string → (∀ c ∈ t.toList, isReserved c = false) →
      ∃ ts, tokenize ((FieldKind.many k).fileText t) = ⟨ts, none⟩ ∧ ∀ (st : ReadState) v st',
        Reader.plainValue (.many k) { st with tokens := ts ++ st.tokens } = .ok v st' ↔
          X3d.Reader.attributeValue (.many k) t = .ok v ∧ st' = st := by
  refine ⟨fun ht => ?_, fun kind hkind hnode hnodes v h => ?_, fun k hk ht => ?_⟩
  · have hcut := (spellsBefore_unreserved ht).tokenize_eq
    rwa [String.ofList_toList] at hcut
  · have ht := not_isReserved_of_attributeValue hkind h
    cases kind with
    | one k => exact exists_plainValue_one hkind ht h
    | many k =>
      obtain ⟨ts, hcut, hread⟩ := exists_plainValue_many hkind ht
      exact ⟨ts, hcut, fun st => (hread st v st).2 ⟨h, rfl⟩⟩
    | node => exact absurd rfl hnode
    | nodes => exact absurd rfl hnodes
  · exact exists_plainValue_many (FieldKind.isText_many_iff.2 hk) ht

theorem attributeValue_and_plainValue_mixed :
    (∀ c ∈ "0x1F, -2\n3".toList, isReserved c = false) ∧
    X3d.Reader.attributeValue (.many .int32) "0x1F, -2\n3" = .ok (.many .int32 [31, -2, 3]) ∧
    (∃ ts, tokenize "0x1F, -2\n3" = ⟨ts, none⟩ ∧
      ts.map Token.sign = (X3d.splitNumbers "0x1F, -2\n3".toList).map wordSign) ∧
    (∃ ts, tokenize ((FieldKind.many .int32).fileText "0x1F, -2\n3") = ⟨ts, none⟩ ∧
      ∀ st : ReadState,
        Reader.plainValue (.many .int32) { st with tokens := ts ++ st.tokens } =
          .ok (.many .int32 [31, -2, 3]) st) ∧
    ∃ ts, tokenize ((FieldKind.many .int32).fileText "0x1F, -2\n3") = ⟨ts, none⟩ ∧
      ∀ (st : ReadState) v st',
        Reader.plainValue (.many .int32) { st with tokens := ts ++ st.tokens } = .ok v st' ↔
          X3d.Reader.attributeValue (.many .int32) "0x1F, -2\n3" = .ok v ∧ st' = st := by
  have hall : "0x1F, -2\n3".toList.all (!isReserved ·) := by decide
  have ht : ∀ c ∈ "0x1F, -2\n3".toList, isReserved c = false := fun c hc => by
    simpa using List.all_eq_true.1 hall c hc
  have hread : X3d.Reader.attributeValue (.many .int32) "0x1F, -2\n3" =
      .ok (.many .int32 [31, -2, 3]) := rfl
  obtain ⟨hwords, hvalues, hlists⟩ := attributeValue_and_plainValue "0x1F, -2\n3"
  exact ⟨ht, hread, hwords ht, hvalues (.many .int32) rfl nofun nofun _ hread,
    hlists .int32 (by decide) ht⟩

/-! ### Items -/

section Items

variable {k : ItemKind} {v : k.Value}

theorem exists_tokenize_item (k : ItemKind) (v : k.Value) :
    ∃ ts, tokenize (String.ofList (k.text v)) = ⟨ts, none⟩ ∧ ts.map Token.sign = itemSigns k v :=
  (spellsBefore_item k v).tokenize_eq

theorem map_text_of_itemSigns {ts : List Token} (hts : ts.map Token.sign = itemSigns k v) :
    ts.map Token.text = k.parts v := by
  have hsecond := congrArg (List.map Prod.snd) hts
  simpa [itemSigns, Token.sign, Function.comp_def] using hsecond

theorem kind_of_itemSigns {ts : List Token} (hts : ts.map Token.sign = itemSigns k v) :
    ∀ u ∈ ts, u.kind = if (FieldKind.one k).isText then .string else .word := by
  intro u hu
  have hsign : u.sign ∈ itemSigns k v := hts ▸ List.mem_map_of_mem hu
  obtain ⟨w, -, hw⟩ := List.mem_map.1 hsign
  exact (congrArg Prod.fst hw).symm

end Items

/-- **The text of an item is cut into the tokens that read back as the item**, and those of the
texts of a list's items are read back as the list. -/
theorem itemText_reads_back (k : ItemKind) :
    (∀ v : k.Value, ∃ t ts, (FieldValue.one k v).itemText = .ok t ∧ tokenize t = ⟨ts, none⟩ ∧
      ts.length = k.components ∧
      (∀ u ∈ ts, u.kind = if (FieldKind.one k).isText then .string else .word) ∧
      (FieldKind.one k).read (ts.map Token.text) = .ok (.one k v)) ∧
    ∀ vs : List k.Value, (FieldKind.many k).read (vs.flatMap fun v =>
      (tokenize (String.ofList (k.text v))).list.map Token.text) = .ok (.many k vs) := by
  constructor
  · intro v
    obtain ⟨ts, hcut, hts⟩ := exists_tokenize_item k v
    have htexts := map_text_of_itemSigns hts
    refine ⟨_, ts, rfl, hcut, ?_, kind_of_itemSigns hts, ?_⟩
    · rw [← k.length_parts v, ← htexts, List.length_map]
    · rw [htexts, FieldKind.read, ItemKind.read_words]
      rfl
  · intro vs
    have hparts : (fun v => (tokenize (String.ofList (k.text v))).list.map Token.text) = k.parts :=
      funext fun v => by
        obtain ⟨ts, hcut, hts⟩ := exists_tokenize_item k v
        rw [hcut]
        exact map_text_of_itemSigns hts
    rw [hparts, FieldKind.read, ItemKind.readList_words]
    rfl

end SceneTidy

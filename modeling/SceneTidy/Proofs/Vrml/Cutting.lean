import SceneTidy.Proofs.Text.Quoted
import SceneTidy.Vrml.Token

/-!
# Cutting a text into tokens

A piece of text spells a row of signs if it is cut into tokens that say so, whatever text follows
it and on whatever line it starts (`Spells`).  Pieces that end with a separator, a mark or a closing
quote have this property, and it goes over to texts put together from them (`Spells.append`).  A
piece that ends with a word spells its signs only before a text that does not go on with the word
(`SpellsBefore`), such as the end of the text (`SpellsBefore.tokenize_eq`).
-/

namespace SceneTidy.Vrml

open Text

/-- What a token says, on whatever line it stands. -/
abbrev Sign := TokenKind × String

/-- The sign of a token. -/
def Token.sign (t : Token) : Sign := (t.kind, t.text)

/-- The sign of a word. -/
def wordSign (w : List Char) : Sign := (.word, String.ofList w)

/-- The sign of a quoted string. -/
def stringSign (s : List Char) : Sign := (.string, String.ofList s)

/-- The sign of a mark. -/
def markSign (c : Char) : Sign := (.mark, c.toString)

/-- Put tokens in front. -/
def Tokens.prepend (ts : List Token) (us : Tokens) : Tokens := { us with list := ts ++ us.list }

theorem Tokens.prepend_prepend (ts us : List Token) (vs : Tokens) :
    (vs.prepend us).prepend ts = vs.prepend (ts ++ us) := by
  simp [prepend]

theorem Tokens.cons_eq_prepend (t : Token) (us : Tokens) : us.cons t = us.prepend [t] := rfl

/-- A text is cut into tokens of given signs, whatever follows it. -/
def Spells (s : List Char) (ws : List Sign) : Prop :=
  ∃ ts : Nat → List Token, (∀ line, (ts line).map Token.sign = ws) ∧
    ∀ line rest, tokenizeFrom line (s ++ rest) =
      (tokenizeFrom (line + s.count '\n') rest).prepend (ts line)

/-- A text is cut into tokens of given signs, if a text of some sort follows it. -/
def SpellsBefore (P : List Char → Prop) (s : List Char) (ws : List Sign) : Prop :=
  ∃ ts : Nat → List Token, (∀ line, (ts line).map Token.sign = ws) ∧
    ∀ line rest, P rest → tokenizeFrom line (s ++ rest) =
      (tokenizeFrom (line + s.count '\n') rest).prepend (ts line)

theorem Spells.before {s : List Char} {ws : List Sign} (h : Spells s ws)
    (P : List Char → Prop) : SpellsBefore P s ws := by
  obtain ⟨ts, hts, hcut⟩ := h
  exact ⟨ts, hts, fun line rest _ => hcut line rest⟩

/-- Pieces are put together if the second one, with what follows it, may follow the first one. -/
theorem SpellsBefore.append {P Q : List Char → Prop} {s t : List Char} {ws us : List Sign}
    (hs : SpellsBefore P s ws) (ht : SpellsBefore Q t us) (h : ∀ rest, Q rest → P (t ++ rest)) :
    SpellsBefore Q (s ++ t) (ws ++ us) := by
  obtain ⟨f, hf, hfs⟩ := hs
  obtain ⟨g, hg, hgt⟩ := ht
  refine ⟨fun line => f line ++ g (line + s.count '\n'), fun line => ?_, fun line rest hrest => ?_⟩
  · rw [List.map_append, hf, hg]
  · rw [List.append_assoc, hfs _ _ (h rest hrest), hgt _ _ hrest, Tokens.prepend_prepend,
      List.count_append, Nat.add_assoc]

theorem SpellsBefore.append_spells {P : List Char → Prop} {s t : List Char} {ws us : List Sign}
    (hs : SpellsBefore P s ws) (ht : Spells t us) (h : ∀ rest, P (t ++ rest)) :
    Spells (s ++ t) (ws ++ us) := by
  obtain ⟨ts, hts, hcut⟩ := hs.append (ht.before fun _ => True) fun rest _ => h rest
  exact ⟨ts, hts, fun line rest => hcut line rest trivial⟩

theorem Spells.nil : Spells [] [] := ⟨fun _ => [], fun _ => rfl, fun _ _ => rfl⟩

theorem Spells.append {s t : List Char} {ws us : List Sign} (hs : Spells s ws) (ht : Spells t us) :
    Spells (s ++ t) (ws ++ us) :=
  (hs.before fun _ => True).append_spells ht fun _ => trivial

theorem Spells.flatMap {α : Type} {text : α → List Char} {signs : α → List Sign} {l : List α}
    (h : ∀ a ∈ l, Spells (text a) (signs a)) : Spells (l.flatMap text) (l.flatMap signs) := by
  induction l with
  | nil => exact .nil
  | cons a l ih =>
    simp only [List.flatMap_cons]
    exact (h a (List.mem_cons_self ..)).append (ih fun b hb => h b (List.mem_cons_of_mem _ hb))

/-! ### Single pieces -/

theorem tokenizeFrom_nil (line : Nat) : tokenizeFrom line [] = ⟨[], none⟩ := by
  rw [tokenizeFrom.eq_def]

/-- What is cut off at the first character. -/
theorem tokenizeFrom_cons (line : Nat) (c : Char) (r : List Char) :
    tokenizeFrom line (c :: r) =
      if isSeparator c then tokenizeFrom (if c = '\n' then line + 1 else line) r
      else if c = '#' then tokenizeFrom line (r.dropWhile (!isLineEnd ·))
      else if c = '"' then
        match Quoted.read r with
        | none => ⟨[], some line⟩
        | some (content, rest) =>
          .cons ⟨.string, String.ofList content, line⟩
            (tokenizeFrom (line + content.count '\n') rest)
      else if isMark c then .cons ⟨.mark, c.toString, line⟩ (tokenizeFrom line r)
      else
        .cons ⟨.word, String.ofList (c :: r.takeWhile isWordChar), line⟩
          (tokenizeFrom line (r.dropWhile isWordChar)) := by
  rw [tokenizeFrom.eq_def]
  dsimp only
  split
  · rfl
  · split
    · rfl
    · split
      · split <;> simp_all
      · rfl

theorem tokenizeFrom_separator {c : Char} (h : isSeparator c) (line : Nat) (r : List Char) :
    tokenizeFrom line (c :: r) = tokenizeFrom (line + [c].count '\n') r := by
  rw [tokenizeFrom_cons, if_pos h]
  by_cases hc : c = '\n' <;> simp [hc]

theorem spells_separator {c : Char} (h : isSeparator c) : Spells [c] [] :=
  ⟨fun _ => [], fun _ => rfl, fun line rest => tokenizeFrom_separator h line rest⟩

/-- A text without tokens is passed over. -/
theorem Spells.tokenizeFrom_append {s : List Char} (h : Spells s []) (line : Nat)
    (rest : List Char) :
    tokenizeFrom line (s ++ rest) = tokenizeFrom (line + s.count '\n') rest := by
  obtain ⟨ts, hts, hcut⟩ := h
  rw [hcut, List.map_eq_nil_iff.1 (hts line)]
  rfl

theorem spells_blanks (n : Nat) : Spells (List.replicate n ' ') [] := by
  induction n with
  | zero => exact .nil
  | succ n ih => exact (spells_separator (by decide)).append ih

/-- A token that is cut off in front, on any line and whatever follows, spells its sign. -/
theorem spells_of_cut {s : List Char} {w : Sign}
    (h : ∀ line rest, tokenizeFrom line (s ++ rest) =
      (tokenizeFrom (line + s.count '\n') rest).cons ⟨w.1, w.2, line⟩) : Spells s [w] :=
  ⟨fun line => [⟨w.1, w.2, line⟩], fun _ => rfl, h⟩

theorem tokenizeFrom_mark {c : Char} (h : isMark c) (line : Nat) (rest : List Char) :
    tokenizeFrom line (c :: rest) =
      (tokenizeFrom (line + [c].count '\n') rest).cons ⟨.mark, c.toString, line⟩ := by
  have hc : isSeparator c = false ∧ c ≠ '#' ∧ c ≠ '"' ∧ c ≠ '\n' := by
    simp only [isMark, Bool.or_eq_true, decide_eq_true_eq] at h
    rcases h with ((rfl | rfl) | rfl) | rfl <;> decide
  obtain ⟨h1, h2, h3, h4⟩ := hc
  rw [tokenizeFrom_cons, if_neg (by simp [h1]), if_neg h2, if_neg h3, if_pos h]
  simp [h4]

theorem spells_mark {c : Char} (h : isMark c) : Spells [c] [markSign c] :=
  spells_of_cut (tokenizeFrom_mark h)

theorem dropWhile_append_stop {p : Char → Bool} {w r : List Char} {c : Char} (hw : ∀ x ∈ w, p x)
    (hc : p c = false) : (w ++ c :: r).dropWhile p = c :: r := by
  rw [List.dropWhile_append_of_pos hw, List.dropWhile_cons_of_neg (by simp [hc])]

/-- A text that makes up one word. -/
def IsWord (w : List Char) : Prop := w ≠ [] ∧ ∀ c ∈ w, isWordChar c

theorem isWord_iff {w : List Char} : (w ≠ [] ∧ w.all isWordChar) ↔ IsWord w := by
  rw [IsWord, List.all_eq_true]

instance (w : List Char) : Decidable (IsWord w) := decidable_of_iff _ isWord_iff

theorem isWordChar_iff {c : Char} :
    isWordChar c ↔ isSeparator c = false ∧ isMark c = false ∧ c ≠ '#' ∧ c ≠ '"' := by
  simp [isWordChar, and_assoc]

theorem ne_newline_of_isWordChar {c : Char} (h : isWordChar c) : c ≠ '\n' := by
  rintro rfl
  revert h
  decide

/-- No character of a word is at the start of a text. -/
def NoWordAhead (s : List Char) : Prop := ∀ c ∈ s.head?, isWordChar c = false

theorem noWordAhead_nil : NoWordAhead [] := nofun

theorem noWordAhead_cons {c : Char} (h : isWordChar c = false) (s : List Char) :
    NoWordAhead (c :: s) :=
  fun _ hd => Option.some.inj hd ▸ h

/-- A word ends where no character of a word follows. -/
theorem tokenizeFrom_word {w rest : List Char} (hw : IsWord w) (hrest : NoWordAhead rest)
    (line : Nat) :
    tokenizeFrom line (w ++ rest) =
      (tokenizeFrom (line + w.count '\n') rest).cons ⟨.word, String.ofList w, line⟩ := by
  obtain ⟨hne, hall⟩ := hw
  have hline : w.count '\n' = 0 :=
    List.count_eq_zero_of_not_mem fun h => ne_newline_of_isWordChar (hall _ h) rfl
  cases w with
  | nil => exact absurd rfl hne
  | cons a w =>
    obtain ⟨h1, h2, h3, h4⟩ := isWordChar_iff.1 (hall a (List.mem_cons_self ..))
    have hw : ∀ x ∈ w, isWordChar x := fun x hx => hall x (List.mem_cons_of_mem _ hx)
    have hstop : rest.takeWhile isWordChar = [] ∧ rest.dropWhile isWordChar = rest := by
      cases rest with
      | nil => exact ⟨rfl, rfl⟩
      | cons c rest =>
        have hc : ¬isWordChar c = true := by simp [hrest c rfl]
        exact ⟨List.takeWhile_cons_of_neg hc, List.dropWhile_cons_of_neg hc⟩
    rw [List.cons_append, tokenizeFrom_cons, if_neg (by simp [h1]), if_neg h3, if_neg h4,
      if_neg (by simp [h2]), List.takeWhile_append_of_pos hw, List.dropWhile_append_of_pos hw,
      hstop.1, hstop.2, List.append_nil, hline, Nat.add_zero]

theorem NoWordAhead.append {s rest : List Char} (hs : NoWordAhead s) (hrest : NoWordAhead rest) :
    NoWordAhead (s ++ rest) := by
  cases s with
  | nil => exact hrest
  | cons c s => exact noWordAhead_cons (hs c rfl) _

theorem spellsBefore_word {w : List Char} (hw : IsWord w) :
    SpellsBefore NoWordAhead w [wordSign w] :=
  ⟨fun line => [⟨.word, String.ofList w, line⟩], fun _ => rfl, fun line _ hrest =>
    tokenizeFrom_word hw hrest line⟩

/-- A piece that no word may follow ends with the separator behind it. -/
theorem SpellsBefore.append_separator {s : List Char} {ws : List Sign}
    (hs : SpellsBefore NoWordAhead s ws) {c : Char} (hc : isSeparator c) :
    Spells (s ++ [c]) ws := by
  have hstop : isWordChar c = false := by simp [isWordChar, hc]
  have := hs.append_spells (spells_separator hc) fun rest => noWordAhead_cons hstop rest
  rwa [List.append_nil] at this

/-- A word ends with the separator behind it. -/
theorem spells_word {w : List Char} (hw : IsWord w) {c : Char} (hc : isSeparator c) :
    Spells (w ++ [c]) [wordSign w] := (spellsBefore_word hw).append_separator hc

/-- At the end of a text no word follows. -/
theorem SpellsBefore.tokenize_eq {s : List Char} {ws : List Sign}
    (hs : SpellsBefore NoWordAhead s ws) :
    ∃ ts, tokenize (String.ofList s) = ⟨ts, none⟩ ∧ ts.map Token.sign = ws := by
  obtain ⟨ts, hts, hcut⟩ := hs
  have hall := hcut 1 [] noWordAhead_nil
  rw [List.append_nil, tokenizeFrom_nil, Tokens.prepend, List.append_nil] at hall
  exact ⟨ts 1, by rw [tokenize, String.toList_ofList, hall], hts 1⟩

/-- A string ends with its closing quote, and its content is read however it is written. -/
theorem tokenizeFrom_string {s t : List Char} (h : Quoted.IsEscaped s t) (line : Nat)
    (rest : List Char) : tokenizeFrom line ('"' :: t ++ ['"'] ++ rest) =
      (tokenizeFrom (line + ('"' :: t ++ ['"']).count '\n') rest).cons
        ⟨.string, String.ofList s, line⟩ := by
  have hline : ('"' :: t ++ ['"']).count '\n' = s.count '\n' := by
    rw [List.cons_append, List.count_cons_of_ne (by decide), List.count_append, h.count_newline]
    rfl
  have hsplit : '"' :: t ++ ['"'] ++ rest = '"' :: (t ++ '"' :: rest) := by simp
  rw [hsplit, tokenizeFrom_cons, if_neg (by decide), if_neg (by decide), if_pos rfl, h.read_eq,
    hline]

theorem spells_string (s : List Char) : Spells (Quoted.encode s) [stringSign s] :=
  spells_of_cut (tokenizeFrom_string (Quoted.isEscaped_escape s))

/-- A comment runs to the end of its line. -/
theorem spells_comment {s : List Char} (h : ∀ c ∈ s, (!isLineEnd c) = true) {c : Char}
    (hc : isLineEnd c) : Spells ('#' :: s ++ [c]) [] := by
  refine ⟨fun _ => [], fun _ => rfl, fun line rest => ?_⟩
  have hsep : isSeparator c := by
    simp only [isLineEnd, Bool.or_eq_true, decide_eq_true_eq] at hc
    rcases hc with rfl | rfl <;> decide
  have hcount : ('#' :: s ++ [c]).count '\n' = [c].count '\n' := by
    rw [List.cons_append, List.count_cons_of_ne (by decide), List.count_append,
      List.count_eq_zero_of_not_mem, Nat.zero_add]
    intro hm
    exact absurd (h _ hm) (by decide)
  have hsplit : '#' :: s ++ [c] ++ rest = '#' :: (s ++ c :: rest) := by simp
  rw [hcount, hsplit, tokenizeFrom_cons, if_neg (by decide), if_pos rfl,
    dropWhile_append_stop h (by simp [hc]), tokenizeFrom_separator hsep]
  rfl

end SceneTidy.Vrml

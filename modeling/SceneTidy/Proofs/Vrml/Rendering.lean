import Mathlib.Data.List.Chain
import Mathlib.Data.List.TakeWhile
import SceneTidy.Proofs.Vrml.Cutting

/-!
# Texts that render tokens

Before each token of a text stands a gap of separators and comments (`IsGap`), and the token is
spelled as a word, a string with some of its characters escaped, or a mark (`IsSpelling`).  A
rendering is a row of tokens with their gaps and spellings, and what stands behind the last of them
(`Rendering`); two words that follow each other need a gap.  Every text is a rendering, or it is one
up to a string that is open at its end (`isRendered`).  Main statement: a text is cut into
given tokens exactly if it renders them, and this fails exactly on the texts that are no rendering,
which are those that end inside of a string (`tokenize_iff`).
-/

namespace SceneTidy.Vrml

open Text

/-! ### Texts of tokens -/

/-- A text between tokens: separators, and comments with the ends of their lines. -/
inductive IsGap : List Char → Prop
  | nil : IsGap []
  | separator {c g} (hc : isSeparator c) (h : IsGap g) : IsGap (c :: g)
  | comment {t c g} (ht : ∀ x ∈ t, isLineEnd x = false) (hc : isLineEnd c) (h : IsGap g) :
      IsGap ('#' :: t ++ [c] ++ g)

theorem IsGap.append {g h : List Char} (hg : IsGap g) (hh : IsGap h) : IsGap (g ++ h) := by
  induction hg with
  | nil => exact hh
  | separator hc _ ih => exact .separator hc ih
  | comment ht hc _ ih =>
    rw [List.append_assoc]
    exact .comment ht hc ih

theorem isGap_of_isSeparator {g : List Char} (h : ∀ c ∈ g, isSeparator c) : IsGap g := by
  induction g with
  | nil => exact .nil
  | cons c g ih =>
    obtain ⟨hc, hg⟩ := List.forall_mem_cons.1 h
    exact .separator hc (ih hg)

/-- A text behind the last token: a gap, and a comment behind it or none. -/
inductive IsLastGap : List Char → Prop
  | gap {g} (h : IsGap g) : IsLastGap g
  | comment {g t} (h : IsGap g) (ht : ∀ x ∈ t, isLineEnd x = false) : IsLastGap (g ++ '#' :: t)

/-- A text says a sign. -/
inductive IsSpelling : Sign → List Char → Prop
  | word {w} (h : IsWord w) : IsSpelling (wordSign w) w
  | string {s t} (h : Quoted.IsEscaped s t) : IsSpelling (stringSign s) ('"' :: t ++ ['"'])
  | mark {c} (h : isMark c) : IsSpelling (markSign c) [c]

/-- A token of a text with the gap before it. -/
structure Stretch where
  gap : List Char
  sign : Sign
  spelling : List Char
  isGap : IsGap gap
  isSpelling : IsSpelling sign spelling

namespace Stretch

/-- The text of the gap and the token. -/
def text (p : Stretch) : List Char := p.gap ++ p.spelling

/-- The stretch with more of a gap in front. -/
def behind (p : Stretch) {g : List Char} (hg : IsGap g) : Stretch :=
  { p with gap := g ++ p.gap, isGap := hg.append p.isGap }

theorem text_behind (p : Stretch) {g : List Char} (hg : IsGap g) :
    (p.behind hg).text = g ++ p.text := List.append_assoc ..

/-- Two tokens that follow each other are not run together. -/
def Apart (p q : Stretch) : Prop := p.sign.1 = .word → q.sign.1 = .word → q.gap ≠ []

theorem Apart.behind {p q : Stretch} (h : p.Apart q) {g : List Char} (hg : IsGap g) :
    (p.behind hg).Apart q := h

/-- The tokens of stretches behind a text: each is on the line of its first character. -/
def tokens (before : List Char) : List Stretch → List Token
  | [] => []
  | p :: ps =>
    ⟨p.sign.1, p.sign.2, 1 + (before ++ p.gap).count '\n'⟩ :: tokens (before ++ p.text) ps

end Stretch

/-- A way to write tokens down. -/
structure Rendering where
  stretches : List Stretch
  last : List Char
  apart : stretches.IsChain Stretch.Apart
  isLast : IsLastGap last

namespace Rendering

/-- The whole text. -/
def text (r : Rendering) : List Char := r.stretches.flatMap Stretch.text ++ r.last

/-- The tokens that are written down. -/
def tokens (r : Rendering) : List Token := Stretch.tokens [] r.stretches

end Rendering

/-! ### Renderings are cut as they say -/

theorem IsGap.spells {g : List Char} (h : IsGap g) : Spells g [] := by
  induction h with
  | nil => exact .nil
  | separator hc _ ih => exact (spells_separator hc).append ih
  | comment ht hc _ ih => exact (spells_comment (fun x hx => by simp [ht x hx]) hc).append ih

/-- A gap is passed over. -/
theorem IsGap.tokenizeFrom_append {g : List Char} (h : IsGap g) (line : Nat) (rest : List Char) :
    tokenizeFrom line (g ++ rest) = tokenizeFrom (line + g.count '\n') rest :=
  h.spells.tokenizeFrom_append line rest

theorem IsLastGap.tokenizeFrom_eq {g : List Char} (h : IsLastGap g) (line : Nat) :
    tokenizeFrom line g = ⟨[], none⟩ := by
  cases h with
  | gap h =>
    have hskip := h.tokenizeFrom_append line []
    rwa [List.append_nil, tokenizeFrom_nil] at hskip
  | @comment g t h ht =>
    have hdrop : t.dropWhile (!isLineEnd ·) = [] := by
      have hall := @List.dropWhile_append_of_pos _ (!isLineEnd ·) t [] fun x hx => by
        simp [ht x hx]
      rwa [List.append_nil] at hall
    rw [h.tokenizeFrom_append, tokenizeFrom_cons, if_neg (by decide), if_pos rfl, hdrop,
      tokenizeFrom_nil]

theorem IsGap.noWordAhead {g : List Char} (h : IsGap g) (hne : g ≠ []) (rest : List Char) :
    NoWordAhead (g ++ rest) := by
  cases h with
  | nil => exact absurd rfl hne
  | separator hc _ => exact noWordAhead_cons (by simp [isWordChar, hc]) _
  | comment _ _ _ => exact noWordAhead_cons (by decide) _

theorem IsLastGap.noWordAhead {g : List Char} (h : IsLastGap g) : NoWordAhead g := by
  cases h with
  | gap h =>
    by_cases hnil : g = []
    · exact hnil ▸ noWordAhead_nil
    · have hahead := h.noWordAhead hnil []
      rwa [List.append_nil] at hahead
  | @comment g t h _ =>
    by_cases hnil : g = []
    · exact hnil ▸ noWordAhead_cons (by decide) t
    · exact h.noWordAhead hnil _

/-- A token is cut off, and a word is not run together with what follows. -/
theorem IsSpelling.tokenizeFrom_append {w : Sign} {s rest : List Char} (h : IsSpelling w s)
    (hrest : w.1 = .word → NoWordAhead rest) (line : Nat) :
    tokenizeFrom line (s ++ rest) =
      (tokenizeFrom (line + s.count '\n') rest).cons ⟨w.1, w.2, line⟩ := by
  cases h with
  | word h => exact tokenizeFrom_word h (hrest rfl) line
  | string h => exact tokenizeFrom_string h line rest
  | mark h => exact tokenizeFrom_mark h line rest

theorem IsSpelling.noWordAhead {w : Sign} {s : List Char} (h : IsSpelling w s) (hw : w.1 ≠ .word)
    (rest : List Char) : NoWordAhead (s ++ rest) := by
  cases h with
  | word _ => exact absurd rfl hw
  | string _ => exact noWordAhead_cons (by decide) _
  | mark hc => exact noWordAhead_cons (by simp [isWordChar, hc]) _

/-- A word is not run together with a token that is apart from it. -/
theorem Stretch.Apart.noWordAhead {p q : Stretch} (h : p.Apart q) (hp : p.sign.1 = .word)
    (rest : List Char) : NoWordAhead (q.text ++ rest) := by
  rw [Stretch.text, List.append_assoc]
  by_cases hgap : q.gap = []
  · rw [hgap]
    exact q.isSpelling.noWordAhead (fun hq => h hp hq hgap) rest
  · exact q.isGap.noWordAhead hgap _

theorem tokenizeFrom_stretches {ps : List Stretch} (h : ps.IsChain Stretch.Apart)
    {rest : List Char} (hrest : NoWordAhead rest) (before : List Char) :
    tokenizeFrom (1 + before.count '\n') (ps.flatMap Stretch.text ++ rest) =
      (tokenizeFrom (1 + (before ++ ps.flatMap Stretch.text).count '\n') rest).prepend
        (Stretch.tokens before ps) := by
  induction ps generalizing before with
  | nil =>
    rw [List.flatMap_nil, List.nil_append, List.append_nil]
    rfl
  | cons p ps ih =>
    have hahead : p.sign.1 = .word → NoWordAhead (ps.flatMap Stretch.text ++ rest) := by
      intro hp
      cases ps with
      | nil => exact hrest
      | cons q ps =>
        rw [List.flatMap_cons, List.append_assoc]
        exact (List.isChain_cons_cons.1 h).1.noWordAhead hp _
    have hline : 1 + before.count '\n' + p.gap.count '\n' + p.spelling.count '\n' =
        1 + (before ++ p.text).count '\n' := by
      rw [Stretch.text, List.count_append, List.count_append]
      omega
    rw [List.flatMap_cons, Stretch.text, List.append_assoc, List.append_assoc,
      p.isGap.tokenizeFrom_append, p.isSpelling.tokenizeFrom_append hahead, hline,
      ih h.tail (before ++ p.text), Tokens.cons_eq_prepend, Tokens.prepend_prepend,
      List.append_assoc before, Nat.add_assoc, ← List.count_append]
    rfl

namespace Rendering

variable (r : Rendering)

theorem tokenizeFrom_append {rest : List Char} (hrest : NoWordAhead (r.last ++ rest)) :
    tokenizeFrom 1 (r.text ++ rest) =
      (tokenizeFrom (1 + (r.stretches.flatMap Stretch.text).count '\n') (r.last ++ rest)).prepend
        r.tokens := by
  rw [text, List.append_assoc]
  exact tokenizeFrom_stretches r.apart hrest []

theorem tokenizeFrom_text : tokenizeFrom 1 r.text = ⟨r.tokens, none⟩ := by
  have hahead : NoWordAhead (r.last ++ []) := by
    rw [List.append_nil]
    exact r.isLast.noWordAhead
  have hcut := r.tokenizeFrom_append hahead
  rw [List.append_nil, List.append_nil, r.isLast.tokenizeFrom_eq] at hcut
  rw [hcut, Tokens.prepend, List.append_nil]

/-- What stands behind a rendering is a string that is open at the end of the text. -/
def Opens (rest : List Char) : Prop :=
  IsGap r.last ∧ ∃ t, Quoted.IsOpen t ∧ rest = '"' :: t

variable {r}

theorem Opens.tokenizeFrom_eq {rest : List Char} (h : r.Opens rest) :
    tokenizeFrom 1 (r.text ++ rest) = ⟨r.tokens, some (1 + r.text.count '\n')⟩ := by
  obtain ⟨hgap, t, ht, rfl⟩ := h
  have hahead : NoWordAhead (r.last ++ '"' :: t) := by
    by_cases hnil : r.last = []
    · rw [hnil]
      exact noWordAhead_cons (by decide) t
    · exact hgap.noWordAhead hnil _
  have hopen : ∀ line, tokenizeFrom line ('"' :: t) = ⟨[], some line⟩ := by
    intro line
    rw [tokenizeFrom_cons, if_neg (by decide), if_neg (by decide), if_pos rfl, ht.read_eq]
  rw [r.tokenizeFrom_append hahead, hgap.tokenizeFrom_append, hopen, Nat.add_assoc,
    ← List.count_append, Tokens.prepend, List.append_nil]
  rfl

end Rendering

/-! ### Every text is a rendering, or ends in a string -/

theorem IsGap.append_isLastGap {g h : List Char} (hg : IsGap g) (hh : IsLastGap h) :
    IsLastGap (g ++ h) := by
  cases hh with
  | gap hh => exact .gap (hg.append hh)
  | comment hh ht =>
    rw [← List.append_assoc]
    exact .comment (hg.append hh) ht

theorem IsSpelling.exists_eq_cons {w : Sign} {s : List Char} (h : IsSpelling w s)
    (hw : w.1 = .word) : ∃ c t, s = c :: t ∧ isWordChar c = true := by
  cases h with
  | word h =>
    obtain ⟨c, t, rfl⟩ := List.exists_cons_of_ne_nil h.1
    exact ⟨c, t, rfl, h.2 c (List.mem_cons_self ..)⟩
  | string _ => cases hw
  | mark _ => cases hw

namespace Rendering

/-- A gap before a rendering belongs to the gap of its first token. -/
theorem exists_skip {g : List Char} (hg : IsGap g) (r : Rendering) : ∃ r' : Rendering,
    r'.text = g ++ r.text ∧ ∀ rest, r.Opens rest → r'.Opens rest := by
  obtain ⟨ps, last, hapart, hlast⟩ := r
  cases ps with
  | nil =>
    exact ⟨⟨[], g ++ last, .nil, hg.append_isLastGap hlast⟩, rfl, fun rest h =>
      ⟨hg.append h.1, h.2⟩⟩
  | cons p ps =>
    refine ⟨⟨p.behind hg :: ps, last, hapart.imp_head (·.behind hg), hlast⟩, ?_, fun rest h => h⟩
    rw [text, text, List.flatMap_cons, List.flatMap_cons, p.text_behind]
    simp only [List.append_assoc]

/-- A token before a rendering has no gap. -/
theorem exists_spell {w : Sign} {s rest : List Char} (h : IsSpelling w s) (r : Rendering)
    (hrest : w.1 = .word → NoWordAhead (r.text ++ rest)) : ∃ r' : Rendering,
    r'.text = s ++ r.text ∧ ∀ rest, r.Opens rest → r'.Opens rest := by
  have hapart : (⟨[], w, s, .nil, h⟩ :: r.stretches).IsChain Stretch.Apart := by
    refine List.isChain_cons.2 ⟨fun q hq hw hword hgap => ?_, r.apart⟩
    obtain ⟨ps, hps⟩ := List.head?_eq_some_iff.1 hq
    obtain ⟨c, t, hc, hchar⟩ := q.isSpelling.exists_eq_cons hword
    have hahead := hrest hw
    rw [text, hps, List.flatMap_cons, Stretch.text, hgap, hc] at hahead
    rw [hahead c rfl] at hchar
    cases hchar
  refine ⟨⟨_, r.last, hapart, r.isLast⟩, ?_, fun rest h => h⟩
  rw [text, text, List.flatMap_cons, List.append_assoc]
  rfl

end Rendering

/-- A word stands at the start of a text that starts with one of its characters. -/
theorem exists_isWord {c : Char} (hc : isWordChar c) (s : List Char) :
    ∃ w rest, c :: s = w ++ rest ∧ IsWord w ∧ NoWordAhead rest := by
  refine ⟨c :: s.takeWhile isWordChar, s.dropWhile isWordChar, ?_, ⟨List.cons_ne_nil _ _, ?_⟩,
    fun d hd => ?_⟩
  · rw [List.cons_append, List.takeWhile_append_dropWhile]
  · exact List.forall_mem_cons.2 ⟨hc, fun x hx => List.mem_takeWhile_imp hx⟩
  · have hhead := List.head?_dropWhile_not isWordChar s
    rwa [Option.mem_def.1 hd] at hhead

/-- A comment is closed by the first line end, or ends the text. -/
theorem exists_isLineEnd (s : List Char) : (∀ x ∈ s, isLineEnd x = false) ∨
    ∃ t c rest, s = t ++ c :: rest ∧ (∀ x ∈ t, isLineEnd x = false) ∧ isLineEnd c = true := by
  induction s with
  | nil => exact .inl fun x hx => absurd hx List.not_mem_nil
  | cons c s ih =>
    cases hc : isLineEnd c with
    | true => exact .inr ⟨[], c, s, rfl, fun x hx => absurd hx List.not_mem_nil, hc⟩
    | false =>
      rcases ih with hs | ⟨t, d, rest, rfl, ht, hd⟩
      · exact .inl (List.forall_mem_cons.2 ⟨hc, hs⟩)
      · exact .inr ⟨c :: t, d, rest, rfl, List.forall_mem_cons.2 ⟨hc, ht⟩, hd⟩

/-- A text is a rendering, or one up to a string that is open at its end. -/
def IsRendered (s : List Char) : Prop :=
  ∃ (r : Rendering) (rest : List Char), s = r.text ++ rest ∧ (rest = [] ∨ r.Opens rest)

theorem IsRendered.skip {g s : List Char} (h : IsRendered s) (hg : IsGap g) :
    IsRendered (g ++ s) := by
  obtain ⟨r, rest, rfl, hrest⟩ := h
  obtain ⟨r', htext, hopens⟩ := r.exists_skip hg
  exact ⟨r', rest, by rw [htext, List.append_assoc], hrest.imp_right (hopens rest)⟩

theorem IsRendered.spell {w : Sign} {t s : List Char} (h : IsRendered s) (ht : IsSpelling w t)
    (hs : w.1 = .word → NoWordAhead s) : IsRendered (t ++ s) := by
  obtain ⟨r, rest, rfl, hrest⟩ := h
  obtain ⟨r', htext, hopens⟩ := r.exists_spell ht hs
  exact ⟨r', rest, by rw [htext, List.append_assoc], hrest.imp_right (hopens rest)⟩

theorem isRendered (s : List Char) : IsRendered s := by
  induction hlen : s.length using Nat.strong_induction_on generalizing s with
  | _ n ih =>
    have hshorter : ∀ u, u.length < s.length → IsRendered u := fun u hu => ih _ (hlen ▸ hu) u rfl
    cases s with
    | nil => exact ⟨⟨[], [], .nil, .gap .nil⟩, [], rfl, .inl rfl⟩
    | cons c u =>
      by_cases hsep : isSeparator c
      · exact (hshorter u (by simp)).skip (.separator hsep .nil)
      by_cases hcomment : c = '#'
      · subst hcomment
        rcases exists_isLineEnd u with hu | ⟨t, e, v, rfl, ht, he⟩
        · exact ⟨⟨[], '#' :: u, .nil, .comment .nil hu⟩, [], by simp [Rendering.text], .inl rfl⟩
        · have hrest := (hshorter v (by simp; omega)).skip (.comment ht he .nil)
          rwa [List.append_nil, List.append_assoc] at hrest
      by_cases hquote : c = '"'
      · subst hquote
        rcases Quoted.exists_isEscaped_or_isOpen u with ⟨content, t, v, rfl, ht⟩ | hu
        · have hrest := (hshorter v (by simp; omega)).spell (.string ht) nofun
          rwa [List.append_assoc] at hrest
        · exact ⟨⟨[], [], .nil, .gap .nil⟩, '"' :: u, rfl, .inr ⟨.nil, u, hu, rfl⟩⟩
      by_cases hmark : isMark c
      · exact (hshorter u (by simp)).spell (.mark hmark) nofun
      · have hword : isWordChar c :=
          isWordChar_iff.2 ⟨by simpa using hsep, by simpa using hmark, hcomment, hquote⟩
        obtain ⟨w, v, hsplit, hw, hv⟩ := exists_isWord hword u
        have hpos : 0 < w.length := List.length_pos_of_ne_nil hw.1
        rw [hsplit] at hshorter ⊢
        exact (hshorter v (by rw [List.length_append]; omega)).spell (.word hw) fun _ => hv

/-- **A text is cut into tokens exactly if it renders them.**  Each token stands on the line of its
first character; a text that ends inside of a string is cut up to there, and the failure tells the
line of the open quote.  So cutting fails exactly on the texts that are no rendering. -/
theorem tokenize_iff (s : String) :
    (∀ ts, tokenize s = ⟨ts, none⟩ ↔ ∃ r : Rendering, s.toList = r.text ∧ ts = r.tokens) ∧
    (∀ ts line, tokenize s = ⟨ts, some line⟩ ↔ ∃ (r : Rendering) (rest : List Char), r.Opens rest ∧
      s.toList = r.text ++ rest ∧ ts = r.tokens ∧ line = 1 + r.text.count '\n') ∧
    ((tokenize s).openString.isSome ↔ ¬∃ r : Rendering, s.toList = r.text) := by
  have htext : ∀ r : Rendering, s.toList = r.text → tokenize s = ⟨r.tokens, none⟩ := by
    intro r hr
    rw [tokenize, hr, r.tokenizeFrom_text]
  have hopen : ∀ (r : Rendering) (rest : List Char), r.Opens rest → s.toList = r.text ++ rest →
      tokenize s = ⟨r.tokens, some (1 + r.text.count '\n')⟩ := by
    intro r rest h hr
    rw [tokenize, hr, h.tokenizeFrom_eq]
  obtain ⟨r, rest, hsplit, hrest⟩ := isRendered s.toList
  -- of the two cases that the text can be in, what is cut tells which one holds
  have hcases : s.toList = r.text ∧ tokenize s = ⟨r.tokens, none⟩ ∨
      r.Opens rest ∧ tokenize s = ⟨r.tokens, some (1 + r.text.count '\n')⟩ := by
    rcases hrest with rfl | hrest
    · rw [List.append_nil] at hsplit
      exact .inl ⟨hsplit, htext r hsplit⟩
    · exact .inr ⟨hrest, hopen r rest hrest hsplit⟩
  refine ⟨fun ts => ⟨fun h => ?_, ?_⟩, fun ts line => ⟨fun h => ?_, ?_⟩, ?_⟩
  · rcases hcases with ⟨hr, hcut⟩ | ⟨-, hcut⟩
    · cases h.symm.trans hcut
      exact ⟨r, hr, rfl⟩
    · cases h.symm.trans hcut
  · rintro ⟨r, hr, rfl⟩
    exact htext r hr
  · rcases hcases with ⟨-, hcut⟩ | ⟨hr, hcut⟩
    · cases h.symm.trans hcut
    · cases h.symm.trans hcut
      exact ⟨r, rest, hr, hsplit, rfl, rfl⟩
  · rintro ⟨r, rest, h, hr, rfl, rfl⟩
    exact hopen r rest h hr
  · rcases hcases with ⟨hr, hcut⟩ | ⟨-, hcut⟩
    · simpa [hcut] using ⟨r, hr⟩
    · rw [hcut]
      refine ⟨fun _ => ?_, fun _ => rfl⟩
      rintro ⟨r', hr'⟩
      have hopenString := congrArg Tokens.openString (hcut.symm.trans (htext r' hr'))
      exact absurd hopenString (Option.some_ne_none _)

end SceneTidy.Vrml

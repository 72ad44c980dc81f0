import Mathlib.Data.List.TakeWhile
import SceneTidy.Field.Text

/-!
# The characters of literals

What reads as a number or a truth value is made of hexadecimal digits, signs, points, low lines and
the letters of a few words, with blanks at its ends (`isLiteralChar`).  A reader of a part of a
literal passes over such characters only (`Spends`), so one that comes to the end of its text found
no others.  Main statement: the words that a field is read from are literals, but for fields of
strings (`FieldKind.isLiteral_of_read`).
-/

namespace SceneTidy

open Text

/-- Whether the character may stand in a number or a truth value: as a blank, a digit, a sign, a
point or a low line, as a letter of a word, or in the mark of base sixteen. -/
def isLiteralChar (c : Char) : Bool :=
  isNumberBlank c || (hexDigitValue? c).isSome || ['+', '-', '.', '_'].contains c ||
    "aefilnrstuxy".toList.contains c.toLower

/-- A text has characters of literals only. -/
def IsLiteral (s : List Char) : Prop := ∀ c ∈ s, isLiteralChar c

/-- The characters of a text that are not left in a rest may stand in a literal. -/
def Spends (s rest : List Char) : Prop := ∀ c ∈ s, isLiteralChar c ∨ c ∈ rest

variable {s r rest : List Char} {c : Char} {value? : Char → Option Nat}

namespace Spends

theorem refl (s : List Char) : Spends s s := fun _ => .inr

theorem trans (h : Spends s r) (h' : Spends r rest) : Spends s rest := fun c hc =>
  (h c hc).elim .inl (h' c)

theorem cons (hc : isLiteralChar c) (h : Spends s rest) : Spends (c :: s) rest :=
  List.forall_mem_cons.2 ⟨.inl hc, h⟩

theorem isLiteral (h : Spends s r) (hr : IsLiteral r) : IsLiteral s := fun c hc =>
  (h c hc).elim id (hr c)

end Spends

theorem isLiteral_nil : IsLiteral [] := fun _ hc => absurd hc List.not_mem_nil

/-! ### Parts of literals -/

theorem isLiteralChar_of_isNumberBlank (h : isNumberBlank c) : isLiteralChar c := by
  simp [isLiteralChar, h]

theorem isLiteralChar_of_hexDigitValue? (h : (hexDigitValue? c).isSome) : isLiteralChar c := by
  simp [isLiteralChar, h]

theorem isLiteralChar_of_digitValue? (h : (digitValue? c).isSome) : isLiteralChar c := by
  obtain ⟨d, hd⟩ := Option.isSome_iff_exists.1 h
  exact isLiteralChar_of_hexDigitValue? (by rw [hexDigitValue?, hd]; rfl)

theorem isLiteralChar_of_eq_or {d e : Char} (hd : isLiteralChar d) (he : isLiteralChar e)
    (h : (c = d || c = e) = true) : isLiteralChar c := by
  simp only [Bool.or_eq_true, decide_eq_true_eq] at h
  rcases h with rfl | rfl
  · exact hd
  · exact he

theorem spends_dropWhile {p : Char → Bool} (hp : ∀ c, p c = true → isLiteralChar c)
    (s : List Char) : Spends s (s.dropWhile p) := by
  intro c hc
  rw [← List.takeWhile_append_dropWhile (p := p) (l := s)] at hc
  exact (List.mem_append.1 hc).imp_left fun h => hp c (List.mem_takeWhile_imp h)

theorem spends_stripBy (s : List Char) : Spends s (stripBy isNumberBlank s) := by
  have hdrop := spends_dropWhile fun c => isLiteralChar_of_isNumberBlank (c := c)
  refine (hdrop s).trans fun c hc => ?_
  have hback := hdrop _ c (List.mem_reverse.2 hc)
  exact hback.imp_right List.mem_reverse.2

theorem spends_takeSign (s : List Char) : Spends s (takeSign s).2 := by
  unfold takeSign
  split
  · exact (Spends.refl _).cons (by decide)
  · exact (Spends.refl _).cons (by decide)
  · exact .refl _

theorem spends_digitRun (hv : ∀ c, (value? c).isSome → isLiteralChar c) (after : Bool)
    (s : List Char) : Spends s (digitRun value? after s).2 := by
  induction s generalizing after with
  | nil => exact .refl []
  | cons c s ih =>
    rw [digitRun]
    split
    · next d hd => exact (ih true).cons (hv c (by rw [hd]; rfl))
    · split
      · next hline =>
        simp only [Bool.and_eq_true, decide_eq_true_eq] at hline
        obtain ⟨⟨-, rfl⟩, -⟩ := hline
        exact (ih false).cons (by decide)
      · exact .refl _

theorem spends_digits (after : Bool) (s : List Char) :
    Spends s (digitRun digitValue? after s).2 :=
  spends_digitRun (fun _ => isLiteralChar_of_digitValue?) after s

theorem spends_takeFraction (s : List Char) : Spends s (takeFraction s).2 := by
  unfold takeFraction
  split
  · exact (spends_digits false _).cons (by decide)
  · exact .refl _

/-- A word in any case, whose letters are those of literals. -/
theorem isLiteral_of_toLower {w : String} (hw : w.toList.all "aefilnrstuxy".toList.contains)
    (h : String.ofList (toLower s) = w) : IsLiteral s := by
  intro c hc
  have hmem : c.toLower ∈ w.toList := by
    rw [← h, String.toList_ofList, toLower]
    exact List.mem_map_of_mem hc
  have hletter := List.all_eq_true.1 hw _ hmem
  rw [isLiteralChar, hletter, Bool.or_true]

/-! ### Literals -/

theorem isLiteral_of_readExponent? {e : Int} (h : readExponent? s = some e) : IsLiteral s := by
  unfold readExponent? at h
  split at h
  · exact isLiteral_nil
  · next c r =>
    split at h
    · next hc =>
      have hmark := isLiteralChar_of_eq_or (by decide) (by decide) hc
      have hrun := (spends_takeSign r).trans (spends_digits false _)
      dsimp only at h
      split at h
      · next hdigits =>
        rw [hdigits] at hrun
        exact (hrun.cons hmark).isLiteral isLiteral_nil
      · cases h
    · cases h

theorem isLiteral_of_readMagnitude? {rank : Fin (infRank + 1)}
    (h : readMagnitude? s = some rank) : IsLiteral s := by
  have hrun := (spends_digits false s).trans (spends_takeFraction _)
  simp only [readMagnitude?] at h
  split at h
  · cases h
  · obtain ⟨e, he, -⟩ := Option.map_eq_some_iff.1 h
    exact hrun.isLiteral (isLiteral_of_readExponent? he)

theorem isLiteral_of_readReal? {x : Binary64} (h : readReal? s = some x) : IsLiteral s := by
  refine ((spends_stripBy s).trans (spends_takeSign _)).isLiteral ?_
  simp only [readReal?] at h
  split at h
  · next hword => exact isLiteral_of_toLower (by decide) hword
  · split at h
    · next hword =>
      simp only [Bool.or_eq_true, decide_eq_true_eq] at hword
      rcases hword with hword | hword
      · exact isLiteral_of_toLower (by decide) hword
      · exact isLiteral_of_toLower (by decide) hword
    · obtain ⟨rank, hrank, -⟩ := Option.map_eq_some_iff.1 h
      exact isLiteral_of_readMagnitude? hrank

theorem isLiteral_of_readDigits? {base : Nat} {negative : Bool} {n : Int}
    (hv : ∀ c, (value? c).isSome → isLiteralChar c)
    (h : readDigits? value? base negative s = some n) : IsLiteral s := by
  have hrun := spends_digitRun hv false s
  unfold readDigits? at h
  split at h
  · next hdigits =>
    rw [hdigits] at hrun
    exact hrun.isLiteral isLiteral_nil
  · cases h

theorem isLiteral_of_readHexInteger? {n : Int} (h : readHexInteger? s = some n) : IsLiteral s := by
  have hhex : ∀ {negative : Bool} {r : List Char},
      readDigits? hexDigitValue? 16 negative r = some n → IsLiteral r := fun h =>
    isLiteral_of_readDigits? (fun _ => isLiteralChar_of_hexDigitValue?) h
  refine ((spends_stripBy s).trans (spends_takeSign _)).isLiteral ?_
  simp only [readHexInteger?] at h
  split at h
  · next x r hsplit =>
    rw [hsplit]
    split at h
    · next hx =>
      have hmark := isLiteralChar_of_eq_or (by decide) (by decide) hx
      refine List.forall_mem_cons.2 ⟨by decide, List.forall_mem_cons.2 ⟨hmark, ?_⟩⟩
      split at h
      · exact List.forall_mem_cons.2 ⟨by decide, hhex h⟩
      · exact hhex h
    · cases h
  · cases h

theorem isLiteral_of_readPrefixedInteger? {n : Int} (h : readPrefixedInteger? s = some n) :
    IsLiteral s := by
  unfold readPrefixedInteger? at h
  split at h
  · exact isLiteral_of_readHexInteger? h
  · exact ((spends_stripBy s).trans (spends_takeSign _)).isLiteral
      (isLiteral_of_readDigits? (fun _ => isLiteralChar_of_digitValue?) h)

theorem isLiteral_of_readBool? {b : Bool} (h : readBool? s = some b) : IsLiteral s := by
  simp only [readBool?] at h
  split at h
  · next hword => exact isLiteral_of_toLower (by decide) hword
  · split at h
    · next hword => exact isLiteral_of_toLower (by decide) hword
    · cases h

/-! ### Words of fields -/

namespace ItemKind

variable {k : ItemKind} {parts : List String}

theorem isLiteral_of_read? (hk : k ≠ .string) {ws : List (List Char)} {v : k.Value}
    (h : k.read? ws = some v) : ∀ w ∈ ws, IsLiteral w := by
  -- the numbers of a vector are read one after the other
  have hbind : ∀ {α : Type} {w : List Char} {f : Binary64 → Option α} {a : α},
      (readReal? w >>= f) = some a → IsLiteral w ∧ ∃ x, f x = some a := fun h => by
    obtain ⟨x, hx, hf⟩ := Option.bind_eq_some_iff.1 h
    exact ⟨isLiteral_of_readReal? hx, x, hf⟩
  unfold read? at h
  split at h
  · exact List.forall_mem_singleton.2 (isLiteral_of_readBool? h)
  · exact List.forall_mem_singleton.2 (isLiteral_of_readPrefixedInteger? h)
  · exact List.forall_mem_singleton.2 (isLiteral_of_readReal? h)
  · exact List.forall_mem_singleton.2 (isLiteral_of_readReal? h)
  · exact absurd rfl hk
  · obtain ⟨h₁, _, h⟩ := hbind h
    obtain ⟨h₂, -⟩ := hbind h
    simp [h₁, h₂]
  · obtain ⟨h₁, _, h⟩ := hbind h
    obtain ⟨h₂, _, h⟩ := hbind h
    obtain ⟨h₃, -⟩ := hbind h
    simp [h₁, h₂, h₃]
  · obtain ⟨h₁, _, h⟩ := hbind h
    obtain ⟨h₂, _, h⟩ := hbind h
    obtain ⟨h₃, -⟩ := hbind h
    simp [h₁, h₂, h₃]
  · obtain ⟨h₁, _, h⟩ := hbind h
    obtain ⟨h₂, _, h⟩ := hbind h
    obtain ⟨h₃, _, h⟩ := hbind h
    obtain ⟨h₄, -⟩ := hbind h
    simp [h₁, h₂, h₃, h₄]
  · cases h

theorem isLiteral_of_read (hk : k ≠ .string) {v : k.Value} (h : k.read parts = .ok v) :
    ∀ w ∈ parts, IsLiteral w.toList := by
  unfold read at h
  split at h
  · split at h
    · next hread => exact fun w hw => isLiteral_of_read? hk hread _ (List.mem_map_of_mem hw)
    · cases h
  · cases h

theorem isLiteral_of_readItems (hk : k ≠ .string) {n : Nat} {vs : List k.Value}
    (hlength : parts.length ≤ n * k.components) (h : k.readItems n parts = .ok vs) :
    ∀ w ∈ parts, IsLiteral w.toList := by
  induction n generalizing parts vs with
  | zero =>
    obtain rfl := List.eq_nil_of_length_eq_zero (Nat.le_zero.1 (Nat.zero_mul _ ▸ hlength))
    exact fun _ hw => absurd hw List.not_mem_nil
  | succ n ih =>
    rw [readItems] at h
    cases hfirst : k.read (parts.take k.components) with
    | error e =>
      rw [hfirst] at h
      cases h
    | ok v =>
      cases hmore : k.readItems n (parts.drop k.components) with
      | error e =>
        rw [hfirst, hmore] at h
        cases h
      | ok ws =>
        have hrest : (parts.drop k.components).length ≤ n * k.components := by
          rw [List.length_drop]
          rw [Nat.succ_mul] at hlength
          omega
        intro w hw
        rw [← List.take_append_drop k.components parts] at hw
        exact (List.mem_append.1 hw).elim (isLiteral_of_read hk hfirst w) (ih hrest hmore w)

end ItemKind

/-- **The words that a field is read from are literals, but for a field of strings.** -/
theorem FieldKind.isLiteral_of_read {kind : FieldKind} (hk : kind.isText = false)
    {parts : List String} {v : FieldValue} (h : kind.read parts = .ok v) :
    ∀ w ∈ parts, IsLiteral w.toList := by
  cases kind with
  | one k =>
    cases hread : k.read parts with
    | error e =>
      rw [read, hread] at h
      cases h
    | ok v => exact ItemKind.isLiteral_of_read (isText_one_iff.1 hk) hread
  | many k =>
    rw [read, ItemKind.readList] at h
    split at h
    · next hmod =>
      cases hread : k.readItems (parts.length / k.components) parts with
      | error e =>
        rw [hread] at h
        cases h
      | ok vs =>
        refine ItemKind.isLiteral_of_readItems (isText_many_iff.1 hk) (Nat.le_of_eq ?_) hread
        exact (Nat.div_mul_cancel (Nat.dvd_of_mod_eq_zero hmod)).symm
    · cases h
  | node =>
    rw [read] at h
    split at h <;> cases h
  | nodes =>
    rw [read] at h
    split at h
    · next hnil => exact fun w hw => absurd (hnil ▸ hw) List.not_mem_nil
    · cases h

end SceneTidy

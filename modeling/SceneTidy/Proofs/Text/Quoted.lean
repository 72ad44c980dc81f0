import SceneTidy.Text.Quoted

/-!
# Ways to write a string

The content of a string can be written in several ways between its quotes: a quote and a backslash
have a backslash before them, and any other character may have one (`IsEscaped`).  Main statements:
behind an opening quote a string is read exactly if it is written there with its closing quote
behind it (`read_eq_some_iff`), and none exactly if the text ends inside of it
(`read_eq_none_iff`).
-/

namespace SceneTidy.Text.Quoted

/-- A content, and a text that says it between quotes. -/
inductive IsEscaped : List Char → List Char → Prop
  | nil : IsEscaped [] []
  | plain {c s t} (hq : c ≠ '"') (hb : c ≠ '\\') (h : IsEscaped s t) : IsEscaped (c :: s) (c :: t)
  | escaped {c s t} (h : IsEscaped s t) : IsEscaped (c :: s) ('\\' :: c :: t)

/-- A text behind an opening quote that ends inside of the string. -/
inductive IsOpen : List Char → Prop
  | content {s u} (h : IsEscaped s u) : IsOpen u
  | backslash {s u} (h : IsEscaped s u) : IsOpen (u ++ ['\\'])

variable {s t u rest : List Char}

theorem read_plain {c : Char} (hq : c ≠ '"') (hb : c ≠ '\\') (r : List Char) :
    read (c :: r) = (read r).map fun (s, rest) => (c :: s, rest) := by
  cases r <;> simp [read, hb]

/-! ### Reading what is written -/

theorem IsEscaped.read_eq (h : IsEscaped s t) (rest : List Char) :
    read (t ++ '"' :: rest) = some (s, rest) := by
  induction h with
  | nil => rfl
  | plain hq hb _ ih => rw [List.cons_append, read_plain hq hb, ih, Option.map_some]
  | escaped _ ih => rw [List.cons_append, List.cons_append, read, ih, Option.map_some]

/-- A text that ends behind some content is read as the text behind that. -/
theorem IsEscaped.read_append (h : IsEscaped s t) (hu : read u = none) :
    read (t ++ u) = none := by
  induction h with
  | nil => exact hu
  | plain hq hb _ ih => rw [List.cons_append, read_plain hq hb, ih, Option.map_none]
  | escaped _ ih => rw [List.cons_append, List.cons_append, read, ih, Option.map_none]

theorem IsOpen.read_eq (h : IsOpen t) : read t = none := by
  cases h with
  | content h =>
    have hnone := h.read_append (u := []) rfl
    rwa [List.append_nil] at hnone
  | backslash h => exact h.read_append rfl

/-! ### What is read is written -/

theorem IsOpen.cons {c : Char} (hq : c ≠ '"') (hb : c ≠ '\\') (h : IsOpen t) : IsOpen (c :: t) := by
  cases h with
  | content h => exact .content (.plain hq hb h)
  | backslash h => exact .backslash (.plain hq hb h)

theorem IsOpen.escaped (c : Char) (h : IsOpen t) : IsOpen ('\\' :: c :: t) := by
  cases h with
  | content h => exact .content (.escaped h)
  | backslash h => exact .backslash (.escaped h)

/-- Behind an opening quote, the string is closed or the text ends inside of it. -/
theorem exists_isEscaped_or_isOpen (t : List Char) :
    (∃ s u rest, t = u ++ '"' :: rest ∧ IsEscaped s u) ∨ IsOpen t := by
  fun_induction read t with
  | case1 => exact .inr (.content .nil)
  | case2 r => exact .inl ⟨[], [], r, rfl, .nil⟩
  | case3 c r ih =>
    rcases ih with ⟨s, u, rest, rfl, h⟩ | h
    · exact .inl ⟨_, _, rest, rfl, .escaped h⟩
    · exact .inr (h.escaped c)
  | case4 r _ hlast =>
    cases r with
    | nil => exact .inr (.backslash .nil)
    | cons c r => exact absurd rfl (hlast c r rfl)
  | case5 c r hq _ hb ih =>
    rcases ih with ⟨s, u, rest, rfl, h⟩ | h
    · exact .inl ⟨_, _, rest, rfl, .plain hq hb h⟩
    · exact .inr (h.cons hq hb)

theorem read_eq_some_iff :
    read t = some (s, rest) ↔ ∃ u, t = u ++ '"' :: rest ∧ IsEscaped s u := by
  constructor
  · intro hread
    rcases exists_isEscaped_or_isOpen t with ⟨s', u, rest', rfl, h⟩ | h
    · rw [h.read_eq] at hread
      cases hread
      exact ⟨u, rfl, h⟩
    · rw [h.read_eq] at hread
      cases hread
  · rintro ⟨u, rfl, h⟩
    exact h.read_eq rest

theorem read_eq_none_iff : read t = none ↔ IsOpen t := by
  constructor
  · intro hread
    rcases exists_isEscaped_or_isOpen t with ⟨s, u, rest, rfl, h⟩ | h
    · rw [h.read_eq] at hread
      cases hread
    · exact h
  · exact IsOpen.read_eq

/-! ### The written form -/

/-- The writer puts a backslash before quotes and backslashes only. -/
theorem isEscaped_escape (s : List Char) : IsEscaped s (escape s) := by
  induction s with
  | nil => exact .nil
  | cons c s ih =>
    rw [escape]
    split
    · exact .escaped ih
    · next hc =>
      simp only [Bool.or_eq_true, decide_eq_true_eq, not_or] at hc
      exact .plain hc.1 hc.2 ih

theorem IsEscaped.count_newline (h : IsEscaped s t) : t.count '\n' = s.count '\n' := by
  induction h with
  | nil => rfl
  | plain _ _ _ ih => rw [List.count_cons, List.count_cons, ih]
  | escaped _ ih => rw [List.count_cons_of_ne (by decide), List.count_cons, List.count_cons, ih]

end SceneTidy.Text.Quoted

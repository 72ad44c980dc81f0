/-!
# Quoted strings

A string of a scene file stands between double quotes; a backslash inside it gives the next
character as it is, and must be written before a quote and a backslash.  `encode` and `read` are
the two directions, and `items` finds the quoted strings of a text that may hold other things
between them.  Main statement: reading undoes writing, whatever follows the closing quote.
-/

namespace SceneTidy.Text.Quoted

/-- The content between the quotes: quotes and backslashes get a backslash. -/
def escape : List Char → List Char
  | [] => []
  | c :: r => if c = '"' || c = '\\' then '\\' :: c :: escape r else c :: escape r

/-- The written form of a string. -/
def encode (s : List Char) : List Char := '"' :: (escape s ++ ['"'])

/-- The content of the string whose opening quote was just passed, and the text after its closing
quote; `none` when the string is not closed. -/
def read : List Char → Option (List Char × List Char)
  | [] => none
  | '"' :: r => some ([], r)
  | '\\' :: c :: r => (read r).map fun (s, rest) => (c :: s, rest)
  | c :: r => if c = '\\' then none else (read r).map fun (s, rest) => (c :: s, rest)

theorem read_escape (s rest : List Char) : read (escape s ++ '"' :: rest) = some (s, rest) := by
  induction s with
  | nil => rfl
  | cons c r ih =>
    by_cases hq : c = '"'
    · subst hq; simp [escape, read, ih]
    · by_cases hb : c = '\\'
      · subst hb; simp [escape, read, ih]
      · simp [escape, hq, hb, read, ih]

theorem length_read {t s rest : List Char} (h : read t = some (s, rest)) :
    rest.length < t.length := by
  fun_induction read t generalizing s rest with
  | case1 => simp at h
  | case2 r => simp_all
  | case3 c r ih =>
    obtain ⟨⟨u, v⟩, hu, he⟩ := Option.map_eq_some_iff.1 h
    simp only [Prod.mk.injEq] at he
    have := ih hu
    simp only [List.length_cons]
    grind
  | case4 => simp at h
  | case5 c r _ _ _ ih =>
    obtain ⟨⟨u, v⟩, hu, he⟩ := Option.map_eq_some_iff.1 h
    simp only [Prod.mk.injEq] at he
    have := ih hu
    simp only [List.length_cons]
    grind

/-- The contents of the closed strings of a text, skipping what stands between them. -/
def items (t : List Char) : List (List Char) :=
  match t with
  | [] => []
  | c :: r =>
    if c = '"' then
      match h : read r with
      | some (s, rest) =>
        have := length_read h
        s :: items rest
      | none => []
    else items r
termination_by t.length

/-- The written form of a string value. -/
def quote (s : String) : String := String.ofList (encode s.toList)

end SceneTidy.Text.Quoted

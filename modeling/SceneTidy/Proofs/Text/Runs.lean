import SceneTidy.Text.Blank

/-!
# Runs of characters

A text is cut at the characters of a class into the runs between them (`runsOutside`).  A character
of the class at the start belongs to no run (`runsOutside_cons`), a run in front is cut off where a
character of the class follows it (`runsOutside_append`), and every character outside the class
stands in a run (`exists_mem_runsOutside`).
-/

namespace SceneTidy.Text

variable {p : Char → Bool} {c : Char} {r w rest : List Char}

theorem runsOutside_cons (h : p c = true) (r : List Char) :
    runsOutside p (c :: r) = runsOutside p r := by
  rw [runsOutside.eq_def]
  exact if_pos h

/-- The run that starts at a character outside the class. -/
theorem runsOutside_cons_of_not (h : p c = false) (r : List Char) :
    (∃ w ws, runsOutside p (c :: r) = (c :: w) :: ws ∧ runsOutside p r = w :: ws) ∨
      runsOutside p (c :: r) = [c] :: runsOutside p r := by
  rw [runsOutside.eq_def]
  dsimp only
  rw [if_neg (by simp [h])]
  cases r with
  | nil => exact .inr rfl
  | cons d r =>
    by_cases hd : p d = true
    · exact .inr (if_pos hd)
    · cases hruns : runsOutside p (d :: r) with
      | nil => exact .inr (if_neg hd)
      | cons w ws => exact .inl ⟨w, ws, if_neg hd, rfl⟩

theorem runsOutside_append (hne : w ≠ []) (hw : ∀ c ∈ w, p c = false)
    (hrest : ∀ c ∈ rest.head?, p c = true) :
    runsOutside p (w ++ rest) = w :: runsOutside p rest := by
  induction w with
  | nil => exact absurd rfl hne
  | cons c w ih =>
    obtain ⟨hc, hw⟩ := List.forall_mem_cons.1 hw
    rw [List.cons_append, runsOutside.eq_def]
    dsimp only
    rw [if_neg (by simp [hc])]
    cases w with
    | nil =>
      cases rest with
      | nil => rfl
      | cons d rest => exact if_pos (hrest d rfl)
    | cons d w =>
      rw [ih (List.cons_ne_nil d w) hw]
      exact if_neg (by simp [hw d (List.mem_cons_self ..)])

theorem exists_mem_runsOutside (hc : p c = false) (hmem : c ∈ r) :
    ∃ w ∈ runsOutside p r, c ∈ w := by
  induction r with
  | nil => exact absurd hmem List.not_mem_nil
  | cons d r ih =>
    cases hd : p d with
    | true =>
      rw [runsOutside_cons hd]
      rcases List.mem_cons.1 hmem with rfl | hmem
      · exact absurd (hc.symm.trans hd) Bool.false_ne_true
      · exact ih hmem
    | false =>
      rcases runsOutside_cons_of_not hd r with ⟨w, ws, hruns, hr⟩ | hruns
      · rw [hr] at ih
        rw [hruns]
        rcases List.mem_cons.1 hmem with rfl | hmem
        · exact ⟨_, List.mem_cons_self .., List.mem_cons_self ..⟩
        · obtain ⟨u, hu, hcu⟩ := ih hmem
          rcases List.mem_cons.1 hu with rfl | hu
          · exact ⟨_, List.mem_cons_self .., List.mem_cons_of_mem _ hcu⟩
          · exact ⟨u, List.mem_cons_of_mem _ hu, hcu⟩
      · rw [hruns]
        rcases List.mem_cons.1 hmem with rfl | hmem
        · exact ⟨_, List.mem_cons_self .., List.mem_singleton_self _⟩
        · obtain ⟨u, hu, hcu⟩ := ih hmem
          exact ⟨u, List.mem_cons_of_mem _ hu, hcu⟩

end SceneTidy.Text

import SceneTidy.Numeric.Shortest

/-!
# Rounding to the nearest number

The rank nearest to a quotient depends on the value of the quotient alone (`rankOfRatio_mul`), and
the exact value of a rank rounds to that rank (`readsAs_exact`).  So the shortest decimal of a rank
reads back as the rank (`readsAs_shortestDecimal`), whichever of its candidates is taken.
-/

namespace SceneTidy

theorem binade_pos : 0 < binade := by decide

theorem roundHalfEven_mul (num den : Nat) {c : Nat} (hc : 0 < c) :
    roundHalfEven (num * c) (den * c) = roundHalfEven num den := by
  unfold roundHalfEven
  rw [Nat.mul_div_mul_right _ _ hc, Nat.mul_mod_mul_right]
  have lt_iff : ∀ a b : Nat, a * c < b * c ↔ a < b := fun a b => Nat.mul_lt_mul_right hc
  simp only [← Nat.mul_assoc, lt_iff]

/-- A whole number is its own nearest integer. -/
theorem roundHalfEven_mul_self (q : Nat) {den : Nat} (hd : 0 < den) :
    roundHalfEven (q * den) den = q := by
  unfold roundHalfEven
  rw [Nat.mul_div_cancel _ hd, Nat.mul_mod_left]
  simp [hd]

/-- The nearest integer is one of the two neighbours of the quotient. -/
theorem roundHalfEven_cases (num den : Nat) :
    roundHalfEven num den = num / den ∨ roundHalfEven num den = num / den + 1 := by
  unfold roundHalfEven
  dsimp only
  split
  · exact .inl rfl
  · split
    · exact .inr rfl
    · rcases Nat.mod_two_eq_zero_or_one (num / den) with h | h <;> omega

/-- The nearest rank depends on the value of the quotient alone. -/
theorem rankOfRatio_mul (num den : Nat) {c : Nat} (hc : 0 < c) :
    rankOfRatio (num * c) (den * c) = rankOfRatio num den := by
  unfold rankOfRatio
  have hs : num * c * unitsPerOne = num * unitsPerOne * c := by
    rw [Nat.mul_assoc, Nat.mul_comm c, ← Nat.mul_assoc]
  have hd : ∀ k, den * c * k = den * k * c := fun k => by
    rw [Nat.mul_assoc, Nat.mul_comm c, ← Nat.mul_assoc]
  simp only [hs, Nat.mul_div_mul_right _ _ hc, hd, roundHalfEven_mul _ _ hc]

/-! ### Exact values -/

/-- The number of binary digits that the units of a rank have beyond the first 53. -/
theorem log2_unitsOfRank {r : Nat} (h : binade ≤ r) :
    Nat.log2 (unitsOfRank r) - 52 = r / binade - 1 := by
  have hm : r % binade < binade := Nat.mod_lt _ binade_pos
  rw [unitsOfRank, if_neg (by omega)]
  generalize r / binade - 1 = k
  have hb : binade = 2 ^ 52 := rfl
  have hp : 0 < 2 ^ k := Nat.pow_pos (by decide)
  have hlow : 2 ^ (52 + k) ≤ (binade + r % binade) * 2 ^ k := by
    rw [Nat.pow_add, ← hb]
    exact Nat.mul_le_mul_right _ (by omega)
  have hhigh : (binade + r % binade) * 2 ^ k < 2 ^ (52 + k + 1) := by
    have : 2 ^ (52 + k + 1) = (binade + binade) * 2 ^ k := by
      rw [Nat.pow_succ, Nat.pow_add, ← hb, Nat.add_mul]
      omega
    rw [this]
    exact Nat.mul_lt_mul_of_pos_right (by omega) hp
  have : Nat.log2 ((binade + r % binade) * 2 ^ k) = 52 + k :=
    (Nat.log2_eq_iff (by omega)).2 ⟨hlow, hhigh⟩
  show Nat.log2 ((binade + r % binade) * 2 ^ k) - 52 = k
  omega

/-- A whole number of units rounds to its rank. -/
theorem rankOfRatio_units {r num den : Nat} (hr : r ≤ infRank) (hd : 0 < den)
    (h : num * unitsPerOne = unitsOfRank r * den) : rankOfRatio num den = r := by
  unfold rankOfRatio
  simp only [h, Nat.mul_div_cancel _ hd]
  by_cases hb : r < binade
  · have hu : unitsOfRank r = r := if_pos hb
    have hlog : Nat.log2 (unitsOfRank r) - 52 = 0 := by
      rw [hu]
      by_cases h0 : r = 0
      · simp [h0]
      · have : Nat.log2 r < 52 := (Nat.log2_lt h0).2 hb
        omega
    have hone : den * Nat.pow 2 0 = den := Nat.mul_one den
    rw [hlog, hone, roundHalfEven_mul_self _ hd, hu]
    omega
  · have hle : binade ≤ r := by omega
    rw [log2_unitsOfRank hle]
    have hu : unitsOfRank r = (binade + r % binade) * Nat.pow 2 (r / binade - 1) := if_neg hb
    have hp : 0 < Nat.pow 2 (r / binade - 1) := Nat.pow_pos (by decide)
    have hq : unitsOfRank r * den = (binade + r % binade) * (den * Nat.pow 2 (r / binade - 1)) := by
      rw [hu, Nat.mul_assoc, Nat.mul_comm den]
    rw [hq, roundHalfEven_mul_self _ (Nat.mul_pos hd hp)]
    have hdiv : 1 ≤ r / binade := (Nat.one_le_div_iff binade_pos).2 hle
    have hsplit : (r / binade - 1) * binade + (binade + r % binade) = r := by
      have h1 : (r / binade - 1) * binade + binade = r / binade * binade := by
        rw [← Nat.succ_mul, Nat.succ_eq_add_one, Nat.sub_add_cancel hdiv]
      have h2 := Nat.div_add_mod' r binade
      omega
    rw [hsplit]
    omega

theorem unitsOfRank_pos {r : Nat} (h : 0 < r) : 0 < unitsOfRank r := by
  unfold unitsOfRank
  split
  · exact h
  · have := binade_pos
    exact Nat.mul_pos (by omega) (Nat.pow_pos (by decide))

theorem natPow_pos {b : Nat} (hb : 0 < b) (n : Nat) : 0 < Nat.pow b n := Nat.pow_pos hb

theorem pow_ten_eq (n : Nat) : Nat.pow 10 n = Nat.pow 5 n * Nat.pow 2 n := Nat.mul_pow 5 2 n

theorem exactDigits_zero : exactDigits 0 = 0 := by
  unfold exactDigits
  generalize 1074 = n
  exact Nat.zero_mul _

theorem exactDigits_pos {r : Nat} (h : 0 < r) : 0 < exactDigits r := by
  unfold exactDigits
  generalize 1074 = n
  exact Nat.mul_pos (unitsOfRank_pos h) (natPow_pos (by decide) n)

theorem exactDigits_mul_unitsPerOne (r : Nat) {places : Nat} (hp : places = 1074) :
    exactDigits r * unitsPerOne = unitsOfRank r * Nat.pow 10 places := by
  unfold exactDigits unitsPerOne
  rw [← hp, pow_ten_eq, Nat.mul_assoc]

theorem rankOfDecimal_zero (exponent : Int) : rankOfDecimal 0 exponent = 0 := if_pos rfl

/-- Down to the places of the least positive number, a decimal is rounded as a quotient. -/
theorem rankOfDecimal_negSucc {digits e : Nat} (hd : 0 < digits) (he : e ≤ 1100) :
    rankOfDecimal digits (.negSucc e) = rankOfRatio digits (Nat.pow 10 (e + 1)) := by
  rw [rankOfDecimal, if_neg (by omega)]
  show (if e ≤ 1100 + Nat.log2 digits then _ else 0) = _
  rw [if_pos (by omega)]

/-- Up to places that no finite number needs, a decimal is rounded as a quotient. -/
theorem rankOfDecimal_ofNat {digits e : Nat} (hd : 0 < digits) (he : e ≤ 400) :
    rankOfDecimal digits (.ofNat e) = rankOfRatio (digits * Nat.pow 10 e) 1 := by
  rw [rankOfDecimal, if_neg (by omega)]
  exact if_pos he

/-- The exact value of a rank in units of `10 ^ (-1074)` reads back as the rank. -/
theorem readsAs_exact {r : Nat} (hr : r < infRank) :
    (Decimal.mk (exactDigits r) (-1074)).readsAs r := by
  rw [Decimal.readsAs, beq_iff_eq]
  show rankOfDecimal (exactDigits r) (Int.negSucc 1073) = r
  by_cases h0 : r = 0
  · subst h0
    rw [exactDigits_zero, rankOfDecimal_zero]
  · rw [rankOfDecimal_negSucc (exactDigits_pos (Nat.pos_of_ne_zero h0)) (by omega)]
    generalize hp : 1073 + 1 = places
    exact rankOfRatio_units (by omega) (natPow_pos (by decide) places)
      (exactDigits_mul_unitsPerOne r hp.symm)

/-! ### The shortest decimal -/

theorem readsAs_decimalWithout? {r exact dropped : Nat} {d : Decimal}
    (h : decimalWithout? r exact dropped = some d) :
    d.readsAs r ∧ d.exponent = (dropped : Int) - 1074 := by
  unfold decimalWithout? at h
  dsimp only at h
  split at h
  · next hb ha =>
    cases h
    refine ⟨?_, rfl⟩
    rcases roundHalfEven_cases exact (Nat.pow 10 dropped) with hq | hq <;> rw [hq]
    · exact hb
    · exact ha
  · next hb _ => cases h; exact ⟨hb, rfl⟩
  · next _ ha => cases h; exact ⟨ha, rfl⟩
  · cases h

/-- **The shortest decimal of a finite number reads back as the number**, and its last digit stands
at the place of the least positive number or before it. -/
theorem readsAs_shortestDecimal {r : Nat} (hr : r < infRank) :
    (shortestDecimal r).readsAs r ∧ -1074 ≤ (shortestDecimal r).exponent := by
  unfold shortestDecimal
  dsimp only
  cases hf : (List.range' 1 17).findSome? fun n =>
      decimalWithout? r (exactDigits r) (decimalLength (exactDigits r) - n) with
  | none => exact ⟨readsAs_exact hr, Int.le_refl _⟩
  | some d =>
    obtain ⟨n, -, hd⟩ := List.exists_of_findSome?_eq_some hf
    obtain ⟨h1, h2⟩ := readsAs_decimalWithout? hd
    exact ⟨h1, by simp only [Option.getD_some]; omega⟩

end SceneTidy

import SceneTidy.Field.Text
import SceneTidy.Proofs.Numeric.Rounding

/-!
# Numbers read back

What is written for a number reads back as the number: for doubles with the sign of zero and with
not a number (`readReal?_text`), and for integers (`readPrefixedInteger?_integerText`).  The texts
consist of few characters, none of which separates words (`isNumberChar`).
-/

namespace SceneTidy

open Text

/-- The characters that numbers are written with. -/
def isNumberChar (c : Char) : Bool := c.isDigit || ['-', '.', 'a', 'f', 'i', 'n'].contains c

theorem mem_digits_of_isDigit {c : Char} (h : c.isDigit) :
    c ∈ ['0', '1', '2', '3', '4', '5', '6', '7', '8', '9'] := by
  have hb : 48 ≤ c.toNat ∧ c.toNat ≤ 57 := by
    simpa [Char.isDigit, UInt32.le_iff_toNat_le] using h
  have hc : c = Char.ofNat c.toNat := (Char.ofNat_toNat c).symm
  generalize c.toNat = n at hb hc
  obtain ⟨h1, h2⟩ := hb
  have : n = 48 ∨ n = 49 ∨ n = 50 ∨ n = 51 ∨ n = 52 ∨ n = 53 ∨ n = 54 ∨ n = 55 ∨ n = 56 ∨
      n = 57 := by
    omega
  rcases this with h | h | h | h | h | h | h | h | h | h <;> subst h <;> subst hc <;> decide

/-- A decidable property of number characters may be checked on each of them. -/
theorem forall_isNumberChar {p : Char → Prop} [DecidablePred p]
    (h : ['0', '1', '2', '3', '4', '5', '6', '7', '8', '9', '-', '.', 'a', 'f', 'i', 'n'].all (p ·))
    {c : Char} (hc : isNumberChar c) : p c := by
  refine of_decide_eq_true (List.all_eq_true.1 h c ?_)
  rcases Bool.or_eq_true_iff.1 hc with hd | hm
  · exact List.mem_append_left ['-', '.', 'a', 'f', 'i', 'n'] (mem_digits_of_isDigit hd)
  · exact List.mem_append_right ['0', '1', '2', '3', '4', '5', '6', '7', '8', '9']
      (by simpa using hm)

theorem isNumberChar_of_isDigit {c : Char} (h : c.isDigit) : isNumberChar c := by
  simp [isNumberChar, h]

/-- A property of the digits may be checked on each of them. -/
theorem forall_isDigit {p : Char → Prop} [DecidablePred p]
    (h : ['0', '1', '2', '3', '4', '5', '6', '7', '8', '9'].all (p ·)) {c : Char}
    (hc : c.isDigit) : p c :=
  of_decide_eq_true (List.all_eq_true.1 h c (mem_digits_of_isDigit hc))

theorem not_isNumberBlank {c : Char} (h : isNumberChar c) : isNumberBlank c = false :=
  forall_isNumberChar (p := fun c => isNumberBlank c = false) (by decide) h

theorem stripBy_eq_self {p : Char → Bool} {s : List Char} (h : ∀ c ∈ s, p c = false) :
    stripBy p s = s := by
  have key : ∀ l : List Char, (∀ c ∈ l, p c = false) → l.dropWhile p = l := by
    intro l hl
    cases l with
    | nil => rfl
    | cons c l => simp [hl c (List.mem_cons_self ..)]
  rw [stripBy, key s h, key s.reverse fun c hc => h c (List.mem_reverse.1 hc), List.reverse_reverse]

/-! ### Runs of digits -/

/-- The value of a decimal digit of ASCII. -/
def digitOf (c : Char) : Nat := c.toNat - '0'.toNat

theorem digitValue?_eq {c : Char} (h : c.isDigit) : digitValue? c = some (digitOf c) :=
  forall_isDigit (p := fun c => digitValue? c = some (digitOf c)) (by decide) h

theorem ofDigits_map_digitOf (l : List Char) :
    ofDigits 10 (l.map digitOf) = Nat.ofDigitChars 10 l 0 := by
  rw [ofDigits, Nat.ofDigitChars_eq_foldl, List.foldl_map]
  simp only [digitOf, Nat.mul_comm 10]

/-- A run of digits ends where neither a digit nor a low line follows. -/
theorem digitRun_append {ds r : List Char} (hd : ∀ c ∈ ds, c.isDigit)
    (hr : ∀ c u, r = c :: u → digitValue? c = none ∧ c ≠ '_') (after : Bool) :
    digitRun digitValue? after (ds ++ r) = (ds.map digitOf, r) := by
  induction ds generalizing after with
  | nil =>
    cases r with
    | nil => rfl
    | cons c u =>
      obtain ⟨h1, h2⟩ := hr c u rfl
      simp [digitRun, h1, h2]
  | cons c ds ih =>
    have hc := digitValue?_eq (hd c (List.mem_cons_self ..))
    simp [digitRun, hc, ih fun x hx => hd x (List.mem_cons_of_mem _ hx)]

theorem digitRun_self {ds : List Char} (hd : ∀ c ∈ ds, c.isDigit) (after : Bool) :
    digitRun digitValue? after ds = (ds.map digitOf, []) := by
  simpa using digitRun_append (r := []) hd (by simp) after

/-- Digits with a fraction, if there is one, are a decimal that ends with the fraction. -/
theorem readMagnitude?_digits {whole fraction : List Char} (hw : ∀ c ∈ whole, c.isDigit)
    (hf : ∀ c ∈ fraction, c.isDigit) (hne : whole ≠ []) :
    readMagnitude? (whole ++ if fraction = [] then [] else '.' :: fraction) =
      some ⟨rankOfDecimal (Nat.ofDigitChars 10 (whole ++ fraction) 0) (-(fraction.length : Int)),
        Nat.lt_succ_of_le (rankOfDecimal_le ..)⟩ := by
  have hrun := digitRun_append (r := if fraction = [] then [] else '.' :: fraction) hw
    (by
      intro c r hc
      split at hc
      · cases hc
      · cases hc
        decide) false
  have htake : takeFraction (if fraction = [] then [] else '.' :: fraction) =
      (fraction.map digitOf, []) := by
    split
    · next h => subst h; rfl
    · exact digitRun_self hf false
  have hempty : (whole.map digitOf).isEmpty = false := by simpa using hne
  simp only [readMagnitude?, hrun, htake, hempty, Bool.false_and, Bool.false_eq_true, if_false,
    readExponent?, Option.map_some, List.length_map, ← List.map_append, ofDigits_map_digitOf,
    Int.zero_sub]

/-! ### Positional notation -/

theorem isDigit_of_mem_decimal {n : Nat} {c : Char} (h : c ∈ Nat.toDigits 10 n) : c.isDigit :=
  Nat.isDigit_of_mem_toDigits (by decide) (by decide) h

/-- A list ends with the run of those of its last items that satisfy a test. -/
theorem reverse_dropWhile_reverse (p : Char → Bool) (l : List Char) :
    ∃ tail, l = (l.reverse.dropWhile p).reverse ++ tail ∧ ∀ c ∈ tail, p c := by
  refine ⟨(l.reverse.takeWhile p).reverse, ?_, fun c hc => ?_⟩
  · rw [← List.reverse_append, List.takeWhile_append_dropWhile, List.reverse_reverse]
  · exact List.all_eq_true.1 (List.all_takeWhile (l := l.reverse)) c (List.mem_reverse.1 hc)

/-- Zeros at the end of a fraction may be left out. -/
theorem rankOfDecimal_shift {digits places zeros : Nat} (h : places + zeros ≤ 1100) :
    rankOfDecimal (digits * Nat.pow 10 zeros) (-((places + zeros : Nat) : Int)) =
      rankOfDecimal digits (-(places : Int)) := by
  rcases Nat.eq_zero_or_pos digits with rfl | hd
  · simp [rankOfDecimal_zero]
  · have hz : 0 < Nat.pow 10 zeros := Nat.pow_pos (by decide)
    have hdz : 0 < digits * Nat.pow 10 zeros := Nat.mul_pos hd hz
    cases hp : places + zeros with
    | zero =>
      obtain ⟨rfl, rfl⟩ : places = 0 ∧ zeros = 0 := by omega
      simp
    | succ e =>
      have h1 : -((e + 1 : Nat) : Int) = Int.negSucc e := rfl
      rw [h1, rankOfDecimal_negSucc hdz (by omega), ← hp]
      have hsplit : Nat.pow 10 (places + zeros) = Nat.pow 10 places * Nat.pow 10 zeros :=
        Nat.pow_add ..
      rw [hsplit, rankOfRatio_mul _ _ hz]
      cases places with
      | zero =>
        show rankOfRatio digits (Nat.pow 10 0) = rankOfDecimal digits (.ofNat 0)
        rw [rankOfDecimal_ofNat hd (by omega), show Nat.pow 10 0 = 1 from rfl, Nat.mul_one]
      | succ p =>
        have h2 : -((p + 1 : Nat) : Int) = Int.negSucc p := rfl
        rw [h2, rankOfDecimal_negSucc hd (by omega)]

/-- Zeros before the point may be written out. -/
theorem rankOfDecimal_zeros {digits e : Nat} (h : e ≤ 400) :
    rankOfDecimal (Nat.pow 10 e * digits) 0 = rankOfDecimal digits (.ofNat e) := by
  rcases Nat.eq_zero_or_pos digits with rfl | hd
  · simp [rankOfDecimal_zero]
  · have hpos : 0 < Nat.pow 10 e * digits := Nat.mul_pos (Nat.pow_pos (by decide)) hd
    show rankOfDecimal (Nat.pow 10 e * digits) (.ofNat 0) = _
    rw [rankOfDecimal_ofNat hpos (by omega), rankOfDecimal_ofNat hd h,
      show Nat.pow 10 0 = 1 from rfl, Nat.mul_one, Nat.mul_comm]

/-- The digits before and after the point of a decimal, with the zeros that are left out. -/
theorem exists_positional_negSucc (digits e : Nat) :
    ∃ whole fraction : List Char, ∃ zeros : Nat,
      (Decimal.mk digits (.negSucc e)).positional =
        whole ++ (if fraction = [] then [] else '.' :: fraction) ∧
      whole ≠ [] ∧ (∀ c ∈ whole ++ fraction, c.isDigit) ∧ fraction.length + zeros = e + 1 ∧
      Nat.ofDigitChars 10 (whole ++ fraction) 0 * Nat.pow 10 zeros = digits := by
  obtain ⟨padded, hp⟩ : ∃ padded, padded =
      List.replicate (e + 1 + 1 - (Nat.toDigits 10 digits).length) '0' ++ Nat.toDigits 10 digits :=
    ⟨_, rfl⟩
  have hlen : e + 1 < padded.length := by
    rw [hp, List.length_append, List.length_replicate]
    omega
  have hvalue : Nat.ofDigitChars 10 padded 0 = digits := by
    rw [hp, Nat.ofDigitChars_append, Nat.ofDigitChars_replicate_zero, Nat.mul_zero,
      Nat.ofDigitChars_ten_toDigits]
  have hdigits : ∀ c ∈ padded, c.isDigit := by
    intro c hc
    rw [hp] at hc
    rcases List.mem_append.1 hc with h | h
    · rw [List.eq_of_mem_replicate h]
      rfl
    · exact isDigit_of_mem_decimal h
  obtain ⟨tail, htail, hzero⟩ :=
    reverse_dropWhile_reverse (· = '0') (padded.drop (padded.length - (e + 1)))
  have hrep : tail = List.replicate tail.length '0' :=
    List.eq_replicate_iff.2 ⟨rfl, fun c hc => by simpa using hzero c hc⟩
  generalize hf : ((padded.drop (padded.length - (e + 1))).reverse.dropWhile
    (· = '0')).reverse = fraction at htail
  have hsplit : padded = padded.take (padded.length - (e + 1)) ++ fraction ++
      List.replicate tail.length '0' := by
    rw [List.append_assoc, ← hrep, ← htail, List.take_append_drop]
  refine ⟨padded.take (padded.length - (e + 1)), fraction, tail.length, ?_, ?_, ?_, ?_, ?_⟩
  · have hnil : ((padded.drop (padded.length - (e + 1))).reverse.dropWhile (· = '0') = []) =
        (fraction = []) := by
      rw [← hf, List.reverse_eq_nil_iff]
    simp only [Decimal.positional, ← hp, hnil, hf]
  · intro h
    have := congrArg List.length h
    simp only [List.length_take, List.length_nil] at this
    omega
  · intro c hc
    apply hdigits
    rw [hsplit]
    exact List.mem_append_left _ hc
  · have := congrArg List.length htail
    simp only [List.length_drop, List.length_append] at this
    omega
  · have h := hvalue
    rw [hsplit, Nat.ofDigitChars_append, Nat.ofDigitChars_replicate_zero, Nat.mul_comm] at h
    exact h

/-- Positional notation reads back as the rank of the decimal. -/
theorem readMagnitude?_positional {d : Decimal} (h1 : -1074 ≤ d.exponent) (h2 : d.exponent ≤ 400) :
    readMagnitude? d.positional =
      some ⟨rankOfDecimal d.digits d.exponent, Nat.lt_succ_of_le (rankOfDecimal_le ..)⟩ := by
  obtain ⟨digits, exponent⟩ := d
  cases exponent with
  | ofNat e =>
    have he : e ≤ 400 := by
      have : (e : Int) ≤ 400 := h2
      omega
    have hall : ∀ c ∈ Nat.toDigits 10 digits ++ List.replicate e '0', c.isDigit := by
      intro c hc
      rcases List.mem_append.1 hc with h | h
      · exact isDigit_of_mem_decimal h
      · rw [List.eq_of_mem_replicate h]
        rfl
    have hne : Nat.toDigits 10 digits ++ List.replicate e '0' ≠ [] :=
      List.append_ne_nil_of_left_ne_nil Nat.toDigits_ne_nil _
    have hnone : ∀ c ∈ ([] : List Char), c.isDigit := fun c hc => absurd hc List.not_mem_nil
    have hread := readMagnitude?_digits hall hnone hne
    simp only [if_true, List.append_nil, Nat.ofDigitChars_append, Nat.ofDigitChars_ten_toDigits,
      Nat.ofDigitChars_replicate_zero] at hread
    show readMagnitude? (Nat.toDigits 10 digits ++ List.replicate e '0') = _
    rw [hread]
    congr 2
    exact rankOfDecimal_zeros he
  | negSucc e =>
    obtain ⟨whole, fraction, zeros, hpos, hne, hall, hlen, hval⟩ :=
      exists_positional_negSucc digits e
    rw [hpos, readMagnitude?_digits (fun c hc => hall c (List.mem_append_left _ hc))
      (fun c hc => hall c (List.mem_append_right _ hc)) hne]
    have he : e + 1 ≤ 1074 := by
      have : -1074 ≤ Int.negSucc e := h1
      omega
    congr 2
    have hexp : Int.negSucc e = -((fraction.length + zeros : Nat) : Int) := by omega
    show _ = rankOfDecimal digits (Int.negSucc e)
    rw [hexp, ← hval, rankOfDecimal_shift (by omega)]

/-! ### Doubles -/

theorem isNumberChar_of_mem_positional {d : Decimal} {c : Char} (h : c ∈ d.positional) :
    isNumberChar c := by
  obtain ⟨digits, exponent⟩ := d
  cases exponent with
  | ofNat e =>
    rcases List.mem_append.1 h with h | h
    · exact isNumberChar_of_isDigit (isDigit_of_mem_decimal h)
    · rw [List.eq_of_mem_replicate h]
      rfl
  | negSucc e =>
    obtain ⟨whole, fraction, zeros, hpos, -, hall, -, -⟩ := exists_positional_negSucc digits e
    rw [hpos] at h
    rcases List.mem_append.1 h with h | h
    · exact isNumberChar_of_isDigit (hall c (List.mem_append_left _ h))
    · split at h
      · cases h
      · rcases List.mem_cons.1 h with rfl | h
        · rfl
        · exact isNumberChar_of_isDigit (hall c (List.mem_append_right _ h))

theorem isNumberChar_of_mem_text {x : Binary64} {c : Char} (h : c ∈ x.text) : isNumberChar c := by
  cases x with
  | nan => exact List.all_eq_true.1 (by decide : ['n', 'a', 'n'].all isNumberChar) c h
  | num negative rank =>
    rcases List.mem_append.1 h with h | h
    · split at h
      · obtain rfl := List.mem_singleton.1 h
        rfl
      · cases h
    · unfold magnitudeText at h
      split at h
      · obtain rfl := List.mem_singleton.1 h
        rfl
      · split at h
        · exact List.all_eq_true.1 (by decide : ['i', 'n', 'f'].all isNumberChar) c h
        · exact isNumberChar_of_mem_positional h

theorem takeSign_of_isDigit {c : Char} (h : c.isDigit) (r : List Char) :
    takeSign (c :: r) = (false, c :: r) := by
  obtain ⟨h1, h2⟩ := forall_isDigit (p := fun c => c ≠ '-' ∧ c ≠ '+') (by decide) h
  unfold takeSign
  split
  · next h => exact absurd (List.cons.inj h).1 h1
  · next h => exact absurd (List.cons.inj h).1 h2
  · rfl

/-- A text that starts with a digit is no word. -/
theorem toLower_ne_of_isDigit {c : Char} (h : c.isDigit) (r : List Char) {w : String} {d : Char}
    {ds : List Char} (hw : w = String.ofList (d :: ds)) (hd : d.isDigit = false) :
    String.ofList (toLower (c :: r)) ≠ w := by
  rw [hw, ne_eq, String.ofList_inj, toLower, List.map_cons, List.cons.injEq]
  rintro ⟨rfl, -⟩
  have hlow := forall_isDigit (p := fun c => c.toLower.isDigit) (by decide) h
  rw [hd] at hlow
  cases hlow

/-- After its sign, a text that starts with a digit is read as a magnitude. -/
theorem readReal?_of_isDigit (negative : Bool) {c : Char} {r : List Char} (hc : c.isDigit)
    (hr : ∀ x ∈ c :: r, isNumberChar x) :
    readReal? ((if negative then ['-'] else []) ++ c :: r) =
      (readMagnitude? (c :: r)).map (.num negative) := by
  have hblank : ∀ x ∈ (if negative then ['-'] else []) ++ c :: r, isNumberBlank x = false := by
    intro x hx
    refine not_isNumberBlank ?_
    rcases List.mem_append.1 hx with h | h
    · split at h
      · obtain rfl := List.mem_singleton.1 h
        rfl
      · cases h
    · exact hr x h
  have hsign : takeSign ((if negative then ['-'] else []) ++ c :: r) = (negative, c :: r) := by
    cases negative with
    | true => rfl
    | false => exact takeSign_of_isDigit hc r
  have h1 := toLower_ne_of_isDigit hc r (w := "nan") rfl rfl
  have h2 := toLower_ne_of_isDigit hc r (w := "inf") rfl rfl
  have h3 := toLower_ne_of_isDigit hc r (w := "infinity") rfl rfl
  simp only [readReal?, stripBy_eq_self hblank, hsign, h1, h2, h3, if_false, decide_false,
    Bool.or_self, Bool.false_eq_true]

theorem exists_positional_cons (d : Decimal) :
    ∃ c r, d.positional = c :: r ∧ c.isDigit := by
  obtain ⟨digits, exponent⟩ := d
  cases exponent with
  | ofNat e =>
    cases h : Nat.toDigits 10 digits with
    | nil => exact absurd h Nat.toDigits_ne_nil
    | cons c r =>
      refine ⟨c, r ++ List.replicate e '0', ?_, isDigit_of_mem_decimal (h ▸ List.mem_cons_self ..)⟩
      simp [Decimal.positional, h]
  | negSucc e =>
    obtain ⟨whole, fraction, zeros, hpos, hne, hall, -, -⟩ := exists_positional_negSucc digits e
    cases whole with
    | nil => exact absurd rfl hne
    | cons c r => exact ⟨c, _, hpos, hall c (List.mem_cons_self ..)⟩

/-- Of a positive finite number, the shortest decimal has its digits before the last place and no
more than four hundred zeros behind them. -/
theorem exponent_shortestDecimal_le {r : Nat} (h0 : 0 < r) (hr : r < infRank) :
    (shortestDecimal r).exponent ≤ 400 := by
  have hread := beq_iff_eq.1 (readsAs_shortestDecimal hr).1
  generalize shortestDecimal r = d at hread
  obtain ⟨digits, exponent⟩ := d
  refine Decidable.by_contra fun hgt => ?_
  have hd : digits ≠ 0 := by
    rintro rfl
    rw [rankOfDecimal_zero] at hread
    omega
  unfold rankOfDecimal at hread
  rw [if_neg hd] at hread
  cases exponent with
  | ofNat e =>
    have he : ¬ e ≤ 400 := fun he => hgt (by show (e : Int) ≤ 400; omega)
    simp only [he, if_false] at hread
    omega
  | negSucc e => exact hgt (by show Int.negSucc e ≤ 400; omega)

/-- **The text of a double reads back as the double**, with the sign of zero. -/
theorem readReal?_text (x : Binary64) : readReal? x.text = some x := by
  cases x with
  | nan => decide
  | num negative rank =>
    obtain ⟨r, hr⟩ := rank
    by_cases h0 : r = 0
    · subst h0
      cases negative <;> rfl
    by_cases hinf : r = infRank
    · subst hinf
      cases negative <;> rfl
    have hlt : r < infRank := by omega
    have htext : magnitudeText r = (shortestDecimal r).positional := by
      rw [magnitudeText, if_neg h0, if_neg hinf]
    obtain ⟨hread, hlow⟩ := readsAs_shortestDecimal hlt
    have hhigh := exponent_shortestDecimal_le (Nat.pos_of_ne_zero h0) hlt
    obtain ⟨c, cs, hcs, hc⟩ := exists_positional_cons (shortestDecimal r)
    show readReal? ((if negative then ['-'] else []) ++ magnitudeText r) = _
    rw [htext, hcs, readReal?_of_isDigit negative hc, ← hcs, readMagnitude?_positional hlow hhigh]
    · simp only [Option.map_some, beq_iff_eq.1 hread]
    · exact fun x hx => isNumberChar_of_mem_positional (hcs ▸ hx)

/-! ### Integers -/

theorem isNumberChar_of_mem_integerText {n : Int} {c : Char} (h : c ∈ integerText n) :
    isNumberChar c := by
  rcases List.mem_append.1 h with h | h
  · split at h
    · obtain rfl := List.mem_singleton.1 h
      rfl
    · cases h
  · exact isNumberChar_of_isDigit (isDigit_of_mem_decimal h)

/-- **The text of an integer reads back as the integer.** -/
theorem readPrefixedInteger?_integerText (n : Int) :
    readPrefixedInteger? (integerText n) = some n := by
  obtain ⟨c, r, hcr⟩ : ∃ c r, Nat.toDigits 10 n.natAbs = c :: r :=
    List.exists_cons_of_ne_nil Nat.toDigits_ne_nil
  have hall : ∀ x ∈ c :: r, x.isDigit := fun x hx => isDigit_of_mem_decimal (hcr ▸ hx)
  have hc := hall c (List.mem_cons_self ..)
  have htext : integerText n = (if n < 0 then ['-'] else []) ++ c :: r := by rw [integerText, hcr]
  have hblank : ∀ x ∈ integerText n, isNumberBlank x = false := fun x hx =>
    not_isNumberBlank (isNumberChar_of_mem_integerText hx)
  have hsign : takeSign (integerText n) = (decide (n < 0), c :: r) := by
    rw [htext]
    split
    · next h => simp [takeSign, h]
    · next h => simpa [h] using takeSign_of_isDigit hc r
  have hmark : hasHexMark (integerText n) = false := by
    have hdrop : (integerText n).dropWhile (fun c => c = '+' || c = '-') = c :: r := by
      have hstop : (c :: r).dropWhile (fun c => c = '+' || c = '-') = c :: r := by
        obtain ⟨h1, h2⟩ := forall_isDigit (p := fun c => c ≠ '-' ∧ c ≠ '+') (by decide) hc
        simp [h1, h2]
      rw [htext]
      split
      · simpa using hstop
      · exact hstop
    unfold hasHexMark
    rw [hdrop]
    split
    · next x _ heq =>
      have hx : x.isDigit := hall x (by rw [heq]; simp)
      obtain ⟨h1, h2⟩ := forall_isDigit (p := fun c => c ≠ 'x' ∧ c ≠ 'X') (by decide) hx
      simp [h1, h2]
    · rfl
  have hvalue : ofDigits 10 ((c :: r).map digitOf) = n.natAbs := by
    rw [ofDigits_map_digitOf, ← hcr, Nat.ofDigitChars_ten_toDigits]
  have hrun := digitRun_self hall false
  simp only [List.map_cons] at hrun hvalue
  simp only [readPrefixedInteger?, hmark, Bool.false_eq_true, if_false, readInteger?,
    stripBy_eq_self hblank, hsign, readDigits?, hrun, hvalue]
  by_cases h : n < 0
  · have habs : -(n.natAbs : Int) = n := by omega
    simpa [h] using habs
  · have habs : (n.natAbs : Int) = n := by omega
    simpa [h] using habs

end SceneTidy

/-!
# Double-precision numbers

The numbers of IEEE 754 binary64.  The non-negative ones are counted in ascending order, from `0`
at rank `0` to infinity at rank `infRank`, so that a number is a sign and a rank, or not a number.
The rank is also the bit pattern without its sign.

* `Binary64.units` is the exact value of a finite number, in units of the least positive one;
* `rankOfRatio` rounds a quotient to the nearest number, a tie to the even rank;
* `Binary64.same` and `Binary64.less` compare by value: the two zeros are the same, and not a
  number is neither the same as nor less than anything.
-/

namespace SceneTidy

/-- The rank of infinity. -/
def infRank : Nat := 0x7FF0000000000000

/-- A number of IEEE 754 binary64; all patterns for not a number count as one. -/
inductive Binary64
  | nan
  | num (negative : Bool) (rank : Fin (infRank + 1))
  deriving DecidableEq, Repr

/-- The least positive number is `1 / unitsPerOne`. -/
def unitsPerOne : Nat := Nat.pow 2 1074

/-- The number of ranks from one power of two to the next: of the 53 binary digits of a number, the
first is always one. -/
def binade : Nat := Nat.pow 2 52

/-- The value of the finite number of a rank, in units of the least positive number. -/
def unitsOfRank (r : Nat) : Nat :=
  if r < binade then r else (binade + r % binade) * Nat.pow 2 (r / binade - 1)

/-- The integer nearest to a quotient, a tie to the even one. -/
def roundHalfEven (num den : Nat) : Nat :=
  let q := num / den
  let r := num % den
  if 2 * r < den then q else if den < 2 * r then q + 1 else q + q % 2

/-- The rank nearest to a quotient: it is cut to 53 binary digits, fewer below the least normal
number, and what lies above the largest finite number becomes infinity. -/
def rankOfRatio (num den : Nat) : Nat :=
  let scaled := num * unitsPerOne
  let shift := Nat.log2 (scaled / den) - 52
  min infRank (shift * binade + roundHalfEven scaled (den * Nat.pow 2 shift))

/-- The rank nearest to `digits * 10 ^ exponent`.  Exponents far outside the range are settled
without computing the power. -/
def rankOfDecimal (digits : Nat) (exponent : Int) : Nat :=
  if digits = 0 then 0
  else
    match exponent with
    | .ofNat e => if e ≤ 400 then rankOfRatio (digits * Nat.pow 10 e) 1 else infRank
    | .negSucc e =>
      if e ≤ 1100 + Nat.log2 digits then rankOfRatio digits (Nat.pow 10 (e + 1)) else 0

theorem rankOfRatio_le (num den : Nat) : rankOfRatio num den ≤ infRank := Nat.min_le_left ..

theorem rankOfDecimal_le (digits : Nat) (exponent : Int) :
    rankOfDecimal digits exponent ≤ infRank := by
  unfold rankOfDecimal
  split
  · exact Nat.zero_le _
  · split
    · split
      · exact rankOfRatio_le ..
      · exact Nat.le_refl _
    · split
      · exact rankOfRatio_le ..
      · exact Nat.zero_le _

namespace Binary64

/-- The number nearest to a signed decimal. -/
def ofDecimal (negative : Bool) (digits : Nat) (exponent : Int) : Binary64 :=
  .num negative ⟨rankOfDecimal digits exponent, Nat.lt_succ_of_le (rankOfDecimal_le ..)⟩

/-- Positive zero. -/
def zero : Binary64 := .num false 0

/-- The number one. -/
def one : Binary64 := ofDecimal false 1 0

/-- An infinity. -/
def infinity (negative : Bool) : Binary64 := .num negative (Fin.last infRank)

instance : Inhabited Binary64 := ⟨zero⟩

/-- Whether the number is not a number. -/
def isNaN : Binary64 → Bool
  | .nan => true
  | .num _ _ => false

/-- The place of a number on the number line; the two zeros share one. -/
def position (negative : Bool) (rank : Nat) : Int := if negative then -(rank : Int) else rank

/-- Equality by value: the sign does not count at zero. -/
def same : Binary64 → Binary64 → Bool
  | .num s r, .num t q => r.val == q.val && (s == t || r.val == 0)
  | _, _ => false

/-- Two numbers are the same if they share their place on the number line. -/
theorem same_num (s t : Bool) (r q : Fin (infRank + 1)) :
    same (.num s r) (.num t q) = (position s r == position t q) := by
  rw [Bool.eq_iff_iff]
  cases s <;> cases t <;> simp [same, position, -Fin.val_eq_zero_iff] <;> omega

/-- Order by value. -/
def less : Binary64 → Binary64 → Bool
  | .num s r, .num t q => position s r < position t q
  | _, _ => false

end Binary64

end SceneTidy

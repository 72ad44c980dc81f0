import SceneTidy.Numeric.Binary64

/-!
# Shortest decimal text of a number

A number is written with the fewest decimal digits that read back as the same number, the nearest
such digits if there are several and the even last digit on a tie.  The text is positional: it has
no exponent, no zeros at the end of its fraction, and no point without a fraction.

Every finite number is a whole multiple of `10 ^ (-1074)`, so all comparisons are of integers.
-/

namespace SceneTidy

/-- The value of a rank in units of `10 ^ (-1074)`. -/
def exactDigits (rank : Nat) : Nat := unitsOfRank rank * Nat.pow 5 1074

/-- A decimal number: the value of its digits and the power of ten of the last one. -/
structure Decimal where
  digits : Nat
  exponent : Int
  deriving DecidableEq, Repr

/-- Whether a decimal reads back as the number of a rank. -/
def Decimal.readsAs (d : Decimal) (rank : Nat) : Bool := rankOfDecimal d.digits d.exponent == rank

/-- The number of decimal digits of a positive integer: its binary length tells it but for one,
since ten is a little less than the power of two with exponent `100000 / 30103`. -/
def decimalLength (n : Nat) : Nat :=
  let least := Nat.log2 n * 30103 / 100000 + 1
  if n < Nat.pow 10 least then least else least + 1

/-- The decimal that reads back as a rank and leaves out a number of digits of its exact value: one
of the two neighbours of the exact value on that grid. -/
def decimalWithout? (rank exact dropped : Nat) : Option Decimal :=
  let step := Nat.pow 10 dropped
  let exponent : Int := dropped - 1074
  let below : Decimal := ⟨exact / step, exponent⟩
  let above : Decimal := ⟨exact / step + 1, exponent⟩
  match below.readsAs rank, above.readsAs rank with
  | true, true => some ⟨roundHalfEven exact step, exponent⟩
  | true, false => some below
  | false, true => some above
  | false, false => none

/-- The shortest decimal that reads back as the rank; seventeen digits always suffice, and the
exact value stands in for the case that they do not. -/
def shortestDecimal (rank : Nat) : Decimal :=
  let exact := exactDigits rank
  let length := decimalLength exact
  ((List.range' 1 17).findSome? fun n => decimalWithout? rank exact (length - n)).getD
    ⟨exact, -1074⟩

/-- A decimal in positional notation. -/
def Decimal.positional (d : Decimal) : List Char :=
  let digits := Nat.toDigits 10 d.digits
  match d.exponent with
  | .ofNat e => digits ++ List.replicate e '0'
  | .negSucc e =>
    let places := e + 1
    let padded := List.replicate (places + 1 - digits.length) '0' ++ digits
    let fraction := (padded.drop (padded.length - places)).reverse.dropWhile (· = '0')
    padded.take (padded.length - places) ++
      if fraction = [] then [] else '.' :: fraction.reverse

/-- The text of a non-negative number. -/
def magnitudeText (rank : Nat) : List Char :=
  if rank = 0 then ['0']
  else if rank = infRank then ['i', 'n', 'f']
  else (shortestDecimal rank).positional

/-- The written form of a number. -/
def Binary64.text : Binary64 → List Char
  | .nan => ['n', 'a', 'n']
  | .num negative rank => (if negative then ['-'] else []) ++ magnitudeText rank

end SceneTidy

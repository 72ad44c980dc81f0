import SceneTidy.Numeric.Binary64
import SceneTidy.Text.Blank
import SceneTidy.Text.DecimalDigit
import SceneTidy.Text.Shown

/-!
# Number literals

How a text is read as a number.  Blanks at the ends do not count, except the information
separators.  A digit is a decimal digit of any script, and one low line may stand between two
digits.

* `readReal?`: digits with an optional point and an optional exponent, or `inf`, `infinity` and
  `nan` in any case;
* `readInteger?`: decimal digits;
* `readPrefixedInteger?`: an integer, in base sixteen after `0x`;
* `realOf`, `integerOf`: the first two, with the reason why a text is refused.

Any number of digits is read.  A limit that an interpreter may set on the digits of an integer in a
text is taken as off.
-/

namespace SceneTidy

open Text

/-- The blanks that may surround a number. -/
def isNumberBlank (c : Char) : Bool := isBlank c && !(0x1C ≤ c.toNat && c.toNat ≤ 0x1F)

/-- Whether a text starts with a digit. -/
def startsWithDigit (value? : Char → Option Nat) : List Char → Bool
  | [] => false
  | c :: _ => (value? c).isSome

/-- The digits at the start of a text and the rest of the text.  After a digit, a low line is
skipped if another digit follows it. -/
def digitRun (value? : Char → Option Nat) (afterDigit : Bool) :
    List Char → List Nat × List Char
  | [] => ([], [])
  | c :: r =>
    match value? c with
    | some d =>
      let (ds, rest) := digitRun value? true r
      (d :: ds, rest)
    | none =>
      if afterDigit && c = '_' && startsWithDigit value? r then digitRun value? false r
      else ([], c :: r)

/-- The number that digits stand for, most significant first. -/
def ofDigits (base : Nat) (ds : List Nat) : Nat := ds.foldl (fun n d => n * base + d) 0

/-- An optional sign, and whether it is a minus. -/
def takeSign : List Char → Bool × List Char
  | '-' :: r => (true, r)
  | '+' :: r => (false, r)
  | s => (false, s)

/-- The exponent part of a number, up to the end of the text; absent, it is zero. -/
def readExponent? : List Char → Option Int
  | [] => some 0
  | c :: r =>
    if c = 'e' || c = 'E' then
      let (negative, r) := takeSign r
      match digitRun digitValue? false r with
      | (d :: ds, []) =>
        let n : Int := ofDigits 10 (d :: ds)
        some (if negative then -n else n)
      | _ => none
    else none

/-- The fraction digits after a point, none if there is no point, and the rest. -/
def takeFraction : List Char → List Nat × List Char
  | '.' :: r => digitRun digitValue? false r
  | s => ([], s)

/-- A number without sign and surrounding blanks: its rank. -/
def readMagnitude? (s : List Char) : Option (Fin (infRank + 1)) :=
  let (whole, r) := digitRun digitValue? false s
  let (fraction, r) := takeFraction r
  if whole.isEmpty && fraction.isEmpty then none
  else (readExponent? r).map fun (exponent : Int) =>
    ⟨rankOfDecimal (ofDigits 10 (whole ++ fraction)) (exponent - fraction.length),
      Nat.lt_succ_of_le (rankOfDecimal_le ..)⟩

/-- The number written by a text. -/
def readReal? (s : List Char) : Option Binary64 :=
  let (negative, r) := takeSign (stripBy isNumberBlank s)
  let word := String.ofList (toLower r)
  if word = "nan" then some .nan
  else if word = "inf" || word = "infinity" then some (.infinity negative)
  else (readMagnitude? r).map (.num negative)

/-- Digits that make up a whole text, as a number of the given sign. -/
def readDigits? (value? : Char → Option Nat) (base : Nat) (negative : Bool) (s : List Char) :
    Option Int :=
  match digitRun value? false s with
  | (d :: ds, []) =>
    let n : Int := ofDigits base (d :: ds)
    some (if negative then -n else n)
  | _ => none

/-- The decimal integer written by a text. -/
def readInteger? (s : List Char) : Option Int :=
  let (negative, r) := takeSign (stripBy isNumberBlank s)
  readDigits? digitValue? 10 negative r

/-- The integer in base sixteen written by a text with the mark `0x`, after which one low line may
stand. -/
def readHexInteger? (s : List Char) : Option Int :=
  let (negative, r) := takeSign (stripBy isNumberBlank s)
  match r with
  | '0' :: x :: r =>
    if x = 'x' || x = 'X' then
      match r with
      | '_' :: r => readDigits? hexDigitValue? 16 negative r
      | r => readDigits? hexDigitValue? 16 negative r
    else none
  | _ => none

/-- Whether the mark `0x` follows the signs at the start of a text. -/
def hasHexMark (s : List Char) : Bool :=
  match s.dropWhile fun c => c = '+' || c = '-' with
  | '0' :: x :: _ => x = 'x' || x = 'X'
  | _ => false

/-- The integer written by a text, in base sixteen if it has the mark `0x`. -/
def readPrefixedInteger? (s : List Char) : Option Int :=
  if hasHexMark s then readHexInteger? s else readInteger? s

/-! ### Refused texts -/

/-- Why a text is no number. -/
inductive NumberError
  | notReal (text : String)
  | notInteger (text : String)
  deriving DecidableEq, Repr

/-- The wording of a refusal; of a text that is no integer, two hundred characters are shown. -/
def NumberError.message : NumberError → String
  | notReal text => s!"could not convert string to float: {shown text}"
  | notInteger text =>
    s!"invalid literal for int() with base 10: {String.ofList ((shown text).toList.take 200)}"

/-- The number written by a text, or why there is none. -/
def realOf (text : String) : Except NumberError Binary64 :=
  match readReal? text.toList with
  | some x => .ok x
  | none => .error (.notReal text)

/-- The decimal integer written by a text, or why there is none. -/
def integerOf (text : String) : Except NumberError Int :=
  match readInteger? text.toList with
  | some n => .ok n
  | none => .error (.notInteger text)

end SceneTidy

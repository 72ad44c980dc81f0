/-!
# Blank characters

The characters that separate words: the white space of Unicode together with the four
information separators U+001C to U+001F.  The module cuts texts at them: `strip` at both ends,
`words` everywhere.
-/

namespace SceneTidy.Text

/-- White space of Unicode, and the information separators. -/
def isBlank (c : Char) : Bool :=
  let n := c.toNat
  (0x09 ≤ n && n ≤ 0x0D) || (0x1C ≤ n && n ≤ 0x20) || n == 0x85 || n == 0xA0 || n == 0x1680 ||
    (0x2000 ≤ n && n ≤ 0x200A) || n == 0x2028 || n == 0x2029 || n == 0x202F || n == 0x205F ||
    n == 0x3000

/-- The text without the characters of a class at its two ends. -/
def stripBy (p : Char → Bool) (s : List Char) : List Char :=
  ((s.dropWhile p).reverse.dropWhile p).reverse

/-- The text without the blanks at its two ends. -/
def strip (s : List Char) : List Char := stripBy isBlank s

/-- The maximal runs of characters outside a class, in order. -/
def runsOutside (p : Char → Bool) : List Char → List (List Char)
  | [] => []
  | c :: r =>
    if p c then runsOutside p r
    else
      match r with
      | [] => [[c]]
      | d :: _ =>
        if p d then [c] :: runsOutside p r
        else
          match runsOutside p r with
          | [] => [[c]]
          | w :: ws => (c :: w) :: ws

/-- The maximal runs of characters that are not blank, in order. -/
def words (s : List Char) : List (List Char) := runsOutside isBlank s

/-- Lower case of the ASCII letters; all else stays. -/
def toLower (s : List Char) : List Char := s.map Char.toLower

end SceneTidy.Text

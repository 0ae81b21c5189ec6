/-!
# Blank characters

The blank characters are those of the Unicode property `White_Space`: five controls, the space,
and the separators beyond ASCII. Configuration values are read without the blanks at their ends.

## Main definitions

* `Text.isBlank` — membership in `White_Space`
* `Text.trim` — a text without the blanks at its two ends
-/

namespace AccessControl.Text

/-- Whether a character has the property `White_Space`. -/
def isBlank (c : Char) : Bool :=
  let n := c.toNat
  (9 ≤ n && n ≤ 13) || n == 0x20 || n == 0x85 || n == 0xA0 || n == 0x1680 ||
    (0x2000 ≤ n && n ≤ 0x200A) || n == 0x2028 || n == 0x2029 || n == 0x202F || n == 0x205F ||
    n == 0x3000

/-- The characters between the blanks at the two ends. -/
def trimChars (cs : List Char) : List Char :=
  ((cs.dropWhile isBlank).reverse.dropWhile isBlank).reverse

/-- A text without the blanks at its two ends. -/
def trim (s : String) : String := .ofList (trimChars s.toList)

end AccessControl.Text

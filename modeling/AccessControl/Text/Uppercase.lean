/-!
# Upper case for comparison with ASCII words

A word is compared with an ASCII name after full Unicode upper-casing. Besides the letters `a` to
`z`, nine characters have an upper case that is ASCII: the dotless i, the long s, the sharp s and
the seven Latin ligatures, most of which become more than one letter. The upper case of every
other character contains a character beyond ASCII, so for the comparison such a character may
stand for itself.

## Main definitions

* `Text.asciiUpper` — the upper case of a character where that is ASCII, else the character
* `Text.isUpperOf` — whether an ASCII name is the upper case of a text
-/

namespace AccessControl.Text

/-- The upper case of a character if it is ASCII, and the character itself otherwise. -/
def asciiUpper (c : Char) : List Char :=
  match c with
  | 'ı' => ['I']
  | 'ſ' => ['S']
  | 'ß' => ['S', 'S']
  | 'ﬀ' => ['F', 'F']
  | 'ﬁ' => ['F', 'I']
  | 'ﬂ' => ['F', 'L']
  | 'ﬃ' => ['F', 'F', 'I']
  | 'ﬄ' => ['F', 'F', 'L']
  | 'ﬅ' => ['S', 'T']
  | 'ﬆ' => ['S', 'T']
  | c => [c.toUpper]

/-- Whether the upper case of `s` is the ASCII text `name`. -/
def isUpperOf (name s : String) : Bool := s.toList.flatMap asciiUpper = name.toList

end AccessControl.Text

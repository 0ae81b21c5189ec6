import AccessControl.Text.Invisible

/-!
# Quoted texts

A message quotes a value between double quotes. The quote and the backslash are written after a
backslash, tab, line feed, carriage return and the zero character by a letter or digit after a
backslash, and every other invisible character by its code in lower-case hexadecimal between
braces.

## Main definitions

* `Text.escape` — how one character is written between the quotes
* `Text.quoted` — a text between double quotes
-/

namespace AccessControl.Text

/-- A number in lower-case hexadecimal, without leading zeros. -/
def hexadecimal (n : Nat) : List Char := Nat.toDigits 16 n

/-- How a character is written between double quotes. -/
def escape (c : Char) : List Char :=
  match c with
  | '\x00' => ['\\', '0']
  | '\t' => ['\\', 't']
  | '\r' => ['\\', 'r']
  | '\n' => ['\\', 'n']
  | '"' => ['\\', '"']
  | '\\' => ['\\', '\\']
  | c =>
    if isInvisible c then ['\\', 'u', '\x7b'] ++ hexadecimal c.toNat ++ ['\x7d'] else [c]

/-- A text between double quotes, with its special and invisible characters escaped. -/
def quoted (s : String) : String := .ofList ('"' :: s.toList.flatMap escape ++ ['"'])

end AccessControl.Text

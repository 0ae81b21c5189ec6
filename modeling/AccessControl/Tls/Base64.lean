/-!
# Base64

Four characters of the alphabet stand for three octets. Padding may close the last group or be left
out. The characters are taken in blocks of two groups: padding in a block that is not the last one,
or in the first group of a block, comes too early. White space between characters is passed over.

## Main definitions

* `Base64.Error` — why a text cannot be decoded
* `Base64.decode` — the octets of a text, given as octets itself
-/

namespace AccessControl.Base64

/-- Why a text cannot be decoded. -/
inductive Error where
  /-- An octet that is no character of the alphabet. -/
  | invalidCharacter (found : UInt8)
  /-- Padding before the last group. -/
  | prematurePadding
  /-- A last group that is too short, or padded wrongly. -/
  | invalidTrailingPadding
  deriving DecidableEq

def Error.message : Error → String
  | .invalidCharacter found => "InvalidCharacter(" ++ toString found.toNat ++ ")"
  | .prematurePadding => "PrematurePadding"
  | .invalidTrailingPadding => "InvalidTrailingPadding"

/-- What a character stands for. -/
inductive Code where
  /-- Six bits. -/
  | bits (n : Nat)
  /-- No bits. -/
  | padding
  deriving DecidableEq

/-- Whether an octet is white space: a tab, one of the breaks of a line or a page, or a space. -/
def isBlank (b : UInt8) : Bool := (9 ≤ b && b ≤ 13) || b = 32

/-- What a character of the alphabet stands for. -/
def code? (b : UInt8) : Option Code :=
  let n := b.toNat
  if 65 ≤ n && n ≤ 90 then some (.bits (n - 65))
  else if 97 ≤ n && n ≤ 122 then some (.bits (n - 71))
  else if 48 ≤ n && n ≤ 57 then some (.bits (n + 4))
  else if n = 43 then some (.bits 62)
  else if n = 47 then some (.bits 63)
  else if n = 61 then some .padding
  else none

/-- The bits of a code; padding counts as zeros. -/
def Code.value : Code → Nat
  | bits n => n
  | padding => 0

/-- Whether some code is padding. -/
def padded (codes : List Code) : Bool := codes.any (· = .padding)

/-- The first octets, three at most, of up to four codes. -/
def octets (count : Nat) (group : List Code) : List UInt8 :=
  let value (i : Nat) : Nat := (group[i]?.map Code.value).getD 0
  let n := ((value 0 * 64 + value 1) * 64 + value 2) * 64 + value 3
  [(n / 65536).toUInt8, (n / 256).toUInt8, n.toUInt8].take count

/-- The octets of the last group, which may be short or padded. -/
def lastGroup (group : List Code) : Except Error (List UInt8) :=
  match group with
  | [] => .ok []
  | [.bits _, .bits _] | [.bits _, .bits _, .padding, .padding] => .ok (octets 1 group)
  | [.bits _, .bits _, .bits _] | [.bits _, .bits _, .bits _, .padding] => .ok (octets 2 group)
  | [.bits _, .bits _, .bits _, .bits _] => .ok (octets 3 group)
  | _ => .error .invalidTrailingPadding

/-- The octets of the last block, of up to eight codes. -/
def lastBlock (block : List Code) : Except Error (List UInt8) :=
  if block.length ≤ 4 then lastGroup block
  else if padded (block.take 4) then .error .prematurePadding
  else (lastGroup (block.drop 4)).map (octets 3 (block.take 4) ++ ·)

/-- The octets of the codes in `block`, followed by a text. -/
def decodeFrom (block : List Code) : List UInt8 → Except Error (List UInt8)
  | [] => lastBlock block
  | b :: rest =>
    if isBlank b then decodeFrom block rest
    else
      match code? b with
      | none => .error (.invalidCharacter b)
      | some code =>
        if block.length < 8 then decodeFrom (block ++ [code]) rest
        -- one more code shows that the block was not the last one
        else if padded block then .error .prematurePadding
        else
          (decodeFrom [code] rest).map
            (octets 3 (block.take 4) ++ octets 3 (block.drop 4) ++ ·)

/-- The octets that a text stands for. -/
def decode (text : List UInt8) : Except Error (List UInt8) := decodeFrom [] text

end AccessControl.Base64

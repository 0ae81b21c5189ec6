/-!
# UTF-8

Texts are written as UTF-8 and read back strictly: overlong forms, surrogates and code points past
the last plane are refused. A refusal tells where the first ill-formed sequence starts and, unless
the octets end inside a sequence that is well-formed so far, how many octets it takes up: those
that could still have begun a character.

## Main definitions

* `Utf8.encode` — the octets of a text
* `Utf8.decode` — the text of a list of octets
* `Utf8.Error` — where and how octets fail to be UTF-8, with its `message`
-/

namespace AccessControl.Utf8

/-- How a list of octets fails to be UTF-8. -/
inductive Error where
  /-- An ill-formed sequence of `length` octets starts at `index`. -/
  | illFormed (length index : Nat)
  /-- The octets end inside a character that starts at `index`. -/
  | cutOff (index : Nat)
  deriving DecidableEq

def Error.message : Error → String
  | .illFormed length index => s!"invalid utf-8 sequence of {length} bytes from index {index}"
  | .cutOff index => s!"incomplete utf-8 byte sequence from index {index}"

/-- The octets of a text. -/
def encode (s : String) : List UInt8 := s.toList.flatMap String.utf8EncodeChar

/-- Whether an octet continues a character. -/
def isTail (b : UInt8) : Bool := 0x80 ≤ b && b ≤ 0xBF

/-- Whether the octet `b` may follow the lead octet `a` of a character of three or four octets.
The bounds exclude overlong forms, surrogates and code points past the last plane. -/
def isSecond (a b : UInt8) : Bool :=
  if a = 0xE0 then 0xA0 ≤ b && b ≤ 0xBF
  else if a = 0xED then 0x80 ≤ b && b ≤ 0x9F
  else if a = 0xF0 then 0x90 ≤ b && b ≤ 0xBF
  else if a = 0xF4 then 0x80 ≤ b && b ≤ 0x8F
  else isTail b

/-- The payload of a continuation octet. -/
def tailBits (b : UInt8) : Nat := b.toNat % 64

/-- The characters of a list of octets that starts at position `index` of a text. -/
def decodeFrom (index : Nat) : List UInt8 → Except Error (List Char)
  | [] => .ok []
  | a :: rest =>
    if a < 0x80 then
      (decodeFrom (index + 1) rest).map (Char.ofNat a.toNat :: ·)
    else if 0xC2 ≤ a && a ≤ 0xDF then
      match rest with
      | [] => .error (.cutOff index)
      | b :: rest =>
        if isTail b then
          (decodeFrom (index + 2) rest).map (Char.ofNat (a.toNat % 32 * 64 + tailBits b) :: ·)
        else .error (.illFormed 1 index)
    else if 0xE0 ≤ a && a ≤ 0xEF then
      match rest with
      | [] => .error (.cutOff index)
      | b :: rest =>
        if isSecond a b then
          match rest with
          | [] => .error (.cutOff index)
          | c :: rest =>
            if isTail c then
              (decodeFrom (index + 3) rest).map
                (Char.ofNat ((a.toNat % 16 * 64 + tailBits b) * 64 + tailBits c) :: ·)
            else .error (.illFormed 2 index)
        else .error (.illFormed 1 index)
    else if 0xF0 ≤ a && a ≤ 0xF4 then
      match rest with
      | [] => .error (.cutOff index)
      | b :: rest =>
        if isSecond a b then
          match rest with
          | [] => .error (.cutOff index)
          | c :: rest =>
            if isTail c then
              match rest with
              | [] => .error (.cutOff index)
              | d :: rest =>
                if isTail d then
                  (decodeFrom (index + 4) rest).map
                    (Char.ofNat
                      (((a.toNat % 8 * 64 + tailBits b) * 64 + tailBits c) * 64 + tailBits d) :: ·)
                else .error (.illFormed 3 index)
            else .error (.illFormed 2 index)
        else .error (.illFormed 1 index)
    else .error (.illFormed 1 index)

/-- The text of a list of octets, or where they stop being UTF-8. -/
def decode (bytes : List UInt8) : Except Error String := (decodeFrom 0 bytes).map .ofList

end AccessControl.Utf8

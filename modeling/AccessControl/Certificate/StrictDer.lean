import AccessControl.Certificate.Der

/-!
# Elements in their shortest form

Keys, and the certificates that are used for connections, are read strictly. A tag is one octet and
compared as it stands, a length is written in as few octets as it can be and is below 65535, and an
element that is opened must be parsed to its end.

## Main definitions

* `StrictDer.tagged` — the content of an element of a given tag
* `StrictDer.wholly` — what a parser makes of octets up to their end
* `StrictDer.natural`, `StrictDer.bits` — numbers and whole octets of bits
* `StrictDer.encode` — the element of a tag and a content

## Main results

* `StrictDer.tagged_encode` — an element that is written is read back, whatever follows it
-/

namespace AccessControl.StrictDer

open Der (Parser byte bytes bind_apply pure_apply byte_cons bytes_append)

/-! ### Tags -/

/-- The tag of a truth value. -/
def booleanTag : UInt8 := 0x01

/-- The tag of an integer. -/
def integerTag : UInt8 := 0x02

/-- The tag of a bit string. -/
def bitStringTag : UInt8 := 0x03

/-- The tag of an octet string. -/
def octetStringTag : UInt8 := 0x04

/-- The tag of an object identifier. -/
def objectIdTag : UInt8 := 0x06

/-- The tag of a sequence. -/
def sequenceTag : UInt8 := 0x30

/-- The tag of an element whose meaning hangs on its place and whose content is made of elements;
numbers are below 31. -/
def contextTag (number : UInt8) : UInt8 := 0xA0 + number

/-! ### Reading -/

/-- What every length is below. -/
def lengthLimit : Nat := 65535

/-- A length in its shortest form. -/
def length : Parser Nat := do
  let b ← byte
  if b < 0x80 then return b.toNat
  else if b = 0x81 then
    let n := (← byte).toNat
    if 0x80 ≤ n then return n else failure
  else if b = 0x82 then
    let n := Binary.bigEndian (← bytes 2)
    if 0x100 ≤ n && n < lengthLimit then return n else failure
  else failure

/-- The content of an element of a given tag. -/
def tagged (tag : UInt8) : Parser (List UInt8) := do
  if (← byte) = tag then bytes (← length) else failure

/-- Whether an element of a given tag seems to follow, by the next octet alone. -/
def announces (tag : UInt8) : Parser Bool := fun input => some (input.head? = some tag, input)

/-- What a parser makes of octets, of which it must leave nothing. -/
def wholly {α : Type} (p : Parser α) (octets : List UInt8) : Option α := do
  let (a, rest) ← p octets
  if rest.isEmpty then return a else none

/-- A value parsed from the whole content of an element of a given tag. -/
def within {α : Type} (tag : UInt8) (p : Parser α) : Parser α := do
  wholly p (← tagged tag)

/-- A number that is not negative, in its shortest form. -/
def natural : Parser Nat := do
  let content ← tagged integerTag
  if Der.isNatural content then return Binary.bigEndian content else failure

/-- A bit string of a given tag that is made of whole octets. -/
def bits (tag : UInt8) : Parser (List UInt8) := do
  match ← tagged tag with
  | 0 :: octets => return octets
  | _ => failure

/-! ### Writing -/

/-- The octets of a length in its shortest form. -/
def lengthOctets (n : Nat) : List UInt8 :=
  if n < 0x80 then [n.toUInt8]
  else if n < 0x100 then [0x81, n.toUInt8]
  else 0x82 :: Binary.writeBigEndian 2 n

/-- The element of a tag and a content. -/
def encode (tag : UInt8) (content : List UInt8) : List UInt8 :=
  tag :: (lengthOctets content.length ++ content)

/-- The shortest content of an integer that is not negative. -/
def naturalOctets (n : Nat) : List UInt8 :=
  -- one bit more than the number has, for the sign
  Binary.writeBigEndian ((n.log2 + 1) / 8 + 1) n

theorem length_lengthOctets {n : Nat} (h : n < lengthLimit) (rest : List UInt8) :
    length (lengthOctets n ++ rest) = some (n, rest) := by
  have h' : n < 65535 := h
  unfold lengthOctets length
  split
  · next hshort =>
    have hn : n % 256 = n := by omega
    have hlt : n.toUInt8 < 0x80 := by
      rw [UInt8.lt_iff_toNat_lt]
      simpa [hn] using hshort
    simp [bind_apply, byte_cons, hlt, hn, pure_apply]
  · next hlong =>
    split
    · next hone =>
      have hn : n % 256 = n := by omega
      simp [bind_apply, byte_cons, hn, Nat.not_lt.1 hlong, pure_apply]
    · next htwo =>
      have hr : Binary.bigEndian (Binary.writeBigEndian 2 n) = n :=
        Binary.bigEndian_writeBigEndian (by simp only [Binary.capacity]; omega)
      simp [bind_apply, byte_cons, bytes_append (Binary.length_writeBigEndian 2 n), hr, h,
        Nat.not_lt.1 htwo, pure_apply]

/-- An element that is written is read back, whatever follows it. -/
theorem tagged_encode (tag : UInt8) {content : List UInt8} (h : content.length < lengthLimit)
    (rest : List UInt8) : tagged tag (encode tag content ++ rest) = some (content, rest) := by
  have hl := length_lengthOctets h (content ++ rest)
  simp [tagged, encode, bind_apply, byte_cons, hl, bytes_append]

end AccessControl.StrictDer

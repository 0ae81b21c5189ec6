import AccessControl.Binary.Octets

/-!
# DER elements

An element is an identifier, a length and that many octets of content. Identifiers above 30 take
further octets of seven bits, at most five, and are numbers of 32 bits. Lengths are definite; the
long form may be longer than needed, but the number must fit in eight octets. A mark in the place of
the length, which announces content up to an empty element of tag 0, is read in one place only.

## Main definitions

* `Der.Parser` — parsers of octets, which compose in `do` blocks and take what they parse
* `Der.Element`, `Der.element` — elements, and the parser of one
* `Der.tagged`, `Der.within` — an element of a given tag, and a parser of its content
* `Der.skipContent` — content of a given length, or up to its end
* `Der.sequenceOf` — as many values as can be parsed
-/

namespace AccessControl.Der

/-- A parser of octets: a value and the octets after it, or nothing. -/
abbrev Parser := StateT (List UInt8) Option

/-- The class of a tag. -/
inductive TagClass where
  /-- Types of the standard. -/
  | universal
  /-- Types of an application. -/
  | application
  /-- Types whose meaning hangs on their place. -/
  | context
  /-- Private types. -/
  | reserved
  deriving DecidableEq

/-- An identifier. -/
structure Identifier where
  tagClass : TagClass
  /-- Whether the content is made of elements. -/
  constructed : Bool
  tag : Nat
  deriving DecidableEq

/-- An element. -/
structure Element where
  identifier : Identifier
  content : List UInt8
  deriving DecidableEq

/-- One octet. -/
def byte : Parser UInt8 := fun
  | [] => none
  | b :: rest => some (b, rest)

/-- The next `n` octets. -/
def bytes (n : Nat) : Parser (List UInt8) := fun input =>
  if input.length < n then none else some (input.take n, input.drop n)

theorem bind_apply {α β : Type} (p : Parser α) (f : α → Parser β) (input : List UInt8) :
    (p >>= f) input = (p input).bind fun r => f r.1 r.2 := rfl

theorem pure_apply {α : Type} (a : α) (input : List UInt8) :
    (pure a : Parser α) input = some (a, input) := rfl

theorem byte_cons (b : UInt8) (rest : List UInt8) : byte (b :: rest) = some (b, rest) := rfl

theorem bytes_append {n : Nat} {octets : List UInt8} (h : octets.length = n)
    (rest : List UInt8) : bytes n (octets ++ rest) = some (octets, rest) := by
  subst h
  simp [bytes]

/-- The rest of a tag number above 30, of which `high` was read: seven bits from each octet, the
last one being below 128. Bits above the 32nd are lost. -/
def longTag : Nat → Nat → Parser Nat
  | 0, _ => failure
  | limit + 1, high => do
    let b ← byte
    let tag := (high * 128 + b.toNat % 128) % 0x100000000
    if b < 128 then return tag else longTag limit tag

/-- An identifier. -/
def identifier : Parser Identifier := do
  let b ← byte
  let tagClass : TagClass := match b.toNat / 64 with
    | 0 => .universal
    | 1 => .application
    | 2 => .context
    | _ => .reserved
  let short := b.toNat % 32
  let tag ← if short = 31 then longTag 5 0 else pure short
  return ⟨tagClass, b.toNat / 32 % 2 = 1, tag⟩

/-- What stands in the place of a length. -/
inductive Length where
  /-- The number of octets of the content. -/
  | definite (n : Nat)
  /-- The mark of content that has an end of its own. -/
  | marked
  deriving DecidableEq

/-- A length or the mark in its place. -/
def lengthOrMark : Parser Length := do
  let b ← byte
  if b < 128 then return .definite b.toNat
  else if b = 128 then return .marked
  else if b = 255 then failure
  else
    let n := Binary.bigEndian (← bytes (b.toNat - 128))
    if n < 0x10000000000000000 then return .definite n else failure

/-- A length. -/
def length : Parser Nat := do
  match ← lengthOrMark with
  | .definite n => return n
  | .marked => failure

/-- An element. -/
def element : Parser Element := do
  let identifier ← identifier
  let content ← bytes (← length)
  return ⟨identifier, content⟩

/-! ### Tags of the standard -/

/-- The number of the tag of the empty element that ends marked content. -/
def endTag : Nat := 0

/-- The number of a truth value's tag. -/
def booleanTag : Nat := 1

/-- The number of an integer's tag. -/
def integerTag : Nat := 2

/-- The number of a bit string's tag. -/
def bitStringTag : Nat := 3

/-- The number of an octet string's tag. -/
def octetStringTag : Nat := 4

/-- The number of a sequence's tag. -/
def sequenceTag : Nat := 16

/-- The number of a set's tag. -/
def setTag : Nat := 17

/-! ### Parsers of elements -/

/-- An element whose tag has a given number. -/
def tagged (tag : Nat) : Parser Element := do
  let e ← element
  if e.identifier.tag = tag then return e else failure

/-- A value parsed from the content of an element whose tag has a given number. What is left of
the content is passed over. -/
def within {α : Type} (tag : Nat) (p : Parser α) : Parser α := do
  let e ← tagged tag
  let (a, _) ← (p.run e.content : Option (α × List UInt8))
  return a

/-- Whether all octets are parsed. -/
def atEnd : Parser Bool := fun input => some (input.isEmpty, input)

/-- Nothing, at the end of the octets. -/
def done : Parser Unit := do if ← atEnd then return () else failure

/-- A value, if one can be parsed. -/
def possibly {α : Type} (p : Parser α) : Parser (Option α) := fun input =>
  match p input with
  | some (a, rest) => some (some a, rest)
  | none => some (none, input)

/-- As many values as can be parsed, at most `limit`. -/
def upTo {α : Type} (p : Parser α) : Nat → Parser (List α)
  | 0 => pure []
  | limit + 1 => do
    match ← possibly p with
    | some a => return a :: (← upTo p limit)
    | none => return []

/-- As many values as can be parsed. A value takes an octet at least, so there are no more values
than octets. -/
def sequenceOf {α : Type} (p : Parser α) : Parser (List α) := fun input =>
  upTo p input.length input

/-- An object identifier, as its octets. The tag is not looked at. -/
def objectId : Parser (List UInt8) := do
  let e ← element
  if e.identifier.constructed then failure else return e.content

/-- The number of zero bits at the low end of an octet. -/
def trailingZeros (b : UInt8) : Nat :=
  ((List.range 8).takeWhile fun i => !b.toNat.testBit i).length

/-- Whether octets are the content of a bit string: the number of unused bits, then the bits, of
which those unused are zero. -/
def isBitString (content : List UInt8) : Bool :=
  match content with
  | [] => false
  | unused :: bits =>
    match bits.getLast? with
    | none => unused = 0
    | some last => unused.toNat ≤ trailingZeros last

/-- A bit string. -/
def bitString : Parser Unit := do
  let e ← tagged bitStringTag
  if !e.identifier.constructed && isBitString e.content then return () else failure

/-- Whether octets are the shortest form of a number that is not negative. -/
def isNatural (content : List UInt8) : Bool :=
  match content with
  | [] => false
  | [b] => b < 128
  | b :: c :: _ => b < 128 && (b ≠ 0 || c ≥ 128)

/-- A number that is not negative, below a limit. -/
def natural (limit : Nat) : Parser Nat := do
  let e ← tagged integerTag
  let n := Binary.bigEndian e.content
  if !e.identifier.constructed && isNatural e.content && n < limit then return n else failure

/-! ### Content with an end of its own -/

/-- Repeats a parser until it tells that it was the last time, at most `limit` times. -/
def repeatUntil (p : Parser Bool) : Nat → Parser Unit
  | 0 => failure
  | limit + 1 => do if ← p then return () else repeatUntil p limit

/-- Passes over the content that belongs to an identifier and a length, and tells whether this was
the end of marked content. Marked content is made of elements, which may have marked content
themselves, to less than the given depth. An element takes two octets at least, so there are fewer
of them than octets. -/
def skipContent : Nat → Identifier → Length → Parser Bool
  | 0, _, _ => failure
  | _ + 1, i, .definite n => do
    if n = 0 && i.tag = endTag then return true
    let _ ← bytes n
    return false
  | depth + 1, i, .marked => fun input =>
    let next : Parser Bool := do
      let inner ← identifier
      let l ← lengthOrMark
      skipContent depth inner l
    if i.constructed then (repeatUntil next input.length input).map fun (_, rest) => (false, rest)
    else none

end AccessControl.Der

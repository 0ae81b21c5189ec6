import AccessControl.Binary.Octets
import AccessControl.Text.Utf8

/-!
# Reading octets

A reader takes a value off the front of a list of octets and leaves the rest. It fails with the
reason why no value stands there.

## Main definitions

* `Binary.Error` — the reasons, with their `message`
* `Binary.Reader` — readers, which compose in `do` blocks
* `Binary.word`, `Binary.writeWord` — little-endian numbers of a fixed width

## Main results

* `Binary.word_writeWord` — a number that fits in its width is read back, whatever follows it
-/

namespace AccessControl.Binary

/-- Why no value can be read. -/
inductive Error where
  /-- A number, a tag or a truth value is cut off. -/
  | endOfInput
  /-- A text is declared longer than what is left. -/
  | textTooLong
  /-- A case number `found` of a type with only `count` cases. -/
  | unknownCase (found count : Nat)
  /-- An octet that is neither of the two option tags. -/
  | unknownOptionTag (found : Nat)
  /-- An octet that is neither of the two truth values. -/
  | unknownBool (found : Nat)
  | illFormedText (cause : Utf8.Error)
  deriving DecidableEq

def Error.message : Error → String
  | .endOfInput => "io error: unexpected end of file"
  | .textTooLong => "io error: "
  | .unknownCase found count =>
    "invalid value: integer `" ++ toString found ++ "`, expected variant index 0 <= i < " ++
      toString count
  | .unknownOptionTag found => "tag for enum is not valid, found " ++ toString found
  | .unknownBool found =>
    "invalid u8 while decoding bool, expected 0 or 1, found " ++ toString found
  | .illFormedText cause => "string is not valid utf8: " ++ cause.message

/-- A reader of values of type `α`. -/
abbrev Reader := StateT (List UInt8) (Except Error)

/-- The value at the front of `bytes`; what follows it does not matter. -/
def Reader.decode {α : Type} (r : Reader α) (bytes : List UInt8) : Except Error α :=
  (r.run bytes).map (·.1)

/-- One octet. -/
def byte : Reader UInt8 := fun
  | [] => .error .endOfInput
  | b :: rest => .ok (b, rest)

/-- A number of `width` octets, the least significant octet first. -/
def word : Nat → Reader Nat
  | 0 => pure 0
  | width + 1 => do
    let low ← byte
    let high ← word width
    return low.toNat + 256 * high

/-- The octets of a number in a given width, the least significant octet first. -/
def writeWord : Nat → Nat → List UInt8
  | 0, _ => []
  | width + 1, n => n.toUInt8 :: writeWord width (n / 256)

theorem length_writeWord (width n : Nat) : (writeWord width n).length = width := by
  induction width generalizing n with
  | zero => rfl
  | succ width ih => simp [writeWord, ih]

/-- A number that fits in its width is read back, whatever follows it. -/
theorem word_writeWord {width n : Nat} (h : n < capacity width) (rest : List UInt8) :
    word width (writeWord width n ++ rest) = .ok (n, rest) := by
  induction width generalizing n with
  | zero =>
    have hn : n = 0 := by simpa [capacity] using h
    subst hn
    rfl
  | succ width ih =>
    -- the octets above the lowest one are those of the quotient, which fits in one octet less
    have hq : n / 256 < capacity width := by
      rw [capacity] at h
      omega
    show (word width (writeWord width (n / 256) ++ rest)).bind
      (fun p => .ok (n.toUInt8.toNat + 256 * p.1, p.2)) = _
    rw [ih hq]
    have hn : n % 256 + 256 * (n / 256) = n := Nat.mod_add_div n 256
    simp [Except.bind, hn]

/-- The next `n` octets, of a text that is declared to have that many. -/
def textBytes (n : Nat) : Reader (List UInt8) := fun bytes =>
  if bytes.length < n then .error .textTooLong else .ok (bytes.take n, bytes.drop n)

/-- `n` values of the same type, one after the other. -/
def many {α : Type} (r : Reader α) : Nat → Reader (List α)
  | 0 => pure []
  | n + 1 => do
    let x ← r
    let xs ← many r n
    return x :: xs

end AccessControl.Binary

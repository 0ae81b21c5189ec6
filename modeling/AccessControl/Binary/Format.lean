import AccessControl.Binary.Reader
import AccessControl.SortedMap

/-!
# Binary formats

A format pairs the octets written for a value with the reader that takes them off again. Larger
formats are built from smaller ones in one step for both directions.

Numbers are little-endian. A length is eight octets, the number of a case four octets, an option
tag or a truth value one octet. A text is its length in octets and its UTF-8; a list, a set or a
map is its length and its items. Sets and maps are written in ascending order and read in any
order, the last of equal keys staying.

## Main definitions

* `Binary.Format` — the two directions of a format, `write` and `read`
* `Binary.Format.encode`, `Binary.Format.decode` — the octets of a value, and the value at the
  front of a list of octets
* `Binary.Format.text`, `Binary.Format.bool`, `Binary.Format.option`, `Binary.Format.list`,
  `Binary.Format.set`, `Binary.Format.map`, `Binary.Format.pair`, `Binary.Format.cases`,
  `Binary.Format.convert` — the ways to build one
-/

namespace AccessControl.Binary

/-- How values of a type are written as octets and read back. -/
structure Format (α : Type) where
  /-- The octets of a value. -/
  write : α → List UInt8
  /-- The reader of what `write` puts out. -/
  read : Reader α

namespace Format

variable {α β : Type}

/-- The octets of a value. -/
def encode (f : Format α) (a : α) : List UInt8 := f.write a

/-- The value at the front of a list of octets. -/
def decode (f : Format α) (bytes : List UInt8) : Except Error α := f.read.decode bytes

/-- The width in octets of a length. -/
def lengthWidth : Nat := 8

/-- The width in octets of the number of a case. -/
def caseWidth : Nat := 4

/-- Texts: the number of octets, then the octets in UTF-8. -/
def text : Format String where
  write s := writeWord lengthWidth (Utf8.encode s).length ++ Utf8.encode s
  read := do
    let n ← word lengthWidth
    let bytes ← textBytes n
    match Utf8.decode bytes with
    | .ok s => return s
    | .error cause => throw (.illFormedText cause)

/-- Truth values, as the octet 0 or 1. -/
def bool : Format Bool where
  write b := [if b then 1 else 0]
  read := do
    let tag ← byte
    if tag = 0 then return false
    else if tag = 1 then return true
    else throw (.unknownBool tag.toNat)

/-- Optional values: the octet 0, or the octet 1 and the value. -/
def option (f : Format α) : Format (Option α) where
  write
    | none => [0]
    | some a => 1 :: f.write a
  read := do
    let tag ← byte
    if tag = 0 then return none
    else if tag = 1 then return some (← f.read)
    else throw (.unknownOptionTag tag.toNat)

/-- Two values, one after the other. -/
def pair (f : Format α) (g : Format β) : Format (α × β) where
  write p := f.write p.1 ++ g.write p.2
  read := do
    let a ← f.read
    let b ← g.read
    return (a, b)

/-- Lists: the number of items, then the items. -/
def list (f : Format α) : Format (List α) where
  write xs := writeWord lengthWidth xs.length ++ xs.flatMap f.write
  read := do
    let n ← word lengthWidth
    many f.read n

/-- A format for `β` through values of `α` that stand for those of `β`. -/
def convert (f : Format α) (forth : α → β) (back : β → α) : Format β where
  write b := f.write (back b)
  read := return forth (← f.read)

/-- Types of finitely many values, each written as its number in the list of all. -/
def cases [DecidableEq α] (all : List α) : Format α where
  write a := writeWord caseWidth (all.idxOf a)
  read := do
    let n ← word caseWidth
    match all[n]? with
    | some a => return a
    | none => throw (.unknownCase n all.length)

/-- Maps: their entries, in ascending order of the keys. -/
def map [Ord α] [Std.TransOrd α] [Std.LawfulEqOrd α] (f : Format α) (g : Format β) :
    Format (SortedMap α β) :=
  (list (pair f g)).convert SortedMap.ofList SortedMap.entries

/-- Sets: their items, in ascending order. -/
def set [Ord α] [Std.TransOrd α] [Std.LawfulEqOrd α] (f : Format α) : Format (SortedSet α) :=
  (list f).convert SortedSet.ofKeys SortedMap.keys

end Format

end AccessControl.Binary

/-!
# Numbers in octets

A number can be written in a given count of octets if it is below the capacity of that count.

## Main definitions

* `Binary.capacity` — how many numbers there are of a width
* `Binary.bigEndian`, `Binary.writeBigEndian` — numbers with the most significant octet first

## Main results

* `Binary.bigEndian_writeBigEndian` — a number that fits in its width is read back
-/

namespace AccessControl.Binary

/-- How many numbers can be written in a given width. -/
def capacity : Nat → Nat
  | 0 => 1
  | width + 1 => 256 * capacity width

/-- A number, the most significant octet first. -/
def bigEndian (octets : List UInt8) : Nat := octets.foldl (fun n b => n * 256 + b.toNat) 0

/-- The octets of a number in a given width, the most significant octet first. -/
def writeBigEndian : Nat → Nat → List UInt8
  | 0, _ => []
  | width + 1, n => writeBigEndian width (n / 256) ++ [n.toUInt8]

theorem length_writeBigEndian (width n : Nat) : (writeBigEndian width n).length = width := by
  induction width generalizing n with
  | zero => rfl
  | succ width ih => simp [writeBigEndian, ih]

/-- A number that fits in its width is read back. -/
theorem bigEndian_writeBigEndian {width n : Nat} (h : n < capacity width) :
    bigEndian (writeBigEndian width n) = n := by
  induction width generalizing n with
  | zero =>
    have hn : n = 0 := by simpa [capacity] using h
    subst hn
    rfl
  | succ width ih =>
    -- the octets before the last one are those of the quotient
    have hq : n / 256 < capacity width := by
      rw [capacity] at h
      omega
    have hn : n / 256 * 256 + n % 256 = n := Nat.div_add_mod' n 256
    have hr : bigEndian (writeBigEndian (width + 1) n) =
        bigEndian (writeBigEndian width (n / 256)) * 256 + n.toUInt8.toNat := by
      simp [bigEndian, writeBigEndian, List.foldl_append]
    rw [hr, ih hq]
    simpa using hn

end AccessControl.Binary

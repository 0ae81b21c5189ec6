/-!
# Arithmetic modulo a prime

## Main definitions

* `Modular.repeated` — many equal operands combined by one operation, in few steps
* `Modular.power`, `Modular.inverse`, `Modular.difference` — arithmetic of residues
-/

namespace AccessControl.Modular

/-- The combination of `n` operands `a`, by halving: `unit` for none of them. -/
def repeated {α : Type} (combine : α → α → α) (unit a : α) (n : Nat) : α :=
  if n = 0 then unit
  else
    let half := repeated combine unit a (n / 2)
    let twice := combine half half
    if n % 2 = 1 then combine twice a else twice
termination_by n
decreasing_by omega

/-- The residue of a power. -/
def power (modulus a n : Nat) : Nat := repeated (fun x y => x * y % modulus) 1 a n

/-- The inverse of a residue modulo a prime, which is its power with the exponent two below the
prime; zero for zero. -/
def inverse (prime a : Nat) : Nat := power prime a (prime - 2)

/-- The residue of a difference. -/
def difference (modulus a b : Nat) : Nat := (a + (modulus - b % modulus)) % modulus

end AccessControl.Modular

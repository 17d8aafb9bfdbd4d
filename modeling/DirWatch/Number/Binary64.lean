/-!
# Whole numbers in binary64

The double nearest to a natural number, as an exact integer. Below `2^53` every number is a double. From there on the
doubles near `n` are the multiples of a spacing that doubles with every power of two, and a number half way between
two of them goes to the even multiple.

* **Rounding** (`Binary64.round`).
* **Overflow** (`Binary64.ofNat?`): a number that rounds to `2^1024` or more has no finite double.
-/

namespace DirWatch
namespace Binary64

/-- The gap between neighbouring doubles at `n`, for whole numbers. -/
def spacing (n : Nat) : Nat := if n < Nat.pow 2 53 then 1 else Nat.pow 2 (n.log2 - 52)

/-- The multiple of `unit` nearest to `n`, the even one of two that are equally near. -/
def roundTo (unit n : Nat) : Nat :=
  let q := n / unit
  let r := n % unit
  if 2 * r > unit ∨ (2 * r = unit ∧ q % 2 = 1) then (q + 1) * unit else q * unit

/-- The double nearest to `n` if doubles had no largest exponent. -/
def round (n : Nat) : Nat := roundTo (spacing n) n

/-- The double nearest to `n`, unless it is infinite. -/
def ofNat? (n : Nat) : Option Nat :=
  let r := round n
  if r < Nat.pow 2 1024 then some r else none

end Binary64
end DirWatch

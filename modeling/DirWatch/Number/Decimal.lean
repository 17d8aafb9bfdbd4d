import DirWatch.Text.Symbol

/-!
# Decimal fractions

A host may hand over fractions where whole numbers are wanted. They are kept as exact decimals: enough to compare them
with integers and to write them. A fraction between `0.0001` and `10^16` is written positionally, any other with an
exponent.
-/

namespace DirWatch

/-- A decimal fraction `± digits · 10 ^ exponent`, or one of the numbers that no digits write. -/
inductive Decimal where
  | finite (negative : Bool) (digits : Nat) (exponent : Int)
  | infinite (negative : Bool)
  | undefined
  deriving DecidableEq, Repr

namespace Decimal

/-- Moves zeros at the end of `digits` into the exponent; `fuel` bounds their number. -/
def strip : Nat → Nat → Int → Nat × Int
  | 0, digits, exponent => (digits, exponent)
  | fuel + 1, digits, exponent =>
    if digits = 0 then (0, 0)
    else if digits % 10 = 0 then strip fuel (digits / 10) (exponent + 1)
    else (digits, exponent)

/-- A fraction in its shortest digits. -/
def ofScientific (negative : Bool) (digits : Nat) (exponent : Int) : Decimal :=
  let r := strip (digits.log2 + 1) digits exponent
  .finite negative r.1 r.2

/-- The integer that a fraction is equal to, if there is one. -/
def toInt? : Decimal → Option Int
  | .finite negative digits exponent =>
    if exponent < 0 then (if digits = 0 then some 0 else none)
    else
      let n : Int := digits * Nat.pow 10 exponent.toNat
      some (if negative then -n else n)
  | _ => none

/-- The text of a fraction without its sign. -/
def magnitudeText (digits : Nat) (exponent : Int) : Text :=
  let ds := Text.ofNat digits
  let point : Int := ds.length + exponent
  if digits = 0 then Text.ofString "0.0"
  else if point > 16 ∨ point < -3 then
    let mantissa := match ds with
      | [] => []
      | [d] => [d]
      | d :: rest => d :: .char '.' :: rest
    let e := point - 1
    let width := Text.ofNat e.natAbs
    mantissa ++ Text.ofString (if e < 0 then "e-" else "e+") ++ (if width.length < 2 then Text.ofString "0" else []) ++
      width
  else if point ≤ 0 then Text.ofString "0." ++ List.replicate (-point).toNat (.char '0') ++ ds
  else if exponent ≥ 0 then ds ++ List.replicate exponent.toNat (.char '0') ++ Text.ofString ".0"
  else ds.take point.toNat ++ Text.ofString "." ++ ds.drop point.toNat

/-- The text of a fraction. -/
def text : Decimal → Text
  | .finite negative digits exponent =>
    (if negative then Text.ofString "-" else []) ++ magnitudeText digits exponent
  | .infinite negative => Text.ofString (if negative then "-inf" else "inf")
  | .undefined => Text.ofString "nan"

/-! ## Reading -/

/-- The number that decimal digits write; any other character counts as zero. -/
def digitsValue (cs : List Char) : Nat :=
  cs.foldl (fun n c => 10 * n + (if c.isDigit then c.toNat - '0'.toNat else 0)) 0

/-- Whether a sign is a minus, and what follows the sign. -/
def splitSign : List Char → Bool × List Char
  | '-' :: cs => (true, cs)
  | '+' :: cs => (false, cs)
  | cs => (false, cs)

/-- The fraction that a numeral writes: digits with an optional point and an optional exponent, or a word for one of the
numbers that no digits write. -/
def ofChars (cs : List Char) : Decimal :=
  let (negative, cs) := splitSign cs
  let isMark (c : Char) : Bool := c = 'e' || c = 'E'
  match cs with
  | 'i' :: _ => .infinite negative
  | 'n' :: _ => .undefined
  | _ =>
    let mantissa := cs.takeWhile (!isMark ·)
    let (below, scale) := splitSign ((cs.dropWhile (!isMark ·)).drop 1)
    let whole := mantissa.takeWhile (· ≠ '.')
    let tenths := (mantissa.dropWhile (· ≠ '.')).drop 1
    let exponent : Int := if below then -(digitsValue scale : Int) else digitsValue scale
    ofScientific negative (digitsValue (whole ++ tenths)) (exponent - tenths.length)

end Decimal
end DirWatch

import DirWatch.Text.Symbol

/-!
# Whole numbers in text

A numeral is an optional sign and decimal digits of any script, with single underscores allowed between digits and
blanks allowed around the whole. A text in ASCII has only the ASCII blanks.

* **Reading** (`Text.toInt?`): one digit of any script counts as its value, so scripts may be mixed.
* **Limit** (`Numeral.maxDigits`): a longer run of digits is no numeral, and a number that needs one has no text
  (`Numeral.bound`).
-/

namespace DirWatch
namespace Numeral

/-- The code points of the digits zero of all scripts; each is followed by the digits one to nine. -/
def zeros : List Nat := [
  0x30, 0x660, 0x6F0, 0x7C0, 0x966, 0x9E6, 0xA66, 0xAE6, 0xB66, 0xBE6, 0xC66, 0xCE6, 0xD66, 0xDE6, 0xE50, 0xED0,
  0xF20, 0x1040, 0x1090, 0x17E0, 0x1810, 0x1946, 0x19D0, 0x1A80, 0x1A90, 0x1B50, 0x1BB0, 0x1C40, 0x1C50, 0xA620,
  0xA8D0, 0xA900, 0xA9D0, 0xA9F0, 0xAA50, 0xABF0, 0xFF10, 0x104A0, 0x10D30, 0x11066, 0x110F0, 0x11136, 0x111D0,
  0x112F0, 0x11450, 0x114D0, 0x11650, 0x116C0, 0x11730, 0x118E0, 0x11950, 0x11C50, 0x11D50, 0x11DA0, 0x16A60,
  0x16AC0, 0x16B50, 0x1D7CE, 0x1D7D8, 0x1D7E2, 0x1D7EC, 0x1D7F6, 0x1E140, 0x1E2F0, 0x1E950, 0x1FBF0]

/-- The value of a decimal digit of any script. -/
def digit? (c : Char) : Option Nat :=
  (zeros.find? fun z => z ≤ c.toNat && c.toNat < z + 10).map (c.toNat - ·)

/-- Whether a character of an ASCII text is blank. -/
def isAsciiBlank (c : Char) : Bool := c == ' ' || (9 ≤ c.toNat && c.toNat ≤ 13)

/-- Whether a character of a text beyond ASCII is blank. -/
def isBlank (c : Char) : Bool :=
  let n := c.toNat
  isAsciiBlank c || n == 0x85 || n == 0xA0 || n == 0x1680 || (0x2000 ≤ n && n ≤ 0x200A) ||
    n == 0x2028 || n == 0x2029 || n == 0x202F || n == 0x205F || n == 0x3000

/-- The most digits a numeral may have, zeros in front included. -/
def maxDigits : Nat := 4300

/-- The least number with more digits. -/
def bound : Nat := Nat.pow 10 maxDigits

/-- The digits of a numeral without sign and blanks: digits in groups joined by single underscores. -/
def digits? : List Char → Option (List Nat)
  | [] => none
  | [c] => (digit? c).map ([·])
  | c :: '_' :: rest => do return (← digit? c) :: (← digits? rest)
  | c :: rest => do return (← digit? c) :: (← digits? rest)

/-- The number with the given digits, the highest first. -/
def ofDigits (ds : List Nat) : Nat := ds.foldl (fun n d => 10 * n + d) 0

/-- The number of an unsigned numeral. -/
def toNat? (cs : List Char) : Option Nat := do
  let ds ← digits? cs
  if ds.length ≤ maxDigits then some (ofDigits ds) else none

/-- The number of a signed numeral without blanks around it. -/
def signed? : List Char → Option Int
  | '-' :: rest => (toNat? rest).map fun n => -(n : Int)
  | '+' :: rest => (toNat? rest).map fun n => (n : Int)
  | cs => (toNat? cs).map fun n => (n : Int)

/-- The characters without the blanks at either end. -/
def trim (blank : Char → Bool) (cs : List Char) : List Char :=
  ((cs.dropWhile blank).reverse.dropWhile blank).reverse

end Numeral

/-- The number that a text writes, if it is a numeral. -/
def Text.toInt? (t : Text) : Option Int :=
  if t.isUnicode then
    let cs := t.toChars
    let blank := if cs.all (·.toNat < 128) then Numeral.isAsciiBlank else Numeral.isBlank
    Numeral.signed? (Numeral.trim blank cs)
  else none

end DirWatch

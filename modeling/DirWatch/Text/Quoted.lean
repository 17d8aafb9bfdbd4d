import DirWatch.Text.Printable

/-!
# Quoted text

A text in quotes, as messages show a pattern: in single quotes, or in double quotes when it holds a single quote and
no double quote. The backslash and the quote in use are escaped, as are tab, line feed and carriage return; any other
symbol that is not printable is written as its rank in two, four or eight hexadecimal digits.
-/

namespace DirWatch

/-- `n` in lowercase hexadecimal, padded with zeros to `width` digits. -/
def Text.ofHex (width n : Nat) : Text :=
  let digits := Nat.toDigits 16 n
  (List.replicate (width - digits.length) '0' ++ digits).map .char

namespace Quoted

/-- The quote character for a text that has a symbol in `single` or `double` quotes, or neither. -/
def quoteFor (t : Text) : Char :=
  if t.contains (.char '\'') && !t.contains (.char '"') then '"' else '\''

/-- The escape of a rank that is not printable. -/
def escapeCode (n : Nat) : Text :=
  if n < 0x100 then Text.ofString "\\x" ++ Text.ofHex 2 n
  else if n < 0x10000 then Text.ofString "\\u" ++ Text.ofHex 4 n
  else Text.ofString "\\U" ++ Text.ofHex 8 n

/-- A symbol as it stands between quotes `q`. -/
def escape (q : Char) (s : Symbol) : Text :=
  if s = .char q || s = .char '\\' then [.char '\\', s]
  else if s = .char '\t' then Text.ofString "\\t"
  else if s = .char '\n' then Text.ofString "\\n"
  else if s = .char '\r' then Text.ofString "\\r"
  else if s.isPrintable then [s]
  else escapeCode s.code

end Quoted

/-- The text for a stream of characters: a stray byte is written as its rank. -/
def Text.escaped (t : Text) : Text := t.flatMap fun s => if s.isChar then [s] else Quoted.escapeCode s.code

/-- The text in quotes. -/
def Text.quoted (t : Text) : Text :=
  let q := Quoted.quoteFor t
  [.char q] ++ t.flatMap (Quoted.escape q) ++ [.char q]

/-- A byte string in quotes after a `b`: bytes outside printable ASCII are escaped in two hexadecimal digits. -/
def Text.quotedBytes (bytes : List UInt8) : Text :=
  let t : Text := bytes.map fun b => .char (Char.ofNat b.toNat)
  let q := Quoted.quoteFor t
  let escape (s : Symbol) : Text := if s.code < 127 then Quoted.escape q s else Quoted.escapeCode s.code
  Text.ofString "b" ++ [.char q] ++ t.flatMap escape ++ [.char q]

end DirWatch

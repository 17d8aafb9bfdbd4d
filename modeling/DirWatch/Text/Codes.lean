import DirWatch.Text.Symbol

/-!
# Codes for terminals

A code in a text tells a terminal how to show what comes behind it. It is made of an escape, an opening bracket, any
digits, semicolons and question marks, and a letter.

* **Plain text** (`Text.withoutCodes`): the text without its codes, which are looked for from left to right.
-/

namespace DirWatch
namespace Codes

/-- The symbol that codes begin with. -/
def escape : Symbol := .char '\x1b'

/-- Whether a symbol may stand between the bracket and the letter of a code. -/
def isParameter : Symbol → Bool
  | .char c => c.isDigit || c == ';' || c == '?'
  | .stray _ => false

/-- Whether a symbol is a letter that ends a code. -/
def isLetter : Symbol → Bool
  | .char c => c.isAlpha
  | .stray _ => false

/-- How many symbols the code takes that a text begins with, if it begins with one. -/
def length? : Text → Option Nat
  | s :: bracket :: rest =>
    if s = escape ∧ bracket = .char '[' then
      match rest.dropWhile isParameter with
      | [] => none
      | letter :: _ => if isLetter letter then some ((rest.takeWhile isParameter).length + 3) else none
    else none
  | _ => none

/-- What is left of a text of which the first symbols belong to a code. -/
def strip : Nat → Text → Text
  | _, [] => []
  | n + 1, _ :: rest => strip n rest
  | 0, s :: rest =>
    match length? (s :: rest) with
    | none => s :: strip 0 rest
    | some n => strip (n - 1) rest

end Codes

/-- The text without its codes. -/
def Text.withoutCodes (t : Text) : Text := Codes.strip 0 t

end DirWatch

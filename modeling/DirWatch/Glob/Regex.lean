import DirWatch.Glob.Basic

/-!
# Globs as regular expressions

A glob is written as an anchored regular expression in which a dot matches every symbol. The written form also places
the errors of ranges: a range in wrong order is reported at its place in the regular expression.

* **Written form** (`Glob.regex`).
* **Ranges in wrong order** (`Glob.rangeError?`): the leftmost one, with its position, and with its line and column when
  the regular expression has more than one line.
-/

namespace DirWatch
namespace Glob

/-- The characters that are escaped outside classes. -/
def escapedChars : List Char := "()[]\x7b\x7d?*+-|^$\\.&~# \t\n\r\x0b\x0c".toList

/-- A symbol outside classes. -/
def escapeSymbol (s : Symbol) : Text :=
  match s with
  | .char c => if escapedChars.contains c then [.char '\\', s] else [s]
  | .stray _ => [s]

/-- A fragment of a regular expression: text, or a class. -/
inductive Fragment where
  | text (t : Text)
  | oneOf (c : CharClass)
  deriving DecidableEq, Repr

/-- The text of a fragment. -/
def Fragment.written : Fragment → Text
  | .text t => t
  | .oneOf c => c.written

/-- The fragment of an atom. -/
def Atom.fragment : Atom → Fragment
  | .star => .text ".*"
  | .any => .text "."
  | .exactly s => .text (escapeSymbol s)
  | .oneOf c => .oneOf c

/-- The fragments of the branches of a group. -/
def branchFragments : List (List Atom) → List Fragment
  | [] => []
  | [b] => b.map Atom.fragment
  | b :: rest => b.map Atom.fragment ++ .text "|" :: branchFragments rest

/-- The fragments of an item. -/
def Item.fragments : Item → List Fragment
  | .atom a => [a.fragment]
  | .group branches => .text "(?:" :: branchFragments branches ++ [.text ")"]

/-- The fragments of the regular expression of a glob. -/
def fragments (g : Glob) : List Fragment :=
  .text "(?s:" :: g.flatMap Item.fragments ++ [.text ")\\Z"]

/-- The regular expression of a glob. -/
def regex (g : Glob) : Text := g.fragments.flatMap Fragment.written

/-! ## Ranges in wrong order -/

/-- The first range in wrong order among fragments that start at a position. -/
def firstBadRange (position : Nat) : List Fragment → Option CharClass.BadRange
  | [] => none
  | .text t :: rest => firstBadRange (position + t.length) rest
  | .oneOf c :: rest =>
    match c.badRange? with
    | some r => some { r with offset := position + r.offset }
    | none => firstBadRange (position + c.written.length) rest

/-- The line and column of a position in a text of more than one line, both counted from one. -/
def place? (t : Text) (position : Nat) : Option (Nat × Nat) :=
  if t.contains (.char '\n') then
    let before := t.take position
    some (before.count (.char '\n') + 1, (before.reverse.takeWhile (· ≠ .char '\n')).length + 1)
  else none

/-- The error of the leftmost range in wrong order. -/
def rangeError? (g : Glob) : Option SyntaxError :=
  (firstBadRange 0 g.fragments).map fun r => .badRange r.low r.high r.offset (place? g.regex r.offset)

/-- The glob that a pattern writes, if it is well formed and all its ranges are in order. -/
def read? (pattern : Text) : Except SyntaxError Glob := do
  let g ← parse? pattern
  match g.rangeError? with
  | some e => .error e
  | none => .ok g

end Glob
end DirWatch

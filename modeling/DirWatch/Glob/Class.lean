import DirWatch.Text.Symbol

/-!
# Character classes

A class `[…]` or `[!…]` lists members; three members `X-Y` in a row stand for the range from `X` to `Y` by rank. Members
are paired up from left to right, so a dash at either end is a member itself.

* **Pairing** (`ClassItem.pairUp`).
* **Membership** (`CharClass.accepts`), and the same said of the members one after another (`CharClass.Means`).
* **Written form** (`CharClass.written`): how a regular expression writes the class. A backslash and an opening bracket
  are escaped, and so is a caret in front.
-/

namespace DirWatch

/-- An item of a class: one member, or the range between two. -/
inductive ClassItem (α : Type) where
  | one (x : α)
  | range (low high : α)
  deriving DecidableEq, Repr

/-- Pairs members up from left to right: a member, a dash and a member make a range. -/
def ClassItem.pairUp {α : Type} (isDash : α → Bool) : List α → List (ClassItem α)
  | x :: d :: y :: rest =>
    if isDash d then .range x y :: pairUp isDash rest else .one x :: pairUp isDash (d :: y :: rest)
  | x :: rest => .one x :: pairUp isDash rest
  | [] => []

/-- Whether a symbol is meant by an item. -/
def ClassItem.accepts (s : Symbol) : ClassItem Symbol → Bool
  | .one x => s = x
  | .range low high => low.code ≤ s.code && s.code ≤ high.code

/-- A character class: its members as the pattern lists them, and whether it means the symbols outside. -/
structure CharClass where
  negated : Bool
  members : Text
  deriving DecidableEq, Repr

namespace CharClass

/-- The dash that makes a range. -/
def dash : Symbol := .char '-'

/-- The items of a class. -/
def items (c : CharClass) : List (ClassItem Symbol) := ClassItem.pairUp (· = dash) c.members

/-- Whether a class means a symbol. -/
def accepts (c : CharClass) (s : Symbol) : Bool := (c.items.any (ClassItem.accepts s)) != c.negated

/-! ## Meaning -/

/-- Whether members begin with a range. -/
def BeginsRange (members : Text) : Prop := ∃ low high rest, members = low :: dash :: high :: rest

/-- The symbols that members list. What is left of the members when a range or a single member is taken from their
front is read in the same way. -/
inductive Lists : Text → Symbol → Prop
  | range {low high s : Symbol} {rest : Text} (hl : low.code ≤ s.code) (hh : s.code ≤ high.code) :
      Lists (low :: dash :: high :: rest) s
  | afterRange {low high s : Symbol} {rest : Text} (h : Lists rest s) : Lists (low :: dash :: high :: rest) s
  | single {s : Symbol} {rest : Text} (hr : ¬ BeginsRange (s :: rest)) : Lists (s :: rest) s
  | afterSingle {x s : Symbol} {rest : Text} (hr : ¬ BeginsRange (x :: rest)) (h : Lists rest s) : Lists (x :: rest) s

/-- What a class means: the symbols that its members list, or all others. -/
def Means (c : CharClass) (s : Symbol) : Prop := if c.negated then ¬ Lists c.members s else Lists c.members s

/-! ## Written form -/

/-- A member with the text that writes it. -/
structure Member where
  symbol : Symbol
  written : Text
  deriving DecidableEq, Repr

/-- The written form of a member behind the first. -/
def memberAfter (s : Symbol) : Member :=
  ⟨s, if s = .char '\\' ∨ s = .char '[' then [.char '\\', s] else [s]⟩

/-- The written form of the first member. -/
def memberFirst (s : Symbol) : Member := if s = .char '^' then ⟨s, [.char '\\', s]⟩ else memberAfter s

/-- The members with their written forms. -/
def writtenMembers (c : CharClass) : List Member :=
  match c.members with
  | [] => []
  | s :: rest => memberFirst s :: rest.map memberAfter

/-- What stands before the members. -/
def opening (c : CharClass) : Text := Text.ofString (if c.negated then "[^" else "[")

/-- The class as a regular expression writes it. -/
def written (c : CharClass) : Text :=
  c.opening ++ c.writtenMembers.flatMap (·.written) ++ Text.ofString "]"

/-- A range whose ends are in the wrong order, as written, with the number of symbols written before it. -/
structure BadRange where
  low : Text
  high : Text
  offset : Nat
  deriving DecidableEq, Repr

/-- The first range in wrong order among items that start `offset` symbols in. -/
def firstBadRange (offset : Nat) : List (ClassItem Member) → Option BadRange
  | [] => none
  | .one x :: rest => firstBadRange (offset + x.written.length) rest
  | .range x y :: rest =>
    if y.symbol.code < x.symbol.code then some ⟨x.written, y.written, offset⟩
    else firstBadRange (offset + x.written.length + 1 + y.written.length) rest

/-- The first range of a class in wrong order, with its offset from the opening bracket. -/
def badRange? (c : CharClass) : Option BadRange :=
  firstBadRange c.opening.length (ClassItem.pairUp (·.symbol = dash) c.writtenMembers)

end CharClass
end DirWatch

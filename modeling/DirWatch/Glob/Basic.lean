import DirWatch.Glob.Token

/-!
# Globs

A glob is a sequence of items: atoms, which match single symbols or runs, and groups `{…,…}` of alternative branches.
Stars and question marks match slashes like any other symbol, and a glob matches whole texts only.

* **Reading** (`Glob.ofTokens?`): groups do not nest; the first error from left to right is the one reported.
* **Meaning** (`Glob.Matches`): which texts a glob matches, said by concatenation and union alone.
-/

namespace DirWatch

/-- What matches without looking at its surroundings: any run of symbols, any one symbol, one given symbol, or one
symbol of a class. -/
inductive Glob.Atom where
  | star
  | any
  | exactly (s : Symbol)
  | oneOf (c : CharClass)
  deriving DecidableEq, Repr

/-- An item of a glob: an atom, or a group of branches. -/
inductive Glob.Item where
  | atom (a : Glob.Atom)
  | group (branches : List (List Glob.Atom))
  deriving DecidableEq, Repr

/-- A glob is a sequence of items. -/
abbrev Glob := List Glob.Item

namespace Glob

/-! ## Reading -/

/-- A group that is being read: its branches so far and the atoms of the branch at hand, both in reverse. -/
structure OpenGroup where
  branches : List (List Atom) := []
  branch : List Atom := []
  deriving DecidableEq, Repr

namespace OpenGroup

/-- Adds an atom to the branch at hand. -/
def add (g : OpenGroup) (a : Atom) : OpenGroup := { g with branch := a :: g.branch }

/-- Begins the next branch. -/
def next (g : OpenGroup) : OpenGroup := ⟨g.branch.reverse :: g.branches, []⟩

/-- The finished group. -/
def close (g : OpenGroup) : Item := .group (g.branch.reverse :: g.branches).reverse

end OpenGroup

/-- Puts an atom into the open group, or into the glob when no group is open. -/
def place (a : Atom) (group : Option OpenGroup) (rest : Option OpenGroup → Except SyntaxError Glob) :
    Except SyntaxError Glob :=
  match group with
  | some g => rest (some (g.add a))
  | none => (rest none).map (.atom a :: ·)

/-- The glob of the tokens behind an open group, or at the top when none is open. -/
def assemble : Option OpenGroup → List Token → Except SyntaxError Glob
  | none, [] => .ok []
  | some _, [] => .error .unclosedAlternation
  | group, .star :: rest => place .star group (assemble · rest)
  | group, .any :: rest => place .any group (assemble · rest)
  | group, .exactly s :: rest => place (.exactly s) group (assemble · rest)
  | group, .oneOf c :: rest => place (.oneOf c) group (assemble · rest)
  | none, .comma :: rest => (assemble none rest).map (.atom (.exactly (.char ',')) :: ·)
  | some g, .comma :: rest => assemble (some g.next) rest
  | none, .openBrace _ :: rest => assemble (some {}) rest
  | some _, .openBrace position :: _ => .error (.nestedAlternation position)
  | none, .closeBrace position :: _ => .error (.unopenedAlternation position)
  | some g, .closeBrace _ :: rest => (assemble none rest).map (g.close :: ·)
  | _, .malformed e :: _ => .error e

/-- The glob of a list of tokens. -/
def ofTokens? (ts : List Token) : Except SyntaxError Glob := assemble none ts

/-- The glob that a pattern writes; ranges are not checked. -/
def parse? (pattern : Text) : Except SyntaxError Glob := ofTokens? (tokens pattern)

/-! ## Meaning -/

/-- The texts that an atom matches. -/
def Atom.Matches : Atom → Text → Prop
  | .star, _ => True
  | .any, t => ∃ s, t = [s]
  | .exactly s, t => t = [s]
  | .oneOf c, t => ∃ s, t = [s] ∧ c.Means s

/-- The texts that a sequence of atoms matches. -/
def BranchMatches : List Atom → Text → Prop
  | [], t => t = []
  | a :: rest, t => ∃ u v, t = u ++ v ∧ a.Matches u ∧ BranchMatches rest v

/-- The texts that an item matches. -/
def Item.Matches : Item → Text → Prop
  | .atom a, t => a.Matches t
  | .group branches, t => ∃ b ∈ branches, BranchMatches b t

/-- The texts that a glob matches. -/
def Matches : Glob → Text → Prop
  | [], t => t = []
  | i :: rest, t => ∃ u v, t = u ++ v ∧ i.Matches u ∧ Matches rest v

end Glob
end DirWatch

import DirWatch.Glob.Basic

/-!
# Matching texts against globs

A text of `n` symbols has `n + 1` places, before, between and behind its symbols. Matching carries along the places
that the items read so far can have reached, as one mark for each place: an atom moves the marks, and a group unites
what its branches reach. Each item costs one pass over the text.
-/

namespace DirWatch
namespace Glob

/-- One mark for each place of a text. -/
abbrev Marks := List Bool

/-- Moves every mark over the next symbol if that passes the test. -/
def Marks.over (test : Symbol → Bool) (t : Text) (m : Marks) : Marks :=
  false :: List.zipWith (fun s b => b && test s) t m

/-- Marks every place at or behind a mark; `seen` tells of a mark further in front. -/
def Marks.spread (seen : Bool) : Marks → Marks
  | [] => []
  | b :: rest => (seen || b) :: spread (seen || b) rest

/-- The places that an atom reaches from the marked ones. -/
def Atom.reach (t : Text) (m : Marks) : Atom → Marks
  | .star => Marks.spread false m
  | .any => m.over (fun _ => true) t
  | .exactly x => m.over (fun s => s = x) t
  | .oneOf c => m.over c.accepts t

/-- The places that a sequence of atoms reaches. -/
def reachBranch (t : Text) : Marks → List Atom → Marks
  | m, [] => m
  | m, a :: rest => reachBranch t (a.reach t m) rest

/-- The places that any of some branches reaches. -/
def reachGroup (t : Text) (m : Marks) : List (List Atom) → Marks
  | [] => m.map fun _ => false
  | b :: rest => List.zipWith (· || ·) (reachBranch t m b) (reachGroup t m rest)

/-- The places that an item reaches. -/
def Item.reach (t : Text) (m : Marks) : Item → Marks
  | .atom a => a.reach t m
  | .group branches => reachGroup t m branches

/-- The places that a glob reaches. -/
def reach (t : Text) : Marks → Glob → Marks
  | m, [] => m
  | m, i :: rest => reach t (i.reach t m) rest

/-- The marks before anything is read: only the place in front. -/
def Marks.front (t : Text) : Marks := true :: t.map fun _ => false

/-- Whether a glob matches a whole text: it reaches the place behind the last symbol. -/
def accepts (g : Glob) (t : Text) : Bool := (reach t (Marks.front t) g).getLast?.getD false

end Glob
end DirWatch

import DirWatch.Registry

/-!
# Routing events to handlers

An event that passed the filter goes to the handler of its kind's category, if the kind has a category and the category
has a handler.
-/

namespace DirWatch

/-- A call of a handler, as it is handed to the scheduler. -/
structure Dispatch where
  category : Category
  handler : Text
  paths : List Text
  deriving DecidableEq, Repr

/-- The call for an event of a kind, if there is one. -/
def Registry.route (r : Registry Text) (kind : EventKind) (paths : List Text) : Option Dispatch := do
  let category ← kind.category?
  let handler ← r.get category
  return ⟨category, handler, paths⟩

end DirWatch

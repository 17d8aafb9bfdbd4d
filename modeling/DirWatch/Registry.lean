import DirWatch.Event

/-!
# Handler registries

A registry holds at most one handler for each category. Handlers are known by what identifies them to the host.
-/

namespace DirWatch

/-- The handlers of a watch, by category. -/
structure Registry (α : Type) where
  added : Option α := none
  read : Option α := none
  removed : Option α := none
  changed : Option α := none
  deriving DecidableEq, Repr

namespace Registry
variable {α : Type}

/-- The handler of a category. -/
def get (r : Registry α) : Category → Option α
  | .added => r.added
  | .removed => r.removed
  | .changed => r.changed
  | .read => r.read

/-- Registers a handler for a category. -/
def set (r : Registry α) (c : Category) (h : α) : Registry α :=
  match c with
  | .added => { r with added := some h }
  | .removed => { r with removed := some h }
  | .changed => { r with changed := some h }
  | .read => { r with read := some h }

end Registry
end DirWatch

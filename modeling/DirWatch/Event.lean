import DirWatch.Path

/-!
# Events and their categories

An event is a kind of change with the paths that it affects, and the notifier's own idea of their type when it has
one. Kinds map to the categories that handlers are registered for; `other` maps to none and is never dispatched.
-/

namespace DirWatch

/-- The kinds of change. -/
inductive EventKind where
  | created
  | removed
  | modified
  | accessRead
  | other
  deriving DecidableEq, Repr

/-- The categories that handlers are registered for. -/
inductive Category where
  | added
  | removed
  | changed
  | read
  deriving DecidableEq, Repr

/-- All kinds, in order. -/
def EventKind.all : List EventKind := [.created, .removed, .modified, .accessRead, .other]

/-- The category of a kind. -/
def EventKind.category? : EventKind → Option Category
  | .created => some .added
  | .removed => some .removed
  | .modified => some .changed
  | .accessRead => some .read
  | .other => none

/-- All categories, in order. -/
def Category.all : List Category := [.added, .removed, .changed, .read]

/-- The key that a handler is registered under. -/
def Category.key : Category → Text
  | .added => "added"
  | .removed => "removed"
  | .changed => "changed"
  | .read => "read"

/-- A change that a notifier reports. -/
structure Event where
  kind : EventKind
  paths : List Path
  isDirectory : Option Bool := none
  deriving DecidableEq, Repr

/-- The event of a kind with the paths that some texts write. -/
def Event.ofTexts (kind : EventKind) (paths : List Text) (isDirectory : Option Bool) : Event :=
  ⟨kind, paths.map Path.ofText, isDirectory⟩

end DirWatch

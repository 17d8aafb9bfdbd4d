import DirWatch.Event

/-!
# Notices of the notifier

A notifier reports each change as a notice. Most notices become events of their own (`Notice.toEvent`). A notice that
something in a directory was created, deleted, moved or written is followed by one that the directory was modified;
that second one is an echo and is dropped.

* **Echoes** (`Echo.hear`): a directory is remembered when a notice touches it, and the next modification of it is
  dropped and clears the memory. Directories are compared by their text as reported.
-/

namespace DirWatch

/-- The types of notice. -/
inductive NoticeType where
  | created
  | deleted
  | modified
  | moved
  | closed
  | closedUnwritten
  | opened
  | attributes
  deriving DecidableEq, Repr

/-- The types of notice by name. -/
def NoticeType.names : List (Text × NoticeType) := [
  ("created", .created),
  ("deleted", .deleted),
  ("modified", .modified),
  ("moved", .moved),
  ("closed", .closed),
  ("closed_no_write", .closedUnwritten),
  ("opened", .opened)]

/-- The type of notice of a name; any other name tells of attributes. -/
def NoticeType.ofName (name : Text) : NoticeType := ((names.find? (·.1 = name)).map (·.2)).getD .attributes

/-- A notice about a path, for a move also with its destination, which may be empty. -/
structure Notice where
  type : NoticeType
  source : Text
  destination : Text := []
  isDirectory : Bool := false
  deriving DecidableEq, Repr

/-- The kind of event that a type of notice becomes. A move counts as a modification of both its paths. -/
def NoticeType.kind : NoticeType → EventKind
  | .created => .created
  | .deleted => .removed
  | .modified => .modified
  | .moved => .modified
  | .closedUnwritten => .accessRead
  | .closed => .other
  | .opened => .other
  | .attributes => .other

/-- Whether a type of notice touches the directory above. -/
def NoticeType.touchesParent : NoticeType → Bool
  | .created => true
  | .deleted => true
  | .moved => true
  | .closed => true
  | _ => false

namespace Notice

/-- The path texts that a notice is about. -/
def texts (n : Notice) : List Text :=
  if n.type = .moved ∧ n.destination ≠ [] then [n.source, n.destination] else [n.source]

/-- The event that a notice becomes. -/
def toEvent (n : Notice) : Event := .ofTexts n.type.kind n.texts (some n.isDirectory)

/-- The directories that a notice touches. -/
def touched (n : Notice) : List Text := if n.type.touchesParent then n.texts.map Path.parentText else []

/-- Whether a notice says that a directory itself was modified. -/
def isDirectoryChange (n : Notice) : Bool := n.type = .modified && n.isDirectory

end Notice

/-- The directories whose echo is still to come. -/
structure Echo where
  touched : List Text := []
  deriving DecidableEq, Repr

namespace Echo

/-- Remembers a directory. -/
def remember (e : Echo) (directory : Text) : Echo :=
  if directory ∈ e.touched then e else ⟨directory :: e.touched⟩

/-- Takes a notice in: the memory afterwards, and whether the notice is an echo. -/
def hear (e : Echo) (n : Notice) : Echo × Bool :=
  if n.isDirectoryChange then
    if n.source ∈ e.touched then (⟨e.touched.filter (· ≠ n.source)⟩, true) else (e, false)
  else (n.touched.foldl remember e, false)

end Echo
end DirWatch

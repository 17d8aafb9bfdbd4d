import DirWatch.Event
import DirWatch.Options.Basic
import DirWatch.System.FileTable
import DirWatch.Text.Utf8

/-!
# Filtering events

A path of an event is kept when its type is watched and the pattern matches it. The type is asked for when the event
is handled; if that fails, the notifier's idea of the type stands in, and without one the path is not kept. The pattern
is matched against the path itself, while the paths that are kept are handed on as lossy text.
-/

namespace DirWatch

/-- Whether paths of a type are reported. -/
def Options.watches (o : Options) : PathType → Bool
  | .file => o.watchFiles
  | .directory => o.watchDirectories
  | .other => false

namespace Filter

/-- The type of a path at the moment, with the notifier's hint in place of an answer. -/
def typeOf (table : FileTable) (hint : Option Bool) (path : Path) : Except Failure (Option PathType) :=
  let hinted : Option PathType := hint.map fun isDirectory => if isDirectory then .directory else .file
  match table.probe path.text with
  | .ok (some type) => .ok (some type)
  | .ok none => .ok hinted
  | .error (.os _) => .ok hinted
  | .error f => .error f

/-- Whether a path of an event is kept. -/
def keeps (o : Options) (table : FileTable) (hint : Option Bool) (path : Path) : Except Failure Bool := do
  match ← typeOf table hint path with
  | none => return false
  | some type => return o.watches type && o.pattern.accepts path.text

/-- The texts of the paths that are kept, in order. -/
def keep (o : Options) (table : FileTable) (hint : Option Bool) : List Path → Except Failure (List Text)
  | [] => .ok []
  | p :: rest => do
    let kept ← keeps o table hint p
    let others ← keep o table hint rest
    return if kept then p.text.lossy :: others else others

/-- The texts of the paths of an event that are kept, in order. -/
def paths (o : Options) (table : FileTable) (e : Event) : Except Failure (List Text) :=
  keep o table e.isDirectory e.paths

end Filter
end DirWatch

import DirWatch.Failure

/-!
# File tables

What the file system answers about paths: for each path text its mode and whether it may be read, or the fault that
asking raises. A path without an entry is absent. The table may change between questions.

* **Status** (`FileTable.status`): a path with a NUL character is never looked up.
* **Type** (`FileTable.probe`): absence is an answer, other errors are not.
-/

namespace DirWatch

/-- The types of path that are told apart. -/
inductive PathType where
  | file
  | directory
  | other
  deriving DecidableEq, Repr

/-- What asking about a path gives. -/
inductive FileTable.Entry where
  | present (mode : Nat) (readable : Bool)
  | faulty (f : Fault)
  deriving DecidableEq, Repr

/-- The entries of a file system, by path text. -/
structure FileTable where
  entries : List (Text × FileTable.Entry) := []
  deriving DecidableEq, Repr

/-- New entries for some paths, and `none` for paths that vanish. -/
abbrev FileTable.Change := List (Text × Option FileTable.Entry)

namespace FileTable

/-- The entry of a path. -/
def lookup? (t : FileTable) (path : Text) : Option Entry := (t.entries.find? (·.1 = path)).map (·.2)

/-- Sets or removes the entry of a path. -/
def set (t : FileTable) (path : Text) (entry : Option Entry) : FileTable :=
  let others := t.entries.filter (·.1 ≠ path)
  match entry with
  | some e => ⟨(path, e) :: others⟩
  | none => ⟨others⟩

/-- Makes a change, entry by entry. -/
def apply (t : FileTable) (change : Change) : FileTable := change.foldl (fun t c => t.set c.1 c.2) t

/-- The mode and readability of a path. -/
def status (t : FileTable) (path : Text) : Except Failure (Nat × Bool) :=
  if path.contains (.char '\x00') then .error .nullByte
  else
    match t.lookup? path with
    | some (.present mode readable) => .ok (mode, readable)
    | some (.faulty f) => .error (.ofFault f)
    | none => .error (.os (.coded 2 (some "No such file or directory") none))

/-- The type that a mode says. -/
def typeOfMode (mode : Nat) : PathType :=
  match mode / 4096 % 16 with
  | 8 => .file
  | 4 => .directory
  | _ => .other

/-- The type of a path, or `none` if it is absent. -/
def probe (t : FileTable) (path : Text) : Except Failure (Option PathType) :=
  match t.status path with
  | .ok (mode, _) => .ok (some (typeOfMode mode))
  | .error (.os e) => if e.meansAbsent then .ok none else .error (.os e)
  | .error f => .error f

/-- Whether there is something at a path. -/
def exists? (t : FileTable) (path : Text) : Except Failure Bool := (t.probe path).map Option.isSome

/-- Whether a path is a regular file. -/
def isFile? (t : FileTable) (path : Text) : Except Failure Bool := (t.probe path).map (· == some .file)

/-- Whether a path is a directory. -/
def isDirectory? (t : FileTable) (path : Text) : Except Failure Bool := (t.probe path).map (· == some .directory)

/-- Whether a path may be read; a path whose status is a system error may not. -/
def readable? (t : FileTable) (path : Text) : Except Failure Bool :=
  match t.status path with
  | .ok (_, readable) => .ok readable
  | .error (.os _) => .ok false
  | .error f => .error f

end FileTable
end DirWatch

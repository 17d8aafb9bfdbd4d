import DirWatch.Text.Symbol

/-!
# Paths

A path is a form, relative or rooted with one or two slashes, and a list of components. Reading a text as a path drops
empty components and `.`; the components `..` stay, since they cannot be resolved without the file system.

* **Reading** (`Path.ofText`) and **writing** (`Path.text`): the components of a path are never empty, never `.` and
  hold no slash (`Path.clean`).
* **The directory above** (`Path.parentText`), of a text as it stands.
-/

namespace DirWatch

/-- The slash that separates components. -/
def slash : Symbol := .char '/'

/-- The component `.`, which names the directory it stands in. -/
def dot : Text := [.char '.']

/-- How a path begins. -/
inductive Path.Form where
  | relative
  | rooted
  | doubleRooted
  deriving DecidableEq, Repr

/-- Whether a text may stand as a component of a path. -/
def Path.IsComponent (c : Text) : Prop := c ≠ [] ∧ c ≠ dot ∧ slash ∉ c

instance (c : Text) : Decidable (Path.IsComponent c) := by unfold Path.IsComponent; infer_instance

/-- A path without empty and `.` components. -/
@[ext]
structure Path where
  form : Path.Form
  components : List Text
  clean : ∀ c ∈ components, Path.IsComponent c
  deriving DecidableEq, Repr

namespace Path

/-- The pieces of a text between slashes; a text without slashes is one piece. -/
def pieces : Text → List Text
  | [] => [[]]
  | s :: rest =>
    if s = slash then [] :: pieces rest
    else
      match pieces rest with
      | [] => [[s]]
      | p :: ps => (s :: p) :: ps

/-- The form of the path that a text writes: exactly two leading slashes differ from one or many. -/
def formOf (t : Text) : Form :=
  match (t.takeWhile (· = slash)).length with
  | 0 => .relative
  | 2 => .doubleRooted
  | _ => .rooted

/-- No piece of a text holds a slash. -/
theorem slash_notMem_pieces {t c : Text} (h : c ∈ pieces t) : slash ∉ c := by
  induction t generalizing c with
  | nil => simp [pieces] at h; simp [h]
  | cons s rest ih =>
    by_cases hs : s = slash
    · simp only [pieces, hs, if_true, List.mem_cons] at h
      rcases h with rfl | h
      · simp
      · exact ih h
    · simp only [pieces, hs, if_false] at h
      cases hp : pieces rest with
      | nil => simp [hp] at h; subst h; simpa using fun e => hs e.symm
      | cons p ps =>
        simp only [hp, List.mem_cons] at h
        rcases h with rfl | h
        · have := ih (c := p) (by simp [hp])
          simp only [List.mem_cons, not_or]
          exact ⟨fun e => hs e.symm, this⟩
        · exact ih (by simp [hp, h])

/-- The path that a text writes. -/
def ofText (t : Text) : Path where
  form := formOf t
  components := (pieces t).filter fun c => c ≠ [] ∧ c ≠ dot
  clean := by
    intro c h
    simp only [List.mem_filter, decide_eq_true_eq] at h
    exact ⟨h.2.1, h.2.2, slash_notMem_pieces h.1⟩

/-- The slashes that a path of a form begins with. -/
def Form.text : Form → Text
  | .relative => []
  | .rooted => [slash]
  | .doubleRooted => [slash, slash]

/-- The text of a path; a relative path without components is `.`. -/
def text (p : Path) : Text :=
  match p.form, p.components with
  | .relative, [] => dot
  | form, cs => form.text ++ Text.join [slash] cs

/-- The text of the path that a text writes. -/
def normalise (t : Text) : Text := (ofText t).text

/-- The text of the directory above: what stands before the last slash of a text, without trailing slashes unless it
is all slashes. The text is taken as it stands, not read as a path. -/
def parentText (t : Text) : Text :=
  let head := (t.reverse.dropWhile (· ≠ slash)).reverse
  if head.all (· = slash) then head else (head.reverse.dropWhile (· = slash)).reverse

end Path
end DirWatch

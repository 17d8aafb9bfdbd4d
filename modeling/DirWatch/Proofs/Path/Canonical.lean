import DirWatch.Notice
import Mathlib.Data.List.Forall2

/-!
# Canonical paths

A text of a path begins with the slashes of its root (`Path.rootSlashes`), and what follows falls into parts at its
slashes (`Path.parts`). Some parts are names (`Path.names`); the others are empty or `.`.

- **Reading and writing**: a path is read back from its text (`ofText_text`), and two texts are read as one path just
  when they have the same root and the same names (`ofText_eq_iff`).
- **Form**: what is written for a text keeps its root and its names, `..` among them, and has no other parts
  (`canonical_text`).
- **Events** carry such paths, whether they are built from texts or come from a notice (`Event.canonical_paths`).
-/

namespace DirWatch

theorem Text.join_eq_intercalate (separator : Text) (ts : List Text) :
    Text.join separator ts = separator.intercalate ts := by
  induction ts with
  | nil => rfl
  | cons t rest ih =>
    cases rest with
    | nil => exact List.intercalate_singleton.symm
    | cons u rest =>
      show t ++ separator ++ Text.join separator (u :: rest) = _
      rw [ih, List.intercalate_cons_cons]

namespace Path

/-! ## Roots and parts -/

/-- How many slashes the root of a text has: none, two, or else one. -/
def rootSlashes (t : Text) : Nat :=
  let leading := (t.takeWhile (· = slash)).length
  if leading = 2 then 2 else min leading 1

/-- What stands between the slashes of a text, behind its root. -/
def parts (t : Text) : List Text :=
  let rest := t.drop (rootSlashes t)
  if rest = [] then [] else rest.splitOn slash

/-- Whether a part of a text is a name, and not the directory it stands in. -/
def IsName (c : Text) : Prop := c ≠ [] ∧ c ≠ dot

instance : DecidablePred IsName := fun c => by unfold IsName; infer_instance

/-- The parts of a text that are names. -/
def names (t : Text) : List Text := (parts t).filter IsName

/-- The slashes that a path of a form begins with. -/
def Form.slashes : Form → Nat
  | .relative => 0
  | .rooted => 1
  | .doubleRooted => 2

theorem Form.text_eq (f : Form) : f.text = List.replicate f.slashes slash := by cases f <;> rfl

theorem Form.slashes_injective {f g : Form} (h : f.slashes = g.slashes) : f = g := by
  cases f <;> cases g <;> first | rfl | cases h

variable {s t u : Text} {p : Path}

/-- The form of a path tells the slashes of its root. -/
theorem slashes_formOf (t : Text) : (formOf t).slashes = rootSlashes t := by
  unfold formOf rootSlashes
  generalize (t.takeWhile (· = slash)).length = leading
  rcases leading with - | - | - | leading
  · rfl
  · rfl
  · rfl
  · show 1 = if leading + 3 = 2 then 2 else min (leading + 3) 1
    rw [if_neg (by omega), Nat.min_eq_right (by omega)]

/-- The slashes that a text begins with. -/
theorem exists_leading (t : Text) : ∃ n u, u.head? ≠ some slash ∧ t = List.replicate n slash ++ u := by
  induction t with
  | nil => exact ⟨0, [], by simp, rfl⟩
  | cons s rest ih =>
    by_cases h : s = slash
    · obtain ⟨n, u, own, rfl⟩ := ih
      exact ⟨n + 1, u, own, by rw [h]; rfl⟩
    · exact ⟨0, s :: rest, by simpa using h, rfl⟩

theorem rootSlashes_replicate (n : Nat) (own : u.head? ≠ some slash) :
    rootSlashes (List.replicate n slash ++ u) = if n = 2 then 2 else min n 1 := by
  have front : (List.replicate n slash ++ u).takeWhile (· = slash) = List.replicate n slash := by
    rw [List.takeWhile_append_of_pos fun s hs => by simpa using List.eq_of_mem_replicate hs]
    cases u with
    | nil => simp
    | cons s rest =>
      have other : s ≠ slash := fun e => own (congrArg some e)
      simp [other]
  unfold rootSlashes
  rw [front, List.length_replicate]

/-- A text is its root and what follows. -/
theorem root_append_drop (t : Text) : List.replicate (rootSlashes t) slash ++ t.drop (rootSlashes t) = t := by
  obtain ⟨n, u, own, rfl⟩ := exists_leading t
  have short : rootSlashes (List.replicate n slash ++ u) ≤ n := by
    rw [rootSlashes_replicate n own]
    split <;> omega
  generalize rootSlashes (List.replicate n slash ++ u) = k at short
  obtain ⟨m, rfl⟩ := Nat.exists_eq_add_of_le short
  rw [List.drop_append_of_le_length (by rw [List.length_replicate]; exact short), List.drop_replicate,
    Nat.add_sub_cancel_left, ← List.append_assoc, List.replicate_append_replicate]

/-- The pieces of a text are what it is split into at its slashes. -/
theorem pieces_eq_splitOn (t : Text) : pieces t = t.splitOn slash := by
  induction t with
  | nil => rfl
  | cons s rest ih =>
    rw [pieces, ih, List.splitOn_cons_eq_if_modifyHead]
    by_cases h : s = slash
    · simp [h]
    · cases hp : rest.splitOn slash with
      | nil => exact absurd hp (List.splitOn_ne_nil slash rest)
      | cons p ps => simp [h]

/-- The names of a text are its pieces that are names, whatever its root. -/
theorem names_eq (t : Text) : names t = (pieces t).filter IsName := by
  have skip (k : Nat) (rest : Text) :
      (pieces (List.replicate k slash ++ rest)).filter IsName = (pieces rest).filter IsName := by
    induction k with
    | zero => rfl
    | succ k ih =>
      rw [List.replicate_succ, List.cons_append, pieces, if_pos rfl, List.filter_cons_of_neg (by decide), ih]
  have whole := skip (rootSlashes t) (t.drop (rootSlashes t))
  rw [root_append_drop] at whole
  rw [whole, names, parts]
  by_cases nothing : t.drop (rootSlashes t) = []
  · rw [if_pos nothing, nothing]
    rfl
  · rw [if_neg nothing, pieces_eq_splitOn]

/-! ## Texts of paths -/

/-- Components between slashes do not begin with one. -/
theorem head_intercalate {cs : List Text} (clean : ∀ c ∈ cs, IsComponent c) :
    ([slash].intercalate cs).head? ≠ some slash := by
  cases cs with
  | nil => simp [List.intercalate_nil]
  | cons c rest =>
    obtain ⟨filled, -, own⟩ := clean c List.mem_cons_self
    have first : ([slash].intercalate (c :: rest)).head? = c.head? := by
      cases rest with
      | nil => rw [List.intercalate_singleton]
      | cons d rest => rw [List.intercalate_cons_cons, List.append_assoc, List.head?_append_of_ne_nil _ filled]
    rw [first]
    exact fun e => own (List.mem_of_head? e)

/-- The text of a path is `.`, or the slashes of its root and its components between slashes. -/
theorem text_cases (p : Path) : (p = ⟨.relative, [], by simp⟩ ∧ p.text = dot) ∨
    ((p.form = .relative → p.components ≠ []) ∧
      p.text = List.replicate p.form.slashes slash ++ [slash].intercalate p.components) := by
  obtain ⟨form, components, clean⟩ := p
  by_cases here : form = .relative ∧ components = []
  · obtain ⟨rfl, rfl⟩ := here
    exact .inl ⟨rfl, rfl⟩
  · refine .inr ⟨fun relative none => here ⟨relative, none⟩, ?_⟩
    rw [← Form.text_eq, ← Text.join_eq_intercalate]
    unfold text
    split
    · rename_i relative none
      exact absurd ⟨relative, none⟩ here
    · rfl

/-- The text of a path has the root of its form. -/
theorem rootSlashes_text (p : Path) : rootSlashes p.text = p.form.slashes := by
  obtain ⟨rfl, text⟩ | ⟨-, text⟩ := text_cases p
  · rfl
  · rw [text, rootSlashes_replicate _ (head_intercalate p.clean)]
    cases p.form <;> rfl

/-- The parts of the text of a path are its components, except that `.` is a part of its own. -/
theorem parts_text (p : Path) : (p.text = dot ∧ p.components = []) ∨ parts p.text = p.components := by
  obtain ⟨rfl, text⟩ | ⟨-, text⟩ := text_cases p
  · exact .inl ⟨text, rfl⟩
  · have rest : p.text.drop (rootSlashes p.text) = [slash].intercalate p.components := by
      rw [rootSlashes_text]
      conv => lhs; rw [text]
      exact List.drop_left' (List.length_replicate ..)
    refine .inr ?_
    rw [parts, rest]
    by_cases none : p.components = []
    · rw [none]
      rfl
    · have split : ([slash].intercalate p.components).splitOn slash = p.components :=
        List.splitOn_intercalate slash (fun c hc => (p.clean c hc).2.2) none
      have filled : [slash].intercalate p.components ≠ [] := by
        intro empty
        rw [empty] at split
        exact (p.clean [] (split ▸ List.mem_singleton_self [])).1 rfl
      rw [if_neg filled, split]

/-- The names of the text of a path are its components. -/
theorem names_text (p : Path) : names p.text = p.components := by
  obtain ⟨text, none⟩ | parts := parts_text p
  · rw [text, none]
    rfl
  · rw [names, parts, List.filter_eq_self]
    exact fun c hc => decide_eq_true ⟨(p.clean c hc).1, (p.clean c hc).2.1⟩

theorem components_ofText (t : Text) : (ofText t).components = names t := (names_eq t).symm

/-- **Which texts are read as one path**: those with the same root and the same names. -/
theorem ofText_eq_iff : ofText s = ofText t ↔ rootSlashes s = rootSlashes t ∧ names s = names t := by
  rw [Path.ext_iff, components_ofText, components_ofText, ← slashes_formOf, ← slashes_formOf]
  exact and_congr_left' ⟨congrArg _, Form.slashes_injective⟩

/-- **A path is read back from its text.** -/
theorem ofText_text (p : Path) : ofText p.text = p := by
  refine Path.ext (Form.slashes_injective ?_) ?_
  · rw [← rootSlashes_text p]
    exact slashes_formOf p.text
  · rw [components_ofText, names_text]

/-! ## Canonical texts -/

/-- A text writes the path of a source in canonical form. -/
structure Canonical (source text : Text) : Prop where
  /-- The root is that of the source: none, one slash or two. -/
  root : rootSlashes text = rootSlashes source
  /-- The names are those of the source, in order. A part `..` is a name like any other. -/
  names : names text = names source
  /-- Every part is a name, unless `.` is all there is. -/
  clean : text = dot ∨ ∀ c ∈ parts text, IsName c
  /-- Only a bare root ends with a slash. -/
  ending : text.getLast? = some slash → text = [slash] ∨ text = [slash, slash]
  filled : text ≠ []

/-- A text without empty parts ends with a slash only where it is a bare root. -/
theorem bare_of_getLast (clean : ∀ c ∈ parts t, IsName c) (ends : t.getLast? = some slash) :
    t = List.replicate (rootSlashes t) slash := by
  have whole := root_append_drop t
  by_cases bare : t.drop (rootSlashes t) = []
  · rw [bare, List.append_nil] at whole
    exact whole.symm
  · -- What follows the root ends with the slash, and behind it there is an empty part.
    rw [← whole, List.getLast?_append_of_ne_nil _ bare] at ends
    have last : (t.drop (rootSlashes t)).dropLast ++ [slash] = t.drop (rootSlashes t) :=
      List.dropLast_append_getLast? slash ends
    have empty : [] ∈ parts t := by
      rw [parts, if_neg bare, ← last, List.splitOn_append_cons_self]
      exact List.mem_append_right _ (List.mem_singleton_self [])
    exact absurd rfl (clean [] empty).1

/-- **What is written for a text is canonical.** -/
theorem canonical_text (t : Text) : Canonical t (ofText t).text := by
  have clean : (ofText t).text = dot ∨ ∀ c ∈ parts (ofText t).text, IsName c := by
    obtain ⟨text, -⟩ | parts := parts_text (ofText t)
    · exact .inl text
    · exact .inr fun c hc => ⟨((ofText t).clean c (parts ▸ hc)).1, ((ofText t).clean c (parts ▸ hc)).2.1⟩
  have same : rootSlashes (ofText t).text = rootSlashes t ∧ names (ofText t).text = names t :=
    ofText_eq_iff.1 (ofText_text (ofText t))
  refine ⟨same.1, same.2, clean, fun ends => ?_, fun empty => ?_⟩
  · obtain dotted | clean := clean
    · rw [dotted] at ends
      cases ends
    · have bare := bare_of_getLast clean ends
      rw [rootSlashes_text] at bare
      rw [bare] at ends ⊢
      generalize (ofText t).form = form at ends
      cases form with
      | relative => cases ends
      | rooted => exact .inl rfl
      | doubleRooted => exact .inr rfl
  · -- The empty text is read as the path that is written `.`.
    have read : ofText [] = ofText t := empty ▸ ofText_text (ofText t)
    rw [← read] at empty
    cases empty

end Path

/-! ## Events -/

/-- An event with the canonical paths of some texts, from which it is built again. -/
structure Event.Canonical (e : Event) (texts : List Text) : Prop where
  paths : List.Forall₂ Path.Canonical texts (e.paths.map (·.text))
  rebuilt : Event.ofTexts e.kind (e.paths.map (·.text)) e.isDirectory = e

theorem Event.canonical_ofTexts (kind : EventKind) (texts : List Text) (isDirectory : Option Bool) :
    (ofTexts kind texts isDirectory).Canonical texts := by
  constructor
  · rw [ofTexts, List.map_map, List.forall₂_map_right_iff, List.forall₂_same]
    exact fun t _ => Path.canonical_text t
  · simp only [ofTexts, List.map_map]
    congr 1
    exact List.map_congr_left fun t _ => Path.ofText_text _

/-- **Events carry canonical paths.** An event that is built from texts, or that a notice becomes, is built again from
the texts of its paths, and each of these texts is canonical for the one it comes from. Two texts are read as one path
just when they have the same root and the same names. -/
theorem Event.canonical_paths :
    (∀ kind texts isDirectory, (Event.ofTexts kind texts isDirectory).Canonical texts) ∧
      (∀ n : Notice, n.toEvent.Canonical n.texts) ∧
      ∀ s t, Path.ofText s = Path.ofText t ↔
        Path.rootSlashes s = Path.rootSlashes t ∧ Path.names s = Path.names t :=
  ⟨canonical_ofTexts, fun n => canonical_ofTexts n.type.kind n.texts _, fun _ _ => Path.ofText_eq_iff⟩

/-- Three slashes are one, two stay, and nothing is written as `.`. -/
example : ["///a/./..//b/", "//a/", ".//.", "//./"].map Path.normalise = ["/a/../b", "//a", ".", "//"] := by decide

end DirWatch

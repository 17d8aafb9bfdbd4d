import Mathlib.Logic.Basic
import DirWatch.Filter
import DirWatch.Proofs.Glob.Language
import DirWatch.Proofs.Watcher.Surroundings

/-!
# What the filter keeps

A path of an event is kept when its text is in the language of the pattern and its type is watched (`Filter.Kept`). The
type is told by the bits of its mode. Only where asking fails is it what the notifier says, so that a mode of another
type keeps a path out, whatever the notifier says (`Filter.Typed`).

- **The filter keeps these paths and no others**, in order and as often as the event has them, and hands on their lossy
  texts (`keeps_watched_matches`).
- **Files and directories** are kept side by side: what is kept when both are watched is what each of the two keeps
  alone, merged in order.
-/

namespace DirWatch

/-- The bits of a mode that say the type of a path. -/
def PathType.bits? : PathType → Option Nat
  | .file => some 0o100000
  | .directory => some 0o040000
  | .other => none

/-- The type that a notifier means. -/
def PathType.ofHint (isDirectory : Bool) : PathType := if isDirectory then .directory else .file

namespace FileTable

variable {mode : Nat} {type : PathType}

/-- The bits of a mode that are told apart are its fourth hexadecimal digit. -/
theorem mode_land (mode : Nat) : mode &&& 0o170000 = mode / 4096 % 16 * 4096 := by
  have mask : 0o170000 = (2 ^ 4 - 1) <<< 12 := by decide
  have digit : mode / 4096 % 16 * 4096 = ((mode >>> 12) % 2 ^ 4) <<< 12 := by
    simp only [Nat.shiftRight_eq_div_pow, Nat.shiftLeft_eq, Nat.reducePow]
  rw [mask, digit]
  refine Nat.eq_of_testBit_eq fun i => ?_
  rw [Nat.testBit_and, Nat.testBit_shiftLeft, Nat.testBit_shiftLeft, Nat.testBit_two_pow_sub_one,
    Nat.testBit_mod_two_pow, Nat.testBit_shiftRight]
  by_cases low : 12 ≤ i
  · rw [Nat.add_sub_cancel' low]
    simp [low, Bool.and_comm]
  · simp [low]

/-- The type of a mode is the one that its bits say. -/
theorem bits_eq_iff (watched : type ≠ .other) :
    type.bits? = some (mode &&& 0o170000) ↔ typeOfMode mode = type := by
  rw [mode_land]
  unfold typeOfMode
  generalize mode / 4096 % 16 = digit
  cases type with
  | other => exact absurd rfl watched
  | file =>
    have bits : PathType.file.bits? = some (digit * 4096) ↔ digit = 8 := by
      rw [PathType.bits?, Option.some.injEq]
      omega
    rw [bits]
    split <;> simp_all
  | directory =>
    have bits : PathType.directory.bits? = some (digit * 4096) ↔ digit = 4 := by
      rw [PathType.bits?, Option.some.injEq]
      omega
    rw [bits]
    split <;> simp_all

end FileTable

namespace Filter

/-- A path is of a type: the one that its mode says, or that the notifier says where asking for the mode fails. -/
def Typed (table : FileTable) (hint : Option Bool) (path : Path) (type : PathType) : Prop :=
  match table.status path.text with
  | .ok (mode, _) => type.bits? = some (mode &&& 0o170000)
  | .error _ => hint.map .ofHint = some type

/-- A path of an event is one to keep. -/
def Kept (o : Options) (table : FileTable) (hint : Option Bool) (path : Path) : Prop :=
  Glob.Language o.pattern.text path.text ∧
    (o.watchFiles = true ∧ Typed table hint path .file ∨ o.watchDirectories = true ∧ Typed table hint path .directory)

instance (table : FileTable) (hint : Option Bool) (path : Path) (type : PathType) :
    Decidable (Typed table hint path type) := by
  unfold Typed
  split <;> infer_instance

/-- The texts of a language are those that the pattern accepts. -/
theorem accepts_iff (o : Options) (t : Text) : o.pattern.accepts t = true ↔ Glob.Language o.pattern.text t :=
  (Glob.accepts_iff_matches o.pattern.glob t).trans (o.pattern.language_iff_matches t).symm

instance (o : Options) (table : FileTable) (hint : Option Bool) (path : Path) :
    Decidable (Kept o table hint path) :=
  decidable_of_iff (o.pattern.accepts path.text = true ∧ (o.watchFiles = true ∧ Typed table hint path .file ∨
    o.watchDirectories = true ∧ Typed table hint path .directory)) (and_congr_left' (accepts_iff o path.text))

variable {o : Options} {table : FileTable} {hint : Option Bool} {path : Path} {type : PathType}

/-! ## Types -/

/-- **The type that is asked for** is the type of the path. -/
theorem exists_typeOf (hint : Option Bool) (system : table.OnlySystem) (whole : .char '\x00' ∉ path.text) :
    ∃ found, typeOf table hint path = .ok found ∧ ∀ type ≠ .other, found = some type ↔ Typed table hint path type := by
  unfold typeOf FileTable.probe Typed
  cases status : table.status path.text with
  | ok answer => exact ⟨_, rfl, fun type watched => (Option.some_inj).trans (FileTable.bits_eq_iff watched).symm⟩
  | error f =>
    obtain ⟨e, rfl⟩ := system.status whole status
    refine ⟨hint.map .ofHint, ?_, fun type _ => Iff.rfl⟩
    -- Absence is an answer of its own, and other errors are not; both leave the type to the hint.
    by_cases absent : e.meansAbsent = true
    · simp only [absent, if_true]
      rfl
    · simp only [absent]
      rfl

/-- A path is of one type. -/
theorem Typed.unique {type' : PathType} (h : Typed table hint path type) (h' : Typed table hint path type') :
    type = type' := by
  unfold Typed at h h'
  cases status : table.status path.text with
  | ok answer =>
    rw [status] at h h'
    have same : type.bits? = type'.bits? := h.trans h'.symm
    cases type <;> cases type' <;> first | rfl | cases h | cases h' | cases same
  | error f =>
    rw [status] at h h'
    exact Option.some.inj (h.symm.trans h')

/-! ## Filtering -/

/-- What is asked of a path is whether it is one to keep. -/
theorem keeps_eq (system : table.OnlySystem) (whole : .char '\x00' ∉ path.text) :
    keeps o table hint path = .ok (decide (Kept o table hint path)) := by
  obtain ⟨found, asked, own⟩ := exists_typeOf hint system whole
  have answer : decide (Kept o table hint path) =
      found.any fun type => o.watches type && o.pattern.accepts path.text := by
    rw [Bool.eq_iff_iff, decide_eq_true_iff, Kept, ← own .file (by decide), ← own .directory (by decide), ← accepts_iff]
    cases found with
    | none => simp
    | some type => cases type <;> simp [Options.watches, and_comm]
  unfold keeps
  rw [asked, answer]
  cases found <;> rfl

/-- The filter keeps the paths to keep. -/
theorem keep_eq (system : table.OnlySystem) {ps : List Path} (whole : ∀ p ∈ ps, .char '\x00' ∉ p.text) :
    keep o table hint ps = .ok ((ps.filter fun p => Kept o table hint p).map (·.text.lossy)) := by
  induction ps with
  | nil => rfl
  | cons p rest ih =>
    have first : keeps o table hint p = .ok (decide (Kept o table hint p)) :=
      keeps_eq system (whole p List.mem_cons_self)
    have others := ih fun q hq => whole q (List.mem_cons_of_mem p hq)
    unfold keep
    rw [first, others, List.filter_cons]
    by_cases kept : Kept o table hint p <;> simp [kept, bind, Except.bind, pure, Except.pure]

end Filter

/-! ## Files and directories -/

/-- The options with other types to watch. -/
def Options.watching (o : Options) (files directories : Bool) : Options :=
  { o with watchFiles := files, watchDirectories := directories }

namespace Filter

variable {o : Options} {table : FileTable} {hint : Option Bool} {path : Path}

theorem kept_watching {files directories : Bool} : Kept (o.watching files directories) table hint path ↔
    Glob.Language o.pattern.text path.text ∧
      (files = true ∧ Typed table hint path .file ∨ directories = true ∧ Typed table hint path .directory) := Iff.rfl

/-- A path to keep where both types are watched is one to keep where either one is watched, but not where the other
one is. -/
theorem kept_iff_xor : Kept (o.watching true true) table hint path ↔
    Xor (Kept (o.watching true false) table hint path) (Kept (o.watching false true) table hint path) := by
  have apart (file : Typed table hint path .file) (directory : Typed table hint path .directory) : False := by
    cases file.unique directory
  simp only [kept_watching, Xor]
  grind

/-- **What the filter keeps**, where the file system fails with errors of the system only and no path has a NUL
character: the lossy texts of the paths to keep, in order and as often as the event has them. Where both types are
watched, every path that is kept is kept where just one of the two is watched, so that what is kept there is merged in
order; and where neither is watched, nothing is kept. -/
theorem keeps_watched_matches (o : Options) (table : FileTable) (e : Event) (system : table.OnlySystem)
    (whole : ∀ p ∈ e.paths, .char '\x00' ∉ p.text) :
    let kept (o : Options) := e.paths.filter fun p => Kept o table e.isDirectory p
    paths o table e = .ok ((kept o).map (·.text.lossy)) ∧
    (∀ p, Kept (o.watching true true) table e.isDirectory p ↔
      Xor (Kept (o.watching true false) table e.isDirectory p) (Kept (o.watching false true) table e.isDirectory p)) ∧
    (∃ marked : List (Path × Bool), marked.map (·.1) = kept (o.watching true true) ∧
      paths (o.watching true true) table e = .ok (marked.map (·.1.text.lossy)) ∧
      paths (o.watching true false) table e = .ok ((marked.filter (·.2)).map (·.1.text.lossy)) ∧
      paths (o.watching false true) table e = .ok ((marked.filter (!·.2)).map (·.1.text.lossy))) ∧
    paths (o.watching false false) table e = .ok [] := by
  intro kept
  have paths_eq (o : Options) : paths o table e = .ok ((kept o).map (·.text.lossy)) := keep_eq system whole
  have split (files directories : Bool) (p : Path → Bool)
      (same : ∀ path, Kept (o.watching files directories) table e.isDirectory path ↔
        p path = true ∧ Kept (o.watching true true) table e.isDirectory path) :
      kept (o.watching files directories) = (kept (o.watching true true)).filter p := by
    rw [List.filter_filter]
    refine List.filter_congr fun path _ => ?_
    rw [Bool.eq_iff_iff, Bool.and_eq_true, decide_eq_true_iff, decide_eq_true_iff]
    exact same path
  let isFile (p : Path) : Bool := Typed table e.isDirectory p .file
  refine ⟨paths_eq o, fun _ => kept_iff_xor, ?_, ?_⟩
  · refine ⟨(kept (o.watching true true)).map fun p => (p, isFile p), ?_, ?_, ?_, ?_⟩
    · exact (List.map_map ..).trans (List.map_id _)
    · rw [paths_eq, List.map_map]
      rfl
    · rw [paths_eq, split true false isFile, List.filter_map, List.map_map]
      · rfl
      · intro path
        simp only [kept_watching, isFile]
        grind
    · rw [paths_eq, split false true (!isFile ·), List.filter_map, List.map_map]
      · rfl
      · intro path
        have apart (file : Typed table e.isDirectory path .file) :
            ¬ Typed table e.isDirectory path .directory := fun directory => by cases file.unique directory
        simp only [kept_watching, isFile]
        grind
  · have none : kept (o.watching false false) = [] := List.filter_eq_nil_iff.2 (by simp [kept_watching])
    rw [paths_eq, none]
    rfl

/-- A file twice, a path whose status is refused and a pipe, which the notifier takes for directories; the name of the
file is no UTF-8. -/
theorem keeps_watched_matches_past_pipe :
    let o : Options := { pattern := ⟨"*", [.atom .star], rfl⟩ }
    let file : Text := [.char 'w', slash, .stray 127]
    let table : FileTable := ⟨[(file, .present 0o100644 true), ("w/d", .faulty (.os (.coded 13 none none))),
      ("w/p", .present 0o010644 true)]⟩
    let e : Event := .ofTexts .created [file, "w/d", "w/p", file] (some true)
    (table.OnlySystem ∧ ∀ p ∈ e.paths, .char '\x00' ∉ p.text) ∧
      paths o table e = .ok ["w/\uFFFD", "w/d", "w/\uFFFD"] ∧
      paths o table e = .ok ((e.paths.filter fun p => Kept o table (some true) p).map (·.text.lossy)) :=
  ⟨⟨by decide, by decide⟩, by rfl, (keeps_watched_matches _ _ _ (by decide) (by decide)).1⟩

end Filter

end DirWatch

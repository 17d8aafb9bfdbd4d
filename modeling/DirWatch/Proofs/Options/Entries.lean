import DirWatch.Options.Reading

/-!
# Entries of option mappings

The entries of a mapping give values for fields (`Options.Gives`), in whatever order they stand.

- **One entry** is entered into what was given before it (`Given.enter?`, `Given.enter_cases`), and a mapping is read
  entry by entry (`Given.ofEntries_eq_foldlM`).
- **What is read** is what the entries give, and no entry repeats another (`Given.read_of_ofEntries`).
- **What is refused** is the first entry that cannot be entered (`Given.exists_of_ofEntries_error`).
-/

namespace DirWatch

/-- The field that a key names. -/
def Value.field? : Value → Option Field
  | .text t => Field.ofKey? t
  | _ => Option.none

namespace Options

variable {entries front back reordered : List (Value × Value)} {e : Value × Value} {f : Field} {v : Value}

/-- An entry gives the value `v` for the field `f`. A value of `none` gives nothing. -/
def EntryGives (e : Value × Value) (f : Field) (v : Value) : Prop :=
  e.1.field? = some f ∧ e.2.isNone = false ∧ e.2 = v

/-- Some entry gives the value `v` for the field `f`. -/
def Gives (entries : List (Value × Value)) (f : Field) (v : Value) : Prop := ∃ e ∈ entries, EntryGives e f v

/-- No entry gives a value for the field `f`. -/
def Leaves (entries : List (Value × Value)) (f : Field) : Prop := ∀ v, ¬ Gives entries f v

/-- The entry `b` names a field for which the entry `a` gives a value. -/
def Repeats (a b : Value × Value) : Prop := a.2.isNone = false ∧ ∃ f, a.1.field? = some f ∧ b.1.field? = some f

/-- All entries name fields. -/
def Known (entries : List (Value × Value)) : Prop := ∀ e ∈ entries, ∃ f, e.1.field? = some f

theorem gives_cons : Gives (e :: entries) f v ↔ EntryGives e f v ∨ Gives entries f v := by
  simp only [Gives, List.mem_cons, exists_eq_or_imp]

/-- What entries give does not depend on their order. -/
theorem gives_perm (h : entries.Perm reordered) : Gives entries f v ↔ Gives reordered f v :=
  exists_congr fun _ => and_congr_left fun _ => h.mem_iff

end Options

open Options (EntryGives Gives Repeats Known gives_cons)

namespace Given

variable {g g' : Given} {e : Value × Value} {entries : List (Value × Value)} {f : Field} {error : Failure}

/-! ## Values given -/

/-- Given values are equal when they are so field by field. -/
theorem eq_of_get (h : ∀ f, g.get f = g'.get f) : g = g' := by
  obtain ⟨pattern, recursive, watchFiles, watchDirectories, interval, poll⟩ := g
  obtain ⟨pattern', recursive', watchFiles', watchDirectories', interval', poll'⟩ := g'
  simp only [Given.mk.injEq]
  exact ⟨h .pattern, h .recursive, h .watchFiles, h .watchDirectories, h .interval, h .poll⟩

@[simp] theorem get_new (f : Field) : ({} : Given).get f = none := by
  cases f <;> rfl

@[simp] theorem get_set_self (g : Given) (f : Field) (v : Value) : (g.set f v).get f = some v := by
  cases f <;> rfl

theorem get_set_of_ne (g : Given) {f f' : Field} (h : f' ≠ f) (v : Value) : (g.set f v).get f' = g.get f' := by
  cases f <;> cases f' <;> first | rfl | exact absurd rfl h

/-! ## One entry -/

/-- Enters an entry into the values given. -/
def enter? (g : Given) (e : Value × Value) : Except Failure Given :=
  match e.1.field? with
  | none => .error (unknown e.1)
  | some f =>
    if (g.get f).isSome then .error (.config (.repeatedOption f)) else .ok (if e.2.isNone then g else g.set f e.2)

/-- What becomes of an entry: it names no field, or one that has a value already, or what it gives is given. -/
inductive Entered (g : Given) (e : Value × Value) : Except Failure Given → Prop
  | unknown (named : e.1.field? = none) : Entered g e (.error (Given.unknown e.1))
  | repeated {f : Field} {v : Value} (named : e.1.field? = some f) (had : g.get f = some v) :
      Entered g e (.error (.config (.repeatedOption f)))
  | withheld {f : Field} (named : e.1.field? = some f) (new : g.get f = none) (none : e.2.isNone = true) :
      Entered g e (.ok g)
  | given {f : Field} (named : e.1.field? = some f) (new : g.get f = none) (given : e.2.isNone = false) :
      Entered g e (.ok (g.set f e.2))

theorem enter_cases (g : Given) (e : Value × Value) : Entered g e (g.enter? e) := by
  unfold enter?
  cases named : e.1.field? with
  | none => exact .unknown named
  | some f =>
    dsimp only
    cases had : g.get f with
    | some v =>
      rw [if_pos (by rfl)]
      exact .repeated named had
    | none =>
      rw [if_neg (by simp)]
      cases given : e.2.isNone with
      | true => exact .withheld named had given
      | false => exact .given named had given

/-- An entry is entered where its field has no value. -/
theorem free_of_enter (h : g.enter? e = .ok g') : ∃ f, e.1.field? = some f ∧ g.get f = none := by
  have entered := enter_cases g e
  rw [h] at entered
  cases entered with
  | withheld named new none => exact ⟨_, named, new⟩
  | given named new given => exact ⟨_, named, new⟩

/-- What an entry adds is what it gives. -/
theorem get_of_enter (h : g.enter? e = .ok g') (f : Field) (v : Value) :
    g'.get f = some v ↔ g.get f = some v ∨ EntryGives e f v := by
  have entered := enter_cases g e
  rw [h] at entered
  cases entered with
  | withheld named new none => simp [EntryGives, none]
  | @given own named new given =>
    by_cases same : f = own
    · subst same
      simp [EntryGives, named, given, new]
    · have other : e.1.field? ≠ some f := by
        rw [named]
        exact fun e => same (Option.some.inj e).symm
      simp [EntryGives, get_set_of_ne g same, other]

/-! ## All entries -/

theorem ofEntries_eq_foldlM (g : Given) (entries : List (Value × Value)) :
    ofEntries? g entries = entries.foldlM enter? g := by
  induction entries generalizing g with
  | nil => rfl
  | cons e rest ih =>
    obtain ⟨key, value⟩ := e
    have step : ofEntries? g ((key, value) :: rest) =
        key.field?.elim (.error (unknown key)) fun f =>
          if (g.get f).isSome then .error (.config (.repeatedOption f))
          else if value.isNone then ofEntries? g rest
          else ofEntries? (g.set f value) rest := by
      cases key with
      | text t =>
        simp only [ofEntries?, Value.field?]
        cases Field.ofKey? t <;> rfl
      | _ => simp only [ofEntries?, Value.field?, Option.elim]
    rw [List.foldlM_cons, step]
    have entered := enter_cases g (key, value)
    generalize g.enter? (key, value) = r at entered
    cases entered with
    | unknown named =>
      rw [show key.field? = none from named]
      rfl
    | repeated named had =>
      rw [show key.field? = some _ from named, Option.elim, if_pos (by simp [had])]
      rfl
    | withheld named new none =>
      rw [show key.field? = some _ from named, Option.elim, if_neg (by simp [new]), if_pos none, ih]
      rfl
    | given named new given =>
      rw [show key.field? = some _ from named, Option.elim, if_neg (by simp [new]), if_neg (by simp_all), ih]
      rfl

theorem ofEntries_cons_of_ok {g'' : Given} (h : g.enter? e = .ok g'') :
    ofEntries? g (e :: entries) = ofEntries? g'' entries := by
  rw [ofEntries_eq_foldlM, ofEntries_eq_foldlM, List.foldlM_cons, h]
  rfl

theorem ofEntries_cons_of_error (h : g.enter? e = .error error) : ofEntries? g (e :: entries) = .error error := by
  rw [ofEntries_eq_foldlM, List.foldlM_cons, h]
  rfl

theorem ofEntries_append {front back : List (Value × Value)} (h : ofEntries? g front = .ok g') :
    ofEntries? g (front ++ back) = ofEntries? g' back := by
  rw [ofEntries_eq_foldlM] at h
  rw [ofEntries_eq_foldlM, ofEntries_eq_foldlM, List.foldlM_append, h]
  rfl

/-- **What is read** is what the entries give; they name fields, and none repeats another. -/
theorem read_of_ofEntries (h : ofEntries? g entries = .ok g') :
    Known entries ∧ entries.Pairwise (fun a b => ¬ Repeats a b) ∧
      (∀ e ∈ entries, ∀ f, e.1.field? = some f → g.get f = none) ∧
      ∀ f v, g'.get f = some v ↔ g.get f = some v ∨ Gives entries f v := by
  induction entries generalizing g with
  | nil =>
    cases h
    refine ⟨by simp [Known], .nil, by simp, fun f v => ?_⟩
    simp [Gives]
  | cons e rest ih =>
    cases entered : g.enter? e with
    | error error =>
      rw [ofEntries_cons_of_error entered] at h
      cases h
    | ok g'' =>
      rw [ofEntries_cons_of_ok entered] at h
      obtain ⟨known, single, new, get⟩ := ih h
      have got := get_of_enter entered
      obtain ⟨own, named, free⟩ := free_of_enter entered
      refine ⟨List.forall_mem_cons.2 ⟨⟨own, named⟩, known⟩, List.pairwise_cons.2 ⟨?_, single⟩,
        List.forall_mem_cons.2 ⟨?_, ?_⟩, ?_⟩
      · rintro b hb ⟨given, f, hf, again⟩
        have had : g''.get f = some e.2 := (got f e.2).2 (.inr ⟨hf, given, rfl⟩)
        rw [new b hb f again] at had
        cases had
      · intro f hf
        rw [named] at hf
        cases hf
        exact free
      · intro b hb f hf
        rw [Option.eq_none_iff_forall_ne_some]
        intro v had
        have still := (got f v).2 (.inl had)
        rw [new b hb f hf] at still
        cases still
      · intro f v
        rw [get, got, gives_cons, or_assoc]

/-- **What is refused** is the first entry that cannot be entered. -/
theorem exists_of_ofEntries_error (h : ofEntries? g entries = .error error) :
    ∃ front e back g', entries = front ++ e :: back ∧ ofEntries? g front = .ok g' ∧ g'.enter? e = .error error := by
  induction entries generalizing g with
  | nil => cases h
  | cons e rest ih =>
    cases entered : g.enter? e with
    | error other =>
      rw [ofEntries_cons_of_error entered] at h
      cases h
      exact ⟨[], e, rest, g, rfl, rfl, entered⟩
    | ok g'' =>
      rw [ofEntries_cons_of_ok entered] at h
      obtain ⟨front, e', back, g', rfl, read, refused⟩ := ih h
      exact ⟨e :: front, e', back, g', rfl, (ofEntries_cons_of_ok entered).trans read, refused⟩

/-- An entry that cannot be entered names no field, or one for which an entry before it gives a value. -/
theorem refused_of_ofEntries_error (h : ofEntries? {} entries = .error error) :
    ∃ front e back, entries = front ++ e :: back ∧ Known front ∧
      ((e.1.field? = none ∧ error = unknown e.1) ∨
        ∃ f, e.1.field? = some f ∧ error = .config (.repeatedOption f) ∧ ∃ a ∈ front, Repeats a e) := by
  obtain ⟨front, e, back, g, split, read, refused⟩ := exists_of_ofEntries_error h
  obtain ⟨known, -, -, get⟩ := read_of_ofEntries read
  refine ⟨front, e, back, split, known, ?_⟩
  have entered := enter_cases g e
  rw [refused] at entered
  cases entered with
  | unknown named => exact .inl ⟨named, rfl⟩
  | repeated named had =>
    rw [get, get_new] at had
    obtain had | ⟨a, ha, own, given, -⟩ := had
    · cases had
    · exact .inr ⟨_, named, rfl, a, ha, given, _, own, named⟩

/-- Entries that name fields, of which none repeats another, are read. -/
theorem exists_of_known (known : Known entries) (single : entries.Pairwise fun a b => ¬ Repeats a b) :
    ∃ g, ofEntries? {} entries = .ok g := by
  cases read : ofEntries? {} entries with
  | ok g => exact ⟨g, rfl⟩
  | error error =>
    obtain ⟨front, e, back, rfl, -, unknown | ⟨f, -, -, a, ha, repeats⟩⟩ := refused_of_ofEntries_error read
    · obtain ⟨f, named⟩ := known e (List.mem_append_right _ List.mem_cons_self)
      rw [unknown.1] at named
      cases named
    · exact absurd repeats ((List.pairwise_append.1 single).2.2 a ha e List.mem_cons_self)

/-- What is read of entries that give the same is the same. -/
theorem eq_of_gives {entries' : List (Value × Value)} (h : ofEntries? {} entries = .ok g)
    (h' : ofEntries? {} entries' = .ok g') (same : ∀ f v, Gives entries f v ↔ Gives entries' f v) : g = g' := by
  refine eq_of_get fun f => Option.ext fun v => ?_
  rw [(read_of_ofEntries h).2.2.2, (read_of_ofEntries h').2.2.2, same]

end Given
end DirWatch

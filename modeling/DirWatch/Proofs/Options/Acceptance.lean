import Mathlib.Data.List.Pairwise
import DirWatch.Proofs.Options.Absence

/-!
# Acceptance of options

Which values are options (`Value.Acceptable`), what the options then hold (`Value.Makes`), and which field the error of
any other value blames (`Value.Blames`), all said by what the value gives.

- **One field**: a reader takes the value that was given, or the default, or blames its field (`Checked`).
- **All fields** are checked one after another, and the first that is wrong is blamed (`judged`).
- **Values** in which no option is given under two spellings are read as they are said to be
  (`reads_acceptable_only`).
-/

namespace DirWatch

namespace Field

/-- The fields in the order in which their values are checked. -/
def all : List Field := [.pattern, .recursive, .watchFiles, .watchDirectories, .interval, .poll]

/-- The values that a field takes. -/
def Takes : Field → Value → Prop
  | .pattern, v => ∃ t, v = .text t ∧ t ≠ []
  | .interval, v => ∃ n, v = .int n ∧ 0 < n
  | _, v => ∃ b, v = .bool b

/-- The value of a field that is not given. A pattern has to be given. -/
def default? : Field → Option Value
  | .pattern => none
  | .recursive => some (.bool false)
  | .watchFiles => some (.bool true)
  | .watchDirectories => some (.bool true)
  | .interval => some (.int defaultInterval)
  | .poll => some (.bool false)

theorem mem_all (f : Field) : f ∈ all := by
  cases f <;> decide

end Field

namespace Options

/-- An interval as a value. -/
def intervalValue (interval : Option Nat) : Value := interval.elim .none fun n => .int n

/-- The value that options hold for a field. -/
def value (o : Options) : Field → Value
  | .pattern => .text o.pattern.text
  | .recursive => .bool o.recursive
  | .watchFiles => .bool o.watchFiles
  | .watchDirectories => .bool o.watchDirectories
  | .interval => intervalValue o.interval
  | .poll => .bool o.poll

/-- A field holds what is given for it, and else its default. -/
def Held (gives : Field → Value → Prop) (f : Field) (v : Value) : Prop :=
  gives f v ∨ (∀ w, ¬ gives f w) ∧ f.default? = some v

/-- A text that a pattern can be read from. -/
def Readable (t : Text) : Prop := t ≠ [] ∧ ∃ p, Pattern.ofText? t = .ok p

end Options

namespace Value

open Options (Gives Leaves Known Held Readable)

/-- No option is given under two spellings. -/
def SpelledOnce : Value → Prop
  | .mapping entries => entries.Pairwise fun a b => ∀ f, a.1.field? = some f → b.1.field? ≠ some f
  | _ => True

/-- The values that are options. -/
inductive Acceptable : Value → Prop
  | options (o : Options) : Acceptable (.options o)
  | text {t : Text} (readable : Readable t) : Acceptable (.text t)
  | mapping {entries : List (Value × Value)} {t : Text} (known : Known entries)
      (pattern : Gives entries .pattern (.text t)) (readable : Readable t)
      (takes : ∀ f v, Gives entries f v → f.Takes v) : Acceptable (.mapping entries)

/-- Options hold what a value gives, and the defaults elsewhere. -/
inductive Makes : Value → Options → Prop
  | options (o : Options) : Makes (.options o) o
  | text {t : Text} {o : Options} (pattern : o.pattern.text = t)
      (rest : ∀ f, f ≠ .pattern → f.default? = some (o.value f)) : Makes (.text t) o
  | mapping {entries : List (Value × Value)} {o : Options} (holds : ∀ f, Held (Gives entries) f (o.value f)) :
      Makes (.mapping entries) o

/-- What is at fault in a value that is not options: nothing in it for a value of another type, else the first key
that names no field, else the pattern if it is missing, else the first field with a wrong value, else the pattern. -/
inductive Blames : Value → Option Text → Prop
  | type {v : Value} (other : (∀ o, v ≠ .options o) ∧ (∀ t, v ≠ .text t) ∧ ∀ entries, v ≠ .mapping entries) :
      Blames v Option.none
  | text {t : Text} (unreadable : ¬ Readable t) : Blames (.text t) (some Field.pattern.name)
  | unknown {entries front back : List (Value × Value)} {e : Value × Value} {t : Text}
      (split : entries = front ++ e :: back) (before : Known front) (named : e.1.field? = Option.none)
      (text : e.1.shown? = some t) : Blames (.mapping entries) (some t)
  | missing {entries : List (Value × Value)} (known : Known entries) (leaves : Leaves entries .pattern) :
      Blames (.mapping entries) (some Field.pattern.name)
  | wrong {entries : List (Value × Value)} {front back : List Field} {f : Field} {v p : Value}
      (known : Known entries) (pattern : Gives entries .pattern p) (split : Field.all = front ++ f :: back)
      (before : ∀ f' ∈ front, ∀ v', Gives entries f' v' → f'.Takes v') (gives : Gives entries f v)
      (wrong : ¬ f.Takes v) : Blames (.mapping entries) (some f.name)
  | unreadable {entries : List (Value × Value)} {t : Text} (known : Known entries)
      (pattern : Gives entries .pattern (.text t)) (takes : ∀ f v, Gives entries f v → f.Takes v)
      (unreadable : ¬ Readable t) : Blames (.mapping entries) (some Field.pattern.name)

/-- The first key that names no field has no text, for an integer in it has too many digits. -/
def Overlong (v : Value) : Prop :=
  ∃ front e back, v = .mapping (front ++ e :: back) ∧ Known front ∧ e.1.field? = Option.none ∧
    e.1.shown? = Option.none

end Value

namespace Options

/-! ## One field -/

/-- What becomes of the value given for a field. -/
inductive Checked {α : Type} (toValue : α → Value) (f : Field) : Option Value → Except ConfigError α → Prop
  | taken {a : α} (takes : f.Takes (toValue a)) : Checked toValue f (some (toValue a)) (.ok a)
  | default {a : α} (default : f.default? = some (toValue a)) : Checked toValue f none (.ok a)
  | missing {e : ConfigError} (required : f.default? = none) (field : e.field = some f.name) :
      Checked toValue f none (.error e)
  | wrong {v : Value} {e : ConfigError} (wrong : ¬ f.Takes v) (field : e.field = some f.name) :
      Checked toValue f (some v) (.error e)

theorem checked_patternText (v : Option Value) : Checked .text .pattern v (patternText? v) := by
  unfold patternText?
  split
  · exact .missing rfl rfl
  · refine .wrong ?_ rfl
    rintro ⟨t, e, nonempty⟩
    cases e
    exact nonempty rfl
  · exact .taken ⟨_, rfl, List.cons_ne_nil _ _⟩
  · rename_i v empty nonempty
    refine .wrong ?_ rfl
    rintro ⟨t, rfl, -⟩
    cases t with
    | nil => exact empty rfl
    | cons s rest => exact nonempty s rest rfl

theorem checked_flag {f : Field} {default : Bool} (flag : ∀ w, f.Takes w ↔ ∃ b, w = .bool b)
    (hd : f.default? = some (.bool default)) (v : Option Value) : Checked .bool f v (flag? f default v) := by
  unfold flag?
  split
  · exact .default hd
  · exact .taken ((flag _).2 ⟨_, rfl⟩)
  · rename_i v other
    refine .wrong ?_ rfl
    rw [flag]
    rintro ⟨b, rfl⟩
    exact other b rfl

theorem checked_interval {v : Option Value} (given : v ≠ some .none) :
    Checked intervalValue .interval v (interval? v) := by
  unfold interval?
  split
  · exact .default rfl
  · exact absurd rfl given
  · rename_i n
    split
    · refine .wrong ?_ rfl
      rintro ⟨m, e, positive⟩
      cases e
      omega
    · have same : Value.int n = intervalValue (some n.toNat) := congrArg Value.int (by omega)
      rw [same]
      exact .taken ⟨n, same.symm, by omega⟩
  · rename_i v _ other
    refine .wrong ?_ rfl
    rintro ⟨n, rfl, -⟩
    exact other n rfl

/-! ## All fields -/

/-- The values given for some fields are such as the fields take. -/
def Fits (gives : Field → Value → Prop) (fields : List Field) : Prop := ∀ f ∈ fields, ∀ v, gives f v → f.Takes v

theorem Fits.concat {gives : Field → Value → Prop} {front : List Field} {f : Field} (h : Fits gives front)
    (takes : ∀ v, gives f v → f.Takes v) : Fits gives (front ++ [f]) := by
  intro f' hf' v given
  rcases List.mem_append.1 hf' with hf' | hf'
  · exact h f' hf' v given
  · cases List.mem_singleton.1 hf'
    exact takes v given

/-- What becomes of the values given for all fields. -/
inductive Judged (gives : Field → Value → Prop) : Except ConfigError Options → Prop
  | made {o : Options} (fits : Fits gives Field.all)
      (holds : ∀ f, Held gives f (o.value f)) : Judged gives (.ok o)
  | missing {e : ConfigError} (leaves : ∀ v, ¬ gives .pattern v) (field : e.field = some Field.pattern.name) :
      Judged gives (.error e)
  | wrong {front back : List Field} {f : Field} {v p : Value} {e : ConfigError} (pattern : gives .pattern p)
      (split : Field.all = front ++ f :: back) (before : Fits gives front) (given : gives f v) (wrong : ¬ f.Takes v)
      (field : e.field = some f.name) : Judged gives (.error e)
  | unreadable {t : Text} {e : ConfigError} (pattern : gives .pattern (.text t)) (fits : Fits gives Field.all)
      (unreadable : ¬ Readable t) (field : e.field = some Field.pattern.name) : Judged gives (.error e)

section

variable {g : Given}

/-- A field behind the pattern is blamed, or its value is taken and the fields behind it are checked. -/
theorem Checked.judged {α : Type} {toValue : α → Value} {f : Field} {r : Except ConfigError α}
    (h : Checked toValue f (g.get f) r) {p : Value} (pattern : g.get .pattern = some p) {front back : List Field}
    (split : Field.all = front ++ f :: back) (before : Fits (fun f v => g.get f = some v) front)
    {next : α → Except ConfigError Options} (later : ∀ a, Held (fun f v => g.get f = some v) f (toValue a) →
      Fits (fun f v => g.get f = some v) (front ++ [f]) → Judged (fun f v => g.get f = some v) (next a)) :
    Judged (fun f v => g.get f = some v) (r >>= next) := by
  generalize given : g.get f = v at h
  cases h with
  | taken takes =>
    refine later _ (.inl given) (before.concat fun v had => ?_)
    rw [given] at had
    cases had
    exact takes
  | default default =>
    refine later _ (.inr ⟨by simp [given], default⟩) (before.concat fun v had => ?_)
    rw [given] at had
    cases had
  | missing required field =>
    have own : f = .pattern := by
      cases f <;> first | rfl | cases required
    rw [own, pattern] at given
    cases given
  | wrong wrong field => exact .wrong pattern split before given wrong field

/-- **All fields** are checked one after another. -/
theorem judged (given : g.interval ≠ some .none) : Judged (fun f v => g.get f = some v) (ofGiven? g) := by
  have flag {f : Field} {default : Bool} (h : ∀ w, f.Takes w ↔ ∃ b, w = .bool b)
      (hd : f.default? = some (.bool default)) : Checked .bool f (g.get f) (flag? f default (g.get f)) :=
    checked_flag h hd (g.get f)
  unfold ofGiven?
  generalize hp : patternText? g.pattern = r
  have checked : Checked .text .pattern (g.get .pattern) r := hp ▸ checked_patternText g.pattern
  generalize was : g.get .pattern = v at checked
  cases checked with
  | missing required field => exact .missing (fun v had => by simp [was] at had) field
  | wrong wrong field =>
    have before : Fits (fun f v => g.get f = some v) [] := by
      intro f hf
      cases hf
    exact .wrong was rfl before was wrong field
  | default default => cases default
  | @taken text takes =>
    have first : Fits (fun f v => g.get f = some v) [.pattern] := by
      intro f hf v had
      cases List.mem_singleton.1 hf
      rw [was] at had
      cases had
      exact takes
    refine (flag (fun _ => Iff.rfl) rfl).judged was rfl first fun recursive hr fits => ?_
    refine (flag (fun _ => Iff.rfl) rfl).judged was rfl fits fun watchFiles hf fits => ?_
    refine (flag (fun _ => Iff.rfl) rfl).judged was rfl fits fun watchDirectories hd fits => ?_
    refine (checked_interval given).judged (f := .interval) was rfl fits fun interval hi fits => ?_
    refine (flag (fun _ => Iff.rfl) rfl).judged was rfl fits fun poll hl fits => ?_
    cases read : Pattern.ofText? text with
    | error e =>
      refine .unreadable was fits ?_ rfl
      rintro ⟨-, p, readable⟩
      rw [read] at readable
      cases readable
    | ok pattern =>
      refine .made fits fun f => ?_
      have own : pattern.text = text := Pattern.ofText_eq_ok_iff.1 read
      cases f with
      | pattern => exact .inl (was.trans (by rw [value, own]))
      | recursive => exact hr
      | watchFiles => exact hf
      | watchDirectories => exact hd
      | interval => exact hi
      | poll => exact hl

end

/-! ## Values -/

section

variable {gives : Field → Value → Prop} {entries : List (Value × Value)} {f : Field} {v w : Value} {o o' : Options}

theorem intervalValue_injective : Function.Injective intervalValue := by
  intro a b h
  cases a with
  | none =>
    cases b with
    | none => rfl
    | some n => cases h
  | some m =>
    cases b with
    | none => cases h
    | some n => exact congrArg some (Int.ofNat.inj (Value.int.inj h))

theorem eq_of_value (h : ∀ f, o.value f = o'.value f) : o = o' := by
  obtain ⟨pattern, recursive, watchFiles, watchDirectories, interval, poll⟩ := o
  obtain ⟨pattern', recursive', watchFiles', watchDirectories', interval', poll'⟩ := o'
  rw [Options.mk.injEq]
  exact ⟨Pattern.eq_of_text_eq (Value.text.inj (h .pattern)), Value.bool.inj (h .recursive),
    Value.bool.inj (h .watchFiles), Value.bool.inj (h .watchDirectories), intervalValue_injective (h .interval),
    Value.bool.inj (h .poll)⟩

/-- Entries give one value for a field where no option is given under two spellings. -/
theorem gives_unique (once : (Value.mapping entries).SpelledOnce) (h : Gives entries f v) (h' : Gives entries f w) :
    v = w := by
  obtain ⟨a, ha, own, -, rfl⟩ := h
  obtain ⟨b, hb, own', -, rfl⟩ := h'
  by_cases same : a = b
  · rw [same]
  · have apart : Std.Symm fun a b : Value × Value => ∀ f, a.1.field? = some f → b.1.field? ≠ some f :=
      ⟨fun a b not f own again => not f again own⟩
    exact absurd own' (List.Pairwise.forall once ha hb same f own)

theorem Held.unique (once : ∀ v w, gives f v → gives f w → v = w) (h : Held gives f v) (h' : Held gives f w) :
    v = w := by
  rcases h with given | ⟨leaves, default⟩ <;> rcases h' with given' | ⟨leaves', default'⟩
  · exact once v w given given'
  · exact absurd given (leaves' v)
  · exact absurd given' (leaves w)
  · exact Option.some.inj (default.symm.trans default')

theorem makes_unique {v : Value} (once : v.SpelledOnce) (h : v.Makes o) (h' : v.Makes o') : o = o' := by
  cases h with
  | options => cases h' with
    | options => rfl
  | text pattern rest => cases h' with
    | text pattern' rest' =>
      refine eq_of_value fun f => ?_
      by_cases own : f = .pattern
      · subst own
        rw [value, value, pattern, pattern']
      · exact Option.some.inj ((rest f own).symm.trans (rest' f own))
  | mapping holds => cases h' with
    | mapping holds' =>
      exact eq_of_value fun f => (holds f).unique (fun v w => gives_unique once) (holds' f)

/-- What is at fault in a value keeps it from being options. -/
theorem not_acceptable_of_blames {v : Value} {field : Option Text} (once : v.SpelledOnce) (h : v.Blames field) :
    ¬ v.Acceptable := by
  intro acceptable
  cases acceptable with
  | options o =>
    cases h with
    | type other => exact other.1 o rfl
  | text readable =>
    cases h with
    | type other => exact other.2.1 _ rfl
    | text unreadable => exact unreadable readable
  | mapping known pattern readable takes =>
    cases h with
    | type other => exact other.2.2 _ rfl
    | unknown split before named text =>
      obtain ⟨f, own⟩ := known _ (split ▸ List.mem_append_right _ List.mem_cons_self)
      rw [named] at own
      cases own
    | missing _ leaves => exact leaves _ pattern
    | wrong _ _ _ _ gives wrong => exact wrong (takes _ _ gives)
    | unreadable _ pattern' _ unreadable =>
      cases gives_unique once pattern pattern'
      exact unreadable readable

theorem not_acceptable_of_overlong {v : Value} (h : v.Overlong) : ¬ v.Acceptable := by
  obtain ⟨front, e, back, rfl, -, named, -⟩ := h
  intro acceptable
  cases acceptable with
  | mapping known pattern readable takes =>
    obtain ⟨f, own⟩ := known e (List.mem_append_right _ List.mem_cons_self)
    rw [named] at own
    cases own

/-- What becomes of a value. -/
inductive Read (v : Value) : Except Failure Options → Prop
  | made {o : Options} (acceptable : v.Acceptable) (makes : v.Makes o) : Read v (.ok o)
  | refused {e : ConfigError} (blames : v.Blames e.field) : Read v (.error (.config e))
  | overlong (overlong : v.Overlong) : Read v (.error .digitLimit)

theorem readable_of_takes {o : Options} (takes : Field.pattern.Takes (o.value .pattern)) :
    Readable o.pattern.text := by
  obtain ⟨t, own, nonempty⟩ := takes
  cases own
  exact ⟨nonempty, o.pattern, Pattern.ofText_eq_ok_iff.2 rfl⟩

theorem read_text (t : Text) : Read (.text t) (ofValue? (.text t)) := by
  have judged := judged (g := { pattern := some (.text t) }) (by simp)
  have given {f : Field} {v : Value} (h : ({ pattern := some (.text t) } : Given).get f = some v) :
      f = .pattern ∧ v = .text t := by
    cases f <;> cases h
    exact ⟨rfl, rfl⟩
  show Read _ ((ofGiven? { pattern := some (.text t) }).mapError .config)
  generalize ofGiven? { pattern := some (.text t) } = r at judged
  cases judged with
  | @made o fits holds =>
    have pattern : o.value .pattern = .text t := by
      rcases holds .pattern with had | ⟨leaves, -⟩
      · exact (given had).2
      · exact absurd rfl (leaves _)
    have own : o.pattern.text = t := Value.text.inj pattern
    have readable := readable_of_takes (o := o) (fits .pattern (Field.mem_all _) _ (by rw [pattern]; rfl))
    refine .made (.text (own ▸ readable)) (.text own fun f other => ?_)
    rcases holds f with had | ⟨-, default⟩
    · exact absurd (given had).1 other
    · exact default
  | missing leaves field => exact absurd rfl (leaves _)
  | wrong pattern split before had wrong field =>
    obtain ⟨rfl, rfl⟩ := given had
    exact .refused (field ▸ .text fun readable => wrong ⟨t, rfl, readable.1⟩)
  | unreadable pattern fits unreadable field =>
    cases (given pattern).2
    exact .refused (field ▸ .text unreadable)

theorem read_mapping (once : (Value.mapping entries).SpelledOnce) :
    Read (.mapping entries) (ofValue? (.mapping entries)) := by
  cases read : Given.ofEntries? {} entries with
  | error e =>
    rw [ofValue_of_error read]
    obtain ⟨front, e, back, rfl, before, ⟨named, rfl⟩ | ⟨f, named, -, a, ha, -, own, hown, again⟩⟩ :=
      Given.refused_of_ofEntries_error read
    · unfold Given.unknown
      split
      · rename_i t text
        exact .refused (.unknown rfl before named text)
      · rename_i text
        exact .overlong ⟨front, e, back, rfl, before, named, text⟩
    · rw [named] at again
      cases again
      exact absurd named ((List.pairwise_append.1 once).2.2 a ha e List.mem_cons_self f hown)
  | ok g =>
    obtain ⟨known, -, -, get⟩ := Given.read_of_ofEntries read
    have same : (fun f v => g.get f = some v) = Gives entries := by
      funext f v
      simp [get]
    have given : g.interval ≠ some .none := by
      intro had
      obtain had | ⟨e, -, -, given, none⟩ := (get .interval .none).1 had
      · cases had
      · rw [none] at given
        cases given
    have judged := judged given
    rw [same] at judged
    rw [ofValue_mapping, read]
    show Read _ ((ofGiven? g).mapError .config)
    generalize ofGiven? g = r at judged
    cases judged with
    | @made o fits holds =>
      have pattern : Gives entries .pattern (o.value .pattern) := by
        rcases holds .pattern with had | ⟨-, default⟩
        · exact had
        · cases default
      have readable := readable_of_takes (fits .pattern (Field.mem_all _) _ pattern)
      exact .made (.mapping known pattern readable fun f v => fits f f.mem_all v) (.mapping holds)
    | missing leaves field => exact .refused (field ▸ .missing known leaves)
    | wrong pattern split before given wrong field =>
      exact .refused (field ▸ .wrong known pattern split before given wrong)
    | unreadable pattern fits unreadable field =>
      exact .refused (field ▸ .unreadable known pattern (fun f v => fits f f.mem_all v) unreadable)

theorem read_ofValue {v : Value} (once : v.SpelledOnce) : Read v (ofValue? v) := by
  cases v with
  | options o => exact .made (.options o) (.options o)
  | text t => exact read_text t
  | mapping entries => exact read_mapping once
  | _ => exact .refused (.type (by simp))

/-- **Acceptance of options.** A value in which no option is given under two spellings is accepted just when it is
acceptable, as the options that it makes. Every other value is refused, with a configuration error whose field is the
one to blame; only a key without a text is a failure of another kind. -/
theorem reads_acceptable_only {v : Value} (once : v.SpelledOnce) :
    ((∃ o, ofValue? v = .ok o) ↔ v.Acceptable) ∧
    (∀ o, ofValue? v = .ok o ↔ v.Acceptable ∧ v.Makes o) ∧
    ∀ e, ofValue? v = .error e → v.Overlong ∨ ∃ c, e = .config c ∧ v.Blames c.field := by
  have read := read_ofValue once
  generalize ofValue? v = r at read
  have refused {e : Failure} (unacceptable : ¬ v.Acceptable) :
      ((∃ o, (.error e : Except Failure Options) = .ok o) ↔ v.Acceptable) ∧
        ∀ o, (.error e : Except Failure Options) = .ok o ↔ v.Acceptable ∧ v.Makes o :=
    ⟨iff_of_false (by simp) unacceptable, fun o => iff_of_false (by simp) fun h => unacceptable h.1⟩
  cases read with
  | @made o acceptable makes =>
    refine ⟨iff_of_true ⟨o, rfl⟩ acceptable, fun o' => ?_, fun e h => ?_⟩
    · constructor
      · intro h
        cases h
        exact ⟨acceptable, makes⟩
      · rintro ⟨-, makes'⟩
        rw [makes_unique once makes makes']
    · cases h
  | refused blames =>
    obtain ⟨some, each⟩ := refused (not_acceptable_of_blames once blames)
    refine ⟨some, each, fun e h => ?_⟩
    cases h
    exact .inr ⟨_, rfl, blames⟩
  | overlong overlong =>
    obtain ⟨some, each⟩ := refused (not_acceptable_of_overlong overlong)
    exact ⟨some, each, fun e h => .inl overlong⟩

/-- A key that names no field is blamed, though a wrong value stands in front of it and the pattern is no glob. -/
theorem reads_acceptable_only_of_three_faults :
    let v : Value := .mapping [(.text "poll", .int 1), (.int 3, .none), (.text "pattern", .text "[")]
    v.SpelledOnce ∧ ofValue? v = .error (.config (.unknownOption "3")) ∧ ¬ v.Acceptable ∧ ¬ v.Overlong ∧
      v.Blames (some "3") := by
  intro v
  have poll : Field.ofKey? "poll" = some .poll := rfl
  have pattern : Field.ofKey? "pattern" = some .pattern := rfl
  have once : v.SpelledOnce := by simp [v, Value.SpelledOnce, Value.field?, poll, pattern]
  have shown : (Value.int 3).shown? = some "3" := Value.shown_int (by decide +kernel)
  have refused : ofValue? v = .error (.config (.unknownOption "3")) :=
    (ofValue_of_error rfl).trans (congrArg _ (Given.unknown_of_shown shown))
  have short : ¬ v.Overlong := by
    rintro ⟨front, e, back, split, before, named, text⟩
    have entries := Value.mapping.inj split
    obtain _ | ⟨a, _ | ⟨b, front⟩⟩ := front
    · cases entries
      cases poll.symm.trans named
    · cases entries
      cases shown.symm.trans text
    · obtain rfl := (List.cons.inj (List.cons.inj entries).2).1
      obtain ⟨f, known⟩ := before (.int 3, .none) (by simp)
      cases known
  obtain ⟨accepted, -, others⟩ := reads_acceptable_only once
  refine ⟨once, refused, ?_, short, ?_⟩
  · rw [← accepted, refused]
    simp
  · obtain overlong | ⟨c, own, blames⟩ := others _ refused
    · exact absurd overlong short
    · cases own
      exact blames

/-- The field that is blamed is the text of a key and not the key, and a key that has no text is not blamed. -/
theorem key_blamed_as_text :
    let read (key : Value) := ofValue? (.mapping [(key, .none), (.text "pattern", .text "*")])
    (∃ e : ConfigError, read (.int 3) = .error (.config e) ∧ e.field.map .text ≠ some (Value.int 3)) ∧
      read (.int Numeral.bound) = .error .digitLimit := by
  refine ⟨⟨.unknownOption "3", ?_, by simp [ConfigError.field]⟩, ?_⟩
  · have shown : (Value.int 3).shown? = some "3" := Value.shown_int (by decide +kernel)
    exact (ofValue_of_error rfl).trans (congrArg _ (Given.unknown_of_shown shown))
  · have none : (Value.int Numeral.bound).shown? = none := Value.shown_int_eq_none (by decide +kernel)
    exact (ofValue_of_error rfl).trans (congrArg _ (Given.unknown_of_not_shown none))

end

end Options
end DirWatch

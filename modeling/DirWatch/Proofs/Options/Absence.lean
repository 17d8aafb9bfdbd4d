import DirWatch.Proofs.Options.Entries

/-!
# Options that are not given

A value of `none` in a mapping of options means that the option is not given, but for one case: the check for options
that are given more than once comes first, and so a `none` counts behind an entry for the same field, and in front of
it does not.

- **Leaving out** the entries of `none` (`ofEntries_filter`) and **reordering** (`ofEntries_perm`) change nothing but
  for such a `none`.
- Both carry over to the options read (`none_is_not_given`).
-/

namespace DirWatch
namespace Options

open Given (ofEntries?)

variable {entries reordered : List (Value × Value)} {g : Given}

/-- Whether an entry for a field has the value `none`. -/
def withholds (e : Value × Value) : Bool := e.1.field?.isSome && e.2.isNone

/-- An entry with the value `none` stands behind one that gives a value for the same field. -/
def WithheldBehind (entries : List (Value × Value)) (f : Field) : Prop :=
  ∃ front e back, entries = front ++ e :: back ∧ (∃ v, Gives front f v) ∧ e.1.field? = some f ∧ e.2.isNone = true

/-- What stands in front of an entry that is refused is read, and a repetition without a value is withheld. -/
theorem withheldBehind_of_repeats {front back : List (Value × Value)} {e : Value × Value} {f : Field}
    (named : e.1.field? = some f) (none : e.2.isNone = true) (h : ∃ a ∈ front, Repeats a e) :
    WithheldBehind (front ++ e :: back) f := by
  obtain ⟨a, ha, given, own, hown, again⟩ := h
  rw [named] at again
  cases again
  exact ⟨front, e, back, rfl, ⟨a.2, a, ha, hown, given, rfl⟩, named, none⟩

theorem gives_filter {f : Field} {v : Value} :
    Gives (entries.filter fun e => !withholds e) f v ↔ Gives entries f v := by
  refine exists_congr fun e => and_congr_left fun gives => ?_
  have kept : withholds e = false := by simp [withholds, gives.2.1]
  rw [List.mem_filter, kept]
  simp

/-- **Leaving out** what is withheld changes nothing in what is read. -/
theorem ofEntries_filter_of_ok (h : ofEntries? {} entries = .ok g) :
    ofEntries? {} (entries.filter fun e => !withholds e) = .ok g := by
  obtain ⟨known, single, -, -⟩ := Given.read_of_ofEntries h
  have still : Known (entries.filter fun e => !withholds e) := fun e he => known e (List.mem_filter.1 he).1
  obtain ⟨g', read⟩ := Given.exists_of_known still (single.filter _)
  rw [read, Given.eq_of_gives read h fun f v => gives_filter]

theorem ofEntries_filter (entries : List (Value × Value)) :
    ofEntries? {} (entries.filter fun e => !withholds e) = ofEntries? {} entries ∨
      ∃ f, WithheldBehind entries f ∧ ofEntries? {} entries = .error (.config (.repeatedOption f)) := by
  cases read : ofEntries? {} entries with
  | ok g => exact .inl (ofEntries_filter_of_ok read)
  | error error =>
    obtain ⟨front, e, back, g, rfl, before, refused⟩ := Given.exists_of_ofEntries_error read
    cases kept : withholds e with
    | true =>
      have entered := Given.enter_cases g e
      rw [refused] at entered
      rw [withholds, Bool.and_eq_true] at kept
      cases entered with
      | unknown named =>
        rw [named] at kept
        cases kept.1
      | @repeated f v named had =>
        rw [(Given.read_of_ofEntries before).2.2.2, Given.get_new] at had
        obtain had | had := had
        · cases had
        · exact .inr ⟨f, ⟨front, e, back, rfl, ⟨v, had⟩, named, kept.2⟩, rfl⟩
    | false =>
      refine .inl ?_
      rw [List.filter_append, List.filter_cons_of_pos (by simp [kept]),
        Given.ofEntries_append (ofEntries_filter_of_ok before), Given.ofEntries_cons_of_error refused]

/-- **Reordering** entries that are read changes nothing, but for a `none` that comes to stand behind a value. -/
theorem ofEntries_perm (h : ofEntries? {} entries = .ok g) (perm : entries.Perm reordered) :
    ofEntries? {} reordered = .ok g ∨
      ∃ f, WithheldBehind reordered f ∧ ofEntries? {} reordered = .error (.config (.repeatedOption f)) := by
  obtain ⟨known, single, -, -⟩ := Given.read_of_ofEntries h
  cases read : ofEntries? {} reordered with
  | ok g' => exact .inl (congrArg _ (Given.eq_of_gives read h fun f v => (gives_perm perm).symm))
  | error error =>
    obtain ⟨front, e, back, rfl, -, ⟨unknown, -⟩ | ⟨f, named, rfl, a, ha, repeats⟩⟩ :=
      Given.refused_of_ofEntries_error read
    · obtain ⟨f, named⟩ := known e (perm.mem_iff.2 (List.mem_append_right _ List.mem_cons_self))
      rw [unknown] at named
      cases named
    · cases given : e.2.isNone with
      | true => exact .inr ⟨f, withheldBehind_of_repeats named given ⟨a, ha, repeats⟩, rfl⟩
      | false =>
        -- Two entries that both give a value repeat each other in either order.
        have apart : entries.Pairwise fun a b => a.2.isNone = false → b.2.isNone = false → ∀ f,
            a.1.field? = some f → b.1.field? ≠ some f :=
          single.imp fun not given _ f own again => not ⟨given, f, own, again⟩
        have apart := (perm.pairwise_iff fun {a b} not given' given f own again => not given given' f again own).1 apart
        obtain ⟨given', own, hown, again⟩ := repeats
        exact absurd again ((List.pairwise_append.1 apart).2.2 a ha e List.mem_cons_self given' given own hown)

/-- Entries with a `none` behind a value for the same field are not read. -/
theorem WithheldBehind.refused {f : Field} (h : WithheldBehind entries f) : ∃ e, ofEntries? {} entries = .error e := by
  cases read : ofEntries? {} entries with
  | error e => exact ⟨e, rfl⟩
  | ok g =>
    obtain ⟨front, e, back, rfl, ⟨v, a, ha, own, given, -⟩, named, -⟩ := h
    have single := (Given.read_of_ofEntries read).2.1
    exact absurd ⟨given, f, own, named⟩ ((List.pairwise_append.1 single).2.2 a ha e List.mem_cons_self)

/-! ## The options of a mapping -/

theorem ofValue_mapping (entries : List (Value × Value)) :
    ofValue? (.mapping entries) = ofEntries? {} entries >>= fun g => (ofGiven? g).mapError .config := rfl

theorem ofValue_of_error {e : Failure} (h : ofEntries? {} entries = .error e) :
    ofValue? (.mapping entries) = .error e := by
  rw [ofValue_mapping, h]
  rfl

/-- **A value of `none` means that the option is not given**, but where it stands behind a value for the same field:
such a mapping is always refused. Any other outcome is that of the mapping without the entries of `none`, and mappings
with the same entries in another order agree. -/
theorem none_is_not_given (entries : List (Value × Value)) :
    (ofValue? (.mapping (entries.filter fun e => !withholds e)) = ofValue? (.mapping entries) ∨
      ∃ f, WithheldBehind entries f ∧ ofValue? (.mapping entries) = .error (.config (.repeatedOption f))) ∧
    (∀ reordered o, entries.Perm reordered → ofValue? (.mapping entries) = .ok o →
      ofValue? (.mapping reordered) = .ok o ∨
        ∃ f, WithheldBehind reordered f ∧ ofValue? (.mapping reordered) = .error (.config (.repeatedOption f))) ∧
    ∀ f, WithheldBehind entries f → ∃ e, ofValue? (.mapping entries) = .error e := by
  refine ⟨?_, ?_, ?_⟩
  · rcases ofEntries_filter entries with same | ⟨f, behind, refused⟩
    · rw [ofValue_mapping, ofValue_mapping, same]
      exact .inl rfl
    · exact .inr ⟨f, behind, ofValue_of_error refused⟩
  · intro reordered o perm accepted
    cases read : ofEntries? {} entries with
    | error e =>
      rw [ofValue_of_error read] at accepted
      cases accepted
    | ok g =>
      rcases ofEntries_perm read perm with same | ⟨f, behind, refused⟩
      · rw [ofValue_mapping, read] at accepted
        rw [ofValue_mapping, same]
        exact .inl accepted
      · exact .inr ⟨f, behind, ofValue_of_error refused⟩
  · intro f behind
    obtain ⟨e, refused⟩ := behind.refused
    exact ⟨e, ofValue_of_error refused⟩

/-- A `none` in front of the value under the other spelling is left out. -/
theorem none_is_not_given_in_front :
    let entries : List (Value × Value) :=
      [(.text "watch_files", .none), (.text "pattern", .text "*"), (.text "watchFiles", .bool false)]
    ∃ o, ofValue? (.mapping entries) = .ok o ∧
      (ofValue? (.mapping entries.reverse) = .ok o ∨ ∃ f, WithheldBehind entries.reverse f ∧
        ofValue? (.mapping entries.reverse) = .error (.config (.repeatedOption f))) :=
  ⟨_, rfl, (none_is_not_given _).2.1 _ _ (List.reverse_perm _).symm rfl⟩

/-- Behind a value a `none` is taken for a second one: without it the options are read, and so they are in another
order. -/
theorem none_repeats_value :
    let entries : List (Value × Value) :=
      [(.text "pattern", .text "*"), (.text "watchFiles", .bool true), (.text "watch_files", .none)]
    ofValue? (.mapping entries) = .error (.config (.repeatedOption .watchFiles)) ∧
      (∃ o, ofValue? (.mapping (entries.filter fun e => !withholds e)) = .ok o) ∧
      ∃ o, ofValue? (.mapping entries.reverse) = .ok o :=
  ⟨rfl, ⟨_, rfl⟩, ⟨_, rfl⟩⟩

end Options
end DirWatch

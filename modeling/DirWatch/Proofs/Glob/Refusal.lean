import Mathlib.Logic.Basic
import DirWatch.Proofs.Glob.Ranges

/-!
# What refuses a glob that was read

A glob that was read is refused for a range in wrong order, and for nothing else. So is the regular expression that
writes it: up to its first fault it is read like that of a glob in which no range is left in wrong order
(`Glob.mended`), and such a regular expression has no fault (`compile_mended`).

- **The leftmost range in wrong order** is what the error names, as the regular expression writes it and with the
  position at which it stands there (`refused_for_first_descent`).
-/

namespace DirWatch

namespace CharClass

/-- A class that is left without a range in wrong order: where there is one, all members but the first are dropped. -/
def mended (c : CharClass) : CharClass :=
  if c.badRange? = none then c else { c with members := c.members.take 1 }

theorem mended_of_ordered {c : CharClass} (h : c.badRange? = none) : c.mended = c := if_pos h

theorem Closed.mended {c : CharClass} (h : c.Closed) : c.mended.Ready := by
  unfold CharClass.mended
  split
  · rename_i ordered
    exact ⟨h, badRange_eq_none_iff.1 ordered⟩
  · obtain ⟨s, body, members, _⟩ := h
    rw [members]
    refine ⟨⟨s, [], rfl, by simp⟩, fun i hi => ?_⟩
    obtain rfl : i = .one s := List.mem_singleton.1 hi
    rfl

end CharClass

namespace Glob

open Expression (Fault modeAfter scanFrom)

/-! ## Regular expressions up to a class -/

/-- Behind a fragment reading is outside classes and escapes. -/
def Fragment.Whole (f : Fragment) : Prop := modeAfter .plain f.written = .plain

theorem modeAfter_fragments {fs : List Fragment} (h : ∀ f ∈ fs, f.Whole) :
    modeAfter .plain (fs.flatMap Fragment.written) = .plain := by
  induction fs with
  | nil => rfl
  | cons f fs ih =>
    rw [List.flatMap_cons, Expression.modeAfter_append, h f List.mem_cons_self]
    exact ih fun f' hf => h f' (List.mem_cons_of_mem f hf)

/-- The signs of the notation that a glob is written with. -/
theorem whole_signs : ∀ t ∈ ["(?s:", ")\\Z", "(?:", "|", ")", ".*", "."], (Fragment.text (Text.ofString t)).Whole := by
  intro t ht
  simp only [List.mem_cons, List.not_mem_nil, or_false] at ht
  rcases ht with rfl | rfl | rfl | rfl | rfl | rfl | rfl <;> rfl

theorem Atom.whole {a : Atom} (h : ∀ c ∈ a.classes, c.Closed) : a.fragment.Whole := by
  cases a with
  | star => exact whole_signs ".*" (by simp)
  | any => exact whole_signs "." (by simp)
  | exactly s =>
    have read := Expression.lexemesFrom_escapeSymbol s []
    rw [List.append_nil] at read
    refine Expression.modeAfter_eq_plain ?_
    rw [Atom.fragment, Fragment.written, read]
    simp [Expression.lexemesFrom]
  | oneOf c => exact CharClass.modeAfter_class (h c List.mem_cons_self)

theorem whole_map_fragment {b : List Atom} (h : ∀ c ∈ b.flatMap Atom.classes, c.Closed) :
    ∀ f ∈ b.map Atom.fragment, f.Whole := by
  intro f hf
  obtain ⟨a, ha, rfl⟩ := List.mem_map.1 hf
  exact Atom.whole fun c hc => h c (List.mem_flatMap.2 ⟨a, ha, hc⟩)

theorem whole_branchFragments : ∀ {bs : List (List Atom)}, (∀ c ∈ bs.flatten.flatMap Atom.classes, c.Closed) →
    ∀ f ∈ branchFragments bs, f.Whole
  | [], _, f, hf => by cases hf
  | [b], h, f, hf => by
    rw [List.flatten_singleton] at h
    exact whole_map_fragment h f hf
  | b :: b' :: bs, h, f, hf => by
    rw [List.flatten_cons, List.flatMap_append] at h
    rw [branchFragments, List.mem_append, List.mem_cons] at hf
    · rcases hf with hf | rfl | hf
      · exact whole_map_fragment (fun c hc => h c (List.mem_append_left _ hc)) f hf
      · exact whole_signs "|" (by simp)
      · exact whole_branchFragments (fun c hc => h c (List.mem_append_right _ hc)) f hf
    · simp

theorem Item.whole {i : Item} (h : ∀ c ∈ i.classes, c.Closed) : ∀ f ∈ i.fragments, f.Whole := by
  intro f hf
  cases i with
  | atom a =>
    rw [List.mem_singleton.1 hf]
    exact Atom.whole h
  | group bs =>
    rw [Item.fragments, List.cons_append, List.mem_cons, List.mem_append, List.mem_singleton] at hf
    rcases hf with rfl | hf | rfl
    · exact whole_signs "(?:" (by simp)
    · exact whole_branchFragments h f hf
    · exact whole_signs ")" (by simp)

/-- Every fragment that a glob is written with is whole. -/
theorem whole_fragments {g : Glob} (h : ∀ c ∈ g.classes, c.Closed) : ∀ f ∈ g.fragments, f.Whole := by
  intro f hf
  rw [fragments, List.cons_append, List.mem_cons, List.mem_append, List.mem_singleton, List.mem_flatMap] at hf
  rcases hf with rfl | ⟨i, hi, hf⟩ | rfl
  · exact whole_signs "(?s:" (by simp)
  · exact Item.whole (fun c hc => h c (List.mem_flatMap.2 ⟨i, hi, hc⟩)) f hf
  · exact whole_signs ")\\Z" (by simp)

/-! ## Globs with no range left in wrong order -/

/-- An atom whose class is mended. -/
def Atom.mended : Atom → Atom
  | .oneOf c => .oneOf c.mended
  | a => a

/-- An item whose classes are mended. -/
def Item.mended : Item → Item
  | .atom a => .atom a.mended
  | .group bs => .group (bs.map (·.map Atom.mended))

/-- A glob whose classes are mended. -/
def mended (g : Glob) : Glob := g.map Item.mended

/-- A fragment whose class is mended. -/
def Fragment.mended : Fragment → Fragment
  | .text t => .text t
  | .oneOf c => .oneOf c.mended

theorem Atom.fragment_mended (a : Atom) : a.mended.fragment = a.fragment.mended := by
  cases a <;> rfl

theorem map_fragment_mended (b : List Atom) :
    (b.map Atom.mended).map Atom.fragment = (b.map Atom.fragment).map Fragment.mended := by
  rw [List.map_map, List.map_map]
  exact List.map_congr_left fun a _ => a.fragment_mended

theorem branchFragments_mended : ∀ bs : List (List Atom),
    branchFragments (bs.map (·.map Atom.mended)) = (branchFragments bs).map Fragment.mended
  | [] => rfl
  | [b] => map_fragment_mended b
  | b :: b' :: bs => by
    have rest := branchFragments_mended (b' :: bs)
    have more : branchFragments (b :: b' :: bs) = b.map Atom.fragment ++ .text "|" :: branchFragments (b' :: bs) := rfl
    have mended : branchFragments ((b :: b' :: bs).map (·.map Atom.mended)) = (b.map Atom.mended).map Atom.fragment ++
      .text "|" :: branchFragments ((b' :: bs).map (·.map Atom.mended)) := rfl
    rw [more, mended, rest, map_fragment_mended, List.map_append, List.map_cons]
    rfl

theorem Item.fragments_mended (i : Item) : i.mended.fragments = i.fragments.map Fragment.mended := by
  cases i with
  | atom a => exact congrArg ([·]) a.fragment_mended
  | group bs =>
    simp only [Item.mended, Item.fragments, branchFragments_mended, List.map_cons, List.map_append, List.map_nil,
      Fragment.mended, List.cons_append]

/-- A glob is mended in its regular expression. -/
theorem fragments_mended (g : Glob) : g.mended.fragments = g.fragments.map Fragment.mended := by
  have items : (g.map Item.mended).flatMap Item.fragments = (g.flatMap Item.fragments).map Fragment.mended := by
    simp only [List.flatMap_map, List.map_flatMap, Item.fragments_mended]
  simp only [fragments, mended, items, List.map_cons, List.map_append, List.map_nil, Fragment.mended, List.cons_append]

/-- The classes of a mended glob are mended. -/
theorem exists_of_mem_classes_mended {g : Glob} {c : CharClass} (h : c ∈ g.mended.classes) :
    ∃ d ∈ g.classes, c = d.mended := by
  rw [← oneOf_mem_fragments, fragments_mended, List.mem_map] at h
  obtain ⟨f, hf, e⟩ := h
  cases f with
  | text t => cases e
  | oneOf d => exact ⟨d, oneOf_mem_fragments.1 hf, (Fragment.oneOf.inj e).symm⟩

/-- The regular expression of a mended glob has no fault. -/
theorem compile_mended {g : Glob} (branches : ∀ i ∈ g, i.HasBranches) (closed : ∀ c ∈ g.classes, c.Closed) :
    ∃ e, Expression.compile? g.mended.regex = .ok e := by
  have branches : ∀ i ∈ g.mended, i.HasBranches := by
    intro i hi
    obtain ⟨j, hj, rfl⟩ := List.mem_map.1 hi
    have own := branches j hj
    cases j with
    | atom a => trivial
    | group bs => exact fun none => own (List.map_eq_nil_iff.1 none)
  have ready : ∀ c ∈ g.mended.classes, c.Ready := by
    intro c hc
    obtain ⟨d, hd, rfl⟩ := exists_of_mem_classes_mended hc
    exact (closed d hd).mended
  exact ⟨_, Expression.compile_eq_ok_iff.2 (read?_regex (ready_of_classes branches ready))⟩

/-! ## The first fault of a regular expression -/

/-- The first class with a range in wrong order, among fragments from a position on. -/
theorem exists_of_firstBadRange {fs : List Fragment} {r : CharClass.BadRange} : ∀ {position : Nat},
    firstBadRange position fs = some r → ∃ before c after found, fs = before ++ .oneOf c :: after ∧
      NoBadRange before ∧ c.badRange? = some found ∧
      r = { found with offset := position + (before.flatMap Fragment.written).length + found.offset } := by
  induction fs with
  | nil =>
    intro position h
    cases h
  | cons f fs ih =>
    intro position h
    have later {width : Nat} (e : f.written.length = width) (own : NoBadRange [f])
        (h : firstBadRange (position + width) fs = some r) : ∃ before c after found,
          f :: fs = before ++ .oneOf c :: after ∧ NoBadRange before ∧ c.badRange? = some found ∧
            r = { found with offset := position + (before.flatMap Fragment.written).length + found.offset } := by
      obtain ⟨before, c, after, found, rfl, ordered, bad, rfl⟩ := ih h
      refine ⟨f :: before, c, after, found, rfl, fun d hd => ?_, bad, ?_⟩
      · rcases List.mem_cons.1 hd with hd | hd
        · exact own d (List.mem_singleton.2 hd)
        · exact ordered d hd
      · rw [List.flatMap_cons, List.length_append, e, Nat.add_assoc position]
    cases f with
    | text t =>
      rw [firstBadRange] at h
      refine later rfl (fun d hd => ?_) h
      cases List.mem_singleton.1 hd
    | oneOf c =>
      rw [firstBadRange] at h
      cases bad : c.badRange? with
      | some found =>
        rw [bad] at h
        cases h
        exact ⟨[], c, fs, found, rfl, fun d hd => absurd hd List.not_mem_nil, bad, rfl⟩
      | none =>
        rw [bad] at h
        refine later rfl (fun d hd => ?_) h
        obtain rfl := Fragment.oneOf.inj (List.mem_singleton.1 hd)
        exact bad

/-- **The first fault of the regular expression** is the first range in wrong order of its first class that has one. -/
theorem compile_of_badRange {g : Glob} (branches : ∀ i ∈ g, i.HasBranches) (closed : ∀ c ∈ g.classes, c.Closed)
    {before after : List Fragment} {c : CharClass} {r : CharClass.BadRange}
    (split : g.fragments = before ++ .oneOf c :: after) (ordered : NoBadRange before) (bad : c.badRange? = some r) :
    Expression.compile? g.regex =
      .error (.badRange r.low r.high ((before.flatMap Fragment.written).length + r.offset)) := by
  have whole := whole_fragments closed
  have left : modeAfter .plain (before.flatMap Fragment.written) = .plain :=
    modeAfter_fragments fun f hf => whole f (by rw [split]; exact List.mem_append_left _ hf)
  have same : before.map Fragment.mended = before := by
    have each : ∀ f ∈ before, f.mended = f := by
      intro f hf
      cases f with
      | text t => rfl
      | oneOf d => exact congrArg Fragment.oneOf (CharClass.mended_of_ordered (ordered d hf))
    exact (List.map_congr_left each).trans (List.map_id _)
  -- what is written before the class is read alike in the mended glob, where reading goes on to the end
  obtain ⟨ls, read⟩ := Expression.scanFrom_append (before.flatMap Fragment.written) .plain 0
  rw [left] at read
  obtain ⟨e, mended⟩ := compile_mended branches closed
  have front : g.mended.regex = before.flatMap Fragment.written ++
      (Fragment.mended (.oneOf c) :: after.map Fragment.mended).flatMap Fragment.written := by
    rw [regex, fragments_mended, split, List.map_append, same, List.map_cons, List.flatMap_append]
  rw [Expression.compile?, front, read] at mended
  have class_closed : c.Closed :=
    closed c (oneOf_mem_fragments.1 (by rw [split]; exact List.mem_append_right _ List.mem_cons_self))
  obtain ⟨later, fault⟩ := CharClass.scanFrom_class class_closed bad
    (0 + (before.flatMap Fragment.written).length) (after.flatMap Fragment.written)
  have written : g.regex = before.flatMap Fragment.written ++ (c.written ++ after.flatMap Fragment.written) := by
    rw [regex, split, List.flatMap_append, List.flatMap_cons, Fragment.written]
  rw [Expression.compile?, written, read, fault, Nat.zero_add]
  exact Expression.compileFrom_error _ later mended

/-! ## The leftmost range in wrong order -/

/-- The leftmost range in wrong order of a glob: the first one of the first class that has one. Its ends are `low` and
`high` as the regular expression writes them, and `front` is what the regular expression has in front of it. -/
inductive FirstDescent (g : Glob) : Text → Text → Text → Prop
  | intro {before after : List Fragment} {c : CharClass} {front back : List CharClass.Member} {x d y : CharClass.Member}
      (split : g.fragments = before ++ .oneOf c :: after)
      (ordered : ∀ b, .oneOf b ∈ before → CharClass.Ascending b.members)
      (members : c.writtenMembers = front ++ x :: d :: y :: back) (dash : d.written = [CharClass.dash])
      (first : CharClass.FirstDescent c.members (front.map (·.symbol)) x.symbol y.symbol) :
      FirstDescent g (before.flatMap Fragment.written ++ c.opening ++ front.flatMap (·.written)) x.written y.written

/-- The range stands behind its front. -/
theorem FirstDescent.regex {g : Glob} {front low high : Text} (h : g.FirstDescent front low high) :
    ∃ back, g.regex = front ++ low ++ [CharClass.dash] ++ high ++ back := by
  cases h with
  | @intro before after c front back x d y split _ members dash _ =>
    refine ⟨back.flatMap (·.written) ++ Text.ofString "]" ++ after.flatMap Fragment.written, ?_⟩
    rw [Glob.regex, split, List.flatMap_append, List.flatMap_cons, Fragment.written, CharClass.written, members,
      List.flatMap_append, List.flatMap_cons, List.flatMap_cons, List.flatMap_cons, dash]
    simp only [List.append_assoc]

end Glob

namespace CharClass

/-- A dash is written as it is. -/
theorem written_of_dash {c : CharClass} {m : Member} (hm : m ∈ c.writtenMembers) (h : m.symbol = dash) :
    m.written = [dash] := by
  rw [← map_ofUnit_units] at hm
  obtain ⟨⟨s, escaped⟩, hu, rfl⟩ := List.mem_map.1 hm
  obtain rfl : s = dash := h
  obtain rfl : escaped = false := escaped_of_dash hu rfl
  rfl

theorem found_badRange (c : CharClass) : Found c.opening.length c.writtenMembers c.badRange? :=
  found_firstBadRange (fun _ hm => written_of_dash hm) _

/-- A class has no range in wrong order when all ranges that its members list are in order. -/
theorem badRange_eq_none_iff_ascending {c : CharClass} : c.badRange? = none ↔ Ascending c.members := by
  have found := c.found_badRange
  generalize c.badRange? = r at found
  cases found with
  | none h =>
    rw [map_writtenMembers] at h
    exact iff_of_true rfl h
  | some front back x d y hm hd h =>
    rw [map_writtenMembers] at h
    exact iff_of_false (by simp) h.not_ascending

end CharClass

namespace Glob

/-- The error of a glob is its leftmost range in wrong order. -/
theorem rangeError_eq_none_iff {g : Glob} : g.rangeError? = none ↔ ∀ c ∈ g.classes, CharClass.Ascending c.members := by
  rw [rangeError?, Option.map_eq_none_iff]
  constructor
  · intro h c hc
    exact CharClass.badRange_eq_none_iff_ascending.1 (noBadRange_of_firstBadRange h c (oneOf_mem_fragments.2 hc))
  · intro h
    cases e : firstBadRange 0 g.fragments with
    | none => rfl
    | some r =>
      obtain ⟨before, c, after, found, split, -, bad, -⟩ := exists_of_firstBadRange e
      have listed : c ∈ g.classes :=
        oneOf_mem_fragments.1 (by rw [split]; exact List.mem_append_right _ List.mem_cons_self)
      rw [CharClass.badRange_eq_none_iff_ascending.2 (h c listed)] at bad
      cases bad

theorem exists_of_rangeError {g : Glob} (branches : ∀ i ∈ g, i.HasBranches) (closed : ∀ c ∈ g.classes, c.Closed)
    {e : SyntaxError} (h : g.rangeError? = some e) : ∃ front low high, g.FirstDescent front low high ∧
      Expression.compile? g.regex = .error (.badRange low high front.length) ∧
      e = .badRange low high front.length (place? g.regex front.length) := by
  obtain ⟨r, hr, rfl⟩ := Option.map_eq_some_iff.1 h
  obtain ⟨before, c, after, found, split, ordered, bad, rfl⟩ := exists_of_firstBadRange hr
  have compiled := compile_of_badRange branches closed split ordered bad
  have descent := c.found_badRange
  rw [bad] at descent
  cases descent with
  | some front back x d y hm hd first =>
    have dash : d.written = [CharClass.dash] := CharClass.written_of_dash (by rw [hm]; simp) hd
    rw [CharClass.map_writtenMembers] at first
    have leftmost := FirstDescent.intro split
      (fun b hb => CharClass.badRange_eq_none_iff_ascending.1 (ordered b hb)) hm dash first
    have position : (before.flatMap Fragment.written).length + (c.opening.length + (front.flatMap (·.written)).length) =
        (before.flatMap Fragment.written ++ c.opening ++ front.flatMap (·.written)).length := by
      rw [List.length_append, List.length_append, Nat.add_assoc]
    refine ⟨_, _, _, leftmost, ?_, ?_⟩
    · rw [compiled, ← position]
    · rw [← position, Nat.zero_add]

/-- A text that writes a glob is refused for the range in wrong order alone. -/
theorem ofText_eq_error_iff {t : Text} {g : Glob} (h : parse? t = .ok g) {e : SyntaxError} :
    Pattern.ofText? t = .error e ↔ g.rangeError? = some e := by
  have text : Pattern.ofText? t = .error e ↔ read? t = .error e := by
    unfold Pattern.ofText?
    split
    · rename_i g' accepted
      simp [accepted]
    · rename_i e' refused
      simp [refused]
  rw [text, read?, h]
  dsimp only [bind, Except.bind]
  cases g.rangeError? <;> simp

/-- **What refuses a glob that was read.** It is refused just when a class lists a range in wrong order. The error then
names the leftmost such range, as the regular expression of the glob writes it and with the position at which it stands
there; and this range is the first fault of the regular expression, which has no other: that of a glob that is not
refused has none. -/
theorem refused_for_first_descent {t : Text} {g : Glob} (h : parse? t = .ok g) :
    ((∃ e, Pattern.ofText? t = .error e) ↔
      ∃ c ∈ g.classes, ∃ front low high, CharClass.ListsRange c.members front low high ∧ high.code < low.code) ∧
    (∀ e, Pattern.ofText? t = .error e → ∃ front low high back lines, g.FirstDescent front low high ∧
      g.regex = front ++ low ++ "-" ++ high ++ back ∧
      Expression.compile? g.regex = .error (.badRange low high front.length) ∧
      Pattern.invalid t e.reason = "Invalid glob pattern '" ++ t ++ "': " ++ ("bad character range " ++ low ++ "-" ++
        high ++ " at position " ++ Text.ofNat front.length ++ lines) ∧
      (.char '\n' ∉ g.regex → lines = [])) ∧
    ((∀ e, Pattern.ofText? t ≠ .error e) → Expression.compile? g.regex = .ok g.expression) := by
  have clean := (parse?_eq_ok_iff.1 h).closed
  have ordered : (∀ c ∈ g.classes, CharClass.Ascending c.members) ↔ ¬ ∃ c ∈ g.classes, ∃ front low high,
      CharClass.ListsRange c.members front low high ∧ high.code < low.code := by
    simp only [CharClass.Ascending, not_exists, not_and, Nat.not_lt]
  refine ⟨?_, fun e he => ?_, fun accepted => ?_⟩
  · rw [← not_iff_not, ← ordered, ← rangeError_eq_none_iff, Option.eq_none_iff_forall_ne_some, not_exists]
    exact forall_congr' fun e => not_congr (ofText_eq_error_iff h)
  · obtain ⟨front, low, high, leftmost, compiled, rfl⟩ :=
      exists_of_rangeError clean.1 clean.2 ((ofText_eq_error_iff h).1 he)
    obtain ⟨back, written⟩ := leftmost.regex
    refine ⟨front, low, high, back, _, leftmost, written, compiled, rfl, fun single => ?_⟩
    have none : place? g.regex front.length = none := if_neg (by simpa using single)
    rw [none]
  · have none : g.rangeError? = none :=
      Option.eq_none_iff_forall_ne_some.2 fun e => mt (ofText_eq_error_iff h).2 (accepted e)
    refine Expression.compile_eq_ok_iff.2 (read?_regex (ready_of_classes clean.1 fun c hc => ⟨clean.2 c hc, ?_⟩))
    have ascending := CharClass.badRange_eq_none_iff_ascending.2 (rangeError_eq_none_iff.1 none c hc)
    exact CharClass.badRange_eq_none_iff.1 ascending

/-- A caret in front is escaped, and so it is named with a backslash; the newline before it puts it on the second
line. -/
theorem refused_for_first_descent_behind_newline :
    let t : Text := "\n[!^-A]"
    let g : Glob := [.atom (.exactly (.char '\n')), .atom (.oneOf ⟨true, [.char '^', .char '-', .char 'A']⟩)]
    parse? t = .ok g ∧ Pattern.ofText? t = .error (.badRange "\\^" "A" 8 (some (2, 3))) ∧
      ∃ front low high back lines, g.FirstDescent front low high ∧ g.regex = front ++ low ++ "-" ++ high ++ back ∧
        Expression.compile? g.regex = .error (.badRange low high front.length) ∧
        Pattern.invalid t (SyntaxError.badRange "\\^" "A" 8 (some (2, 3))).reason =
          "Invalid glob pattern '" ++ t ++ "': " ++ ("bad character range " ++ low ++ "-" ++ high ++ " at position " ++
            Text.ofNat front.length ++ lines) ∧
        (.char '\n' ∉ g.regex → lines = []) :=
  ⟨rfl, rfl, (refused_for_first_descent rfl).2.1 _ rfl⟩

end Glob
end DirWatch

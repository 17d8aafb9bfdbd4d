import DirWatch.Glob.Basic

/-!
# The grammar of patterns

Which text writes which glob, said by the parts of the text (`Spells`). A run of stars is one item; a backslash makes
the next symbol a literal; a class lists its first member, whatever it is, and then all symbols up to the next closing
bracket; a comma separates branches inside braces and is a literal outside; braces do not nest.

- **Reading** gives the glob that the text writes, and fails on a text that writes none (`parse?_eq_ok_iff`).

Every text begins with a part of the grammar, with a comma or a brace, or with a part that lacks its end (`begins`).
What reading does with each beginning is one equation (`assembleAt_atom` and those around it); soundness goes through
the beginnings, completeness through the constructors of `Spells`.
-/

namespace DirWatch
namespace Glob

/-! ## Parts of a pattern -/

/-- The symbols that are no literals outside classes. -/
def signs : Text := [.char '\\', .char '*', .char '?', .char '[', .char '{', .char '}']

/-- A text that does not go on with a star. -/
def NoStar (t : Text) : Prop := t.head? ≠ some (.char '*')

/-- A run of `n + 1` stars. -/
def stars (n : Nat) : Text := List.replicate (n + 1) (.char '*')

/-- How an atom other than a star is written, inside or outside braces. -/
inductive SpellsAtom (inside : Bool) : Text → Atom → Prop
  | any : SpellsAtom inside [.char '?'] .any
  | escaped (s : Symbol) : SpellsAtom inside [.char '\\', s] (.exactly s)
  | literal {s : Symbol} (hs : s ∉ signs) (hc : inside = true → s ≠ .char ',') : SpellsAtom inside [s] (.exactly s)
  | oneOf {s : Symbol} {body : Text} (hs : s ≠ .char '!') (hb : .char ']' ∉ body) :
      SpellsAtom inside (.char '[' :: s :: body ++ [.char ']']) (.oneOf ⟨false, s :: body⟩)
  | noneOf {s : Symbol} {body : Text} (hb : .char ']' ∉ body) :
      SpellsAtom inside (.char '[' :: .char '!' :: s :: body ++ [.char ']']) (.oneOf ⟨true, s :: body⟩)

/-- How a branch of a group is written. -/
inductive SpellsBranch : Text → List Atom → Prop
  | nil : SpellsBranch [] []
  | star (n : Nat) {t : Text} {b : List Atom} (ht : NoStar t) (hb : SpellsBranch t b) :
      SpellsBranch (stars n ++ t) (.star :: b)
  | atom {u t : Text} {a : Atom} {b : List Atom} (ha : SpellsAtom true u a) (hb : SpellsBranch t b) :
      SpellsBranch (u ++ t) (a :: b)

/-- How the branches of a group are written. -/
inductive SpellsBranches : Text → List (List Atom) → Prop
  | last {t : Text} {b : List Atom} (hb : SpellsBranch t b) : SpellsBranches t [b]
  | more {t u : Text} {b : List Atom} {bs : List (List Atom)} (hb : SpellsBranch t b) (hbs : SpellsBranches u bs) :
      SpellsBranches (t ++ .char ',' :: u) (b :: bs)

/-- How a glob is written. -/
inductive Spells : Text → Glob → Prop
  | nil : Spells [] []
  | star (n : Nat) {t : Text} {g : Glob} (ht : NoStar t) (hg : Spells t g) : Spells (stars n ++ t) (.atom .star :: g)
  | atom {u t : Text} {a : Atom} {g : Glob} (ha : SpellsAtom false u a) (hg : Spells t g) :
      Spells (u ++ t) (.atom a :: g)
  | group {u t : Text} {bs : List (List Atom)} {g : Glob} (hbs : SpellsBranches u bs) (hg : Spells t g) :
      Spells (.char '{' :: u ++ .char '}' :: t) (.group bs :: g)

/-- What stands behind the opening bracket of a class that is not closed. -/
inductive UnclosedClass : Text → Prop
  | nil : UnclosedClass []
  | negation : UnclosedClass [.char '!']
  | members {s : Symbol} {body : Text} (hs : s ≠ .char '!') (hb : .char ']' ∉ body) : UnclosedClass (s :: body)
  | negated {s : Symbol} {body : Text} (hb : .char ']' ∉ body) : UnclosedClass (.char '!' :: s :: body)

/-- How a text begins. -/
inductive Begins : Text → Prop
  | done : Begins []
  | star (n : Nat) {t : Text} (ht : NoStar t) : Begins (stars n ++ t)
  | atom {u : Text} {a : Atom} (ha : SpellsAtom true u a) (t : Text) : Begins (u ++ t)
  | comma (t : Text) : Begins (.char ',' :: t)
  | openBrace (t : Text) : Begins (.char '{' :: t)
  | closeBrace (t : Text) : Begins (.char '}' :: t)
  | loneEscape : Begins [.char '\\']
  | unclosed {t : Text} (h : UnclosedClass t) : Begins (.char '[' :: t)

/-- What is written inside braces is written outside in the same way. -/
theorem SpellsAtom.outside {u : Text} {a : Atom} (h : SpellsAtom true u a) (inside : Bool) : SpellsAtom inside u a := by
  cases h with
  | any => exact .any
  | escaped s => exact .escaped s
  | literal hs hc => exact .literal hs fun _ => hc rfl
  | oneOf hs hb => exact .oneOf hs hb
  | noneOf hb => exact .noneOf hb

/-- The written form of an atom is not empty. -/
theorem SpellsAtom.length_pos {inside : Bool} {u : Text} {a : Atom} (h : SpellsAtom inside u a) : 0 < u.length := by
  cases h <;> simp

/-- The stars at the front of a text. -/
theorem exists_stars : ∀ t : Text, ∃ n u, t = List.replicate n (.char '*') ++ u ∧ NoStar u
  | [] => ⟨0, [], rfl, by simp [NoStar]⟩
  | s :: t => by
    by_cases hs : s = .char '*'
    · obtain ⟨n, u, rfl, hu⟩ := exists_stars t
      exact ⟨n + 1, u, by rw [hs, List.replicate_succ, List.cons_append], hu⟩
    · exact ⟨0, s :: t, rfl, by simpa [NoStar] using hs⟩

/-- A class is closed or not. -/
theorem begins_class (t : Text) : Begins (.char '[' :: t) := by
  cases t with
  | nil => exact .unclosed .nil
  | cons s t =>
    by_cases hs : s = .char '!'
    · subst hs
      cases t with
      | nil => exact .unclosed .negation
      | cons s t =>
        by_cases hb : .char ']' ∈ t
        · obtain ⟨body, rest, rfl, hbody⟩ := List.eq_append_cons_of_mem hb
          have h := Begins.atom (SpellsAtom.noneOf (s := s) hbody) rest
          simpa using h
        · exact .unclosed (.negated hb)
    · by_cases hb : .char ']' ∈ t
      · obtain ⟨body, rest, rfl, hbody⟩ := List.eq_append_cons_of_mem hb
        have h := Begins.atom (SpellsAtom.oneOf hs hbody) rest
        simpa using h
      · exact .unclosed (.members hs hb)

/-- Every text has a beginning. -/
theorem begins (t : Text) : Begins t := by
  cases t with
  | nil => exact .done
  | cons s t =>
    by_cases hs : s ∈ signs
    · simp only [signs, List.mem_cons, List.not_mem_nil, or_false] at hs
      rcases hs with rfl | rfl | rfl | rfl | rfl | rfl
      · cases t with
        | nil => exact .loneEscape
        | cons s t => exact .atom (.escaped s) t
      · obtain ⟨n, u, rfl, hu⟩ := exists_stars t
        exact .star n hu
      · exact .atom .any t
      · exact begins_class t
      · exact .openBrace t
      · exact .closeBrace t
    · by_cases hc : s = .char ','
      · subst hc; exact .comma t
      · exact .atom (.literal hs fun _ => hc) t

/-! ## Tokens of the parts -/

theorem tokensFrom_stars {t : Text} (ht : NoStar t) : ∀ (n position : Nat),
    tokensFrom .stars position (List.replicate n (.char '*') ++ t) = tokensFrom .plain (position + n) t
  | 0, position => by
    cases t with
    | nil => rfl
    | cons s t =>
      have hs : s ≠ .char '*' := by simpa [NoStar] using ht
      simp [tokensFrom, readSymbol, hs]
  | n + 1, position => by
    have h := tokensFrom_stars ht n (position + 1)
    rw [show position + 1 + n = position + (n + 1) by omega] at h
    rw [← h]
    rfl

theorem tokensFrom_members {body : Text} (hb : .char ']' ∉ body) (t : Text) (start : Nat) (negated : Bool) :
    ∀ (reversed : Text) (position : Nat),
      tokensFrom (.classMembers start negated reversed) position (body ++ .char ']' :: t) =
        .oneOf ⟨negated, reversed.reverse ++ body⟩ :: tokensFrom .plain (position + body.length + 1) t := by
  induction body with
  | nil => intro reversed position; simp [tokensFrom, readSymbol]
  | cons s body ih =>
    intro reversed position
    simp only [List.mem_cons, not_or] at hb
    have hs : s ≠ .char ']' := fun e => hb.1 e.symm
    have h := ih hb.2 (s :: reversed) (position + 1)
    simp only [List.cons_append, tokensFrom, readSymbol, hs, if_false, List.nil_append, h, List.reverse_cons,
      List.append_assoc, List.length_cons]
    rw [show position + 1 + body.length + 1 = position + (body.length + 1) + 1 by omega]

theorem tokensFrom_unclosed_members {body : Text} (hb : .char ']' ∉ body) (start : Nat) (negated : Bool) :
    ∀ (reversed : Text) (position : Nat),
      tokensFrom (.classMembers start negated reversed) position body = [.malformed (.unclosedClass start)] := by
  induction body with
  | nil => intro _ _; rfl
  | cons s body ih =>
    intro reversed position
    simp only [List.mem_cons, not_or] at hb
    have hs : s ≠ .char ']' := fun e => hb.1 e.symm
    simp only [tokensFrom, readSymbol, hs, if_false, List.nil_append, ih hb.2]

theorem tokensFrom_unclosed {t : Text} (h : UnclosedClass t) (position : Nat) :
    tokensFrom .plain position (.char '[' :: t) = [.malformed (.unclosedClass position)] := by
  cases h with
  | nil => rfl
  | negation => rfl
  | @members s body hs hb =>
    have h := tokensFrom_unclosed_members hb position false [s] (position + 2)
    simpa [tokensFrom, readSymbol, plainSymbol, hs] using h
  | @negated s body hb =>
    have h := tokensFrom_unclosed_members hb position true [s] (position + 3)
    simpa [tokensFrom, readSymbol, plainSymbol] using h

theorem plainSymbol_literal {s : Symbol} (hs : s ∉ signs) (hc : s ≠ .char ',') (position : Nat) :
    plainSymbol position s = ([.exactly s], .plain) := by
  unfold plainSymbol
  split
  all_goals first | rfl | exact absurd rfl hc | exact absurd (by simp [signs]) hs

/-! ## Reading the parts -/

/-- The glob of a text that is read from a position, behind an open group or at the top. -/
def assembleAt (group : Option OpenGroup) (position : Nat) (t : Text) : Except SyntaxError Glob :=
  assemble group (tokensFrom .plain position t)

theorem assembleAt_star (group : Option OpenGroup) (position n : Nat) {t : Text} (ht : NoStar t) :
    assembleAt group position (stars n ++ t) = place .star group (assembleAt · (position + (n + 1)) t) := by
  have h : tokensFrom .plain position (stars n ++ t) = .star :: tokensFrom .plain (position + (n + 1)) t := by
    have := tokensFrom_stars ht n (position + 1)
    rw [show position + 1 + n = position + (n + 1) by omega] at this
    rw [← this]
    rfl
  rw [assembleAt, h]
  simp only [assemble, assembleAt]

theorem assembleAt_atom (group : Option OpenGroup) {u : Text} {a : Atom} (h : SpellsAtom group.isSome u a)
    (position : Nat) (t : Text) :
    assembleAt group position (u ++ t) = place a group (assembleAt · (position + u.length) t) := by
  unfold assembleAt
  cases h with
  | any => simp only [List.singleton_append, tokensFrom, readSymbol, plainSymbol, assemble, List.length_singleton]
  | escaped s =>
    simp only [List.cons_append, List.nil_append, tokensFrom, readSymbol, plainSymbol, assemble, List.length_cons,
      List.length_nil, Nat.add_assoc, Nat.reduceAdd]
  | @literal s hs hc =>
    simp only [List.singleton_append, tokensFrom, readSymbol, List.length_singleton]
    by_cases hcomma : s = .char ','
    · subst hcomma
      cases group with
      | none => simp only [plainSymbol, List.singleton_append, assemble, place]
      | some og => exact absurd rfl (hc rfl)
    · simp only [plainSymbol_literal hs hcomma, List.singleton_append, assemble]
  | @oneOf s body hs hb =>
    have hm := tokensFrom_members hb t position false [s] (position + 2)
    have hl : position + 2 + body.length + 1 = position + (body.length + 3) := by omega
    rw [hl] at hm
    simp only [List.cons_append, List.append_assoc, List.nil_append, tokensFrom, readSymbol, plainSymbol, hs, if_false,
      Nat.add_assoc, Nat.reduceAdd, hm, assemble, List.length_cons, List.length_append, List.length_nil,
      List.reverse_cons, List.reverse_nil]
  | @noneOf s body hb =>
    have hm := tokensFrom_members hb t position true [s] (position + 3)
    have hl : position + 3 + body.length + 1 = position + (body.length + 4) := by omega
    rw [hl] at hm
    simp only [List.cons_append, List.append_assoc, List.nil_append, tokensFrom, readSymbol, plainSymbol, if_true,
      Nat.add_assoc, Nat.reduceAdd, hm, assemble, List.length_cons, List.length_append, List.length_nil,
      List.reverse_cons, List.reverse_nil]

theorem assembleAt_comma (og : OpenGroup) (position : Nat) (t : Text) :
    assembleAt (some og) position (.char ',' :: t) = assembleAt (some og.next) (position + 1) t := rfl

theorem assembleAt_openBrace (position : Nat) (t : Text) :
    assembleAt none position (.char '{' :: t) = assembleAt (some {}) (position + 1) t := rfl

theorem assembleAt_closeBrace (og : OpenGroup) (position : Nat) (t : Text) :
    assembleAt (some og) position (.char '}' :: t) = (assembleAt none (position + 1) t).map (og.close :: ·) := rfl

theorem assembleAt_loneEscape (group : Option OpenGroup) (position : Nat) :
    assembleAt group position [.char '\\'] = .error .danglingEscape := by
  cases group <;> rfl

theorem assembleAt_unclosed (group : Option OpenGroup) (position : Nat) {t : Text} (h : UnclosedClass t) :
    assembleAt group position (.char '[' :: t) = .error (.unclosedClass position) := by
  rw [assembleAt, tokensFrom_unclosed h]
  cases group <;> rfl

/-! ## What is read is written -/

/-- A glob that continues an open group, or the glob at the top, with what a text writes. -/
inductive Continues : Option OpenGroup → Text → Glob → Prop
  | outside {t : Text} {g : Glob} (h : Spells t g) : Continues none t g
  | inside (og : OpenGroup) {u t : Text} {b : List Atom} {bs : List (List Atom)} {g : Glob}
      (hbs : SpellsBranches u (b :: bs)) (hg : Spells t g) :
      Continues (some og) (u ++ .char '}' :: t)
        (.group (og.branches.reverse ++ (og.branch.reverse ++ b) :: bs) :: g)

/-- An atom in front of the first branch. -/
theorem SpellsBranches.atom {u t : Text} {a : Atom} {b : List Atom} {bs : List (List Atom)}
    (ha : SpellsAtom true u a) (h : SpellsBranches t (b :: bs)) : SpellsBranches (u ++ t) ((a :: b) :: bs) := by
  cases h with
  | last hb => exact .last (.atom ha hb)
  | more hb hbs =>
    rw [← List.append_assoc]
    exact .more (.atom ha hb) hbs

/-- A run of stars in front of the first branch. -/
theorem SpellsBranches.star (n : Nat) {t : Text} {b : List Atom} {bs : List (List Atom)} (ht : NoStar t)
    (h : SpellsBranches t (b :: bs)) : SpellsBranches (stars n ++ t) ((.star :: b) :: bs) := by
  cases h with
  | last hb => exact .last (.star n ht hb)
  | @more u _ _ _ hb hbs =>
    rw [← List.append_assoc]
    refine .more (.star n ?_ hb) hbs
    cases u with
    | nil => simp [NoStar]
    | cons s u => simpa [NoStar] using ht

/-- What continues with an atom. -/
theorem continues_place {group : Option OpenGroup} {u t : Text} {a : Atom} {g : Glob}
    {rest : Option OpenGroup → Except SyntaxError Glob} (h : place a group rest = .ok g)
    (ih : ∀ group g, rest group = .ok g → Continues group t g)
    (top : ∀ {g}, Spells t g → Spells (u ++ t) (.atom a :: g))
    (inner : group ≠ none → ∀ {v w b bs}, t = v ++ .char '}' :: w → SpellsBranches v (b :: bs) →
      SpellsBranches (u ++ v) ((a :: b) :: bs)) : Continues group (u ++ t) g := by
  cases group with
  | none =>
    simp only [place] at h
    cases e : rest none with
    | error _ => rw [e] at h; cases h
    | ok g' =>
      rw [e] at h
      cases h
      cases ih none g' e with
      | outside h => exact .outside (top h)
  | some og =>
    cases ih _ _ h with
    | @inside _ v w b bs g hbs hg =>
      have hc := Continues.inside og (inner (by simp) rfl hbs) hg
      simpa [OpenGroup.add] using hc

/-- What is read continues the open group, or the glob at the top. -/
theorem continues_of_assembleAt {t : Text} {group : Option OpenGroup} {position : Nat} {g : Glob}
    (h : assembleAt group position t = .ok g) : Continues group t g := by
  induction hn : t.length using Nat.strongRecOn generalizing t group position g with
  | ind n ih =>
    subst hn
    cases begins t with
    | done =>
      cases group with
      | none => cases h; exact .outside .nil
      | some og => cases h
    | @star n t ht =>
      rw [assembleAt_star group position n ht] at h
      refine continues_place h (fun _ _ e => ih _ ?_ e rfl) (.star n ht) ?_
      · simp only [stars, List.length_append, List.length_replicate]; omega
      · rintro - v w b bs rfl hbs
        refine hbs.star n ?_
        cases v with
        | nil => simp [NoStar]
        | cons s v => simpa [NoStar] using ht
    | @atom u a ha t =>
      rw [assembleAt_atom _ (ha.outside _)] at h
      refine continues_place h (fun _ _ e => ih _ ?_ e rfl) (.atom (ha.outside _)) fun _ _ _ _ _ _ hbs => hbs.atom ha
      have := ha.length_pos
      simp only [List.length_append]; omega
    | comma t =>
      cases group with
      | none =>
        have hc : SpellsAtom false [.char ','] (.exactly (.char ',')) := .literal (by decide) (by simp)
        rw [show Symbol.char ',' :: t = [.char ','] ++ t from rfl, assembleAt_atom none hc] at h
        exact continues_place h (fun _ _ e => ih _ (by simp) e rfl) (.atom hc) fun hne => absurd rfl hne
      | some og =>
        rw [assembleAt_comma] at h
        cases ih _ (by simp) h rfl with
        | @inside _ u w b bs g hbs hg =>
          have hc := Continues.inside og (.more .nil hbs) hg
          simpa [OpenGroup.next] using hc
    | openBrace t =>
      cases group with
      | none =>
        rw [assembleAt_openBrace] at h
        cases ih _ (by simp) h rfl with
        | @inside _ u w b bs g hbs hg => exact .outside (.group hbs hg)
      | some og => cases h
    | closeBrace t =>
      cases group with
      | none => cases h
      | some og =>
        rw [assembleAt_closeBrace] at h
        cases e : assembleAt none (position + 1) t with
        | error _ => rw [e] at h; cases h
        | ok g' =>
          rw [e] at h
          cases h
          cases ih _ (by simp) e rfl with
          | outside hg =>
            have hc := Continues.inside og (.last .nil) hg
            simpa [OpenGroup.close] using hc
    | loneEscape => rw [assembleAt_loneEscape] at h; cases h
    | unclosed hu => rw [assembleAt_unclosed group position hu] at h; cases h

/-! ## What is written is read -/

/-- A branch is read into the open group. -/
theorem assembleAt_branch {t : Text} {b : List Atom} (h : SpellsBranch t b) {u : Text} (hu : NoStar u) :
    ∀ (og : OpenGroup) (position : Nat), assembleAt (some og) position (t ++ u) =
      assembleAt (some { og with branch := b.reverse ++ og.branch }) (position + t.length) u := by
  induction h with
  | nil => intro og position; rfl
  | @star n t b ht _ ih =>
    intro og position
    have hn : NoStar (t ++ u) := by
      cases t with
      | nil => exact hu
      | cons s t => simpa [NoStar] using ht
    rw [List.append_assoc, assembleAt_star _ _ n hn, place, ih]
    simp [OpenGroup.add, stars, Nat.add_assoc]
  | atom ha _ ih =>
    intro og position
    rw [List.append_assoc, assembleAt_atom (some og) ha, place, ih]
    simp [OpenGroup.add, Nat.add_assoc]

/-- Branches are read up to the closing brace, and end the open group. -/
theorem assembleAt_branches {t : Text} {bs : List (List Atom)} (h : SpellsBranches t bs) (u : Text) :
    ∀ (og : OpenGroup) (position : Nat), assembleAt (some og) position (t ++ .char '}' :: u) =
      (assembleAt none (position + t.length + 1) u).map
        (.group (og.branches.reverse ++ (og.branch.reverse ++ bs.headD []) :: bs.tail) :: ·) := by
  induction h with
  | last hb =>
    intro og position
    rw [assembleAt_branch hb (by simp [NoStar]), assembleAt_closeBrace]
    simp [OpenGroup.close]
  | @more t v b bs hb hbs ih =>
    intro og position
    obtain ⟨b', bs', rfl⟩ : ∃ b' bs', bs = b' :: bs' := by cases hbs <;> exact ⟨_, _, rfl⟩
    rw [List.append_assoc, List.cons_append, assembleAt_branch hb (by simp [NoStar]), assembleAt_comma, ih]
    have hp : position + t.length + 1 + v.length + 1 = position + (t ++ .char ',' :: v).length + 1 := by
      simp only [List.length_append, List.length_cons]; omega
    rw [hp]
    simp [OpenGroup.next]

/-- What a text writes is read. -/
theorem assembleAt_of_spells {t : Text} {g : Glob} (h : Spells t g) :
    ∀ position : Nat, assembleAt none position t = .ok g := by
  induction h with
  | nil => intro _; rfl
  | star n ht _ ih =>
    intro position
    rw [assembleAt_star _ _ n ht, place, ih]
    rfl
  | atom ha _ ih =>
    intro position
    rw [assembleAt_atom none ha, place, ih]
    rfl
  | @group u t bs g hbs _ ih =>
    intro position
    rw [List.cons_append, assembleAt_openBrace, assembleAt_branches hbs, ih]
    cases bs with
    | nil => cases hbs
    | cons b bs => rfl

/-- **Reading a pattern gives the glob that it writes.** -/
theorem parse?_eq_ok_iff {t : Text} {g : Glob} : parse? t = .ok g ↔ Spells t g := by
  constructor
  · intro h
    cases (continues_of_assembleAt h : Continues none t g) with
    | outside h => exact h
  · intro h
    exact assembleAt_of_spells h 0

end Glob
end DirWatch

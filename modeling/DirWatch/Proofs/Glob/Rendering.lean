import DirWatch.Glob.Pattern
import DirWatch.Proofs.Glob.Compilation
import DirWatch.Proofs.Glob.Grammar
import DirWatch.Proofs.Glob.Matching

/-!
# The regular expression of a glob

- the regular expression that a pattern is written as is read back as one that is built like the glob
  (`read?_regex`): escaping outside classes, escaping inside classes, braces and stars all survive;
- it takes what the glob matches (`matchesFront_expression`).

Reading stands on the members of the classes: a class that is written has a first member, no closing bracket behind it,
and all ranges in order (`CharClass.Ready`). The grammar gives the first two and the check of ranges the third.
-/

namespace DirWatch

/-! ## Classes that can be written -/

/-- Whether a member behind the first is escaped. -/
def Expression.isEscaped (s : Symbol) : Bool := s = .char '\\' || s = .char '['

namespace CharClass

open Expression (memberText isEscaped)

/-- A class that is closed has a first member, whatever it is, and no closing bracket behind it. -/
def Closed (c : CharClass) : Prop := ∃ s body, c.members = s :: body ∧ Symbol.char ']' ∉ body

/-- The members of a class are read back as they are. -/
structure Ready (c : CharClass) : Prop where
  members : ∃ s body, c.members = s :: body ∧ Symbol.char ']' ∉ body
  inOrder : ∀ i ∈ c.items, i.inOrder = true

/-- The members of a class as its regular expression has them, with the mark whether they are escaped. -/
def units (c : CharClass) : List (Symbol × Bool) :=
  match c.members with
  | [] => []
  | s :: body => (s, isEscaped s || s = .char '^') :: body.map fun s => (s, isEscaped s)

/-- The written form of a member that is read. -/
def Member.ofUnit (m : Symbol × Bool) : Member := ⟨m.1, memberText m⟩

theorem ofUnit_after (s : Symbol) : Member.ofUnit (s, isEscaped s) = memberAfter s := by
  by_cases hb : s = .char '\\'
  · subst hb
    rfl
  by_cases ho : s = .char '['
  · subst ho
    rfl
  simp [Member.ofUnit, memberText, memberAfter, isEscaped, hb, ho]

theorem ofUnit_first (s : Symbol) : Member.ofUnit (s, isEscaped s || s = .char '^') = memberFirst s := by
  by_cases hc : s = .char '^'
  · subst hc
    rfl
  · simpa [memberFirst, hc] using ofUnit_after s

/-- What is read is what is written. -/
theorem map_ofUnit_units (c : CharClass) : c.units.map Member.ofUnit = c.writtenMembers := by
  obtain ⟨negated, members⟩ := c
  cases members with
  | nil => rfl
  | cons s body =>
    have after : (body.map fun s => (s, isEscaped s)).map Member.ofUnit = body.map memberAfter := by
      rw [List.map_map]
      exact List.map_congr_left fun s _ => ofUnit_after s
    simp only [units, writtenMembers, List.map_cons, ofUnit_first, after]

theorem written_eq (c : CharClass) : c.written = c.opening ++ c.units.flatMap memberText ++ [.char ']'] := by
  have members : c.writtenMembers.flatMap (·.written) = c.units.flatMap memberText := by
    rw [← map_ofUnit_units, List.flatMap_map]
    rfl
  rw [written, members]
  rfl

/-- The members are those of the class. -/
theorem map_fst_units (c : CharClass) : c.units.map Prod.fst = c.members := by
  obtain ⟨negated, members⟩ := c
  cases members with
  | nil => rfl
  | cons s body => simp [units, Function.comp_def]

/-- The written members are the members. -/
theorem map_writtenMembers (c : CharClass) : c.writtenMembers.map Member.symbol = c.members := by
  rw [← map_ofUnit_units, List.map_map, ← map_fst_units]
  rfl

/-- A dash is not escaped. -/
theorem escaped_of_dash {c : CharClass} {m : Symbol × Bool} (hm : m ∈ c.units) (h : m.1 = dash) : m.2 = false := by
  obtain ⟨negated, members⟩ := c
  cases members with
  | nil => cases hm
  | cons s body =>
    rcases List.mem_cons.1 hm with rfl | hm
    · obtain rfl : s = dash := h
      rfl
    · obtain ⟨x, -, rfl⟩ := List.mem_map.1 hm
      obtain rfl : x = dash := h
      rfl

/-- No range is found in wrong order when every range is in order. -/
theorem firstBadRange_eq_none_iff {items : List (ClassItem Member)} : ∀ {offset : Nat},
    firstBadRange offset items = none ↔ ∀ i ∈ items, (i.map Member.symbol).inOrder = true := by
  induction items with
  | nil =>
    intro offset
    simp [firstBadRange]
  | cons i items ih =>
    intro offset
    rw [List.forall_mem_cons]
    cases i with
    | one x =>
      rw [firstBadRange, ih]
      exact ⟨fun h => ⟨rfl, h⟩, fun h => h.2⟩
    | range x y =>
      have ordered : ((ClassItem.range x y).map Member.symbol).inOrder = true ↔ ¬ y.symbol.code < x.symbol.code := by
        simp [ClassItem.map, ClassItem.inOrder]
      rw [firstBadRange, ordered]
      split
      · rename_i descends
        constructor
        · intro h
          cases h
        · intro h
          exact absurd descends h.1
      · rename_i ascends
        rw [ih]
        exact ⟨fun h => ⟨ascends, h⟩, fun h => h.2⟩

/-- A class has no range in wrong order when all its ranges are in order. -/
theorem badRange_eq_none_iff {c : CharClass} : c.badRange? = none ↔ ∀ i ∈ c.items, i.inOrder = true := by
  have paired : (ClassItem.pairUp (·.symbol = dash) c.writtenMembers).map (ClassItem.map Member.symbol) = c.items := by
    rw [ClassItem.map_pairUp (q := (· = dash)) fun _ _ => rfl, map_writtenMembers, items]
  rw [← paired, badRange?, firstBadRange_eq_none_iff, List.forall_mem_map]

end CharClass

namespace Expression

/-! ## Lexemes of what is written -/

/-- An escaped symbol is read as a literal. -/
theorem lexemesFrom_escapeSymbol (s : Symbol) (t : Text) :
    lexemesFrom .plain (Glob.escapeSymbol s ++ t) = .literal s :: lexemesFrom .plain t := by
  have bare : (∀ c ∈ Glob.escapedChars, s ≠ .char c) → lexPlain s = ([.literal s], .plain) := by
    intro h
    unfold lexPlain
    split
    all_goals first | rfl | exact absurd rfl (h _ (by decide))
  have escaped (c : Char) (hc : c ∈ Glob.escapedChars) : isWord (.char c) = false ∧ c ≠ 'Z' := by
    have all : (Glob.escapedChars.all fun c => !isWord (.char c) && c != 'Z') = true := by decide
    simpa using List.all_eq_true.1 all c hc
  cases s with
  | stray b => rfl
  | char c =>
    by_cases hc : c ∈ Glob.escapedChars
    · obtain ⟨hw, hz⟩ := escaped c hc
      simp [Glob.escapeSymbol, hc, lexemesFrom, lexSymbol, lexPlain, hw, hz]
    · have hb := bare fun d hd e => hc (by rw [Symbol.char.inj e]; exact hd)
      simp [Glob.escapeSymbol, hc, lexemesFrom, lexSymbol, hb]

theorem silent_memberAfter {s : Symbol} (hs : s ≠ .char ']') (negated : Bool) (reversed : List (Symbol × Bool)) :
    Silent (.classMembers negated reversed) (memberText (s, isEscaped s))
      (.classMembers negated ((s, isEscaped s) :: reversed)) := by
  by_cases hb : s = .char '\\'
  · subst hb
    exact .cons rfl (.cons rfl (.nil _))
  by_cases ho : s = .char '['
  · subst ho
    exact .cons rfl (.cons rfl (.nil _))
  have bare : isEscaped s = false := by simp [isEscaped, hb, ho]
  rw [bare]
  exact .cons (by simp [lexSymbol, hs, hb]) (.nil _)

/-- The members of a class are read one after another. -/
theorem silent_membersAfter {body : Text} (hb : .char ']' ∉ body) (negated : Bool) :
    ∀ reversed : List (Symbol × Bool),
      Silent (.classMembers negated reversed) ((body.map fun s => (s, isEscaped s)).flatMap memberText)
        (.classMembers negated ((body.map fun s => (s, isEscaped s)).reverse ++ reversed)) := by
  induction body with
  | nil => exact fun reversed => .nil _
  | cons s body ih =>
    intro reversed
    simp only [List.mem_cons, not_or] at hb
    have rest := ih hb.2 ((s, isEscaped s) :: reversed)
    have all := (silent_memberAfter (fun e => hb.1 e.symm) negated reversed).append rest
    simpa using all

/-- The first member is read whatever it is. -/
theorem silent_memberFirst (s : Symbol) (negated : Bool) :
    Silent (if negated then .classNegated else .classOpen) (memberText (s, isEscaped s || s = .char '^'))
      (.classMembers negated [(s, isEscaped s || s = .char '^')]) := by
  by_cases hc : s = .char '^'
  · subst hc
    cases negated <;> exact .cons rfl (.cons rfl (.nil _))
  by_cases hb : s = .char '\\'
  · subst hb
    cases negated <;> exact .cons rfl (.cons rfl (.nil _))
  by_cases ho : s = .char '['
  · subst ho
    cases negated <;> exact .cons rfl (.cons rfl (.nil _))
  have bare : (isEscaped s || decide (s = .char '^')) = false := by simp [isEscaped, hb, ho, hc]
  rw [bare]
  cases negated <;> exact .cons (by simp [lexSymbol, hb, hc]) (.nil _)

theorem silent_opening (c : CharClass) :
    Silent .plain c.opening (if c.negated then .classNegated else .classOpen) := by
  obtain ⟨negated, members⟩ := c
  cases negated with
  | false =>
    have opening : CharClass.opening ⟨false, members⟩ = [.char '['] := by simp [CharClass.opening, Text.ofString]
    rw [opening]
    exact .cons rfl (.nil _)
  | true =>
    have opening : CharClass.opening ⟨true, members⟩ = [.char '[', .char '^'] := by
      simp [CharClass.opening, Text.ofString]
    rw [opening]
    exact .cons rfl (.cons rfl (.nil _))

/-- A class is read up to its closing bracket. -/
theorem silent_class {c : CharClass} (h : c.Closed) :
    Silent .plain (c.opening ++ c.units.flatMap memberText) (.classMembers c.negated c.units.reverse) := by
  obtain ⟨negated, members⟩ := c
  obtain ⟨s, body, rfl, hb⟩ := h
  have read := (silent_opening ⟨negated, s :: body⟩).append
    ((silent_memberFirst s negated).append (silent_membersAfter hb negated _))
  simpa [CharClass.units] using read

/-- The members of a class are paired up as they are. -/
theorem classLexeme_units (c : CharClass) : classLexeme c.negated c.units =
    if c.items.all ClassItem.inOrder then .oneOf c.negated c.items else .malformed := by
  -- the marks of the members tell a dash that is a member from one that makes a range
  have dashes : ∀ m ∈ c.units, decide (m = (CharClass.dash, false)) = decide (m.1 = CharClass.dash) := by
    rintro ⟨s, escaped⟩ hm
    by_cases hd : s = CharClass.dash
    · obtain rfl : escaped = false := CharClass.escaped_of_dash hm hd
      simp [hd]
    · simp [hd]
  unfold classLexeme
  rw [ClassItem.map_pairUp (q := (· = CharClass.dash)) dashes, CharClass.map_fst_units]
  rfl

/-- A class is read with its members paired up as they are. -/
theorem lexemesFrom_class {c : CharClass} (hc : c.Ready) (t : Text) :
    lexemesFrom .plain (c.written ++ t) = .oneOf c.negated c.items :: lexemesFrom .plain t := by
  have paired : classLexeme c.negated c.units = .oneOf c.negated c.items := by
    rw [classLexeme_units]
    exact if_pos (List.all_eq_true.2 hc.inOrder)
  rw [CharClass.written_eq, List.append_assoc, (silent_class hc.members).lexemesFrom]
  simp only [List.singleton_append, lexemesFrom, lexSymbol, if_true, List.reverse_reverse, paired]

/-! ## What expressions take -/

theorem takes_seq {e f : Expression} {u v : Text} :
    (seq e f).Takes u v ↔ ∃ x y, u = x ++ y ∧ e.Takes x (y ++ v) ∧ f.Takes y v := by
  constructor
  · rintro (_ | _ | _ | _ | _ | _ | ⟨he, hf⟩)
    exact ⟨_, _, rfl, he, hf⟩
  · rintro ⟨x, y, rfl, he, hf⟩
    exact .seq he hf

theorem takes_empty {u v : Text} : Expression.empty.Takes u v ↔ u = [] := by
  constructor
  · rintro (_ | _)
    rfl
  · rintro rfl
    exact .empty v

theorem takes_endOfText {u v : Text} : endOfText.Takes u v ↔ u = [] ∧ v = [] := by
  constructor
  · intro h
    cases h
    exact ⟨rfl, rfl⟩
  · rintro ⟨rfl, rfl⟩
    exact .endOfText

/-- A dot that takes newlines, repeated, takes everything. -/
theorem takes_star_dot (v : Text) : ∀ u : Text, (star (dot true)).Takes u v
  | [] => .enough _ v
  | s :: u => .again (u := [s]) (.dot (Or.inl rfl) _) (takes_star_dot v u)

theorem takes_choice {u v : Text} : ∀ {es : List Expression}, es ≠ [] →
    ((choice es).Takes u v ↔ ∃ e ∈ es, e.Takes u v)
  | [], h => absurd rfl h
  | [e], _ => by simp [choice]
  | e :: f :: es, _ => by
    have ih := takes_choice (u := u) (v := v) (List.cons_ne_nil f es)
    rw [show choice (e :: f :: es) = .alt e (choice (f :: es)) from rfl]
    constructor
    · rintro (_ | _ | _ | _ | _ | _ | _ | ⟨h, _⟩ | ⟨_, h⟩)
      · exact ⟨e, List.mem_cons_self, h⟩
      · obtain ⟨e', he', h⟩ := ih.1 h
        exact ⟨e', List.mem_cons_of_mem _ he', h⟩
    · rintro ⟨e', he', h⟩
      rcases List.mem_cons.1 he' with rfl | he'
      · exact .left h _
      · exact .right _ (ih.2 ⟨e', he', h⟩)

end Expression

namespace Glob

/-! ## Expressions built like globs -/

/-- The expression of an atom. -/
def Atom.expression : Atom → Expression
  | .star => .star (.dot true)
  | .any => .dot true
  | .exactly s => .exactly s
  | .oneOf c => .oneOf c.negated c.items

/-- The expression of a branch. -/
def branchExpression (b : List Atom) : Expression := .sequence (b.map Atom.expression)

/-- The expression of an item. -/
def Item.expression : Item → Expression
  | .atom a => a.expression
  | .group bs => .choice (bs.map branchExpression)

/-- The expression of a glob, which ends where the text ends. -/
def expression (g : Glob) : Expression := .sequence [.sequence (g.map Item.expression), .endOfText]

/-- An atom's expression takes what the atom matches. -/
theorem Atom.takes_expression (a : Atom) (u v : Text) : a.expression.Takes u v ↔ a.Matches u := by
  cases a with
  | star => exact ⟨fun _ => trivial, fun _ => Expression.takes_star_dot v u⟩
  | any =>
    constructor
    · rintro (_ | _)
      exact ⟨_, rfl⟩
    · rintro ⟨s, rfl⟩
      exact .dot (Or.inl rfl) v
  | exactly s =>
    constructor
    · rintro (_ | _ | _)
      rfl
    · rintro rfl
      exact .exactly s v
  | oneOf c =>
    have holds (s : Symbol) : (c.negated = false ↔ ∃ i ∈ c.items, i.Holds s) ↔ c.Means s := by
      have listed : (∃ i ∈ c.items, i.Holds s) ↔ CharClass.Lists c.members s := by
        rw [← CharClass.any_pairUp_iff_lists, List.any_eq_true]
        refine exists_congr fun i => and_congr_right fun _ => ?_
        cases i <;> simp [ClassItem.Holds, ClassItem.accepts]
      rw [listed]
      unfold CharClass.Means
      cases c.negated <;> simp
    constructor
    · rintro (_ | _ | _ | h)
      exact ⟨_, rfl, (holds _).1 h⟩
    · rintro ⟨s, rfl, h⟩
      exact .oneOf ((holds s).2 h) v

/-- A branch's expression takes what the branch matches. -/
theorem takes_branchExpression : ∀ (b : List Atom) (u v : Text), (branchExpression b).Takes u v ↔ BranchMatches b u
  | [], _, _ => Expression.takes_empty
  | a :: b, u, v => by
    have ih := takes_branchExpression b
    simp only [branchExpression] at ih
    simp only [branchExpression, List.map_cons, Expression.sequence, Expression.takes_seq, Atom.takes_expression, ih,
      BranchMatches]

/-- Groups have branches. -/
def Item.HasBranches : Item → Prop
  | .atom _ => True
  | .group bs => bs ≠ []

theorem Item.takes_expression {i : Item} (hi : i.HasBranches) (u v : Text) : i.expression.Takes u v ↔ i.Matches u := by
  cases i with
  | atom a => exact a.takes_expression u v
  | group bs =>
    have hne : bs.map branchExpression ≠ [] := fun e => hi (List.map_eq_nil_iff.1 e)
    rw [Item.expression, Expression.takes_choice hne]
    constructor
    · rintro ⟨_, he, h⟩
      obtain ⟨b, hb, rfl⟩ := List.mem_map.1 he
      exact ⟨b, hb, (takes_branchExpression b u v).1 h⟩
    · rintro ⟨b, hb, h⟩
      exact ⟨_, List.mem_map_of_mem hb, (takes_branchExpression b u v).2 h⟩

theorem takes_sequence : ∀ {g : Glob}, (∀ i ∈ g, i.HasBranches) → ∀ u v : Text,
    (Expression.sequence (g.map Item.expression)).Takes u v ↔ g.Matches u
  | [], _, _, _ => Expression.takes_empty
  | i :: g, h, u, v => by
    have ih := takes_sequence fun j hj => h j (List.mem_cons_of_mem _ hj)
    simp only [List.map_cons, Expression.sequence, Expression.takes_seq, Item.takes_expression (h i List.mem_cons_self),
      ih, Matches]

/-- **A glob's expression matches from the front what the glob matches as a whole.** -/
theorem matchesFront_expression {g : Glob} (h : ∀ i ∈ g, i.HasBranches) (t : Text) :
    g.expression.MatchesFront t ↔ g.Matches t := by
  simp only [Expression.MatchesFront, expression, Expression.sequence, Expression.takes_seq, takes_sequence h,
    Expression.takes_endOfText, Expression.takes_empty]
  constructor
  · rintro ⟨_, v, rfl, x, _, rfl, hx, _, _, rfl, ⟨rfl, hv⟩, rfl⟩
    obtain rfl : v = [] := by simpa using hv
    simpa using hx
  · intro ht
    exact ⟨t, [], by simp, t, [], by simp, ht, [], [], rfl, ⟨rfl, rfl⟩, rfl⟩

/-! ## Reading what is written -/

/-- The classes of an atom can be written. -/
def Atom.Ready : Atom → Prop
  | .oneOf c => c.Ready
  | _ => True

/-- The classes of an item can be written. -/
def Item.Ready : Item → Prop
  | .atom a => a.Ready
  | .group bs => ∀ b ∈ bs, ∀ a ∈ b, a.Ready

open Expression (Frame build lexemesFrom)

/-- The expression of a text that is read inside a group and the groups around it. -/
def buildAt (f : Frame) (outer : List Frame) (t : Text) : Option Expression := build f outer (lexemesFrom .plain t)

theorem buildAt_bar (f : Frame) (outer : List Frame) (t : Text) :
    buildAt f outer (.char '|' :: t) = buildAt f.next outer t := by
  cases outer <;> rfl

theorem buildAt_close (f g : Frame) (outer : List Frame) (t : Text) :
    buildAt f (g :: outer) (.char ')' :: t) = buildAt (g.push f.close) outer t := rfl

theorem buildAt_open (f : Frame) (outer : List Frame) (t : Text) :
    buildAt f outer (.char '(' :: .char '?' :: .char ':' :: t) =
      buildAt ⟨f.newline || false, [], []⟩ (f :: outer) t := by
  cases outer <;> rfl

theorem buildAt_openDotAll (f : Frame) (outer : List Frame) (t : Text) :
    buildAt f outer (.char '(' :: .char '?' :: .char 's' :: .char ':' :: t) =
      buildAt ⟨f.newline || true, [], []⟩ (f :: outer) t := by
  cases outer <;> rfl

theorem buildAt_end (f : Frame) : buildAt f [] [.char '\\', .char 'Z'] = some (f.push .endOfText).close := rfl

/-- An atom is read as a piece of the branch at hand. -/
theorem buildAt_atom {a : Atom} (ha : a.Ready) {f : Frame} (hf : f.newline = true) (outer : List Frame) (t : Text) :
    buildAt f outer (a.fragment.written ++ t) = buildAt (f.push a.expression) outer t := by
  unfold buildAt
  cases a with
  | star =>
    simp [Atom.fragment, Fragment.written, Text.ofString, lexemesFrom, Expression.lexSymbol, Expression.lexPlain, build,
      Frame.push, Frame.repeatLast?, hf, Atom.expression]
  | any =>
    simp [Atom.fragment, Fragment.written, Text.ofString, lexemesFrom, Expression.lexSymbol, Expression.lexPlain, build,
      hf, Atom.expression]
  | exactly s =>
    rw [Atom.fragment, Fragment.written, Expression.lexemesFrom_escapeSymbol]
    simp only [build, Atom.expression]
  | oneOf c =>
    rw [Atom.fragment, Fragment.written, Expression.lexemesFrom_class ha]
    simp only [build, Atom.expression]

/-- A branch is read as pieces of the branch at hand. -/
theorem buildAt_branch {b : List Atom} (hb : ∀ a ∈ b, a.Ready) (outer : List Frame) (t : Text) :
    ∀ {f : Frame}, f.newline = true → buildAt f outer ((b.map Atom.fragment).flatMap Fragment.written ++ t) =
      buildAt { f with pieces := (b.map Atom.expression).reverse ++ f.pieces } outer t := by
  induction b with
  | nil => intro f _; rfl
  | cons a b ih =>
    intro f hf
    rw [List.map_cons, List.flatMap_cons, List.append_assoc, buildAt_atom (hb a List.mem_cons_self) hf,
      ih (fun a' ha' => hb a' (List.mem_cons_of_mem _ ha')) (f := f.push a.expression) hf]
    simp [Frame.push]

/-- The branches of a group are read up to its closing bracket, and end the group. -/
theorem buildAt_branches : ∀ {bs : List (List Atom)}, bs ≠ [] → (∀ b ∈ bs, ∀ a ∈ b, a.Ready) →
    ∀ {f : Frame}, f.newline = true → f.pieces = [] → ∀ (g : Frame) (outer : List Frame) (t : Text),
      buildAt f (g :: outer) ((branchFragments bs).flatMap Fragment.written ++ .char ')' :: t) =
        buildAt (g.push (.choice (f.branches.reverse ++ bs.map branchExpression))) outer t
  | [], h, _, _, _, _, _, _, _ => absurd rfl h
  | [b], _, hbs, f, hf, hp, g, outer, t => by
    rw [branchFragments, buildAt_branch (hbs b List.mem_cons_self) _ _ hf, buildAt_close]
    simp [Frame.close, hp, branchExpression]
  | b :: b' :: bs, _, hbs, f, hf, hp, g, outer, t => by
    have rest : ((Fragment.text "|" :: branchFragments (b' :: bs)).flatMap Fragment.written) ++ .char ')' :: t =
        .char '|' :: ((branchFragments (b' :: bs)).flatMap Fragment.written ++ .char ')' :: t) := rfl
    have read := buildAt_branches (List.cons_ne_nil b' bs) (fun c hc => hbs c (List.mem_cons_of_mem _ hc))
      (f := Frame.next { f with pieces := (b.map Atom.expression).reverse ++ f.pieces }) hf rfl g outer t
    rw [branchFragments, List.flatMap_append, List.append_assoc, rest,
      buildAt_branch (hbs b List.mem_cons_self) _ _ hf, buildAt_bar, read]
    · simp [Frame.next, hp, branchExpression]
    · simp

/-- An item is read as a piece of the branch at hand. -/
theorem buildAt_item {i : Item} (hi : i.HasBranches) (hr : i.Ready) {f : Frame} (hf : f.newline = true)
    (outer : List Frame) (t : Text) :
    buildAt f outer (i.fragments.flatMap Fragment.written ++ t) = buildAt (f.push i.expression) outer t := by
  cases i with
  | atom a =>
    simp only [Item.fragments, List.flatMap_cons, List.flatMap_nil, List.append_nil]
    exact buildAt_atom hr hf outer t
  | group bs =>
    have h := buildAt_branches hi hr (f := ⟨f.newline || false, [], []⟩) (by simp [hf]) rfl f outer t
    rw [← buildAt_open] at h
    simpa [Item.fragments, Item.expression, Fragment.written, Text.ofString, List.flatMap_append] using h

/-- The items of a glob are read as pieces. -/
theorem buildAt_items {g : Glob} (hg : ∀ i ∈ g, i.HasBranches ∧ i.Ready) (outer : List Frame) (t : Text) :
    ∀ {f : Frame}, f.newline = true → buildAt f outer ((g.flatMap Item.fragments).flatMap Fragment.written ++ t) =
      buildAt { f with pieces := (g.map Item.expression).reverse ++ f.pieces } outer t := by
  induction g with
  | nil => intro f _; rfl
  | cons i g ih =>
    intro f hf
    obtain ⟨hi, hr⟩ := hg i List.mem_cons_self
    rw [List.flatMap_cons, List.flatMap_append, List.append_assoc, buildAt_item hi hr hf,
      ih (fun j hj => hg j (List.mem_cons_of_mem _ hj)) (f := f.push i.expression) hf]
    simp [Frame.push]

/-- **The regular expression of a glob is read back as the expression of the glob.** -/
theorem read?_regex {g : Glob} (hg : ∀ i ∈ g, i.HasBranches ∧ i.Ready) :
    Expression.read? g.regex = some g.expression := by
  have written : g.regex = .char '(' :: .char '?' :: .char 's' :: .char ':' ::
      ((g.flatMap Item.fragments).flatMap Fragment.written ++ .char ')' :: [.char '\\', .char 'Z']) := by
    simp [regex, fragments, Fragment.written, Text.ofString, List.flatMap_append]
  show buildAt ⟨false, [], []⟩ [] g.regex = _
  rw [written, buildAt_openDotAll, buildAt_items hg, buildAt_close, buildAt_end]
  · simp [Frame.push, Frame.close, Expression.choice, expression]
  · rfl

/-! ## Classes of globs -/

/-- The classes of an atom. -/
def Atom.classes : Atom → List CharClass
  | .oneOf c => [c]
  | _ => []

/-- The classes of an item. -/
def Item.classes : Item → List CharClass
  | .atom a => a.classes
  | .group bs => bs.flatten.flatMap Atom.classes

/-- The classes of a glob, from left to right. -/
def classes (g : Glob) : List CharClass := g.flatMap Item.classes

theorem oneOf_eq_fragment_iff {a : Atom} {c : CharClass} : Fragment.oneOf c = a.fragment ↔ c ∈ a.classes := by
  cases a <;> simp [Atom.fragment, Atom.classes]

theorem oneOf_mem_map_fragment {b : List Atom} {c : CharClass} :
    Fragment.oneOf c ∈ b.map Atom.fragment ↔ c ∈ b.flatMap Atom.classes := by
  rw [List.mem_map, List.mem_flatMap]
  refine exists_congr fun a => and_congr_right fun _ => ?_
  rw [eq_comm, oneOf_eq_fragment_iff]

theorem oneOf_mem_branchFragments {c : CharClass} : ∀ {bs : List (List Atom)},
    Fragment.oneOf c ∈ branchFragments bs ↔ c ∈ bs.flatten.flatMap Atom.classes
  | [] => by simp [branchFragments]
  | [b] => by
    rw [branchFragments, oneOf_mem_map_fragment, List.flatten_singleton]
  | b :: b' :: bs => by
    have ih : .oneOf c ∈ branchFragments (b' :: bs) ↔ c ∈ (b' :: bs).flatten.flatMap Atom.classes :=
      oneOf_mem_branchFragments
    rw [branchFragments, List.mem_append, oneOf_mem_map_fragment, List.flatten_cons, List.flatMap_append,
      List.mem_append, ← ih]
    · simp
    · simp

/-- The classes that a glob's regular expression writes are those of the glob. -/
theorem oneOf_mem_fragments {g : Glob} {c : CharClass} : Fragment.oneOf c ∈ g.fragments ↔ c ∈ g.classes := by
  have item (i : Item) : Fragment.oneOf c ∈ i.fragments ↔ c ∈ i.classes := by
    cases i with
    | atom a => rw [Item.fragments, List.mem_singleton, oneOf_eq_fragment_iff, Item.classes]
    | group bs => simpa [Item.fragments, Item.classes] using oneOf_mem_branchFragments
  simp [fragments, classes, item]

/-! ## Patterns that are read can be written -/

/-- No class among some fragments has a range in wrong order. -/
def NoBadRange (fs : List Fragment) : Prop := ∀ c, .oneOf c ∈ fs → c.badRange? = none

theorem noBadRange_of_firstBadRange {fs : List Fragment} : ∀ {position : Nat},
    firstBadRange position fs = none → NoBadRange fs := by
  induction fs with
  | nil => intro _ _ c hc; cases hc
  | cons f fs ih =>
    intro position h c hc
    cases f with
    | text t =>
      rw [firstBadRange] at h
      rcases List.mem_cons.1 hc with hc | hc
      · cases hc
      · exact ih h c hc
    | oneOf d =>
      rw [firstBadRange] at h
      cases hd : d.badRange? with
      | some r => rw [hd] at h; cases h
      | none =>
        rw [hd] at h
        rcases List.mem_cons.1 hc with hc | hc
        · cases hc; exact hd
        · exact ih h c hc

theorem SpellsAtom.closed {inside : Bool} {u : Text} {a : Atom} (h : SpellsAtom inside u a) :
    ∀ c ∈ a.classes, c.Closed := by
  intro c hc
  cases h with
  | any => cases hc
  | escaped s => cases hc
  | literal _ _ => cases hc
  | oneOf hs hb =>
    rw [List.mem_singleton.1 hc]
    exact ⟨_, _, rfl, hb⟩
  | noneOf hb =>
    rw [List.mem_singleton.1 hc]
    exact ⟨_, _, rfl, hb⟩

theorem SpellsBranch.closed {t : Text} {b : List Atom} (h : SpellsBranch t b) :
    ∀ c ∈ b.flatMap Atom.classes, c.Closed := by
  induction h with
  | nil =>
    intro c hc
    cases hc
  | star n ht hb ih => exact ih
  | atom hu hb ih =>
    intro c hc
    rw [List.flatMap_cons, List.mem_append] at hc
    exact hc.elim (hu.closed c) (ih c)

theorem SpellsBranches.closed {t : Text} {bs : List (List Atom)} (h : SpellsBranches t bs) :
    bs ≠ [] ∧ ∀ c ∈ bs.flatten.flatMap Atom.classes, c.Closed := by
  induction h with
  | last hb =>
    refine ⟨by simp, ?_⟩
    rw [List.flatten_singleton]
    exact hb.closed
  | more hb hbs ih =>
    refine ⟨by simp, fun c hc => ?_⟩
    rw [List.flatten_cons, List.flatMap_append, List.mem_append] at hc
    exact hc.elim (hb.closed c) (ih.2 c)

/-- In a glob that was read groups have branches and classes are closed. -/
theorem Spells.closed {t : Text} {g : Glob} (h : Spells t g) :
    (∀ i ∈ g, i.HasBranches) ∧ ∀ c ∈ g.classes, c.Closed := by
  induction h with
  | nil => exact ⟨by simp, by simp [classes]⟩
  | star n ht hg ih => exact ⟨List.forall_mem_cons.2 ⟨trivial, ih.1⟩, ih.2⟩
  | atom hu hg ih =>
    refine ⟨List.forall_mem_cons.2 ⟨trivial, ih.1⟩, fun c hc => ?_⟩
    rw [classes, List.flatMap_cons, List.mem_append] at hc
    exact hc.elim (hu.closed c) (ih.2 c)
  | group hbs hg ih =>
    refine ⟨List.forall_mem_cons.2 ⟨hbs.closed.1, ih.1⟩, fun c hc => ?_⟩
    rw [classes, List.flatMap_cons, List.mem_append] at hc
    exact hc.elim (hbs.closed.2 c) (ih.2 c)

/-- A glob can be written when its classes can. -/
theorem ready_of_classes {g : Glob} (branches : ∀ i ∈ g, i.HasBranches) (h : ∀ c ∈ g.classes, c.Ready) :
    ∀ i ∈ g, i.HasBranches ∧ i.Ready := by
  have atom (a : Atom) (ha : ∀ c ∈ a.classes, c.Ready) : a.Ready := by
    cases a with
    | oneOf c => exact ha c List.mem_cons_self
    | _ => trivial
  intro i hi
  refine ⟨branches i hi, ?_⟩
  have own : ∀ c ∈ i.classes, c.Ready := fun c hc => h c (List.mem_flatMap.2 ⟨i, hi, hc⟩)
  cases i with
  | atom a => exact atom a own
  | group bs =>
    exact fun b hb a ha => atom a fun c hc =>
      own c (List.mem_flatMap.2 ⟨a, List.mem_flatten.2 ⟨b, hb, ha⟩, hc⟩)

/-- A pattern is accepted when it writes a glob with all ranges in order. -/
theorem read?_eq_ok_iff {t : Text} {g : Glob} : read? t = .ok g ↔ Spells t g ∧ g.rangeError? = none := by
  rw [← parse?_eq_ok_iff]
  unfold read?
  cases hp : parse? t with
  | error e =>
    constructor
    · intro h; cases h
    · rintro ⟨h, _⟩; cases h
  | ok g' =>
    dsimp only [bind, Except.bind]
    constructor
    · intro h
      cases he : g'.rangeError? with
      | some e => rw [he] at h; cases h
      | none => rw [he] at h; cases h; exact ⟨rfl, he⟩
    · rintro ⟨h, he⟩
      cases h
      rw [he]

end Glob

/-- The glob of a pattern can be written. -/
theorem Pattern.ready (p : Pattern) : ∀ i ∈ p.glob, i.HasBranches ∧ i.Ready := by
  obtain ⟨spells, ranges⟩ := Glob.read?_eq_ok_iff.1 p.reads
  have ordered := Glob.noBadRange_of_firstBadRange (Option.map_eq_none_iff.1 ranges)
  refine Glob.ready_of_classes spells.closed.1 fun c hc => ⟨spells.closed.2 c hc, ?_⟩
  exact CharClass.badRange_eq_none_iff.1 (ordered c (Glob.oneOf_mem_fragments.2 hc))

end DirWatch

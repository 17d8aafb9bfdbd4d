import DirWatch.Proofs.Glob.Grammar

/-!
# Patterns and the first fault of a text that is none

A pattern is a sequence of items, said by the symbols of the items alone (`IsPattern`). A text that is no pattern has a
first fault: items from left to right lead to a place where no item stands (`FirstFault`).

- **Reading** takes every pattern, and fails on any other text with its first fault (`reads_patterns_only`).
- **A leading exclamation mark** is not left to choice: it negates, so with nothing between it and the closing bracket
  the class is not closed (`bracketed_unread`).

Faults do not hang on the glob that is read, only on whether a group is open. So what reading fails with is followed
item by item (`faultAt_scanned`), and every text is a pattern or has a fault, by its beginnings
(`isPattern_or_fault`).
-/

namespace DirWatch
namespace Glob

/-! ## Patterns -/

/-- Brackets around a symbol, which may be any, and symbols that do not close them. An exclamation mark may come
first. -/
inductive IsBracketed : Text → Prop
  | oneOf {s : Symbol} {body : Text} (hb : .char ']' ∉ body) : IsBracketed (.char '[' :: s :: body ++ [.char ']'])
  | noneOf {s : Symbol} {body : Text} (hb : .char ']' ∉ body) :
      IsBracketed (.char '[' :: .char '!' :: s :: body ++ [.char ']'])

/-- A class. The exclamation mark is never its first member: right behind the bracket it is the negation. -/
inductive IsClass : Text → Prop
  | oneOf {s : Symbol} {body : Text} (hs : s ≠ .char '!') (hb : .char ']' ∉ body) :
      IsClass (.char '[' :: s :: body ++ [.char ']'])
  | noneOf {s : Symbol} {body : Text} (hb : .char ']' ∉ body) :
      IsClass (.char '[' :: .char '!' :: s :: body ++ [.char ']'])

/-- An item that may also stand inside braces, by what the classes are. A comma is one of the literals here, whatever it
means. -/
inductive IsPart (Class : Text → Prop) : Text → Prop
  | escape (s : Symbol) : IsPart Class [.char '\\', s]
  | star (n : Nat) : IsPart Class (stars n)
  | any : IsPart Class [.char '?']
  | classOf {t : Text} (h : Class t) : IsPart Class t
  | literal {s : Symbol} (hs : s ∉ signs) : IsPart Class [s]

/-- An item: a part, or parts in braces. -/
inductive IsItem (Class : Text → Prop) : Text → Prop
  | part {t : Text} (h : IsPart Class t) : IsItem Class t
  | group {parts : List Text} (h : ∀ p ∈ parts, IsPart Class p) :
      IsItem Class (.char '{' :: parts.flatten ++ [.char '}'])

/-- A pattern is a sequence of items. -/
def IsPattern (Class : Text → Prop) (t : Text) : Prop :=
  ∃ items : List Text, (∀ i ∈ items, IsItem Class i) ∧ t = items.flatten

/-! ## Faults -/

/-- What was scanned when every item was whole so far, outside braces or behind an open one. -/
inductive Scanned : Bool → Text → Prop
  | outside {t : Text} (h : IsPattern IsClass t) : Scanned false t
  | inside {t : Text} {parts : List Text} (h : IsPattern IsClass t) (hp : ∀ p ∈ parts, IsPart IsClass p) :
      Scanned true (t ++ .char '{' :: parts.flatten)

/-- What is wrong with a text that goes on from a position, outside braces or inside. -/
inductive Offends (position : Nat) : Bool → Text → SyntaxError → Prop
  | unclosedClass {inside : Bool} {t : Text} (h : ∀ c rest, IsClass c → .char '[' :: t ≠ c ++ rest) :
      Offends position inside (.char '[' :: t) (.unclosedClass position)
  | nested (t : Text) : Offends position true (.char '{' :: t) (.nestedAlternation position)
  | unopened (t : Text) : Offends position false (.char '}' :: t) (.unopenedAlternation position)
  | dangling (inside : Bool) : Offends position inside [.char '\\'] .danglingEscape
  | unclosed : Offends position true [] .unclosedAlternation

/-- The first fault of a text: whole items lead to it. -/
def FirstFault (t : Text) (e : SyntaxError) : Prop :=
  ∃ inside front back, t = front ++ back ∧ Scanned inside front ∧ Offends front.length inside back e

/-! ## What scanning passes -/

theorem IsPattern.nil {Class : Text → Prop} : IsPattern Class [] := ⟨[], by simp, rfl⟩

theorem IsPattern.item {Class : Text → Prop} {t u : Text} (h : IsPattern Class t) (hu : IsItem Class u) :
    IsPattern Class (t ++ u) := by
  obtain ⟨items, hi, rfl⟩ := h
  refine ⟨items ++ [u], fun i hm => ?_, by simp⟩
  rcases List.mem_append.1 hm with hm | hm
  · exact hi i hm
  · rw [List.mem_singleton.1 hm]
    exact hu

/-- A part more. -/
theorem Scanned.part {inside : Bool} {t u : Text} (h : Scanned inside t) (hu : IsPart IsClass u) :
    Scanned inside (t ++ u) := by
  cases h with
  | outside h => exact .outside (h.item (.part hu))
  | @inside t parts h hp =>
    have more : ∀ p ∈ parts ++ [u], IsPart IsClass p := by
      intro p hm
      rcases List.mem_append.1 hm with hm | hm
      · exact hp p hm
      · rw [List.mem_singleton.1 hm]
        exact hu
    simpa using Scanned.inside h more

/-- An opening brace. -/
theorem Scanned.opened {t : Text} (h : Scanned false t) : Scanned true (t ++ [.char '{']) := by
  cases h with
  | outside h => exact @Scanned.inside _ [] h (by simp)

/-- A closing brace. -/
theorem Scanned.closed {t : Text} (h : Scanned true t) : Scanned false (t ++ [.char '}']) := by
  cases h with
  | inside h hp => simpa using Scanned.outside (h.item (.group hp))

/-! ## Classes -/

/-- What the grammar calls an atom is a part. -/
theorem SpellsAtom.isPart {inside : Bool} {u : Text} {a : Atom} (h : SpellsAtom inside u a) :
    IsPart IsClass u := by
  cases h with
  | any => exact .any
  | escaped s => exact .escape s
  | literal hs _ => exact .literal hs
  | oneOf hs hb => exact .classOf (.oneOf hs hb)
  | noneOf hb => exact .classOf (.noneOf hb)

/-- A class is closed where it ends. -/
theorem not_isClass_of_unclosed {t : Text} (h : UnclosedClass t) {c rest : Text} (hc : IsClass c) :
    .char '[' :: t ≠ c ++ rest := by
  intro e
  cases hc with
  | @oneOf s body hs _ =>
    have e : t = s :: (body ++ .char ']' :: rest) := by simpa using e
    have closed : .char ']' ∈ body ++ .char ']' :: rest := by simp
    generalize body ++ .char ']' :: rest = u at e closed
    subst e
    cases h with
    | negation => exact hs rfl
    | members _ hb => exact hb closed
    | negated _ => exact hs rfl
  | @noneOf s body _ =>
    have e : t = .char '!' :: s :: (body ++ .char ']' :: rest) := by simpa using e
    have closed : .char ']' ∈ body ++ .char ']' :: rest := by simp
    generalize body ++ .char ']' :: rest = u at e closed
    subst e
    cases h with
    | members hs _ => exact hs rfl
    | negated hb => exact hb closed

/-- Behind a bracket with which no class begins stands an unclosed class. -/
theorem unclosed_of_not_isClass {t : Text} (h : ∀ c rest, IsClass c → .char '[' :: t ≠ c ++ rest) :
    UnclosedClass t := by
  have begun := begins_class t
  generalize e : Symbol.char '[' :: t = u at begun
  cases begun with
  | done => cases e
  | star n => cases e
  | @atom u a ha rest =>
    cases ha with
    | any => cases e
    | escaped s => cases e
    | literal hs =>
      cases e
      exact absurd (by decide) hs
    | oneOf hs hb => exact absurd e (h _ rest (.oneOf hs hb))
    | noneOf hb => exact absurd e (h _ rest (.noneOf hb))
  | comma => cases e
  | openBrace => cases e
  | closeBrace => cases e
  | loneEscape => cases e
  | unclosed hu =>
    cases e
    exact hu

/-! ## What reading fails with -/

/-- What reading fails with, if it does. -/
def faultOf? : Except SyntaxError Glob → Option SyntaxError
  | .ok _ => none
  | .error e => some e

theorem faultOf_map (r : Except SyntaxError Glob) (f : Glob → Glob) : faultOf? (r.map f) = faultOf? r := by
  cases r <;> rfl

theorem faultOf_eq_some_iff {r : Except SyntaxError Glob} {e : SyntaxError} : faultOf? r = some e ↔ r = .error e := by
  cases r <;> simp [faultOf?]

theorem faultOf_eq_none_iff {r : Except SyntaxError Glob} : faultOf? r = none ↔ ∃ g, r = .ok g := by
  cases r <;> simp [faultOf?]

/-- What was read into the open group does not matter to faults. -/
theorem faultOf_assemble_some (ts : List Token) (og og' : OpenGroup) :
    faultOf? (assemble (some og) ts) = faultOf? (assemble (some og') ts) := by
  induction ts generalizing og og' with
  | nil => rfl
  | cons t ts ih =>
    cases t with
    | closeBrace position => simp only [assemble, faultOf_map]
    | openBrace position => rfl
    | malformed e => rfl
    | _ => exact ih _ _

/-- What reading a text from a position fails with, outside braces or inside. -/
def faultAt (inside : Bool) (position : Nat) (t : Text) : Option SyntaxError :=
  faultOf? (assembleAt (if inside then some {} else none) position t)

/-- An atom is passed. -/
theorem faultOf_place {a : Atom} {inside : Bool} {position : Nat} {t : Text} :
    faultOf? (place a (if inside then some {} else none) (assembleAt · position t)) = faultAt inside position t := by
  cases inside with
  | false => exact faultOf_map _ _
  | true => exact faultOf_assemble_some _ _ _

theorem faultAt_atom {inside : Bool} {u : Text} {a : Atom} (h : SpellsAtom inside u a) (position : Nat) (t : Text) :
    faultAt inside position (u ++ t) = faultAt inside (position + u.length) t := by
  have spelt : SpellsAtom (if inside then some ({} : OpenGroup) else none).isSome u a := by
    cases inside <;> exact h
  rw [faultAt, assembleAt_atom _ spelt, faultOf_place]

/-- A run of stars is passed; it may be the front of a longer one. -/
theorem faultAt_stars (inside : Bool) (position n : Nat) (t : Text) :
    faultAt inside position (stars n ++ t) = faultAt inside (position + (stars n).length) t := by
  have run (position n : Nat) {u : Text} (hu : NoStar u) :
      faultAt inside position (stars n ++ u) = faultAt inside (position + (n + 1)) u := by
    rw [faultAt, assembleAt_star _ _ n hu, faultOf_place]
  obtain ⟨m, u, rfl, hu⟩ := exists_stars t
  have length : (stars n).length = n + 1 := List.length_replicate
  rw [length]
  cases m with
  | zero => exact run position n hu
  | succ m =>
    have joined : stars n ++ (List.replicate (m + 1) (.char '*') ++ u) = stars (n + (m + 1)) ++ u := by
      rw [stars, stars, ← List.append_assoc, List.replicate_append_replicate]
      congr 2
      omega
    rw [joined, run position _ hu, show List.replicate (m + 1) (Symbol.char '*') = stars m from rfl, run _ m hu]
    congr 1
    omega

theorem faultAt_comma (inside : Bool) (position : Nat) (t : Text) :
    faultAt inside position (.char ',' :: t) = faultAt inside (position + 1) t := by
  cases inside with
  | false => exact faultAt_atom (.literal (by decide) (by simp)) position t
  | true =>
    show faultOf? (assembleAt (some {}) position (.char ',' :: t)) = _
    rw [assembleAt_comma]
    exact faultOf_assemble_some _ _ _

/-- **A part is passed.** -/
theorem faultAt_part {u : Text} (h : IsPart IsClass u) (inside : Bool) (position : Nat) (t : Text) :
    faultAt inside position (u ++ t) = faultAt inside (position + u.length) t := by
  cases h with
  | escape s => exact faultAt_atom (.escaped s) position t
  | star n => exact faultAt_stars inside position n t
  | any => exact faultAt_atom .any position t
  | classOf h =>
    cases h with
    | oneOf hs hb => exact faultAt_atom (.oneOf hs hb) position t
    | noneOf hb => exact faultAt_atom (.noneOf hb) position t
  | @literal s hs =>
    by_cases hc : s = .char ','
    · subst hc
      exact faultAt_comma inside position t
    · exact faultAt_atom (.literal hs fun _ => hc) position t

theorem faultAt_parts {parts : List Text} (h : ∀ p ∈ parts, IsPart IsClass p) (inside : Bool) (position : Nat)
    (t : Text) : faultAt inside position (parts.flatten ++ t) = faultAt inside (position + parts.flatten.length) t := by
  induction parts generalizing position with
  | nil => rfl
  | cons p parts ih =>
    rw [List.flatten_cons, List.append_assoc, faultAt_part (h p (by simp)),
      ih fun q hq => h q (List.mem_cons_of_mem p hq), List.length_append, Nat.add_assoc]

theorem faultAt_openBrace (position : Nat) (t : Text) :
    faultAt false position (.char '{' :: t) = faultAt true (position + 1) t := rfl

theorem faultAt_closeBrace (position : Nat) (t : Text) :
    faultAt true position (.char '}' :: t) = faultAt false (position + 1) t := faultOf_map _ _

/-- **An item is passed.** -/
theorem faultAt_item {u : Text} (h : IsItem IsClass u) (position : Nat) (t : Text) :
    faultAt false position (u ++ t) = faultAt false (position + u.length) t := by
  cases h with
  | part h => exact faultAt_part h false position t
  | @group parts h =>
    rw [List.cons_append, List.cons_append, faultAt_openBrace, List.append_assoc, faultAt_parts h,
      List.singleton_append, faultAt_closeBrace]
    congr 1
    simp only [List.length_cons, List.length_append, List.length_nil]
    omega

theorem faultAt_pattern {u : Text} (h : IsPattern IsClass u) (position : Nat) (t : Text) :
    faultAt false position (u ++ t) = faultAt false (position + u.length) t := by
  obtain ⟨items, hi, rfl⟩ := h
  induction items generalizing position with
  | nil => rfl
  | cons i items ih =>
    rw [List.flatten_cons, List.append_assoc, faultAt_item (hi i (by simp)),
      ih _ fun j hj => hi j (List.mem_cons_of_mem i hj), List.length_append, Nat.add_assoc]

/-- **What was scanned is passed.** -/
theorem faultAt_scanned {inside : Bool} {front : Text} (h : Scanned inside front) (t : Text) :
    faultAt false 0 (front ++ t) = faultAt inside front.length t := by
  cases h with
  | outside h => rw [faultAt_pattern h, Nat.zero_add]
  | inside h hp =>
    rw [List.append_assoc, faultAt_pattern h, List.cons_append, faultAt_openBrace, faultAt_parts hp]
    congr 1
    simp only [List.length_cons, List.length_append]
    omega

/-- Where no item stands reading fails. -/
theorem faultAt_of_offends {position : Nat} {inside : Bool} {t : Text} {e : SyntaxError}
    (h : Offends position inside t e) : faultAt inside position t = some e := by
  cases h with
  | unclosedClass h =>
    rw [faultAt, assembleAt_unclosed _ position (unclosed_of_not_isClass h)]
    rfl
  | nested t => rfl
  | unopened t => rfl
  | dangling inside =>
    rw [faultAt, assembleAt_loneEscape]
    rfl
  | unclosed => rfl

/-! ## Every text is a pattern or has a fault -/

/-- What was scanned goes on to the end of the text, or to a fault. -/
theorem Scanned.ends {inside : Bool} {front : Text} (h : Scanned inside front) (back : Text) :
    IsPattern IsClass (front ++ back) ∨ ∃ e, FirstFault (front ++ back) e := by
  induction hn : back.length using Nat.strongRecOn generalizing inside front back with
  | ind n ih =>
    subst hn
    have fault {e : SyntaxError} (offends : Offends front.length inside back e) :
        IsPattern IsClass (front ++ back) ∨ ∃ e, FirstFault (front ++ back) e :=
      Or.inr ⟨e, inside, front, back, rfl, h, offends⟩
    have further {inside : Bool} {u t : Text} (e : u ++ t = back) (hu : 0 < u.length)
        (h : Scanned inside (front ++ u)) : IsPattern IsClass (front ++ back) ∨ ∃ e, FirstFault (front ++ back) e := by
      subst e
      rw [← List.append_assoc]
      exact ih _ (by simp only [List.length_append]; omega) h t rfl
    cases begins back with
    | done =>
      cases inside with
      | true => exact fault .unclosed
      | false =>
        cases h with
        | outside h => exact Or.inl (by simpa using h)
    | @star n t ht => exact further rfl (by simp [stars]) (h.part (.star n))
    | atom ha t => exact further rfl ha.length_pos (h.part ha.isPart)
    | comma t => exact further (u := [.char ',']) rfl (by simp) (h.part (.literal (by decide)))
    | openBrace t =>
      cases inside with
      | true => exact fault (.nested t)
      | false => exact further (u := [.char '{']) rfl (by simp) h.opened
    | closeBrace t =>
      cases inside with
      | true => exact further (u := [.char '}']) rfl (by simp) h.closed
      | false => exact fault (.unopened t)
    | loneEscape => exact fault (.dangling inside)
    | unclosed hu => exact fault (.unclosedClass fun c rest hc => not_isClass_of_unclosed hu hc)

/-- A text is a pattern or has a first fault. -/
theorem isPattern_or_fault (t : Text) : IsPattern IsClass t ∨ ∃ e, FirstFault t e :=
  (Scanned.outside .nil).ends t

theorem faultAt_of_isPattern {t : Text} (h : IsPattern IsClass t) : faultAt false 0 t = none := by
  have passed := faultAt_scanned (.outside h) []
  rwa [List.append_nil] at passed

theorem faultAt_of_firstFault {t : Text} {e : SyntaxError} (h : FirstFault t e) : faultAt false 0 t = some e := by
  obtain ⟨inside, front, back, rfl, scanned, offends⟩ := h
  rw [faultAt_scanned scanned, faultAt_of_offends offends]

/-- **Reading takes the patterns and no other text**, and fails on any other text with its first fault: the error of the
place to which whole items lead, with the position of that place where the error names one. -/
theorem reads_patterns_only (t : Text) :
    ((∃ g, parse? t = .ok g) ↔ IsPattern IsClass t) ∧ ∀ e, parse? t = .error e ↔ FirstFault t e := by
  have read : faultAt false 0 t = faultOf? (parse? t) := rfl
  refine ⟨?_, fun e => ?_⟩
  · rw [← faultOf_eq_none_iff, ← read]
    refine ⟨fun none => (isPattern_or_fault t).resolve_right ?_, faultAt_of_isPattern⟩
    rintro ⟨e, fault⟩
    rw [faultAt_of_firstFault fault] at none
    cases none
  · rw [← faultOf_eq_some_iff, ← read]
    refine ⟨fun some => ?_, faultAt_of_firstFault⟩
    rcases isPattern_or_fault t with pattern | ⟨e', fault⟩
    · rw [faultAt_of_isPattern pattern] at some
      cases some
    · rw [faultAt_of_firstFault fault] at some
      rwa [← Option.some.inj some]

/-- A lone exclamation mark in brackets is no class: it is the negation, and a first member is missing. -/
theorem bracketed_unread : IsPattern IsBracketed "[!]" ∧ parse? "[!]" = .error (.unclosedClass 0) := by
  have bracketed : IsBracketed "[!]" := @IsBracketed.oneOf (.char '!') [] (by simp)
  refine ⟨⟨["[!]"], fun i hi => ?_, rfl⟩, rfl⟩
  rw [List.mem_singleton.1 hi]
  exact .part (.classOf bracketed)

/-- A class may list a bracket and a brace, and a brace inside braces is found before the end that is missing. -/
example : parse? "[]\x7b]" = .ok [.atom (.oneOf ⟨false, [.char ']', .char '\x7b']⟩)] ∧
    parse? "a\\\x7b\x7bb,\x7bc" = .error (.nestedAlternation 6) := ⟨rfl, rfl⟩

end Glob
end DirWatch

import DirWatch.Proofs.Glob.Expression

/-!
# Faults of regular expressions

A text that is no expression has a first fault, in the order in which it is read. One kind of fault is told apart: a
range of a class with its ends in wrong order. It is reported with the ends as they are written and with the position
of the first of them.

- **Reading with faults** (`Expression.compile?`) gives the expression that the text writes, and a fault where it writes
  none (`toOption_compile`).
- **The first fault wins**: behind lexemes that may go on, a fault is what reading ends with, whatever comes later
  (`compileFrom_error`).
- Lexemes of a text do not hang on what comes behind it (`scanFrom_append`). The members of a class are read without
  completing any (`Silent`).
-/

namespace DirWatch
namespace Expression

/-! ## Faults -/

/-- Why a text is no expression. -/
inductive Fault where
  | badRange (low high : Text) (position : Nat)
  | other
  deriving DecidableEq, Repr

/-- How a member of a class is written: an escaped one with a backslash in front. -/
def memberText (m : Symbol × Bool) : Text := if m.2 then [.char '\\', m.1] else [m.1]

/-- A member of a class, with its position. -/
structure Placed where
  member : Symbol × Bool
  position : Nat
  deriving DecidableEq, Repr

/-- Members one behind the other, from a position on. -/
def placeFrom : Nat → List (Symbol × Bool) → List Placed
  | _, [] => []
  | position, m :: rest => ⟨m, position⟩ :: placeFrom (position + (memberText m).length) rest

/-- Whether a member is a dash that makes a range. -/
def Placed.isDash (m : Placed) : Bool := m.member = (CharClass.dash, false)

/-- Whether an item is a range with its ends in wrong order. -/
def descends : ClassItem Placed → Bool
  | .one _ => false
  | .range low high => high.member.1.code < low.member.1.code

/-- What is wrong with the members of a class that end at a position: their first range in wrong order, if there is
one. -/
def classFault (stop : Nat) (members : List (Symbol × Bool)) : Fault :=
  let start := stop - (members.flatMap memberText).length
  match (ClassItem.pairUp Placed.isDash (placeFrom start members)).find? descends with
  | some (.range low high) => .badRange (memberText low.member) (memberText high.member) low.position
  | _ => .other

/-- What is wrong where reading cannot go on from a mode. -/
def LexMode.fault (position : Nat) : LexMode → Fault
  | .classMembers _ reversed => classFault position reversed.reverse
  | .classEscape _ reversed => classFault (position - 1) reversed.reverse
  | _ => .other

/-! ## Reading with faults -/

/-- A lexeme that was completed at a position, or the fault in its place. -/
def located (mode : LexMode) (position : Nat) (l : Lexeme) : Except Fault Lexeme :=
  if l = .malformed then .error (mode.fault position) else .ok l

/-- The lexemes and faults of a text that is read from a position in a mode. -/
def scanFrom : LexMode → Nat → Text → List (Except Fault Lexeme)
  | .plain, _, [] => []
  | mode, position, [] => [.error (mode.fault position)]
  | mode, position, s :: rest =>
    (lexSymbol mode s).1.map (located mode position) ++ scanFrom (lexSymbol mode s).2 (position + 1) rest

/-- The group at hand and the groups around it after one more lexeme, unless it cannot stand there. -/
def Frame.feed? (f : Frame) (outer : List Frame) : Lexeme → Option (Frame × List Frame)
  | .openGroup newline => some (⟨f.newline || newline, [], []⟩, f :: outer)
  | .closeGroup =>
    match outer with
    | [] => none
    | g :: outer => some (g.push f.close, outer)
  | .bar => some (f.next, outer)
  | .star => f.repeatLast?.map (·, outer)
  | .dot => some (f.push (.dot f.newline), outer)
  | .literal s => some (f.push (.exactly s), outer)
  | .oneOf negated items => some (f.push (.oneOf negated items), outer)
  | .endOfText => some (f.push .endOfText, outer)
  | .malformed => none

/-- The expression of lexemes that are read inside a group and the groups around it, or the first fault. -/
def compileFrom (f : Frame) (outer : List Frame) : List (Except Fault Lexeme) → Except Fault Expression
  | [] => if outer.isEmpty then .ok f.close else .error .other
  | .error e :: _ => .error e
  | .ok l :: rest =>
    match f.feed? outer l with
    | none => .error .other
    | some r => compileFrom r.1 r.2 rest

/-- The expression that a text writes, or its first fault. -/
def compile? (t : Text) : Except Fault Expression := compileFrom ⟨false, [], []⟩ [] (scanFrom .plain 0 t)

/-! ## The same expressions -/

/-- A lexeme without what is known of its fault. -/
def unlocated : Except Fault Lexeme → Lexeme
  | .ok l => l
  | .error _ => .malformed

theorem unlocated_located (mode : LexMode) (position : Nat) (l : Lexeme) :
    unlocated (located mode position l) = l := by
  unfold located
  split
  · rename_i h
    rw [h]
    rfl
  · rfl

theorem map_unlocated_scanFrom (t : Text) :
    ∀ (mode : LexMode) (position : Nat), (scanFrom mode position t).map unlocated = lexemesFrom mode t := by
  induction t with
  | nil =>
    intro mode position
    cases mode <;> rfl
  | cons s t ih =>
    intro mode position
    have whole : scanFrom mode position (s :: t) =
        (lexSymbol mode s).1.map (located mode position) ++ scanFrom (lexSymbol mode s).2 (position + 1) t := by
      cases mode <;> rfl
    have lexed : lexemesFrom mode (s :: t) = (lexSymbol mode s).1 ++ lexemesFrom (lexSymbol mode s).2 t := by
      cases mode <;> rfl
    rw [whole, lexed, List.map_append, ih, List.map_map]
    congr 1
    exact (List.map_congr_left fun l _ => unlocated_located mode position l).trans (List.map_id _)

/-- One lexeme after the other. -/
theorem build_cons (f : Frame) (outer : List Frame) (l : Lexeme) (rest : List Lexeme) :
    build f outer (l :: rest) = (f.feed? outer l).bind fun r => build r.1 r.2 rest := by
  cases l with
  | closeGroup => cases outer <;> rfl
  | star => cases outer <;> cases h : f.repeatLast? <;> simp [build, Frame.feed?, h]
  | _ => cases outer <;> rfl

theorem toOption_compileFrom (ls : List (Except Fault Lexeme)) : ∀ (f : Frame) (outer : List Frame),
    (compileFrom f outer ls).toOption = build f outer (ls.map unlocated) := by
  induction ls with
  | nil =>
    intro f outer
    cases outer <;> rfl
  | cons l ls ih =>
    intro f outer
    cases l with
    | error e => cases outer <;> rfl
    | ok l =>
      rw [List.map_cons, unlocated, build_cons, compileFrom]
      cases f.feed? outer l with
      | none => rfl
      | some r => exact ih r.1 r.2

/-- **Reading with faults gives the same expressions.** -/
theorem toOption_compile (t : Text) : (compile? t).toOption = read? t := by
  rw [compile?, toOption_compileFrom, map_unlocated_scanFrom]
  rfl

theorem compile_eq_ok_iff {t : Text} {e : Expression} : compile? t = .ok e ↔ read? t = some e := by
  rw [← toOption_compile]
  cases compile? t <;> simp [Except.toOption]

/-- **The first fault wins**: where lexemes may go on in some way, a fault behind them is what reading ends with. -/
theorem compileFrom_error {front rest : List (Except Fault Lexeme)} {e : Expression} (x : Fault)
    (later : List (Except Fault Lexeme)) : ∀ {f : Frame} {outer : List Frame},
      compileFrom f outer (front ++ rest) = .ok e → compileFrom f outer (front ++ .error x :: later) = .error x := by
  induction front with
  | nil =>
    intro f outer _
    rfl
  | cons l front ih =>
    intro f outer h
    cases l with
    | error y => cases h
    | ok l =>
      rw [List.cons_append, compileFrom] at h ⊢
      cases fed : f.feed? outer l with
      | none =>
        rw [fed] at h
        cases h
      | some r =>
        rw [fed] at h
        exact ih h

/-! ## Texts one behind the other -/

/-- The mode after a text. -/
def modeAfter (mode : LexMode) (t : Text) : LexMode := t.foldl (fun mode s => (lexSymbol mode s).2) mode

theorem modeAfter_append (mode : LexMode) (t u : Text) : modeAfter mode (t ++ u) = modeAfter (modeAfter mode t) u :=
  List.foldl_append

/-- A symbol more. -/
theorem scanFrom_cons (mode : LexMode) (position : Nat) (s : Symbol) (t : Text) : scanFrom mode position (s :: t) =
    (lexSymbol mode s).1.map (located mode position) ++ scanFrom (lexSymbol mode s).2 (position + 1) t := by
  cases mode <;> rfl

/-- What a text is read as does not hang on what comes behind it. -/
theorem scanFrom_append (u : Text) : ∀ (mode : LexMode) (position : Nat), ∃ ls, ∀ t,
    scanFrom mode position (u ++ t) = ls ++ scanFrom (modeAfter mode u) (position + u.length) t := by
  induction u with
  | nil =>
    intro mode position
    exact ⟨[], fun t => rfl⟩
  | cons s u ih =>
    intro mode position
    obtain ⟨ls, h⟩ := ih (lexSymbol mode s).2 (position + 1)
    refine ⟨(lexSymbol mode s).1.map (located mode position) ++ ls, fun t => ?_⟩
    rw [List.cons_append, scanFrom_cons, h, List.append_assoc, List.length_cons, Nat.add_assoc, Nat.add_comm 1]
    rfl

/-- A text that is read without a fault leaves no class and no escape open. -/
theorem modeAfter_eq_plain {u : Text} : ∀ {mode : LexMode}, .malformed ∉ lexemesFrom mode u →
    modeAfter mode u = .plain := by
  induction u with
  | nil =>
    intro mode h
    cases mode with
    | plain => rfl
    | _ => exact absurd List.mem_cons_self h
  | cons s u ih =>
    intro mode h
    have lexed : lexemesFrom mode (s :: u) = (lexSymbol mode s).1 ++ lexemesFrom (lexSymbol mode s).2 u := by
      cases mode <;> rfl
    rw [lexed, List.mem_append, not_or] at h
    exact ih h.2

/-- Reading a text leads from a mode to another and completes no lexeme. -/
inductive Silent : LexMode → Text → LexMode → Prop
  | nil (mode : LexMode) : Silent mode [] mode
  | cons {mode next last : LexMode} {s : Symbol} {t : Text} (h : lexSymbol mode s = ([], next))
      (rest : Silent next t last) : Silent mode (s :: t) last

theorem Silent.append {mode next last : LexMode} {t u : Text} (h : Silent mode t next) (k : Silent next u last) :
    Silent mode (t ++ u) last := by
  induction h with
  | nil => exact k
  | cons e _ ih => exact .cons e (ih k)

theorem Silent.modeAfter {mode last : LexMode} {t : Text} (h : Silent mode t last) :
    Expression.modeAfter mode t = last := by
  induction h with
  | nil => rfl
  | @cons mode next last s t e _ ih =>
    show Expression.modeAfter (lexSymbol mode s).2 t = last
    rw [e]
    exact ih

theorem Silent.scanFrom {mode last : LexMode} {u : Text} (h : Silent mode u last) (t : Text) :
    ∀ position : Nat, Expression.scanFrom mode position (u ++ t) =
      Expression.scanFrom last (position + u.length) t := by
  induction h with
  | nil =>
    intro position
    rfl
  | @cons mode next last s u e _ ih =>
    intro position
    rw [List.cons_append, scanFrom_cons, e, ih, List.length_cons, Nat.add_assoc, Nat.add_comm 1]
    rfl

theorem Silent.lexemesFrom {mode last : LexMode} {u : Text} (h : Silent mode u last) (t : Text) :
    Expression.lexemesFrom mode (u ++ t) = Expression.lexemesFrom last t := by
  rw [← map_unlocated_scanFrom _ mode 0, ← map_unlocated_scanFrom _ last (0 + u.length), h.scanFrom]

/-- The first fault of a text is found where it stands, and what comes behind it is not read. -/
example : compile? "(?s:a[c-a-])(" = .error (.badRange "c" "a" 6) ∧ compile? "[b-a]+" = .error (.badRange "b" "a" 1) ∧
    compile? "+[b-a]" = .error .other := ⟨rfl, rfl, rfl⟩

end Expression
end DirWatch

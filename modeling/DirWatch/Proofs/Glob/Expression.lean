import DirWatch.Proofs.Glob.Class

/-!
# Regular expressions and their standard meaning

The part of the usual notation of regular expressions that has literals, escapes, a dot, classes, a star behind one
piece, alternatives, the groups `(?:…)` and `(?s:…)`, and `\Z` for the end of the text. In `(?s:…)` a dot takes newlines
too.

- **Reading** a text (`Expression.read?`): cut into lexemes (`lexemes`), then put together with a stack of open groups
  (`Expression.build`). What the part does not have is not read, nor is a class with a range in wrong order.
- **Meaning** (`Expression.Takes`): what an expression takes from the front of a text, given what stands behind it.
-/

namespace DirWatch

/-! ## Expressions -/

/-- A regular expression. -/
inductive Expression where
  | empty
  /-- Any symbol; a newline only if so said. -/
  | dot (newline : Bool)
  | exactly (s : Symbol)
  | oneOf (negated : Bool) (items : List (ClassItem Symbol))
  | star (e : Expression)
  | seq (e f : Expression)
  | alt (e f : Expression)
  | endOfText
  deriving DecidableEq, Repr

namespace Expression

/-- Expressions one after another. -/
def sequence : List Expression → Expression
  | [] => .empty
  | e :: rest => .seq e (sequence rest)

/-- Any of some expressions. -/
def choice : List Expression → Expression
  | [] => .empty
  | [e] => e
  | e :: rest => .alt e (choice rest)

/-! ## Meaning -/

/-- An expression takes `u` from the front of a text that goes on with `v`. -/
inductive Takes : Expression → Text → Text → Prop
  | empty (v : Text) : Takes .empty [] v
  | dot {newline : Bool} {s : Symbol} (h : newline = true ∨ s ≠ .char '\n') (v : Text) : Takes (.dot newline) [s] v
  | exactly (s : Symbol) (v : Text) : Takes (.exactly s) [s] v
  | oneOf {negated : Bool} {items : List (ClassItem Symbol)} {s : Symbol}
      (h : negated = false ↔ ∃ i ∈ items, i.Holds s) (v : Text) : Takes (.oneOf negated items) [s] v
  | enough (e : Expression) (v : Text) : Takes (.star e) [] v
  | again {e : Expression} {u w v : Text} (h : Takes e u (w ++ v)) (hr : Takes (.star e) w v) :
      Takes (.star e) (u ++ w) v
  | seq {e f : Expression} {u w v : Text} (he : Takes e u (w ++ v)) (hf : Takes f w v) : Takes (.seq e f) (u ++ w) v
  | left {e : Expression} {u v : Text} (h : Takes e u v) (f : Expression) : Takes (.alt e f) u v
  | right (e : Expression) {f : Expression} {u v : Text} (h : Takes f u v) : Takes (.alt e f) u v
  | endOfText : Takes .endOfText [] []

/-- An expression matches a text from its front. -/
def MatchesFront (e : Expression) (t : Text) : Prop := ∃ u v, t = u ++ v ∧ e.Takes u v

/-! ## Lexemes -/

/-- A lexeme of the notation. -/
inductive Lexeme where
  | openGroup (newline : Bool)
  | closeGroup
  | bar
  | star
  | dot
  | literal (s : Symbol)
  | oneOf (negated : Bool) (items : List (ClassItem Symbol))
  | endOfText
  | malformed
  deriving DecidableEq, Repr

/-- What the symbols read since the last lexeme are part of. The members of a class are kept with the mark whether they
were escaped. -/
inductive LexMode where
  | plain
  | escape
  | paren
  | question
  | flag
  | classOpen
  | classNegated
  | classMembers (negated : Bool) (reversed : List (Symbol × Bool))
  | classEscape (negated : Bool) (reversed : List (Symbol × Bool))
  deriving DecidableEq, Repr

/-- Whether a symbol is an ASCII letter or digit, which an escape gives a meaning of its own. -/
def isWord : Symbol → Bool
  | .char c => c.isAlphanum
  | .stray _ => false

/-- The lexeme of a class with given members: a dash that is not escaped makes a range. -/
def classLexeme (negated : Bool) (members : List (Symbol × Bool)) : Lexeme :=
  let items := (ClassItem.pairUp (· = (CharClass.dash, false)) members).map (ClassItem.map Prod.fst)
  if items.all ClassItem.inOrder then .oneOf negated items else .malformed

/-- Reads a symbol outside classes, escapes and openings of groups. -/
def lexPlain (s : Symbol) : List Lexeme × LexMode :=
  match s with
  | .char '\\' => ([], .escape)
  | .char '(' => ([], .paren)
  | .char ')' => ([.closeGroup], .plain)
  | .char '|' => ([.bar], .plain)
  | .char '*' => ([.star], .plain)
  | .char '.' => ([.dot], .plain)
  | .char '[' => ([], .classOpen)
  | .char '^' => ([.malformed], .plain)
  | .char '$' => ([.malformed], .plain)
  | .char '+' => ([.malformed], .plain)
  | .char '?' => ([.malformed], .plain)
  | .char '{' => ([.malformed], .plain)
  | s => ([.literal s], .plain)

/-- Reads one symbol: the lexemes it completes and the mode it leaves. -/
def lexSymbol (mode : LexMode) (s : Symbol) : List Lexeme × LexMode :=
  match mode with
  | .plain => lexPlain s
  | .escape =>
    if s = .char 'Z' then ([.endOfText], .plain)
    else if isWord s then ([.malformed], .plain)
    else ([.literal s], .plain)
  | .paren => if s = .char '?' then ([], .question) else ([.malformed], .plain)
  | .question =>
    if s = .char ':' then ([.openGroup false], .plain)
    else if s = .char 's' then ([], .flag)
    else ([.malformed], .plain)
  | .flag => if s = .char ':' then ([.openGroup true], .plain) else ([.malformed], .plain)
  | .classOpen =>
    if s = .char '^' then ([], .classNegated)
    else if s = .char '\\' then ([], .classEscape false [])
    else ([], .classMembers false [(s, false)])
  | .classNegated => if s = .char '\\' then ([], .classEscape true []) else ([], .classMembers true [(s, false)])
  | .classMembers negated reversed =>
    if s = .char ']' then ([classLexeme negated reversed.reverse], .plain)
    else if s = .char '\\' then ([], .classEscape negated reversed)
    else ([], .classMembers negated ((s, false) :: reversed))
  | .classEscape negated reversed =>
    if isWord s then ([.malformed], .plain) else ([], .classMembers negated ((s, true) :: reversed))

/-- The lexemes of a text that is read in a mode. -/
def lexemesFrom : LexMode → Text → List Lexeme
  | .plain, [] => []
  | _, [] => [.malformed]
  | mode, s :: rest => (lexSymbol mode s).1 ++ lexemesFrom (lexSymbol mode s).2 rest

/-! ## Reading -/

/-- A group that is being read: whether its dots take newlines, its finished branches and the pieces of the branch at
hand, both in reverse. -/
structure Frame where
  newline : Bool
  branches : List Expression := []
  pieces : List Expression := []
  deriving DecidableEq, Repr

namespace Frame

/-- Adds a piece to the branch at hand. -/
def push (f : Frame) (e : Expression) : Frame := { f with pieces := e :: f.pieces }

/-- Begins the next branch. -/
def next (f : Frame) : Frame := { f with branches := sequence f.pieces.reverse :: f.branches, pieces := [] }

/-- The expression of the finished group. -/
def close (f : Frame) : Expression := choice (sequence f.pieces.reverse :: f.branches).reverse

/-- Repeats the last piece, unless there is none or it is repeated already. -/
def repeatLast? (f : Frame) : Option Frame :=
  match f.pieces with
  | [] => none
  | .star _ :: _ => none
  | .endOfText :: _ => none
  | e :: rest => some { f with pieces := .star e :: rest }

end Frame

/-- The expression of lexemes that are read inside a group and the groups around it. -/
def build : Frame → List Frame → List Lexeme → Option Expression
  | f, [], [] => some f.close
  | _, _ :: _, [] => none
  | f, outer, .openGroup newline :: rest => build ⟨f.newline || newline, [], []⟩ (f :: outer) rest
  | _, [], .closeGroup :: _ => none
  | f, g :: outer, .closeGroup :: rest => build (g.push f.close) outer rest
  | f, outer, .bar :: rest => build f.next outer rest
  | f, outer, .star :: rest => f.repeatLast?.bind (build · outer rest)
  | f, outer, .dot :: rest => build (f.push (.dot f.newline)) outer rest
  | f, outer, .literal s :: rest => build (f.push (.exactly s)) outer rest
  | f, outer, .oneOf negated items :: rest => build (f.push (.oneOf negated items)) outer rest
  | f, outer, .endOfText :: rest => build (f.push .endOfText) outer rest
  | _, _, .malformed :: _ => none

/-- The expression that a text writes. Outside groups a dot takes no newline. -/
def read? (t : Text) : Option Expression := build ⟨false, [], []⟩ [] (lexemesFrom .plain t)

end Expression
end DirWatch

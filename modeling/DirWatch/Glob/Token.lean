import DirWatch.Glob.Class

/-!
# Tokens of a glob pattern

A pattern is cut into tokens in one pass from left to right: an escape is its symbol, a run of stars is one token, and
a class is one token from its opening bracket to the first closing bracket behind its first member. Braces carry their
position for the errors that name it. A pattern that ends inside an escape or a class ends in a `malformed` token.
-/

namespace DirWatch
namespace Glob

/-- Why a pattern is no glob. Positions count symbols from the start of the pattern; the position, line and column of a
bad range are those in the regular expression that writes the glob. -/
inductive SyntaxError where
  | unclosedClass (position : Nat)
  | danglingEscape
  | nestedAlternation (position : Nat)
  | unopenedAlternation (position : Nat)
  | unclosedAlternation
  | badRange (low high : Text) (position : Nat) (place : Option (Nat × Nat))
  deriving DecidableEq, Repr

/-- The wording of a syntax error. -/
def SyntaxError.reason : SyntaxError → Text
  | .unclosedClass p => "unclosed character class at position " ++ Text.ofNat p
  | .danglingEscape => "dangling escape at end of pattern"
  | .nestedAlternation p => "nested alternation at position " ++ Text.ofNat p
  | .unopenedAlternation p => "unopened alternation at position " ++ Text.ofNat p
  | .unclosedAlternation => "unclosed alternation"
  | .badRange low high p place =>
    "bad character range " ++ low ++ "-" ++ high ++ " at position " ++ Text.ofNat p ++
      match place with
      | none => []
      | some (line, column) => " (line " ++ Text.ofNat line ++ ", column " ++ Text.ofNat column ++ ")"

/-- A token of a pattern. -/
inductive Token where
  | star
  | any
  | exactly (s : Symbol)
  | oneOf (c : CharClass)
  | comma
  | openBrace (position : Nat)
  | closeBrace (position : Nat)
  | malformed (e : SyntaxError)
  deriving DecidableEq, Repr

/-- What the symbols read since the last token are part of. -/
inductive Mode where
  | plain
  | stars
  | escape
  | classOpen (start : Nat)
  | classNegated (start : Nat)
  | classMembers (start : Nat) (negated : Bool) (reversed : Text)
  deriving DecidableEq, Repr

/-- The token of a symbol that stands for itself or for a sign of the pattern language, or the mode it opens. -/
def plainSymbol (position : Nat) (s : Symbol) : List Token × Mode :=
  match s with
  | .char '\\' => ([], .escape)
  | .char '*' => ([.star], .stars)
  | .char '?' => ([.any], .plain)
  | .char '[' => ([], .classOpen position)
  | .char '{' => ([.openBrace position], .plain)
  | .char '}' => ([.closeBrace position], .plain)
  | .char ',' => ([.comma], .plain)
  | s => ([.exactly s], .plain)

/-- Reads one symbol: the tokens it completes and the mode it leaves. -/
def readSymbol (mode : Mode) (position : Nat) (s : Symbol) : List Token × Mode :=
  match mode with
  | .plain => plainSymbol position s
  | .stars => if s = .char '*' then ([], .stars) else plainSymbol position s
  | .escape => ([.exactly s], .plain)
  | .classOpen start => if s = .char '!' then ([], .classNegated start) else ([], .classMembers start false [s])
  | .classNegated start => ([], .classMembers start true [s])
  | .classMembers start negated reversed =>
    if s = .char ']' then ([.oneOf ⟨negated, reversed.reverse⟩], .plain)
    else ([], .classMembers start negated (s :: reversed))

/-- The token of a pattern that ends in a mode. -/
def endOfPattern : Mode → List Token
  | .plain => []
  | .stars => []
  | .escape => [.malformed .danglingEscape]
  | .classOpen start => [.malformed (.unclosedClass start)]
  | .classNegated start => [.malformed (.unclosedClass start)]
  | .classMembers start _ _ => [.malformed (.unclosedClass start)]

/-- The tokens of a text that is read from a position in a mode. -/
def tokensFrom : Mode → Nat → Text → List Token
  | mode, _, [] => endOfPattern mode
  | mode, position, s :: rest =>
    let r := readSymbol mode position s
    r.1 ++ tokensFrom r.2 (position + 1) rest

/-- The tokens of a pattern. -/
def tokens (pattern : Text) : List Token := tokensFrom .plain 0 pattern

end Glob
end DirWatch

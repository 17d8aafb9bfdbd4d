import DirWatch.Glob.Matcher
import DirWatch.Glob.Regex
import DirWatch.Text.Quoted

/-!
# Patterns

A pattern is a text together with the glob it writes. The text determines the glob (`Pattern.reads`), so patterns are
equal when their texts are.
-/

namespace DirWatch

/-- A text that writes a glob with all ranges in order. -/
@[ext]
structure Pattern where
  text : Text
  glob : Glob
  reads : Glob.read? text = .ok glob

namespace Pattern

/-- Patterns with the same text are equal. -/
theorem eq_of_text_eq {p q : Pattern} (h : p.text = q.text) : p = q := by
  have hp := p.reads
  have hq := q.reads
  rw [h, hq] at hp
  exact Pattern.ext h (Except.ok.inj hp).symm

instance : DecidableEq Pattern := fun p q =>
  if h : p.text = q.text then isTrue (eq_of_text_eq h) else isFalse fun e => h (e ▸ rfl)

/-- The pattern of a text. -/
def ofText? (t : Text) : Except Glob.SyntaxError Pattern :=
  match h : Glob.read? t with
  | .ok g => .ok ⟨t, g, h⟩
  | .error e => .error e

/-- A pattern is read from its own text alone. -/
theorem ofText_eq_ok_iff {t : Text} {p : Pattern} : ofText? t = .ok p ↔ p.text = t := by
  unfold ofText?
  split
  · rename_i g read
    constructor
    · intro h
      cases h
      rfl
    · intro h
      exact congrArg _ (eq_of_text_eq h.symm)
  · rename_i e refused
    constructor
    · intro h
      cases h
    · rintro rfl
      rw [p.reads] at refused
      cases refused

/-- Whether a pattern matches a whole text. -/
def accepts (p : Pattern) (t : Text) : Bool := p.glob.accepts t

/-- A pattern as messages name it. -/
def shown (p : Pattern) : Text := "GlobMatcher(" ++ p.text.quoted ++ ")"

/-- The wording for a text that is no pattern. -/
def invalid (t : Text) (reason : Text) : Text := "Invalid glob pattern '" ++ t ++ "': " ++ reason

end Pattern
end DirWatch

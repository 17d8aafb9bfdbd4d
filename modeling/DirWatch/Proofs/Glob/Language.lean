import DirWatch.Proofs.Glob.Rendering

/-!
# The language of a pattern

The language of a pattern is what its text means read as a glob, said by the grammar (`Glob.Spells`) and by
concatenation and union (`Glob.Matches`), without an expression in between.

- **A pattern accepts its language, and so does its regular expression** (`Pattern.accepts_iff_language`).
-/

namespace DirWatch

/-- The texts that a pattern means. -/
def Glob.Language (pattern t : Text) : Prop := ∃ g, Spells pattern g ∧ g.Matches t

namespace Pattern

/-- The language of a pattern is what its glob matches. -/
theorem language_iff_matches (p : Pattern) (t : Text) : Glob.Language p.text t ↔ p.glob.Matches t := by
  obtain ⟨spells, _⟩ := Glob.read?_eq_ok_iff.1 p.reads
  constructor
  · rintro ⟨g, hg, ht⟩
    have same : g = p.glob := Except.ok.inj ((Glob.parse?_eq_ok_iff.2 hg).symm.trans (Glob.parse?_eq_ok_iff.2 spells))
    rwa [same] at ht
  · exact fun ht => ⟨p.glob, spells, ht⟩

/-- **A pattern accepts the whole texts of its language, and no others.** Its regular expression, read in the standard
way, matches the same texts. -/
theorem accepts_iff_language (p : Pattern) (t : Text) :
    (p.accepts t = true ↔ Glob.Language p.text t) ∧
      ∃ e, Expression.read? p.glob.regex = some e ∧ (e.MatchesFront t ↔ Glob.Language p.text t) := by
  rw [language_iff_matches]
  refine ⟨Glob.accepts_iff_matches p.glob t, p.glob.expression, Glob.read?_regex p.ready, ?_⟩
  exact Glob.matchesFront_expression (fun i hi => (p.ready i hi).1) t

/-- Branches, a class that excludes, and a text that is matched only in part. -/
example : (ofText? "*.\x7btxt,m[!a-c]\x7d").toOption.map
    (fun p => [p.accepts "a/x.md", p.accepts "x.ma", p.accepts ".txt\n"]) = some [true, false, false] := by rfl

end Pattern
end DirWatch

import DirWatch.Glob.Matcher
import DirWatch.Proofs.Glob.Class

/-!
# Marks find what a glob matches

- atoms, branches, items and globs move marks over just the texts that they match (`Moves`, `Glob.moves`);
- hence a glob accepts the whole texts that it matches (`accepts_iff_matches`).
-/

namespace DirWatch

namespace Glob

/-! ## Marked places -/

namespace Marks

/-- The place behind `u` is marked. -/
def At (m : Marks) (u : Text) : Prop := m[u.length]? = some true

/-- In front, only the place behind nothing is marked. -/
theorem at_front {u v : Text} : (front (u ++ v)).At u ↔ u = [] := by
  cases u with
  | nil => simp [At, front]
  | cons s u =>
    simp only [At, front, List.length_cons, List.getElem?_cons_succ, List.getElem?_map, reduceCtorEq, iff_false]
    cases (s :: u ++ v)[u.length]? <;> simp

/-- Moving over one symbol. -/
theorem at_over (test : Symbol → Bool) {m : Marks} {u v : Text} :
    (m.over test (u ++ v)).At u ↔ ∃ x s, u = x ++ [s] ∧ m.At x ∧ test s = true := by
  rcases List.eq_nil_or_concat u with rfl | ⟨x, s, rfl⟩
  · simp [At, Marks.over]
  · simp only [At, Marks.over, List.concat_eq_append, List.length_append, List.length_singleton,
      List.getElem?_cons_succ, List.getElem?_zipWith]
    have hs : (x ++ [s] ++ v)[x.length]? = some s := by simp
    rw [hs]
    constructor
    · intro h
      cases hm : m[x.length]? with
      | none => simp [hm] at h
      | some b =>
        simp only [hm, Option.some.injEq, Bool.and_eq_true] at h
        exact ⟨x, s, rfl, by rw [hm, h.1], h.2⟩
    · rintro ⟨x', s', e, hm, ht⟩
      obtain ⟨rfl, rfl⟩ := List.append_inj' e rfl |>.imp id (fun h => (List.cons.inj h).1)
      simp [hm, ht]

/-- Spreading marks every place from the first mark on. -/
theorem getElem?_spread (m : Marks) : ∀ (seen : Bool) (k : Nat),
    (spread seen m)[k]? = some true ↔ k < m.length ∧ (seen = true ∨ ∃ i ≤ k, m[i]? = some true) := by
  induction m with
  | nil => simp [spread]
  | cons b m ih =>
    intro seen k
    cases k with
    | zero => simp [spread]
    | succ k =>
      simp only [spread, List.getElem?_cons_succ, ih, Bool.or_eq_true, List.length_cons, Nat.add_lt_add_iff_right]
      refine and_congr_right fun _ => ?_
      constructor
      · rintro ((hs | hb) | ⟨i, hi, hm⟩)
        · exact Or.inl hs
        · exact Or.inr ⟨0, Nat.zero_le _, by simp [hb]⟩
        · exact Or.inr ⟨i + 1, Nat.succ_le_succ hi, by simpa using hm⟩
      · rintro (hs | ⟨i, hi, hm⟩)
        · exact Or.inl (Or.inl hs)
        · cases i with
          | zero => exact Or.inl (Or.inr (by simpa using hm))
          | succ i => exact Or.inr ⟨i, Nat.le_of_succ_le_succ hi, by simpa using hm⟩

/-- Spreading marks every place at or behind a mark. -/
theorem at_spread {m : Marks} {u v : Text} (hm : m.length = (u ++ v).length + 1) :
    (spread false m).At u ↔ ∃ x y, u = x ++ y ∧ m.At x := by
  unfold At
  rw [getElem?_spread]
  constructor
  · rintro ⟨_, h | ⟨i, hi, h⟩⟩
    · cases h
    · refine ⟨u.take i, u.drop i, (List.take_append_drop i u).symm, ?_⟩
      rw [List.length_take, Nat.min_eq_left hi]
      exact h
  · rintro ⟨x, y, rfl, h⟩
    refine ⟨?_, Or.inr ⟨x.length, ?_, h⟩⟩
    · rw [hm]
      simp only [List.length_append]
      omega
    · simp

theorem length_spread (m : Marks) : ∀ seen : Bool, (spread seen m).length = m.length := by
  induction m with
  | nil => intro _; rfl
  | cons b m ih => intro seen; simp [spread, ih]

end Marks

/-! ## Moves over the text -/

/-- `f` moves marks over the texts of `L`: the place behind `u` is marked afterwards iff `u` is some `x ++ y` with `y`
in `L`, where the place behind `x` was marked. -/
structure Moves (f : Text → Marks → Marks) (L : Text → Prop) : Prop where
  length {t : Text} {m : Marks} (hm : m.length = t.length + 1) : (f t m).length = t.length + 1
  marked {m : Marks} {u v : Text} (hm : m.length = (u ++ v).length + 1) :
    (f (u ++ v) m).At u ↔ ∃ x y, u = x ++ y ∧ m.At x ∧ L y

namespace Moves

variable {f g : Text → Marks → Marks} {L M : Text → Prop}

theorem congr (h : Moves f L) (hLM : ∀ y, L y ↔ M y) : Moves f M where
  length := h.length
  marked hm := by simp only [h.marked hm, hLM]

/-- Not moving at all. -/
theorem stay : Moves (fun _ m => m) (· = []) where
  length := id
  marked _ := by simp

/-- One move after another. -/
theorem comp (hf : Moves f L) (hg : Moves g M) :
    Moves (fun t m => g t (f t m)) (fun t => ∃ u v, t = u ++ v ∧ L u ∧ M v) where
  length hm := hg.length (hf.length hm)
  marked {m u v} hm := by
    rw [hg.marked (hf.length hm)]
    constructor
    · rintro ⟨x, y, rfl, hx, hy⟩
      rw [List.append_assoc] at hx hm
      obtain ⟨x', z, rfl, hx', hz⟩ := (hf.marked hm).1 hx
      exact ⟨x', z ++ y, List.append_assoc .., hx', z, y, rfl, hz, hy⟩
    · rintro ⟨x, _, rfl, hx, z, y, rfl, hz, hy⟩
      refine ⟨x ++ z, y, (List.append_assoc ..).symm, ?_, hy⟩
      have e : x ++ (z ++ y) ++ v = (x ++ z) ++ (y ++ v) := by simp
      rw [e] at hm ⊢
      exact (hf.marked hm).2 ⟨x, z, rfl, hx, hz⟩

/-- No move. -/
theorem none : Moves (fun _ m => m.map fun _ => false) (fun _ => False) where
  length hm := by simp [hm]
  marked {m u v} _ := by
    simp only [Marks.At, List.getElem?_map, and_false, exists_false, iff_false]
    cases m[u.length]? <;> simp

/-- Either of two moves. -/
theorem union (hf : Moves f L) (hg : Moves g M) :
    Moves (fun t m => List.zipWith (· || ·) (f t m) (g t m)) (fun t => L t ∨ M t) where
  length hm := by simp [hf.length hm, hg.length hm]
  marked {m u v} hm := by
    have hu : u.length < (u ++ v).length + 1 := by simp only [List.length_append]; omega
    have either : Marks.At (List.zipWith (· || ·) (f (u ++ v) m) (g (u ++ v) m)) u ↔
        (f (u ++ v) m).At u ∨ (g (u ++ v) m).At u := by
      have hf' := List.getElem?_eq_getElem (show u.length < (f (u ++ v) m).length by rw [hf.length hm]; exact hu)
      have hg' := List.getElem?_eq_getElem (show u.length < (g (u ++ v) m).length by rw [hg.length hm]; exact hu)
      simp only [Marks.At, List.getElem?_zipWith, hf', hg', Option.some.injEq, Bool.or_eq_true]
    rw [either, hf.marked hm, hg.marked hm]
    constructor
    · rintro (⟨x, y, e, hx, hy⟩ | ⟨x, y, e, hx, hy⟩)
      · exact ⟨x, y, e, hx, Or.inl hy⟩
      · exact ⟨x, y, e, hx, Or.inr hy⟩
    · rintro ⟨x, y, e, hx, hy | hy⟩
      · exact Or.inl ⟨x, y, e, hx, hy⟩
      · exact Or.inr ⟨x, y, e, hx, hy⟩

/-- Over one symbol that passes a test. -/
theorem symbol (test : Symbol → Bool) :
    Moves (fun t m => m.over test t) (fun y => ∃ s, y = [s] ∧ test s = true) where
  length hm := by simp [Marks.over, hm]
  marked _ := by
    rw [Marks.at_over]
    constructor
    · rintro ⟨x, s, e, hx, hs⟩
      exact ⟨x, [s], e, hx, s, rfl, hs⟩
    · rintro ⟨x, _, e, hx, s, rfl, hs⟩
      exact ⟨x, s, e, hx, hs⟩

/-- Over any run of symbols. -/
theorem spread : Moves (fun _ m => Marks.spread false m) (fun _ => True) where
  length hm := by rw [Marks.length_spread, hm]
  marked hm := by simp [Marks.at_spread hm]

end Moves

/-! ## What globs move over -/

theorem Atom.moves (a : Atom) : Moves (fun t m => a.reach t m) a.Matches := by
  cases a with
  | star => exact .spread
  | any => exact (Moves.symbol _).congr fun y => by simp [Atom.Matches]
  | exactly x => exact (Moves.symbol _).congr fun y => by simp [Atom.Matches]
  | oneOf c => exact (Moves.symbol _).congr fun y => by simp [Atom.Matches, CharClass.accepts_iff_means]

theorem moves_branch : ∀ b : List Atom, Moves (fun t m => reachBranch t m b) (BranchMatches b)
  | [] => .stay
  | a :: rest => a.moves.comp (moves_branch rest)

theorem moves_group : ∀ bs : List (List Atom),
    Moves (fun t m => reachGroup t m bs) (fun t => ∃ b ∈ bs, BranchMatches b t)
  | [] => Moves.none.congr fun _ => by simp
  | b :: rest => ((moves_branch b).union (moves_group rest)).congr fun _ => by simp

theorem Item.moves : ∀ i : Item, Moves (fun t m => i.reach t m) i.Matches
  | .atom a => a.moves
  | .group bs => moves_group bs

/-- A glob moves marks over the texts that it matches. -/
theorem moves : ∀ g : Glob, Moves (fun t m => reach t m g) g.Matches
  | [] => .stay
  | i :: rest => i.moves.comp (moves rest)

/-! ## Whole texts -/

/-- **A glob accepts the whole texts that it matches.** -/
theorem accepts_iff_matches (g : Glob) (t : Text) : g.accepts t = true ↔ g.Matches t := by
  have hf : (Marks.front t).length = t.length + 1 := by simp [Marks.front]
  have hl : (reach t (Marks.front t) g).length = t.length + 1 := g.moves.length hf
  have last : g.accepts t = true ↔ (reach t (Marks.front t) g).At t := by
    unfold accepts Marks.At
    rw [List.getLast?_eq_getElem?, hl, Nat.add_sub_cancel]
    cases (reach t (Marks.front t) g)[t.length]? <;> simp
  have h := g.moves.marked (u := t) (v := []) (by simpa using hf)
  rw [List.append_nil] at h
  rw [last, h]
  constructor
  · rintro ⟨x, y, rfl, hx, hy⟩
    obtain rfl := Marks.at_front.1 hx
    exact hy
  · intro hg
    exact ⟨[], t, rfl, by simp [Marks.At, Marks.front], hg⟩

end Glob
end DirWatch

import DirWatch.Glob.Class

/-!
# Items of classes and what they mean

- pairing members up keeps its pairs when the members are changed and dashes stay dashes (`ClassItem.map_pairUp`);
- a class accepts the symbols that it means (`CharClass.accepts_iff_means`).
-/

namespace DirWatch

/-! ## Items of classes -/

namespace ClassItem

variable {α β : Type}

/-- An item of changed members. -/
def map (f : α → β) : ClassItem α → ClassItem β
  | .one x => .one (f x)
  | .range low high => .range (f low) (f high)

/-- Whether the ends of a range are in order. -/
def inOrder : ClassItem Symbol → Bool
  | .one _ => true
  | .range low high => low.code ≤ high.code

/-- What an item of a class stands for. -/
def Holds (s : Symbol) : ClassItem Symbol → Prop
  | .one x => s = x
  | .range low high => low.code ≤ s.code ∧ s.code ≤ high.code

/-- Pairing up keeps its pairs when members change and dashes stay dashes. -/
theorem map_pairUp {f : α → β} {p : α → Bool} {q : β → Bool} {members : List α} (h : ∀ x ∈ members, p x = q (f x)) :
    (pairUp p members).map (map f) = pairUp q (members.map f) := by
  fun_induction pairUp p members with
  | case1 low d high rest hd ih =>
    have hq : q (f d) = true := by rw [← h d (by simp), hd]
    simp only [List.map_cons, pairUp, hq, if_true, map]
    rw [ih fun x hx => h x (by simp [hx])]
  | case2 x d y rest hd ih =>
    have hq : ¬ q (f d) = true := by rw [← h d (by simp)]; exact hd
    simp only [List.map_cons, pairUp, hq, map]
    rw [ih fun x hx => h x (List.mem_cons_of_mem _ hx)]
    rfl
  | case3 x rest hrest ih =>
    match rest, hrest with
    | [], _ => rfl
    | [_], _ => rfl
    | d :: y :: rest, hrest => exact absurd rfl (hrest d y rest)
  | case4 => rfl

end ClassItem

/-! ## Classes -/

namespace CharClass

/-- Some item that the members pair up to means a symbol iff the members list it. -/
theorem any_pairUp_iff_lists (members : Text) (s : Symbol) :
    (ClassItem.pairUp (· = dash) members).any (ClassItem.accepts s) = true ↔ Lists members s := by
  fun_induction ClassItem.pairUp (· = dash) members with
  | case1 low d high rest hd ih =>
    obtain rfl : d = dash := by simpa using hd
    simp only [List.any_cons, Bool.or_eq_true, ih, ClassItem.accepts, Bool.and_eq_true, decide_eq_true_eq]
    constructor
    · rintro (⟨hl, hh⟩ | h)
      · exact .range hl hh
      · exact .afterRange h
    · intro h
      cases h with
      | range hl hh => exact Or.inl ⟨hl, hh⟩
      | afterRange h => exact Or.inr h
      | single hr => exact absurd ⟨_, _, _, rfl⟩ hr
      | afterSingle hr _ => exact absurd ⟨_, _, _, rfl⟩ hr
  | case2 x d y rest hd ih =>
    have hr : ¬ BeginsRange (x :: d :: y :: rest) := by
      rintro ⟨low, high, rest', e⟩
      simp only [List.cons.injEq] at e
      exact hd (by simp [e.2.1])
    simp only [List.any_cons, Bool.or_eq_true, ih, ClassItem.accepts, decide_eq_true_eq]
    constructor
    · rintro (rfl | h)
      · exact .single hr
      · exact .afterSingle hr h
    · intro h
      cases h with
      | range => exact absurd ⟨_, _, _, rfl⟩ hr
      | afterRange => exact absurd ⟨_, _, _, rfl⟩ hr
      | single => exact Or.inl rfl
      | afterSingle _ h => exact Or.inr h
  | case3 x rest hrest ih =>
    have hr : ¬ BeginsRange (x :: rest) := by
      rintro ⟨low, high, rest', e⟩
      exact hrest _ _ _ (List.cons.inj e).2
    simp only [List.any_cons, Bool.or_eq_true, ih, ClassItem.accepts, decide_eq_true_eq]
    constructor
    · rintro (rfl | h)
      · exact .single hr
      · exact .afterSingle hr h
    · intro h
      cases h with
      | range => exact absurd ⟨_, _, _, rfl⟩ hr
      | afterRange => exact absurd ⟨_, _, _, rfl⟩ hr
      | single => exact Or.inl rfl
      | afterSingle _ h => exact Or.inr h
  | case4 =>
    simp only [List.any_nil, Bool.false_eq_true, false_iff]
    intro h
    cases h

/-- A class accepts the symbols that it means. -/
theorem accepts_iff_means (c : CharClass) (s : Symbol) : c.accepts s = true ↔ c.Means s := by
  unfold accepts Means items
  rw [← any_pairUp_iff_lists]
  cases c.negated <;> simp

end CharClass

end DirWatch

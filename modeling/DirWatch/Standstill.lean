/-!
# Running to a standstill

A machine that moves on its own takes steps until none is left. The number of steps is bounded by a load that every
step lowers; most of it is a sum over what the machine still has to do (`total`).

* **Rest** (`step_settle`): after as many steps as the load allows, no step is left.
* **Invariants** (`settle_induction`): what every step keeps, settling keeps.
* **Histories** (`history_induction`, `step_history`): calls from outside are made one after another, each at a
  standstill.
-/

namespace DirWatch

variable {σ : Type}

/-- The sum of a measure over a list. -/
def total {α : Type} (f : α → Nat) : List α → Nat
  | [] => 0
  | a :: rest => f a + total f rest

@[simp] theorem total_nil {α : Type} (f : α → Nat) : total f [] = 0 := rfl

@[simp] theorem total_cons {α : Type} (f : α → Nat) (a : α) (rest : List α) :
    total f (a :: rest) = f a + total f rest := rfl

@[simp] theorem total_append {α : Type} (f : α → Nat) (xs ys : List α) :
    total f (xs ++ ys) = total f xs + total f ys := by
  induction xs with
  | nil => simp
  | cons x xs ih => simp [ih, Nat.add_assoc]

/-- Takes at most `n` steps, and fewer when none is left. -/
def settle (step : σ → Option σ) : Nat → σ → σ
  | 0, s => s
  | n + 1, s =>
    match step s with
    | none => s
    | some t => settle step n t

/-- A property that every step keeps holds after settling. -/
theorem settle_induction {step : σ → Option σ} {P : σ → Prop} (keep : ∀ s t, P s → step s = some t → P t) :
    ∀ (n : Nat) (s : σ), P s → P (settle step n s)
  | 0, _, h => h
  | n + 1, s, h => by
    unfold settle
    cases e : step s with
    | none => exact h
    | some t => exact settle_induction keep n t (keep s t h e)

/-- Where no step is left, settling changes nothing. -/
theorem settle_of_step_eq_none {step : σ → Option σ} {s : σ} (h : step s = none) (n : Nat) : settle step n s = s := by
  cases n with
  | zero => rfl
  | succ n => rw [settle, h]

/-- When every step lowers a load, as many steps as the load is high leave none. -/
theorem step_settle {step : σ → Option σ} {load : σ → Nat} (lower : ∀ s t, step s = some t → load t < load s) :
    ∀ (n : Nat) (s : σ), load s ≤ n → step (settle step n s) = none
  | 0, s, h => by
    cases e : step s with
    | none => exact e
    | some t => exact absurd (lower s t e) (by omega)
  | n + 1, s, h => by
    unfold settle
    cases e : step s with
    | none => exact e
    | some t => exact step_settle lower n t (by have := lower s t e; omega)

/-- The same where every step keeps an invariant, and lowers the load as long as that holds. -/
theorem step_settle_of_invariant {step : σ → Option σ} {load : σ → Nat} {P : σ → Prop}
    (keep : ∀ s t, P s → step s = some t → P t) (lower : ∀ s t, P s → step s = some t → load t < load s) :
    ∀ (n : Nat) (s : σ), P s → load s ≤ n → step (settle step n s) = none
  | 0, s, h, bound => by
    cases e : step s with
    | none => exact e
    | some t => exact absurd (lower s t h e) (by omega)
  | n + 1, s, h, bound => by
    unfold settle
    cases e : step s with
    | none => exact e
    | some t =>
      have := lower s t h e
      exact step_settle_of_invariant keep lower n t (keep s t h e) (by omega)

/-! ## Histories -/

section History
variable {α : Type} {call : σ → α → σ} {step : σ → Option σ} {load : σ → Nat}

/-- A property that every call and every step keeps holds after every history. -/
theorem history_induction {P : σ → Prop} (keepCall : ∀ s a, P s → P (call s a))
    (keepStep : ∀ s t, P s → step s = some t → P t) (actions : List α) {s : σ} (h : P s) :
    P (actions.foldl (fun s a => settle step (load (call s a)) (call s a)) s) := by
  induction actions generalizing s with
  | nil => exact h
  | cons a rest ih => exact ih (settle_induction keepStep _ _ (keepCall s a h))

/-- When every step lowers the load, no step is left after a history. -/
theorem step_history (lower : ∀ s t, step s = some t → load t < load s) {actions : List α} (h : actions ≠ []) (s : σ) :
    step (actions.foldl (fun s a => settle step (load (call s a)) (call s a)) s) = none := by
  induction actions generalizing s with
  | nil => exact absurd rfl h
  | cons a rest ih =>
    cases rest with
    | nil => exact step_settle lower _ _ (Nat.le_refl _)
    | cons b rest => exact ih (by simp) _

end History

end DirWatch

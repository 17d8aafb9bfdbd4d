import Mathlib.Data.List.Chain
import DirWatch.Standstill

/-!
# What a machine passes on its way

- While it settles a machine passes a state after each step (`settling`), the last of which is the state at rest.
- A history passes those and the state after each call (`passing`). What relates each of them to the next one is said of
  one call and of one step (`isChain_passing`).
-/

namespace DirWatch

section Settling
variable {σ : Type} {step : σ → Option σ}

/-- The states that a machine comes to while it settles, without the first one. -/
def settling (step : σ → Option σ) : Nat → σ → List σ
  | 0, _ => []
  | n + 1, s =>
    match step s with
    | none => []
    | some t => t :: settling step n t

/-- The last one is the state at rest. -/
theorem getLast?_settling (n : Nat) (s : σ) : (s :: settling step n s).getLast? = some (settle step n s) := by
  induction n generalizing s with
  | zero => rfl
  | succ n ih =>
    unfold settling settle
    cases e : step s with
    | none => rfl
    | some t => exact (List.getLast?_cons_cons ..).trans (ih t)

/-- What relates a state to the one after a step relates all neighbours, up to what comes behind the state at rest. -/
theorem isChain_settling {P : σ → Prop} {R : σ → σ → Prop} (keep : ∀ s t, P s → step s = some t → P t)
    (edge : ∀ s t, P s → step s = some t → R s t) {behind : List σ} (n : Nat) {s : σ} (h : P s)
    (chain : (settle step n s :: behind).IsChain R) : (s :: (settling step n s ++ behind)).IsChain R := by
  induction n generalizing s with
  | zero => exact chain
  | succ n ih =>
    unfold settle at chain
    unfold settling
    cases e : step s with
    | none =>
      rw [e] at chain
      exact chain
    | some t =>
      rw [e] at chain
      exact List.isChain_cons_cons.2 ⟨edge s t h e, ih (keep s t h e) chain⟩

/-! ## Histories -/

variable {α : Type} {call : σ → α → σ} {load : σ → Nat}

/-- The states that a history passes: after each call, and after each step on the way to the next standstill. -/
def passing (call : σ → α → σ) (step : σ → Option σ) (load : σ → Nat) (s : σ) : List α → List σ
  | [] => []
  | a :: rest =>
    call s a :: (settling step (load (call s a)) (call s a) ++
      passing call step load (settle step (load (call s a)) (call s a)) rest)

/-- The last one is the state after the history. -/
theorem getLast?_passing (s : σ) (actions : List α) : (s :: passing call step load s actions).getLast? =
    some (actions.foldl (fun s a => settle step (load (call s a)) (call s a)) s) := by
  induction actions generalizing s with
  | nil => rfl
  | cons a rest ih =>
    have settled : (call s a :: settling step (load (call s a)) (call s a)).getLast? =
        some (settle step (load (call s a)) (call s a)) := getLast?_settling _ _
    have later := ih (settle step (load (call s a)) (call s a))
    rw [List.getLast?_cons] at later
    rw [passing, List.getLast?_cons_cons, ← List.cons_append, List.getLast?_append, settled, Option.or_some]
    exact later

/-- What relates a state to the one after a call, and to the one after a step, relates all that a history passes. Calls
come where `Q` holds, which is at a standstill. -/
theorem isChain_passing {P Q : σ → Prop} {R : σ → σ → Prop} (lower : ∀ s t, step s = some t → load t < load s)
    (callKeep : ∀ s a, Q s → P (call s a)) (stepKeep : ∀ s t, P s → step s = some t → P t)
    (still : ∀ s, P s → step s = none → Q s) (callEdge : ∀ s a, Q s → R s (call s a))
    (stepEdge : ∀ s t, P s → step s = some t → R s t) {s : σ} (h : Q s) (actions : List α) :
    (s :: passing call step load s actions).IsChain R := by
  induction actions generalizing s with
  | nil => exact .singleton s
  | cons a rest ih =>
    have called : P (call s a) := callKeep s a h
    have settled : P (settle step (load (call s a)) (call s a)) := settle_induction stepKeep _ _ called
    have next := ih (still _ settled (step_settle lower _ _ (Nat.le_refl _)))
    exact List.isChain_cons_cons.2 ⟨callEdge s a h, isChain_settling stepKeep stepEdge _ called next⟩

end Settling

end DirWatch

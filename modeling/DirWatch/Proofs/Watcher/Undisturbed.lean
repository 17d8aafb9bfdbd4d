import DirWatch.Proofs.Watcher.Attempts
import DirWatch.Proofs.Watcher.Lifecycle

/-!
# What leaves the first start alone

Only the first start and the gate bring observers up, and only a stop shuts one down. Every other call and every other
move leaves the observers, their calls and the first start as they are (`undisturbed_call`, `undisturbed_step`), and so
does a history of such calls where no observer is held (`undisturbed_run`).
-/

namespace DirWatch

namespace Watcher

variable {w v : Watcher}

/-- The file table after actions. -/
def tableAfter (t : FileTable) (actions : List Action) : FileTable :=
  actions.foldl (fun t a => match a with | .change c => t.apply c | _ => t) t

/-- Whether an action opens the gate. -/
def Action.opens : Action → Bool
  | .release => true
  | _ => false

theorem tableAfter_cons (t : FileTable) (a : Action) (rest : List Action) :
    tableAfter t (a :: rest) = tableAfter (tableAfter t [a]) rest := rfl

/-- What leaves the first start and its observers alone. -/
structure Undisturbed (w v : Watcher) : Prop where
  starts : v.starts.head? = w.starts.head?
  waiting : v.waiting = w.waiting
  options : v.options = w.options
  stopping : v.stopping = w.stopping
  polling : v.polling = w.polling
  behaviour : v.site.behaviour = w.site.behaviour
  roster : v.site.roster = w.site.roster
  calls : v.site.calls = w.site.calls

theorem Undisturbed.trans {u : Watcher} (h : Undisturbed w v) (k : Undisturbed v u) : Undisturbed w u where
  starts := k.starts.trans h.starts
  waiting := k.waiting.trans h.waiting
  options := k.options.trans h.options
  stopping := k.stopping.trans h.stopping
  polling := k.polling.trans h.polling
  behaviour := k.behaviour.trans h.behaviour
  roster := k.roster.trans h.roster
  calls := k.calls.trans h.calls

/-- What an observer's handler hears is its own affair. -/
theorem hear_same (s : Site) (i : Nat) (n : Notice) : (s.hear i n).1.roster = s.roster ∧
    (s.hear i n).1.behaviour = s.behaviour ∧ (s.hear i n).1.table = s.table ∧ (s.hear i n).1.gateOpen = s.gateOpen := by
  unfold Site.hear
  split
  · exact ⟨rfl, rfl, rfl, rfl⟩
  · exact ⟨Site.roster_update fun _ => ⟨rfl, rfl⟩, rfl, rfl, rfl⟩

/-- A call, unless it is the first start or a stop. -/
theorem undisturbed_call {a : Action} (later : w.starts = [] → ∀ r c, a ≠ .start r c) (unstopped : a ≠ .stop) :
    Undisturbed w (w.call a) ∧ (w.call a).site.table = tableAfter w.site.table [a] ∧
      (w.call a).site.gateOpen = (w.site.gateOpen || a.opens) := by
  cases a with
  | start r c =>
    have started : w.starts ≠ [] := fun none => later none r c rfl
    rw [call, start_of_started started]
    refine ⟨⟨?_, rfl, rfl, rfl, rfl, rfl, rfl, rfl⟩, rfl, (Bool.or_false _).symm⟩
    cases e : w.starts with
    | nil => exact absurd e started
    | cons first rest => rfl
  | stop => exact absurd rfl unstopped
  | feed notices =>
    unfold call
    dsimp only
    split <;> exact ⟨⟨rfl, rfl, rfl, rfl, rfl, rfl, rfl, rfl⟩, rfl, (Bool.or_false _).symm⟩
  | kill part =>
    unfold call
    dsimp only
    split
    · exact ⟨⟨rfl, rfl, rfl, rfl, rfl, rfl, rfl, rfl⟩, rfl, (Bool.or_false _).symm⟩
    · rename_i i _
      cases part with
      | observer =>
        refine ⟨⟨rfl, rfl, rfl, rfl, rfl, rfl, ?_, rfl⟩, rfl, (Bool.or_false _).symm⟩
        exact Site.roster_update fun _ => ⟨rfl, rfl⟩
      | emitter =>
        refine ⟨⟨rfl, rfl, rfl, rfl, rfl, rfl, ?_, rfl⟩, rfl, (Bool.or_false _).symm⟩
        exact Site.roster_update fun _ => ⟨rfl, rfl⟩
  | release => exact ⟨⟨rfl, rfl, rfl, rfl, rfl, rfl, rfl, rfl⟩, rfl, (Bool.or_true _).symm⟩
  | _ => exact ⟨⟨rfl, rfl, rfl, rfl, rfl, rfl, rfl, rfl⟩, rfl, (Bool.or_false _).symm⟩

/-- A move, unless it is that of an observer that was held. -/
theorem undisturbed_step (e : w.step = some v) :
    (Undisturbed w v ∧ v.site.table = w.site.table ∧ v.site.gateOpen = w.site.gateOpen) ∨
      (w.site.gateOpen = true ∧ ∃ x, w.waiting = some x ∧ v = w.passGate x) := by
  obtain ⟨channel, _, rfl⟩ | passed | ⟨r, hr, rfl⟩ | ⟨part, rfl⟩ := step_moves e
  · exact .inl ⟨⟨rfl, rfl, rfl, rfl, rfl, rfl, rfl, rfl⟩, rfl, rfl⟩
  · exact .inr passed
  · obtain ⟨front, i, total, send, n, ns, back, _, same⟩ := exists_of_hearNext hr
    have site : r.1 = (w.site.hear i n).1 := by rcases same with rfl | rfl <;> rfl
    obtain ⟨roster, behaviour, table, gate⟩ := hear_same w.site i n
    rw [← site] at roster behaviour table gate
    refine .inl ⟨⟨rfl, rfl, rfl, rfl, rfl, behaviour, roster, ?_⟩, table, gate⟩
    show r.1.calls = _
    rw [site, calls_hear]
  · exact .inl ⟨⟨rfl, rfl, rfl, rfl, rfl, rfl, rfl, rfl⟩, rfl, rfl⟩

theorem undisturbed_rest (waiting : w.waiting = none) : Undisturbed w w.rest := by
  refine settle_induction (P := Undisturbed w) (fun u v h e => ?_) _ _ ⟨rfl, rfl, rfl, rfl, rfl, rfl, rfl, rfl⟩
  obtain ⟨k, -⟩ | ⟨-, x, hx, -⟩ := undisturbed_step e
  · exact h.trans k
  · rw [h.waiting, waiting] at hx
    cases hx

/-- A history, unless the first start or a stop is in it, where no observer is held. -/
theorem undisturbed_run (waiting : w.waiting = none) {actions : List Action}
    (later : w.starts = [] → ∀ r c, .start r c ∉ actions) (unstopped : .stop ∉ actions) :
    Undisturbed w (w.run actions) := by
  induction actions generalizing w with
  | nil => exact ⟨rfl, rfl, rfl, rfl, rfl, rfl, rfl, rfl⟩
  | cons a rest ih =>
    have called := (undisturbed_call (fun none r c e => later none r c (e ▸ List.mem_cons_self))
      (fun e => unstopped (e ▸ List.mem_cons_self))).1
    have acted : Undisturbed w (w.act a) := called.trans (undisturbed_rest (called.waiting.trans waiting))
    refine acted.trans (ih (acted.waiting.trans waiting) (fun none r c hs => ?_) ?_)
    · have unstarted : w.starts = [] := by
        rw [← List.head?_eq_none_iff, ← acted.starts, none]
        rfl
      exact later unstarted r c (List.mem_cons_of_mem a hs)
    · exact fun hs => unstopped (List.mem_cons_of_mem a hs)

end Watcher
end DirWatch

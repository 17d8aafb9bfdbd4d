import DirWatch.Proofs.Scheduler.Steps

/-!
# Histories of a scheduler, job by job

A history is a list of moves. A move is a call from outside, or the run of the first job that is ready.

- **Ticks are moves** (`exists_moves`): whatever is called on a scheduler and however its loop turns, moves lead to the
  same state.
- **Calls** (`calls`): the calls that a history spawned, in order. A handler may spawn one as well.
- **Gates** (`left`): the calls whose gates were left, and how.
-/

namespace DirWatch
namespace Scheduler

/-! ## Moves -/

/-- A call from outside, or the run of the first job that is ready. -/
inductive Move where
  | spawn (h : Handler) (paths : List Text)
  | next
  | complete (gate : Nat) (r : Gate.Result)
  | openDoor
  | waitIdle

/-- Makes a move. -/
def move (s : Scheduler) : Move → Scheduler
  | .spawn h paths => s.spawn h paths
  | .next => s.runNext?.getD s
  | .complete gate r => s.completeGate gate r
  | .openDoor => s.openDoor
  | .waitIdle => s.waitIdle

/-- Makes moves in order. -/
def run (s : Scheduler) (moves : List Move) : Scheduler := moves.foldl move s

variable {s : Scheduler}

theorem run_append (before after : List Move) : s.run (before ++ after) = (s.run before).run after :=
  List.foldl_append

/-- What every move keeps, a history keeps. -/
theorem run_induction {P : Scheduler → Prop} (keep : ∀ s m, P s → P (s.move m)) (h : P s) (moves : List Move) :
    P (s.run moves) := by
  induction moves generalizing s with
  | nil => exact h
  | cons m rest ih => exact ih (keep s m h)

/-- The scheduler without the first job. -/
def popped (s : Scheduler) (rest : List Job) : Scheduler := { s with ready := rest }

/-- A move runs the first job. -/
theorem move_next {j : Job} (front : s.ready = j :: rest) : s.move .next = (s.popped rest).runJob j := by
  simp [move, runNext?, front, popped]

theorem move_next_of_idle (idle : s.ready = []) : s.move .next = s := by
  simp [move, runNext?, idle]

/-- The move that an action is, unless it is a turn of the loop. -/
def Action.outside? : Action → Option Move
  | .spawn h paths => some (.spawn h paths)
  | .tick => none
  | .idle => none
  | .complete gate r => some (.complete gate r)
  | .openDoor => some .openDoor
  | .waitIdle => some .waitIdle

/-- Whether a move comes from outside. -/
def Move.isOutside : Move → Bool
  | .next => false
  | _ => true

/-- Steps of the loop are moves. -/
theorem settle_runNext (n : Nat) (s : Scheduler) : settle runNext? n s = s.run (List.replicate n .next) := by
  induction n generalizing s with
  | zero => rfl
  | succ n ih =>
    rw [settle, List.replicate_succ, run, List.foldl_cons, move]
    cases e : s.runNext? with
    | none => exact (settle_of_step_eq_none e n).symm.trans (ih s)
    | some t => exact ih t

theorem tick_eq_run (s : Scheduler) : s.tick = s.run (List.replicate s.ready.length .next) :=
  (tick_eq s).trans (settle_runNext _ s)

theorem idle_eq_run (s : Scheduler) : ∃ n, s.idle = s.run (List.replicate n .next) := by
  refine settle_induction (P := fun u => ∃ n, u = s.run (List.replicate n .next)) (fun t u ht e => ?_) _ s ⟨0, rfl⟩
  obtain ⟨n, rfl⟩ := ht
  unfold tick? at e
  split at e
  · cases e
  · cases e
    exact ⟨_, by rw [tick_eq_run, ← run_append, List.replicate_append_replicate]⟩

/-- **Ticks are moves**: the calls from outside are the same, and the jobs run between them. -/
theorem exists_moves (actions : List Action) (s : Scheduler) :
    ∃ moves, s.acts actions = s.run moves ∧ moves.filter Move.isOutside = actions.filterMap Action.outside? := by
  have turns (n : Nat) : (List.replicate n Move.next).filter Move.isOutside = [] := by simp [Move.isOutside]
  induction actions generalizing s with
  | nil => exact ⟨[], rfl, rfl⟩
  | cons a rest ih =>
    obtain ⟨moves, run, same⟩ := ih (s.act a)
    -- The moves that the first action is.
    have first : ∃ front, s.act a = s.run front ∧ front.filter Move.isOutside = (Action.outside? a).toList := by
      cases a with
      | tick => exact ⟨_, tick_eq_run s, turns _⟩
      | idle =>
        obtain ⟨n, e⟩ := idle_eq_run s
        exact ⟨_, e, turns n⟩
      | spawn h paths => exact ⟨[.spawn h paths], rfl, rfl⟩
      | complete gate r => exact ⟨[.complete gate r], rfl, rfl⟩
      | openDoor => exact ⟨[.openDoor], rfl, rfl⟩
      | waitIdle => exact ⟨[.waitIdle], rfl, rfl⟩
    obtain ⟨front, e, outside⟩ := first
    refine ⟨front ++ moves, ?_, ?_⟩
    · rw [run_append, ← e]
      exact run
    · rw [List.filter_append, outside, same]
      cases h : Action.outside? a <;> simp [h]

/-! ## What a history brings -/

/-- What the moves of a history bring, one after the other. -/
def gather {α : Type} (f : Scheduler → Move → List α) (s : Scheduler) : List Move → List α
  | [] => []
  | m :: rest => f s m ++ gather f (s.move m) rest

theorem gather_append {α : Type} (f : Scheduler → Move → List α) (before after : List Move) :
    gather f s (before ++ after) = gather f s before ++ gather f (s.run before) after := by
  induction before generalizing s with
  | nil => rfl
  | cons m rest ih => rw [List.cons_append, gather, ih, gather, List.append_assoc]; rfl

end Scheduler

/-- A call that was spawned. -/
structure Call where
  handler : Handler
  paths : List Text

namespace Scheduler

variable {s : Scheduler}

/-- The calls that a move spawns. -/
def spawns (s : Scheduler) : Move → List Call
  | .spawn h paths => [⟨h, paths⟩]
  | .next =>
    match s.ready with
    | .call _ ⟨name, .respawns⟩ paths :: _ => [⟨⟨name ++ "+", .plain⟩, paths⟩]
    | _ => []
  | _ => []

/-- The call whose gate a move leaves, with the way in which it is left. -/
def leaves (s : Scheduler) : Move → List (Nat × Gate.Result)
  | .complete g r =>
    match s.gates[g]? with
    | some gate => if gate.completed then [] else (s.tasks[gate.task]?.map fun k => (k.call, r)).toList
    | none => []
  | _ => []

/-- The calls that a history spawns, in order. -/
def calls (s : Scheduler) (moves : List Move) : List Call := gather spawns s moves

/-- The calls whose gates a history leaves, in order. -/
def left (s : Scheduler) (moves : List Move) : List (Nat × Gate.Result) := gather leaves s moves

/-- A move spawns at most one call. -/
theorem spawns_cases (s : Scheduler) (m : Move) : s.spawns m = [] ∨ ∃ c, s.spawns m = [c] := by
  unfold spawns
  split
  · exact .inr ⟨_, rfl⟩
  · split
    · exact .inr ⟨_, rfl⟩
    · exact .inl rfl
  · exact .inl rfl

theorem spawned_runJob_of_ne (s : Scheduler) {j : Job} (other : ∀ n h paths, j ≠ .call n h paths) :
    (s.runJob j).spawned = s.spawned := by
  cases j with
  | call n h paths => exact absurd rfl (other n h paths)
  | resume t =>
    rw [runJob]
    cases hk : s.tasks[t]? with
    | none => rfl
    | some k =>
      dsimp only
      cases moving : k.isMoving with
      | true => rw [stepTask_eq hk moving]; rfl
      | false => rw [stepTask_of_still moving]
  | collect t =>
    rw [runJob]
    cases s.tasks[t]? with
    | none => rfl
    | some k => exact congrArg (·.spawned) (collectTask_eq s t k)
  | joined w => exact congrArg (·.spawned) (alone_runJob (s := s) (j := .joined w) rfl)
  | check w => exact congrArg (·.spawned) (alone_runJob (s := s) (j := .check w) rfl)

/-- Calls are numbered in the order in which they were spawned. -/
theorem spawned_move (s : Scheduler) (m : Move) : (s.move m).spawned = s.spawned + (s.spawns m).length := by
  cases m with
  | spawn h paths => rfl
  | complete g r =>
    show (s.completeGate g r).spawned = s.spawned
    unfold completeGate
    split
    · rfl
    · split
      · rfl
      · dsimp only
        split <;> rfl
  | openDoor => exact congrArg (·.spawned) s.openDoor_eq
  | waitIdle => rfl
  | next =>
    cases front : s.ready with
    | nil => simp [move_next_of_idle front, spawns, front]
    | cons j rest =>
      rw [move_next front]
      cases j with
      | call n h paths =>
        obtain ⟨name, kind⟩ := h
        cases kind <;> simp [spawns, front, runJob, callHandler, spawn, push, note, report, addGate, addTask, popped]
      | _ => simp [spawns, front, spawned_runJob_of_ne, popped]

end Scheduler
end DirWatch

import DirWatch.Proofs.Scheduler.Jobs

/-!
# Failures of some calls

What would happen if some calls did not fail: a plain handler returns where it would have raised something, and a task
is cancelled. Nothing else changes but that these calls are not reported.

- **States** (`Scheduler.spare`): the scheduler as if some calls did not fail.
- **Histories** (`spare_run`): sparing these calls in all moves leads to that scheduler.
-/

namespace DirWatch

/-! ## What does not fail -/

/-- The body, cancelled where it would raise something. -/
def Handler.Body.spared : Handler.Body → Handler.Body
  | .raises _ => .cancels
  | body => body

/-- The handler, which raises nothing. -/
def Handler.spared (h : Handler) : Handler :=
  match h.kind with
  | .raises _ => { h with kind := .plain }
  | .task body => { h with kind := .task body.spared }
  | _ => h

/-- The way in which a gate is left, cancelled where it would fail. -/
def Gate.Result.spared : Gate.Result → Gate.Result
  | .failed _ => .cancelled
  | r => r

/-- The outcome, cancelled where something was raised. -/
def Task.Outcome.spared : Task.Outcome → Task.Outcome
  | .raised _ => .cancelled
  | o => o

/-- The state of a task that raises nothing. -/
def Task.State.spared : Task.State → Task.State
  | .resumed r => .resumed r.spared
  | .done o => .done o.spared
  | state => state

section
variable (q : Nat → Bool)

/-- The task, if its call is one of those that are spared, raises nothing. -/
def Task.spare (k : Task) : Task :=
  if q k.call then { k with body := k.body.spared, state := k.state.spared } else k

/-- The job, if it makes a call that is spared, does so with a handler that raises nothing. -/
def Job.spare : Job → Job
  | .call n h paths => .call n (if q n then h.spared else h) paths
  | j => j

namespace Scheduler

/-- The scheduler as if some calls did not fail. -/
def spare (s : Scheduler) : Scheduler :=
  { s with
    ready := s.ready.map (Job.spare q)
    tasks := s.tasks.map (Task.spare q)
    reports := s.reports.filter (!q ·.call) }

/-- The move, with calls that do not fail. -/
def spareMove (s : Scheduler) : Move → Move
  | .spawn h paths => .spawn (if q s.spawned then h.spared else h) paths
  | .complete g r =>
    .complete g (if (s.gates[g]?.bind fun gate => s.tasks[gate.task]?).any (q ·.call) then r.spared else r)
  | m => m

variable {q} {s : Scheduler} {t : Nat} {k : Task}

/-! ## Tasks -/

/-- The state of a task whose call may be spared. -/
def stateOf (q : Nat → Bool) (k : Task) (state : Task.State) : Task.State := if q k.call then state.spared else state

theorem getElem?_spare (t : Nat) : (s.spare q).tasks[t]? = s.tasks[t]?.map (Task.spare q) := List.getElem?_map ..

theorem isMoving_spare (k : Task) : (k.spare q).isMoving = k.isMoving := by
  unfold Task.spare
  split
  · unfold Task.isMoving
    cases k.state <;> rfl
  · rfl

theorem isWaiting_spare (k : Task) : (k.spare q).isWaiting = k.isWaiting := by
  unfold Task.spare
  split
  · unfold Task.isWaiting
    cases k.state <;> rfl
  · rfl

theorem spare_state (k : Task) (state : Task.State) :
    Task.spare q { k with state } = { k.spare q with state := stateOf q k state } := by
  unfold Task.spare stateOf
  split <;> rfl

theorem next_spare (door : Bool) (k : Task) :
    (k.spare q).next door = ((k.next door).1, stateOf q k (k.next door).2) := by
  unfold Task.spare stateOf
  split
  · unfold Task.next
    cases state : k.state with
    | fresh =>
      cases body : k.body with
      | sleeps n => cases n <;> rfl
      | waitsAtDoor => cases door <;> rfl
      | _ => rfl
    | asleep n => cases n <;> rfl
    | resumed r =>
      have same : k.body.spared = .waitsAtDoor ↔ k.body = .waitsAtDoor := by
        cases k.body <;> simp [Handler.Body.spared]
      by_cases here : k.body = .waitsAtDoor
      · simp [Task.State.spared, here, Handler.Body.spared, Task.Outcome.spared]
      · cases r <;> simp [Task.State.spared, Gate.Result.spared, here, same, Task.Outcome.spared]
    | _ => rfl
  · rfl

theorem jobs_spare (t : Nat) (k : Task) (state : Task.State) :
    (k.jobs t state).map (Job.spare q) = (k.spare q).jobs t (stateOf q k state) := by
  have joiners : (k.spare q).joiners = k.joiners := by
    unfold Task.spare
    split <;> rfl
  unfold stateOf
  split <;> cases state <;> simp [Task.jobs, Job.spare, Task.State.spared, joiners, Function.comp_def]

theorem takesGate_spare (k : Task) : (k.spare q).takesGate = k.takesGate := by
  unfold Task.spare
  split
  · unfold Task.takesGate
    cases k.state with
    | fresh => cases k.body <;> rfl
    | _ => rfl
  · rfl

theorem afterGate_spare (k : Task) (r : Gate.Result) :
    (k.spare q).afterGate (if q k.call then r.spared else r) = stateOf q k (k.afterGate r) := by
  unfold Task.spare stateOf
  split
  · unfold Task.afterGate
    cases k.state <;> cases r <;> rfl
  · rfl

theorem waitsAtDoor_spare (k : Task) : waitsAtDoor (k.spare q) = waitsAtDoor k := by
  unfold Task.spare
  split
  · unfold waitsAtDoor
    cases k.state with
    | waiting => cases k.body <;> rfl
    | _ => rfl
  · rfl

theorem opened_spare (k : Task) : opened (k.spare q) = (opened k).spare q := by
  unfold opened
  rw [waitsAtDoor_spare]
  split
  · unfold Task.spare pastDoor
    dsimp only
    split <;> rfl
  · rfl

theorem collected_spare (k : Task) : (k.spare q).collected = k.collected := by
  unfold Task.spare
  split <;> rfl

theorem call_spare (k : Task) : (k.spare q).call = k.call ∧ (k.spare q).handler = k.handler := by
  unfold Task.spare
  split <;> exact ⟨rfl, rfl⟩

/-- A task that is spared is not reported. -/
theorem raised_spare (k : Task) : (k.spare q).raised?.toList = k.raised?.toList.filter (!q ·.call) := by
  unfold Task.spare
  split
  · rename_i here
    unfold Task.raised?
    cases k.state with
    | done o => cases o <;> simp [Task.State.spared, Task.Outcome.spared, here]
    | _ => rfl
  · rename_i here
    unfold Task.raised?
    cases k.state with
    | done o => cases o <;> simp [here]
    | _ => rfl

/-! ## Schedulers -/

theorem spare_turn (hk : s.tasks[t]? = some k) (state : Task.State) :
    (s.turn t k state).spare q = (s.spare q).turn t (k.spare q) (stateOf q k state) := by
  have tasks : (s.tasks.modify t fun k => { k with state }).map (Task.spare q) =
      (s.tasks.map (Task.spare q)).modify t fun x => { x with state := stateOf q k state } :=
    map_modify hk (spare_state k state)
  simp only [Scheduler.spare, turn, List.map_append, jobs_spare, tasks]

/-- **A task takes a step**, whether it is spared or not. -/
theorem spare_step (hk : s.tasks[t]? = some k) : (s.step t k).spare q = (s.spare q).step t (k.spare q) := by
  have turned := spare_turn (q := q) hk (k.next s.doorOpen).2
  have next : (k.spare q).next (s.spare q).doorOpen = _ := next_spare s.doorOpen k
  unfold Scheduler.step
  rw [next, takesGate_spare, (call_spare k).1, (call_spare k).2]
  dsimp only
  rw [← turned]
  rfl

/-- **The scheduler lets go of a task**, and reports what it raised unless it is spared. -/
theorem spare_letGo (hk : s.tasks[t]? = some k) : (s.letGo t k).spare q = (s.spare q).letGo t (k.spare q) := by
  have collected : Task.spare q { k with collected := true } = { k.spare q with collected := true } := by
    unfold Task.spare
    dsimp only
    split <;> rfl
  have tasks : (s.tasks.modify t fun k => { k with collected := true }).map (Task.spare q) =
      (s.tasks.map (Task.spare q)).modify t fun x => { x with collected := true } :=
    map_modify hk collected
  simp only [Scheduler.spare, letGo, List.filter_append, raised_spare, tasks]

/-- **A gate is left**, and does not fail if its task is spared. -/
theorem spare_leave {g : Nat} {gate : Gate} (hk : s.tasks[gate.task]? = some k) (r : Gate.Result) :
    (s.leave g gate k r).spare q = (s.spare q).leave g gate (k.spare q) (if q k.call then r.spared else r) := by
  unfold leave
  rw [afterGate_spare, ← spare_turn hk]
  rfl

theorem atDoor_spare : (s.spare q).atDoor = s.atDoor := by
  simp [atDoor, Scheduler.spare, List.zipIdx_map, List.filter_map, Function.comp_def, waitsAtDoor_spare]

/-- **The door is opened.** -/
theorem spare_openDoor : s.openDoor.spare q = (s.spare q).openDoor := by
  rw [openDoor_eq, openDoor_eq, atDoor_spare]
  simp [Scheduler.spare, Job.spare, opened_spare]

/-- **A handler is called**, and raises nothing if it is spared. -/
theorem spare_callHandler (n : Nat) (h : Handler) (paths : List Text) :
    (s.callHandler n h paths).spare q = (s.spare q).callHandler n (if q n then h.spared else h) paths := by
  obtain ⟨name, kind⟩ := h
  cases here : q n with
  | false =>
    cases kind <;>
      simp [callHandler, Scheduler.spare, note, report, spawn, push, addGate, addTask, Job.spare, Task.spare, here,
        Handler.spared]
  | true =>
    cases kind <;>
      simp [callHandler, Scheduler.spare, note, report, spawn, push, addGate, addTask, Job.spare, Task.spare, here,
        Handler.spared, Handler.Body.spared, Task.State.spared]

theorem spare_push {j : Job} (wait : j.isWait = true) : (s.push j).spare q = (s.spare q).push j := by
  have same : j.spare q = j := by cases j <;> simp_all [Job.isWait, Job.spare]
  simp [Scheduler.spare, push, same]

theorem pendingTasks_spare : (s.spare q).pendingTasks = s.pendingTasks := by
  simp [pendingTasks, Scheduler.spare, List.zipIdx_map, List.filter_map, Function.comp_def, collected_spare]

theorem spare_update (t : Nat) {f : Task → Task} (same : ∀ k, (f k).spare q = f (k.spare q)) :
    (s.update t f).spare q = (s.spare q).update t f := by
  have tasks : (s.tasks.modify t f).map (Task.spare q) = (s.tasks.map (Task.spare q)).modify t f := by
    cases hk : s.tasks[t]? with
    | none =>
      have beyond : s.tasks.length ≤ t := List.getElem?_eq_none_iff.1 hk
      rw [List.modify_eq_self beyond, List.modify_eq_self (by simpa using beyond)]
    | some k => exact map_modify hk (same k)
  simp only [Scheduler.spare, update, tasks]

theorem spare_joinTask (w t : Nat) : (joinTask w s t).spare q = joinTask w (s.spare q) t := by
  have joined : (s.update t fun k => { k with joiners := k.joiners ++ [w] }).spare q =
      (s.spare q).update t fun k => { k with joiners := k.joiners ++ [w] } := by
    refine spare_update t fun k => ?_
    unfold Task.spare
    dsimp only
    split <;> rfl
  unfold joinTask
  rw [getElem?_spare]
  cases hk : s.tasks[t]? with
  | none => exact joined
  | some k =>
    have state : (k.spare q).state = stateOf q k k.state := by
      unfold Task.spare stateOf
      split <;> rfl
    rw [Option.map_some, Option.map_some, Option.map_some, state]
    unfold stateOf
    -- A task that is done is so when it is spared.
    cases k.state with
    | done o => cases q k.call <;> exact spare_push rfl
    | _ => cases q k.call <;> exact joined

theorem spare_foldl_joinTask (w : Nat) (ts : List Nat) :
    (ts.foldl (joinTask w) s).spare q = ts.foldl (joinTask w) (s.spare q) := by
  induction ts generalizing s with
  | nil => rfl
  | cons t ts ih => rw [List.foldl_cons, List.foldl_cons, ih, spare_joinTask]

/-- **A job of an idle wait** does not see what is spared. -/
theorem spare_runJob {j : Job} (wait : j.isWait = true) : (s.runJob j).spare q = (s.spare q).runJob j := by
  have waits (w : Nat) : (s.spare q).waits[w]? = s.waits[w]? := rfl
  cases j with
  | joined w =>
    rw [runJob, runJob, waits]
    cases s.waits[w]? with
    | none => rfl
    | some x =>
      dsimp only [countJoined]
      split
      · exact spare_push rfl
      · rfl
  | check w =>
    rw [runJob, runJob, waits]
    cases s.waits[w]? with
    | none => rfl
    | some x =>
      dsimp only [checkIdle]
      split
      · exact spare_push rfl
      · rw [pendingTasks_spare]
        split
        · rfl
        · exact spare_foldl_joinTask w _
  | _ => cases wait

/-! ## Histories -/

/-- **Sparing calls changes nothing else**, in one move. -/
theorem spare_move (h : s.Sound) (m : Move) : (s.move m).spare q = (s.spare q).move (s.spareMove q m) := by
  cases m with
  | spawn handler paths => simp [Scheduler.move, spawn, push, Scheduler.spare, Job.spare, spareMove]
  | openDoor => exact spare_openDoor
  | waitIdle => exact spare_push rfl
  | complete g r =>
    by_cases gone : ∀ gate, s.gates[g]? = some gate → gate.completed = true
    · have left (r : Gate.Result) : (s.spare q).completeGate g r = s.spare q :=
        completeGate_eq_self (s := s.spare q) gone r
      rw [Scheduler.move, completeGate_eq_self gone]
      exact (left _).symm
    · obtain ⟨gate, hg, unleft⟩ : ∃ gate, s.gates[g]? = some gate ∧ gate.completed = false := by simpa using gone
      obtain ⟨k, hk, _, waits⟩ := h.gated.tasks gate (List.mem_of_getElem? hg)
      obtain ⟨waiting, -⟩ := waits unleft
      have there : (s.spare q).tasks[gate.task]? = some (k.spare q) := by rw [getElem?_spare, hk]; rfl
      have spared : s.spareMove q (.complete g r) = .complete g (if q k.call then r.spared else r) := by
        simp [spareMove, hg, hk]
      rw [spared, Scheduler.move, Scheduler.move, completeGate_eq hg unleft hk waiting,
        completeGate_eq (s := s.spare q) hg unleft there ((isWaiting_spare k).trans waiting)]
      exact spare_leave hk r
  | next =>
    show _ = (s.spare q).move .next
    cases front : s.ready with
    | nil =>
      have idle : (s.spare q).ready = [] := by simp [Scheduler.spare, front]
      rw [move_next_of_idle front, move_next_of_idle idle]
    | cons j rest =>
      have front' : (s.spare q).ready = j.spare q :: rest.map (Job.spare q) := by simp [Scheduler.spare, front]
      rw [move_next front, move_next front']
      cases j with
      | call n handler paths => exact spare_callHandler n handler paths
      | resume t =>
        obtain ⟨k, hk, moving⟩ := h.counted.moving (t := t) (by simp [front])
        have there : (s.popped rest).tasks[t]? = some k := hk
        have there' : ((s.popped rest).spare q).tasks[t]? = some (k.spare q) := by rw [getElem?_spare, there]; rfl
        show _ = ((s.popped rest).spare q).runJob (.resume t)
        rw [runJob, runJob, there, there']
        dsimp only
        rw [stepTask_eq there moving, stepTask_eq there' ((isMoving_spare k).trans moving)]
        exact spare_step there
      | collect t =>
        obtain ⟨k, hk, -⟩ := h.counted.spent (t := t) (by simp [front])
        have there : (s.popped rest).tasks[t]? = some k := hk
        have there' : ((s.popped rest).spare q).tasks[t]? = some (k.spare q) := by rw [getElem?_spare, there]; rfl
        show _ = ((s.popped rest).spare q).runJob (.collect t)
        rw [runJob, runJob, there, there']
        dsimp only
        rw [collectTask_eq, collectTask_eq]
        exact spare_letGo there
      | joined w => exact spare_runJob rfl
      | check w => exact spare_runJob rfl

/-- The moves, with calls that do not fail. -/
def spareMoves (q : Nat → Bool) (moves : List Move) : List Move := gather (fun s m => [s.spareMove q m]) {} moves

/-- **Sparing calls changes nothing else**: the scheduler is the one of the history in which they do not fail. -/
theorem spare_run (q : Nat → Bool) (moves : List Move) : (run {} moves).spare q = run {} (spareMoves q moves) := by
  have general (moves : List Move) (s : Scheduler) (h : s.Sound) : (s.run moves).spare q =
      (s.spare q).run (gather (fun s m => [s.spareMove q m]) s moves) := by
    induction moves generalizing s with
    | nil => rfl
    | cons m rest ih =>
      rw [gather, run_append]
      have first : (s.spare q).run [s.spareMove q m] = (s.move m).spare q := (spare_move h m).symm
      rw [first]
      exact ih (s.move m) (h.move m)
  exact general moves {} .new

end Scheduler
end
end DirWatch

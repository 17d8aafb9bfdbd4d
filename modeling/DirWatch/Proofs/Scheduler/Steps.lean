import DirWatch.Proofs.Scheduler.Effects

/-!
# What a move changes

Everything that a job or a call from outside does to tasks, written down as one record.

- **Turns** (`turn`): a task comes into another state, which makes jobs ready.
- **Steps** (`stepTask_eq`): a task that moves records what it did, and turns to its next state (`Task.next`).
- **Gates and the door** (`completeGate_eq`, `openDoor_eq`) turn tasks that wait there.
- **Idle waits** see tasks, and change nothing of them but who waits for them (`Scheduler.alone`, `alone_runJob`).
-/

namespace DirWatch

/-! ## States of tasks -/

/-- Whether a task came to its end. -/
def Task.isDone (k : Task) : Bool :=
  match k.state with
  | .done _ => true
  | _ => false

/-- Whether a task waits for something from outside. -/
def Task.isWaiting (k : Task) : Bool :=
  match k.state with
  | .waiting => true
  | .bare => true
  | _ => false

/-- What the next step of a task records, and the state that it leaves the task in. -/
def Task.next (door : Bool) (k : Task) : List Deed × Task.State :=
  match k.state with
  | .fresh =>
    match k.body with
    | .returns => ([.called k.paths], .done .returned)
    | .raises message => ([.called k.paths], .done (.raised (.runtime message)))
    | .cancels => ([.called k.paths], .done .cancelled)
    | .sleeps 0 => ([.called k.paths, .woke], .done .returned)
    | .sleeps (n + 1) => ([.called k.paths], .asleep n)
    | .waitsAtGate => ([.called k.paths], .waiting)
    | .waitsAtDoor => if door then ([.called k.paths, .passedDoor], .done .returned) else ([.called k.paths], .waiting)
  | .asleep 0 => ([.woke], .done .returned)
  | .asleep (n + 1) => ([], .asleep n)
  | .resumed r =>
    if k.body = .waitsAtDoor then ([.passedDoor], .done .returned)
    else
      match r with
      | .released v => ([.passedGate v], .done .returned)
      | .failed message => ([], .done (.raised (.os message)))
      | .cancelled => ([], .done .cancelled)
  | state => ([], state)

/-- The gate that the next step of a task takes. -/
def Task.takesGate (k : Task) : Bool :=
  match k.state with
  | .fresh => k.body = .waitsAtGate
  | _ => false

/-- The state of a task whose gate is left. -/
def Task.afterGate (k : Task) (r : Gate.Result) : Task.State :=
  match k.state, r with
  | .bare, .released _ => .done .returned
  | .bare, .failed message => .done (.raised (.os message))
  | .bare, .cancelled => .done .cancelled
  | _, r => .resumed r

/-- The jobs that are made ready when task `t` comes into a state. -/
def Task.jobs (t : Nat) (k : Task) : Task.State → List Job
  | .asleep _ => [.resume t]
  | .resumed _ => [.resume t]
  | .done _ => .collect t :: k.joiners.map .joined
  | _ => []

/-- The report of a task that raised something. -/
def Task.raised? (k : Task) : Option Report :=
  match k.state with
  | .done (.raised p) => some ⟨k.call, k.handler, p⟩
  | _ => none

/-- Whether a job is one of an idle wait. -/
def Job.isWait : Job → Bool
  | .joined _ => true
  | .check _ => true
  | _ => false

/-- The task as if nobody waited for it. -/
def Task.alone (k : Task) : Task := { k with joiners := [] }

namespace Scheduler

variable {s : Scheduler} {t : Nat} {k : Task}

/-- Task `t` comes into a state. -/
def turn (s : Scheduler) (t : Nat) (k : Task) (state : Task.State) : Scheduler :=
  { s with tasks := s.tasks.modify t fun k => { k with state }, ready := s.ready ++ k.jobs t state }

/-- Changing a task before or after all are seen in another way. -/
theorem map_modify {tasks : List Task} (hk : tasks[t]? = some k) {g f f' : Task → Task} (same : g (f k) = f' (g k)) :
    (tasks.modify t f).map g = (tasks.map g).modify t f' := by
  refine List.ext_getElem? fun i => ?_
  rw [List.getElem?_map, List.getElem?_modify, List.getElem?_modify, List.getElem?_map]
  by_cases here : t = i
  · subst here
    simp [hk, same]
  · simp [here]

theorem endTask_eq (hk : s.tasks[t]? = some k) (o : Task.Outcome) : s.endTask t o = s.turn t k (.done o) := by
  rw [endTask, hk]
  rfl

/-! ## Steps -/

/-- Task `t` takes its next step. -/
def step (s : Scheduler) (t : Nat) (k : Task) : Scheduler :=
  { s.turn t k (k.next s.doorOpen).2 with
    log := s.log ++ (k.next s.doorOpen).1.map (⟨k.call, k.handler, ·⟩)
    gates := s.gates ++ if k.takesGate then [{ task := t }] else [] }

/-- **A step of a task that moves.** -/
theorem stepTask_eq (hk : s.tasks[t]? = some k) (moving : k.isMoving = true) : s.stepTask t k = s.step t k := by
  have ends (log : List LogEntry) (o : Task.Outcome) :
      endTask { s with log } t o = turn { s with log } t k (.done o) := endTask_eq (s := { s with log }) hk o
  unfold Task.isMoving at moving
  unfold stepTask step Task.next Task.takesGate
  cases state : k.state with
  | fresh =>
    dsimp only [beginTask]
    cases body : k.body with
    | sleeps n =>
      cases n with
      | zero => simp [wake, note, ends, turn]
      | succ n => simp [sleep, note, push, update, turn, Task.jobs]
    | waitsAtDoor =>
      by_cases door : s.doorOpen = true
      · simp only [note, if_pos door, passDoor, ends]
        simp [turn]
      · simp [note, door, update, turn, Task.jobs]
    | _ => simp [note, ends, turn, addGate, update, Task.jobs]
  | asleep n =>
    cases n with
    | zero => simp [wake, note, ends, turn]
    | succ n => simp [sleep, push, update, turn, Task.jobs]
  | resumed r =>
    by_cases door : k.body = .waitsAtDoor
    · simp [door, passDoor, note, ends, turn]
    · cases r <;> simp [door, leaveGate, note, ends, turn]
  | _ => simp [state] at moving

/-- The scheduler lets go of task `t`. -/
def letGo (s : Scheduler) (t : Nat) (k : Task) : Scheduler :=
  { s with
    tasks := s.tasks.modify t fun k => { k with collected := true }
    reports := s.reports ++ k.raised?.toList }

/-- **The scheduler lets go of a task**, and reports what it raised. -/
theorem collectTask_eq (s : Scheduler) (t : Nat) (k : Task) : s.collectTask t k = s.letGo t k := by
  unfold collectTask letGo Task.raised?
  cases k.state with
  | done o => cases o <;> simp [update, report]
  | _ => simp [update]

/-- A step leaves no task fresh. -/
theorem next_ne_fresh (door : Bool) (moving : k.isMoving = true) : (k.next door).2 ≠ .fresh := by
  unfold Task.isMoving at moving
  unfold Task.next
  cases state : k.state with
  | fresh =>
    cases k.body with
    | sleeps n => cases n <;> simp
    | waitsAtDoor => cases door <;> simp
    | _ => simp
  | asleep n => cases n <;> simp
  | resumed r =>
    dsimp only
    split
    · simp
    · cases r <;> simp
  | _ => simp [state] at moving

/-- A task that takes a gate waits there. -/
theorem next_of_takesGate (door : Bool) (takes : k.takesGate = true) :
    k.state = .fresh ∧ k.body = .waitsAtGate ∧ (k.next door).2 = .waiting := by
  unfold Task.takesGate at takes
  cases state : k.state with
  | fresh =>
    have body : k.body = .waitsAtGate := by simpa [state] using takes
    exact ⟨rfl, body, by simp [Task.next, state, body]⟩
  | _ => simp [state] at takes

theorem afterGate_ne_fresh (k : Task) (r : Gate.Result) : k.afterGate r ≠ .fresh := by
  unfold Task.afterGate
  split <;> simp

/-! ## Gates and the door -/

/-- Gate `g` is left, and its task comes into another state. -/
def leave (s : Scheduler) (g : Nat) (gate : Gate) (k : Task) (r : Gate.Result) : Scheduler :=
  { s.turn gate.task k (k.afterGate r) with gates := s.gates.modify g fun x => { x with completed := true } }

/-- **A gate that was not left yet is left.** -/
theorem completeGate_eq {g : Nat} {gate : Gate} (hg : s.gates[g]? = some gate) (here : gate.completed = false)
    (hk : s.tasks[gate.task]? = some k) (waiting : k.isWaiting = true) (r : Gate.Result) :
    s.completeGate g r = s.leave g gate k r := by
  have ends (gates : List Gate) (o : Task.Outcome) :
      endTask { s with gates } gate.task o = turn { s with gates } gate.task k (.done o) :=
    endTask_eq (s := { s with gates }) hk o
  unfold Task.isWaiting at waiting
  unfold completeGate leave Task.afterGate
  cases state : k.state with
  | waiting => simp [hg, here, hk, state, push, update, turn, Task.jobs]
  | bare => cases r <;> simp [hg, here, hk, state, ends, turn]
  | _ => simp [state] at waiting

/-- A gate that was left, or that there is not, is not left again. -/
theorem completeGate_eq_self {g : Nat} (gone : ∀ gate, s.gates[g]? = some gate → gate.completed = true)
    (r : Gate.Result) : s.completeGate g r = s := by
  unfold completeGate
  cases hg : s.gates[g]? with
  | none => rfl
  | some gate => simp [gone gate hg]

/-- The tasks that wait at the door. -/
def atDoor (s : Scheduler) : List Nat := (s.tasks.zipIdx.filter (waitsAtDoor ·.1)).map (·.2)

theorem mem_atDoor : t ∈ s.atDoor ↔ ∃ k, s.tasks[t]? = some k ∧ waitsAtDoor k = true := by
  simp [atDoor, List.mem_zipIdx_iff_getElem?]

theorem nodup_atDoor (s : Scheduler) : s.atDoor.Nodup := by
  have numbers : (s.tasks.zipIdx.map (·.2)).Nodup := by
    rw [List.zipIdx_map_snd]
    exact List.nodup_range'
  exact numbers.sublist (List.filter_sublist.map _)

/-- A task that goes on past the door. -/
def pastDoor (k : Task) : Task := { k with state := .resumed (.released .none) }

/-- The task when the door is opened. -/
def opened (k : Task) : Task := if waitsAtDoor k then pastDoor k else k

/-- Changing tasks one after another changes nothing else. -/
theorem foldl_update (f : Task → Task) (ts : List Nat) (s : Scheduler) :
    ts.foldl (fun s t => s.update t f) s = { s with tasks := ts.foldl (fun tasks t => tasks.modify t f) s.tasks } := by
  induction ts generalizing s with
  | nil => rfl
  | cons t ts ih => exact ih (s.update t f)

theorem getElem?_foldl_modify {f : Task → Task} (twice : ∀ k, f (f k) = f k) (ts : List Nat) (tasks : List Task)
    (i : Nat) : (ts.foldl (fun tasks t => tasks.modify t f) tasks)[i]? =
      tasks[i]?.map fun k => if i ∈ ts then f k else k := by
  induction ts generalizing tasks with
  | nil => simp
  | cons t ts ih =>
    rw [List.foldl_cons, ih]
    simp only [List.getElem?_modify, List.mem_cons]
    cases tasks[i]? with
    | none => rfl
    | some k =>
      by_cases same : i = t
      · simp [same, twice]
      · simp [same, Ne.symm same]

/-- **Opening the door** lets the tasks that wait there go on. -/
theorem openDoor_eq (s : Scheduler) : s.openDoor = { s with
    doorOpen := true, tasks := s.tasks.map opened, ready := s.ready ++ s.atDoor.map .resume } := by
  have tasks : s.atDoor.foldl (fun tasks t => tasks.modify t pastDoor) s.tasks = s.tasks.map opened := by
    refine List.ext_getElem? fun i => ?_
    rw [getElem?_foldl_modify (f := pastDoor) (fun _ => rfl), List.getElem?_map]
    refine Option.map_congr fun k hk => ?_
    have here : i ∈ s.atDoor ↔ waitsAtDoor k = true := by simp [mem_atDoor, Option.mem_def.1 hk]
    simp [opened, here]
  unfold openDoor
  dsimp only
  rw [foldl_update, ← tasks]
  rfl

/-! ## Idle waits -/

/-- The scheduler as if nobody waited until no task is pending. -/
def alone (s : Scheduler) : Scheduler :=
  { s with ready := s.ready.filter (!·.isWait), tasks := s.tasks.map Task.alone, waits := [] }

theorem alone_push_wait {j : Job} (wait : j.isWait = true) : (s.push j).alone = s.alone := by
  simp [alone, push, wait]

theorem alone_update (t : Nat) {f : Task → Task} (same : ∀ k, (f k).alone = k.alone) :
    (s.update t f).alone = s.alone := by
  have tasks : (s.tasks.modify t f).map Task.alone = s.tasks.map Task.alone := by
    refine List.ext_getElem? fun i => ?_
    rw [List.getElem?_map, List.getElem?_map, List.getElem?_modify]
    cases s.tasks[i]? with
    | none => rfl
    | some k =>
      by_cases here : t = i
      · simp [here, same]
      · simp [here]
  simp only [alone, update, tasks]

theorem alone_joinTask (w t : Nat) : (joinTask w s t).alone = s.alone := by
  unfold joinTask
  split
  · exact alone_push_wait rfl
  · exact alone_update t fun _ => rfl

theorem alone_foldl_joinTask (w : Nat) (ts : List Nat) : (ts.foldl (joinTask w) s).alone = s.alone := by
  induction ts generalizing s with
  | nil => rfl
  | cons t ts ih => exact ih.trans (alone_joinTask w t)

/-- **Waiting changes nothing but waits**: not the jobs of handlers, and nothing of tasks but who waits for them. -/
theorem alone_runJob {j : Job} (wait : j.isWait = true) : (s.runJob j).alone = s.alone := by
  cases j with
  | joined w =>
    rw [runJob]
    cases s.waits[w]? with
    | none => rfl
    | some x =>
      dsimp only [countJoined]
      split
      · exact alone_push_wait rfl
      · rfl
  | check w =>
    rw [runJob]
    cases s.waits[w]? with
    | none => rfl
    | some x =>
      dsimp only [checkIdle]
      split
      · exact alone_push_wait rfl
      · split
        · rfl
        · exact alone_foldl_joinTask w _
  | _ => cases wait

section Alone
variable {s' : Scheduler} (same : s'.alone = s.alone)
include same

/-- What is read off the jobs that are none of idle waits. -/
theorem filterMap_of_alone_eq {β : Type} {f : Job → Option β} (blind : ∀ j, j.isWait = true → f j = none) :
    s'.ready.filterMap f = s.ready.filterMap f := by
  have others (jobs : List Job) : (jobs.filter (!·.isWait)).filterMap f = jobs.filterMap f := by
    induction jobs with
    | nil => rfl
    | cons j rest ih => cases wait : j.isWait <;> simp [List.filterMap_cons, wait, blind, ih]
  rw [← others s'.ready, ← others s.ready]
  exact congrArg (·.ready.filterMap f) same

/-- What is read off tasks, but who waits for them. -/
theorem apply_tasks_of_alone_eq {β : Type} {g : List Task → β} (blind : ∀ tasks, g (tasks.map Task.alone) = g tasks) :
    g s'.tasks = g s.tasks := by
  rw [← blind s'.tasks, ← blind s.tasks]
  exact congrArg (g ·.tasks) same

/-- What is read off one task, but who waits for it. -/
theorem map_getElem?_of_alone_eq {β : Type} {f : Task → β} (blind : ∀ k, f k.alone = f k) (t : Nat) :
    s'.tasks[t]?.map f = s.tasks[t]?.map f := by
  refine apply_tasks_of_alone_eq same (g := fun tasks => tasks[t]?.map f) fun tasks => ?_
  rw [List.getElem?_map, Option.map_map]
  exact Option.map_congr fun k _ => blind k

/-- What all tasks have, but who waits for them. -/
theorem forall_mem_of_alone_eq {P : Task → Prop} (blind : ∀ k, P k.alone ↔ P k) (h : ∀ k ∈ s.tasks, P k) :
    ∀ k ∈ s'.tasks, P k := by
  have all : (∀ k ∈ s'.tasks, P k) = ∀ k ∈ s.tasks, P k :=
    apply_tasks_of_alone_eq same (g := fun tasks => ∀ k ∈ tasks, P k) fun tasks => by simp [blind]
  exact all ▸ h

end Alone

end Scheduler
end DirWatch

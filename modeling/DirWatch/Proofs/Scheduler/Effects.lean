import DirWatch.Proofs.Scheduler.Loop
import DirWatch.Scheduler.Work

/-!
# What a job does

A job calls a handler, lets a task take a step, or does neither (`Effect`). A call is made at once, or it leaves a task
behind that makes it with its first step; a step leaves its task asleep, waiting or done (`StepEnd`).

- **Every call that is due is made once** (`due_runNext`): the calls that were made, that fresh tasks will make and that
  are ready are the same before and after a job.
- **Jobs run out** (`work_runNext_lt`): every job lowers what the loop has ahead of it (`work`).

Both are about loops on which nobody waits until no task is pending (`Steady`).
-/

namespace DirWatch

/-! ## Calls -/

/-- The calls that come of spawning a handler: its own, and that of the handler that it spawns. -/
def Handler.calls (h : Handler) (paths : List Text) : List (Text × List Text) :=
  match h.kind with
  | .respawns => [(h.name, paths), (h.name ++ "+", paths)]
  | _ => [(h.name, paths)]

/-- The calls that come of a job. -/
def Job.calls : Job → List (Text × List Text)
  | .call _ h paths => h.calls paths
  | _ => []

/-- The call that a fresh task will make. -/
def Task.unmade? (k : Task) : Option (Text × List Text) :=
  match k.state with
  | .fresh => some (k.handler, k.paths)
  | _ => none

/-- The call that an entry records. -/
def LogEntry.made? (e : LogEntry) : Option (Text × List Text) :=
  match e.deed with
  | .called paths => some (e.handler, paths)
  | _ => none

/-- Whether a task will take a step on its own. -/
def Task.isMoving (k : Task) : Bool :=
  match k.state with
  | .fresh => true
  | .asleep _ => true
  | .resumed _ => true
  | _ => false

/-- Every job is at least one. -/
theorem Job.work_pos (j : Job) (tasks : List Task) : 0 < j.work tasks := by
  cases j with
  | call number h paths =>
    obtain ⟨name, kind⟩ := h
    cases kind <;> simp [Job.work]
  | resume t =>
    rw [Job.work]
    cases tasks[t]? with
    | none => simp
    | some k =>
      rw [Option.map_some, Option.getD_some, Task.work]
      split <;> omega
  | collect t => simp [Job.work]
  | joined w => simp [Job.work]
  | check w => simp [Job.work]

namespace Scheduler

variable {s s' : Scheduler} {t : Nat} {k : Task}

/-- The calls that were made, with the names of the handlers. -/
def made (s : Scheduler) : List (Text × List Text) := s.log.filterMap LogEntry.made?

/-- The calls that were made or will be. -/
def due (s : Scheduler) : List (Text × List Text) :=
  s.made ++ s.tasks.filterMap Task.unmade? ++ s.ready.flatMap Job.calls

/-- How many jobs the loop has ahead of it, at most. -/
def work (s : Scheduler) : Nat := total (Job.work s.tasks) s.ready

theorem made_note (s : Scheduler) (call : Nat) (handler : Text) (deed : Deed) :
    (s.note call handler deed).made = s.made ++ (LogEntry.made? ⟨call, handler, deed⟩).toList := by
  simp only [made, note, List.filterMap_append, List.filterMap_cons, List.filterMap_nil]
  cases LogEntry.made? ⟨call, handler, deed⟩ <;> rfl

/-! ## Steps of tasks -/

/-- Where a step leaves task `t`, and the jobs that it makes ready. -/
inductive StepEnd (t : Nat) (k : Task) : Task.State → List Job → Prop
  | sleeps {n : Nat} (shorter : n + 2 < k.work) : StepEnd t k (.asleep n) [.resume t]
  | waits : StepEnd t k .waiting []
  | ends (o : Task.Outcome) : StepEnd t k (.done o) (.collect t :: k.joiners.map .joined)

/-- A step of task `t` that makes some calls. -/
def Stepped (s s' : Scheduler) (t : Nat) (k : Task) (calls : List (Text × List Text)) : Prop :=
  ∃ state jobs, StepEnd t k state jobs ∧ s'.tasks = s.tasks.modify t (fun k => { k with state }) ∧
    s'.ready = s.ready ++ jobs ∧ s'.made = s.made ++ calls ∧ s'.waits = s.waits

/-- What the task records first. -/
theorem Stepped.noted {call : Nat} {handler : Text} {deed : Deed} {calls : List (Text × List Text)}
    (h : Stepped (s.note call handler deed) s' t k calls) :
    Stepped s s' t k ((LogEntry.made? ⟨call, handler, deed⟩).toList ++ calls) := by
  obtain ⟨state, jobs, stepEnd, tasks, ready, made, waits⟩ := h
  rw [made_note, List.append_assoc] at made
  exact ⟨state, jobs, stepEnd, tasks, ready, made, waits⟩

theorem stepped_endTask (hk : s.tasks[t]? = some k) (o : Task.Outcome) : Stepped s (s.endTask t o) t k [] := by
  have joiners : (s.tasks[t]?.map (·.joiners)).getD [] = k.joiners := by rw [hk]; rfl
  refine ⟨.done o, _, .ends o, rfl, ?_, (List.append_nil _).symm, rfl⟩
  rw [endTask, joiners]
  rfl

theorem stepped_sleep {n : Nat} (shorter : n + 2 < k.work) : Stepped s (s.sleep t n) t k [] :=
  ⟨.asleep n, _, .sleeps shorter, rfl, rfl, (List.append_nil _).symm, rfl⟩

theorem stepped_wake (hk : s.tasks[t]? = some k) : Stepped s (s.wake t k) t k [] :=
  (stepped_endTask (s := s.note k.call k.handler .woke) hk .returned).noted

theorem stepped_passDoor (hk : s.tasks[t]? = some k) : Stepped s (s.passDoor t k) t k [] :=
  (stepped_endTask (s := s.note k.call k.handler .passedDoor) hk .returned).noted

/-- The first step of a task makes its call. -/
theorem stepped_beginTask (hk : s.tasks[t]? = some k) (fresh : k.state = .fresh) :
    Stepped s (s.beginTask t k) t k [(k.handler, k.paths)] := by
  have work : k.work = bodySleep k.body + 2 := by simp [Task.work, fresh]
  have first {s' : Scheduler} (h : Stepped (s.note k.call k.handler (.called k.paths)) s' t k []) :
      Stepped s s' t k [(k.handler, k.paths)] := h.noted
  have hk : (s.note k.call k.handler (.called k.paths)).tasks[t]? = some k := hk
  unfold beginTask
  dsimp only
  split
  · exact first (stepped_endTask hk _)
  · exact first (stepped_endTask hk _)
  · exact first (stepped_endTask hk _)
  · exact first (stepped_wake hk)
  · rename_i n body
    exact first (stepped_sleep (by rw [work, body]; simp [bodySleep]))
  · exact first ⟨.waiting, _, .waits, rfl, (List.append_nil _).symm, (List.append_nil _).symm, rfl⟩
  · split
    · exact first (stepped_passDoor hk)
    · exact first ⟨.waiting, _, .waits, rfl, (List.append_nil _).symm, (List.append_nil _).symm, rfl⟩

/-- **A step of a task that moves.** -/
theorem stepped_stepTask (hk : s.tasks[t]? = some k) (moving : k.isMoving = true) :
    Stepped s (s.stepTask t k) t k k.unmade?.toList := by
  unfold stepTask Task.unmade?
  cases state : k.state with
  | fresh => exact stepped_beginTask hk state
  | asleep n =>
    cases n with
    | zero => exact stepped_wake hk
    | succ n => exact stepped_sleep (by simp [Task.work, state])
  | resumed r =>
    dsimp only
    split
    · exact stepped_passDoor hk
    · cases r with
      | released v => exact (stepped_endTask (s := s.note k.call k.handler (.passedGate v)) hk .returned).noted
      | failed message => exact stepped_endTask hk _
      | cancelled => exact stepped_endTask hk _
  | waiting => simp [Task.isMoving, state] at moving
  | bare => simp [Task.isMoving, state] at moving
  | done o => simp [Task.isMoving, state] at moving

/-- A task that does not move has made its call. -/
theorem unmade_of_still (still : k.isMoving = false) : k.unmade? = none := by
  unfold Task.isMoving at still
  unfold Task.unmade?
  cases state : k.state <;> simp_all

/-- A task that does not move takes no step. -/
theorem stepTask_of_still (still : k.isMoving = false) : s.stepTask t k = s := by
  unfold Task.isMoving at still
  unfold stepTask
  cases state : k.state <;> simp_all

/-! ## Jobs -/

/-- What calling a handler leaves behind: tasks, which are numbered from `t` on, jobs, and calls that were made. -/
inductive CallEnd (h : Handler) (paths : List Text) (t : Nat) : List Task → List Job → List (Text × List Text) → Prop
  | done (alone : h.calls paths = [(h.name, paths)]) : CallEnd h paths t [] [] [(h.name, paths)]
  | again {next : Nat} (kind : h.kind = .respawns) :
      CallEnd h paths t [] [.call next ⟨h.name ++ "+", .plain⟩ paths] [(h.name, paths)]
  | waits {k : Task} (alone : h.calls paths = [(h.name, paths)]) (state : k.state = .bare) (joiners : k.joiners = []) :
      CallEnd h paths t [k] [] [(h.name, paths)]
  | begins {k : Task} (kind : h.kind = .task k.body) (handler : k.handler = h.name) (given : k.paths = paths)
      (state : k.state = .fresh) (joiners : k.joiners = []) : CallEnd h paths t [k] [.resume t] []

/-- What a job does. -/
inductive Effect (s : Scheduler) : Job → Scheduler → Prop
  | called {number : Nat} {h : Handler} {paths : List Text} {s' : Scheduler} {tasks : List Task} {jobs : List Job}
      {calls : List (Text × List Text)} (callEnd : CallEnd h paths s.tasks.length tasks jobs calls)
      (later : s'.tasks = s.tasks ++ tasks) (ready : s'.ready = s.ready ++ jobs) (made : s'.made = s.made ++ calls)
      (waits : s'.waits = s.waits) : Effect s (.call number h paths) s'
  | stepped {t : Nat} {k : Task} {s' : Scheduler} (hk : s.tasks[t]? = some k) (moving : k.isMoving = true)
      (stepped : Stepped s s' t k k.unmade?.toList) : Effect s (.resume t) s'
  | unmoved {t : Nat} (still : ∀ k, s.tasks[t]? = some k → k.isMoving = false) : Effect s (.resume t) s
  | collected {t : Nat} {s' : Scheduler} (later : s'.tasks = s.tasks.modify t fun k => { k with collected := true })
      (ready : s'.ready = s.ready) (made : s'.made = s.made) (waits : s'.waits = s.waits) : Effect s (.collect t) s'
  | vain {j : Job} (calls : j.calls = []) (resumes : ∀ t, j ≠ .resume t) : Effect s j s

theorem effect_callHandler (number : Nat) (h : Handler) (paths : List Text) :
    Effect s (.call number h paths) (s.callHandler number h paths) := by
  obtain ⟨name, kind⟩ := h
  have noted : (s.note number name (.called paths)).made = s.made ++ [(name, paths)] := made_note ..
  cases kind with
  | plain => exact .called (.done rfl) (List.append_nil _).symm (List.append_nil _).symm noted rfl
  | raises message => exact .called (.done rfl) (List.append_nil _).symm (List.append_nil _).symm noted rfl
  | respawns => exact .called (.again rfl) (List.append_nil _).symm rfl noted rfl
  | gate => exact .called (.waits rfl rfl rfl) rfl (List.append_nil _).symm noted rfl
  | task body => exact .called (.begins rfl rfl rfl rfl rfl) rfl rfl (List.append_nil _).symm rfl

/-- **What a job does** when no wait is under way. -/
theorem effect_runJob (waits : s.waits = []) (j : Job) : Effect s j (s.runJob j) := by
  cases j with
  | call number h paths => exact effect_callHandler number h paths
  | resume t =>
    simp only [runJob]
    cases hk : s.tasks[t]? with
    | none => exact .unmoved (by simp [hk])
    | some k =>
      cases moving : k.isMoving with
      | true => exact .stepped hk moving (stepped_stepTask hk moving)
      | false =>
        dsimp only
        rw [stepTask_of_still moving]
        exact .unmoved fun k' hk' => by rwa [← Option.some.inj (hk.symm.trans hk')]
  | collect t =>
    simp only [runJob]
    cases s.tasks[t]? with
    | none => exact .vain rfl (by simp)
    | some k =>
      dsimp only [collectTask]
      split
      · exact .collected rfl rfl rfl rfl
      · exact .collected rfl rfl rfl rfl
  | joined w =>
    simp only [runJob, waits]
    exact .vain rfl (by simp)
  | check w =>
    simp only [runJob, waits]
    exact .vain rfl (by simp)

/-! ## Steady loops -/

/-- What every job keeps of a loop on which nobody waits: no task has waits to tell, and exactly the tasks that move
have a job that lets them step. -/
structure Steady (s : Scheduler) : Prop where
  waits : s.waits = []
  joiners : ∀ k ∈ s.tasks, k.joiners = []
  known : ∀ t, .resume t ∈ s.ready → t < s.tasks.length
  moving : ∀ t k, s.tasks[t]? = some k → k.isMoving = true → .resume t ∈ s.ready

/-- The first job that is ready has its effect on the loop without it. -/
theorem effect_runNext (steady : s.Steady) (e : s.runNext? = some s') :
    ∃ j rest, s.ready = j :: rest ∧ Effect { s with ready := rest } j s' := by
  unfold runNext? at e
  split at e
  · cases e
  · rename_i j rest ready
    cases e
    exact ⟨j, rest, ready, effect_runJob (s := { s with ready := rest }) steady.waits j⟩

/-- The tasks that a call leaves behind. -/
theorem CallEnd.tasks {h : Handler} {paths : List Text} {n : Nat} {tasks : List Task} {jobs : List Job}
    {calls : List (Text × List Text)} (c : CallEnd h paths n tasks jobs calls) :
    (∀ k ∈ tasks, k.joiners = []) ∧ (∀ t, .resume t ∈ jobs → t < n + tasks.length) ∧
      ∀ t k, tasks[t]? = some k → k.isMoving = true → .resume (n + t) ∈ jobs := by
  cases c with
  | done => simp
  | again => simp
  | waits _ state joiners =>
    refine ⟨by simp [joiners], by simp, fun t k hk moving => ?_⟩
    obtain ⟨_, rfl⟩ : t = 0 ∧ _ = k := by simpa [List.getElem?_singleton] using hk
    simp [Task.isMoving, state] at moving
  | begins _ _ _ _ joiners =>
    refine ⟨by simp [joiners], by simp, fun t k hk _ => ?_⟩
    obtain ⟨rfl, _⟩ : t = 0 ∧ _ = k := by simpa [List.getElem?_singleton] using hk
    simp

/-- A task of a list in which one was changed. -/
theorem getElem?_modify_eq_some {tasks : List Task} {t i : Nat} {f : Task → Task} {k : Task}
    (h : (tasks.modify t f)[i]? = some k) : ∃ k', tasks[i]? = some k' ∧ k = if t = i then f k' else k' := by
  rw [List.getElem?_modify] at h
  obtain ⟨k', hk', rfl⟩ := Option.map_eq_some_iff.1 h
  exact ⟨k', hk', rfl⟩

/-- Changing a task does not give it waits to tell. -/
theorem joiners_modify {tasks : List Task} (h : ∀ k ∈ tasks, k.joiners = []) (t : Nat) {f : Task → Task}
    (same : ∀ k, (f k).joiners = k.joiners) : ∀ k ∈ tasks.modify t f, k.joiners = [] := by
  intro k hk
  obtain ⟨i, hi⟩ := List.mem_iff_getElem?.1 hk
  obtain ⟨k', hk', rfl⟩ := getElem?_modify_eq_some hi
  have none := h k' (List.mem_of_getElem? hk')
  split
  · rw [same, none]
  · exact none

/-- **Every job keeps a loop steady.** -/
theorem Steady.runNext (h : s.Steady) (e : s.runNext? = some s') : s'.Steady := by
  obtain ⟨j, rest, front, effect⟩ := effect_runNext h e
  have known {t : Nat} (ht : .resume t ∈ rest) : t < s.tasks.length := h.known t (by simp [front, ht])
  have moving {t : Nat} {k : Task} (hk : s.tasks[t]? = some k) (moves : k.isMoving = true) :
      j = .resume t ∨ .resume t ∈ rest := by
    simpa [front, eq_comm] using h.moving t k hk moves
  cases effect with
  | @called number handler paths _ tasks jobs calls callEnd later ready made waits =>
    obtain ⟨joiners, bound, resumes⟩ := callEnd.tasks
    refine ⟨waits.trans h.waits, fun k hk => ?_, fun t ht => ?_, fun t k hk moves => ?_⟩
    · rw [later] at hk
      exact (List.mem_append.1 hk).elim (h.joiners k) (joiners k)
    · rw [ready] at ht
      rw [later, List.length_append]
      rcases List.mem_append.1 ht with ht | ht
      · exact Nat.lt_of_lt_of_le (known ht) (Nat.le_add_right ..)
      · exact bound t ht
    · rw [later] at hk
      rw [ready]
      by_cases old : t < s.tasks.length
      · rw [List.getElem?_append_left old] at hk
        exact List.mem_append_left _ ((moving hk moves).resolve_left (by simp))
      · have old : s.tasks.length ≤ t := by omega
        rw [List.getElem?_append_right old] at hk
        have resume := resumes _ k hk moves
        rw [Nat.add_sub_cancel' old] at resume
        exact List.mem_append_right _ resume
  | @stepped t k _ hk moves stepped =>
    obtain ⟨state, jobs, stepEnd, tasks, ready, _, waits⟩ := stepped
    refine ⟨waits.trans h.waits, ?_, fun i hi => ?_, fun i k' hk' moves' => ?_⟩
    · rw [tasks]
      exact joiners_modify h.joiners t fun _ => rfl
    · rw [tasks, List.length_modify]
      rw [ready] at hi
      rcases List.mem_append.1 hi with hi | hi
      · exact known hi
      · -- Only task `t` itself is made ready.
        obtain rfl : i = t := by cases stepEnd <;> simp_all
        exact (List.getElem?_eq_some_iff.1 hk).1
    · rw [tasks] at hk'
      rw [ready]
      obtain ⟨k', hi, rfl⟩ := getElem?_modify_eq_some hk'
      by_cases same : t = i
      · subst same
        rw [if_pos rfl] at moves'
        cases stepEnd with
        | sleeps => simp
        | waits => simp [Task.isMoving] at moves'
        | ends => simp [Task.isMoving] at moves'
      · rw [if_neg same] at moves'
        exact List.mem_append_left _ ((moving hi moves').resolve_left (by simpa using same))
  | @unmoved t still =>
    refine ⟨h.waits, h.joiners, fun t => known, fun i k hk moves => ?_⟩
    refine (moving hk moves).resolve_left ?_
    rintro ⟨rfl⟩
    rw [still k hk] at moves
    cases moves
  | @collected t _ later ready made waits =>
    refine ⟨waits.trans h.waits, ?_, fun i hi => ?_, fun i k hk moves => ?_⟩
    · rw [later]
      exact joiners_modify h.joiners t fun _ => rfl
    · rw [later, List.length_modify]
      rw [ready] at hi
      exact known hi
    · rw [later] at hk
      rw [ready]
      obtain ⟨k', hi, rfl⟩ := getElem?_modify_eq_some hk
      have moves : k'.isMoving = true := by
        split at moves
        · exact moves
        · exact moves
      exact (moving hi moves).resolve_left (by simp)
  | vain calls resumes =>
    exact ⟨h.waits, h.joiners, fun t => known, fun i k hk moves => (moving hk moves).resolve_left (resumes i)⟩

/-! ## Every call that is due is made once -/

/-- What a call leaves behind are the calls that come of it. -/
theorem CallEnd.calls_eq {h : Handler} {paths : List Text} {n : Nat} {tasks : List Task} {jobs : List Job}
    {calls : List (Text × List Text)} (c : CallEnd h paths n tasks jobs calls) :
    calls ++ tasks.filterMap Task.unmade? ++ jobs.flatMap Job.calls = h.calls paths := by
  cases c with
  | done alone => simp [alone]
  | again kind => simp [Job.calls, Handler.calls, kind]
  | waits alone state => simp [alone, Task.unmade?, state]
  | begins kind handler given state => simp [Task.unmade?, state, handler, given, Job.calls, Handler.calls, kind]

/-- The call of a task that is no longer fresh is not ahead any more. -/
theorem filterMap_unmade_modify {tasks : List Task} (hk : tasks[t]? = some k) {f : Task → Task}
    (h : (f k).unmade? = none) :
    (k.unmade?.toList ++ (tasks.modify t f).filterMap Task.unmade?).Perm (tasks.filterMap Task.unmade?) := by
  obtain ⟨inside, rfl⟩ := List.getElem?_eq_some_iff.1 hk
  obtain ⟨front, k, back, e, rfl, modified⟩ := List.exists_of_modify f inside
  have here : tasks[front.length] = k := by simp [e]
  rw [here] at h ⊢
  rw [modified, e]
  cases hu : k.unmade? with
  | none => simp [h, hu]
  | some call => simpa [h, hu] using List.perm_middle.symm

/-- Changing nothing that a call hangs on leaves the calls of fresh tasks alone. -/
theorem filterMap_unmade_of_same (tasks : List Task) (t : Nat) {f : Task → Task}
    (same : ∀ k, (f k).unmade? = k.unmade?) :
    (tasks.modify t f).filterMap Task.unmade? = tasks.filterMap Task.unmade? := by
  induction tasks generalizing t with
  | nil => simp
  | cons k tasks ih =>
    cases t with
    | zero => simp [List.filterMap_cons, same]
    | succ t => simp [List.filterMap_cons, ih]

/-- A step leaves no call to be made, neither by its task nor by the jobs that it makes ready. -/
theorem StepEnd.unmade {state : Task.State} {jobs : List Job} (h : StepEnd t k state jobs) :
    Task.unmade? { k with state } = none ∧ jobs.flatMap Job.calls = [] := by
  cases h with
  | sleeps => simp [Task.unmade?, Job.calls]
  | waits => simp [Task.unmade?]
  | ends => simp [Task.unmade?, Job.calls, List.flatMap_map]

/-- **A job makes a call that is due, or leaves it to be made.** -/
theorem due_runNext (h : s.Steady) (e : s.runNext? = some s') : s'.due.Perm s.due := by
  obtain ⟨j, rest, front, effect⟩ := effect_runNext h e
  have popped : ({ s with ready := rest } : Scheduler).made = s.made := rfl
  unfold due
  rw [front, List.flatMap_cons, List.perm_iff_count]
  intro call
  simp only [List.count_append]
  cases effect with
  | @called number handler paths _ tasks jobs calls callEnd later ready made _ =>
    have split := congrArg (List.count call) callEnd.calls_eq
    simp only [List.count_append] at split
    rw [later, ready, made, popped]
    simp only [List.filterMap_append, List.flatMap_append, List.count_append, Job.calls]
    omega
  | @stepped t k _ hk moves stepped =>
    obtain ⟨state, jobs, stepEnd, tasks, ready, made, _⟩ := stepped
    obtain ⟨unmade, none⟩ := stepEnd.unmade
    have moved := (filterMap_unmade_modify (f := fun k => { k with state }) hk unmade).count_eq call
    rw [tasks, ready, made, popped]
    simp only [List.flatMap_append, none, List.append_nil, List.count_append, Job.calls, List.count_nil] at moved ⊢
    omega
  | unmoved => simp [popped, Job.calls]
  | @collected t _ later ready made _ =>
    have unmade := filterMap_unmade_of_same s.tasks t (f := fun k => { k with collected := true }) fun _ => rfl
    rw [later, unmade, ready, made, popped]
    simp [Job.calls]
  | vain calls _ => simp [popped, calls]

/-! ## Jobs run out -/

theorem total_le_total {α : Type} {f g : α → Nat} {xs : List α} (h : ∀ x ∈ xs, f x ≤ g x) :
    total f xs ≤ total g xs := by
  induction xs with
  | nil => simp
  | cons x xs ih =>
    have first := h x (by simp)
    have others := ih fun y hy => h y (by simp [hy])
    simp only [total_cons]
    omega

/-- A task that moves takes a step and is collected. -/
theorem two_le_work (moving : k.isMoving = true) : 2 ≤ k.work := by
  unfold Task.isMoving at moving
  unfold Task.work
  cases state : k.state <;> simp_all

/-- What a call leaves behind is less than the call. -/
theorem CallEnd.work_lt {h : Handler} {paths : List Text} {before tasks : List Task} {jobs : List Job}
    {calls : List (Text × List Text)} (c : CallEnd h paths before.length tasks jobs calls) (number : Nat) :
    total (Job.work (before ++ tasks)) jobs < Job.work before (.call number h paths) := by
  obtain ⟨name, kind⟩ := h
  have pos := Job.work_pos (.call number ⟨name, kind⟩ paths) before
  cases c with
  | done => exact pos
  | waits => exact pos
  | again kind =>
    cases kind
    simp [Job.work]
  | @begins k kind handler given state =>
    cases kind
    simp [Job.work, Task.work, state]

/-- A step leaves less than it took. -/
theorem StepEnd.work_lt {state : Task.State} {jobs : List Job} {tasks : List Task} (h : StepEnd t k state jobs)
    (hk : tasks[t]? = some k) (moving : k.isMoving = true) (joiners : k.joiners = []) :
    total (Job.work (tasks.modify t fun k => { k with state })) jobs < k.work ∧
      Task.work { k with state } ≤ k.work := by
  have enough := two_le_work moving
  cases h with
  | @sleeps n shorter =>
    have resume : Job.work (tasks.modify t fun k => { k with state := .asleep n }) (.resume t) = n + 2 := by
      simp [Job.work, hk, Task.work]
    have asleep : Task.work { k with state := .asleep n } = n + 2 := rfl
    rw [total_cons, total_nil, resume, asleep]
    omega
  | waits =>
    have waiting : Task.work { k with state := .waiting } = 1 := rfl
    rw [total_nil, waiting]
    omega
  | ends o =>
    have done : Task.work { k with state := .done o } = 1 := rfl
    rw [done, joiners, List.map_nil, total_cons, total_nil]
    exact ⟨enough, by omega⟩

/-- Only the jobs that let a task step hang on the tasks. -/
theorem work_of_ne_resume {j : Job} (h : ∀ t, j ≠ .resume t) (before after : List Task) :
    j.work after = j.work before := by
  cases j with
  | call number handler paths =>
    obtain ⟨name, kind⟩ := handler
    cases kind <;> rfl
  | resume t => exact absurd rfl (h t)
  | collect t => rfl
  | joined w => rfl
  | check w => rfl

/-- New tasks leave the jobs of the tasks before them alone. -/
theorem work_append {before : List Task} {j : Job} (known : ∀ t, j = .resume t → t < before.length)
    (tasks : List Task) : j.work (before ++ tasks) = j.work before := by
  cases j with
  | resume t => simp [Job.work, List.getElem?_append_left (known t rfl)]
  | _ => exact work_of_ne_resume (by simp) ..

/-- A task that has less ahead of it gives no job more work. -/
theorem work_modify_le {tasks : List Task} {f : Task → Task}
    (smaller : ∀ k, tasks[t]? = some k → (f k).work ≤ k.work) (j : Job) : j.work (tasks.modify t f) ≤ j.work tasks := by
  cases j with
  | resume i =>
    simp only [Job.work, List.getElem?_modify]
    cases hi : tasks[i]? with
    | none => simp
    | some k =>
      by_cases same : t = i
      · subst same
        simpa using smaller k hi
      · simp [same]
  | _ => exact Nat.le_of_eq (work_of_ne_resume (by simp) ..)

/-- **Every job lowers what the loop has ahead of it.** -/
theorem work_runNext_lt (h : s.Steady) (e : s.runNext? = some s') : s'.work < s.work := by
  obtain ⟨j, rest, front, effect⟩ := effect_runNext h e
  -- The jobs behind the first one take no more work than before, and those that it makes ready less than it did.
  have lower {jobs : List Job} (ready : s'.ready = rest ++ jobs)
      (less : total (Job.work s'.tasks) jobs < j.work s.tasks)
      (others : ∀ j' ∈ rest, j'.work s'.tasks ≤ j'.work s.tasks) : s'.work < s.work := by
    have behind := total_le_total others
    simp only [work, front, ready, total_append, total_cons]
    omega
  have pos := j.work_pos s.tasks
  cases effect with
  | @called number handler paths _ tasks jobs calls callEnd later ready _ _ =>
    refine lower ready ?_ fun j' hj => Nat.le_of_eq ?_
    · rw [later]
      exact callEnd.work_lt number
    · rw [later]
      refine work_append (fun t ht => h.known t ?_) tasks
      rw [front, ← ht]
      exact List.mem_cons_of_mem _ hj
  | @stepped t k _ hk moves stepped =>
    obtain ⟨state, jobs, stepEnd, tasks, ready, _, _⟩ := stepped
    obtain ⟨less, smaller⟩ := stepEnd.work_lt hk moves (h.joiners k (List.mem_of_getElem? hk))
    have own : Job.work s.tasks (.resume t) = k.work := by
      have hk : s.tasks[t]? = some k := hk
      simp [Job.work, hk]
    refine lower ready ?_ fun j' hj => ?_
    · rw [tasks, own]
      exact less
    · rw [tasks]
      refine work_modify_le (fun k' hk' => ?_) j'
      obtain rfl := Option.some.inj (hk.symm.trans hk')
      exact smaller
  | unmoved => exact lower (List.append_nil _).symm pos fun _ _ => Nat.le_refl _
  | @collected t _ later ready _ _ =>
    refine lower (ready.trans (List.append_nil _).symm) pos fun j' _ => ?_
    rw [later]
    exact work_modify_le (f := fun k => { k with collected := true }) (fun _ _ => Nat.le_refl _) j'
  | vain calls _ => exact lower (List.append_nil _).symm pos fun _ _ => Nat.le_refl _

/-- When nothing is ready, no task moves. -/
theorem Steady.still (h : s.Steady) (ready : s.ready = []) (hk : s.tasks[t]? = some k) : k.isMoving = false := by
  rw [Bool.eq_false_iff]
  intro moving
  have resume := h.moving t k hk moving
  simp [ready] at resume

/-- When nothing is ready, every call that is due was made. -/
theorem due_of_ready_eq_nil (h : s.Steady) (ready : s.ready = []) : s.due = s.made := by
  have begun : s.tasks.filterMap Task.unmade? = [] := by
    rw [List.filterMap_eq_nil_iff]
    intro k hk
    obtain ⟨t, ht⟩ := List.mem_iff_getElem?.1 hk
    exact unmade_of_still (h.still ready ht)
  simp [due, begun, ready]

end Scheduler
end DirWatch

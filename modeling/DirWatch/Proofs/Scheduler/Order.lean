import DirWatch.Proofs.Scheduler.Jobs

/-!
# The order of calls

Calls are numbered in the order in which they were spawned, and wait in that order to be made. A coroutine only begins
with a step of its task, but its task is made in turn, and so is the job that lets it take its first step.

- **Whose call** (`Recorded`): jobs, tasks and entries of the log carry the handler and the paths of a call that was
  spawned.
- **Order** (`Ordered`): the calls of either kind that were made, that fresh tasks will make and that are queued are
  all calls of this kind, in order.
- **Ends** (`Over`): when nothing is ready, the pending tasks are those whose calls are not over
  (`Filed.pending_of_idle`).
-/

namespace DirWatch

/-- Whether a handler begins with a step of its task. -/
def Handler.isCoroutine (h : Handler) : Bool :=
  match h.kind with
  | .task _ => true
  | _ => false

/-- What the task of a handler does, if it leaves one behind. -/
def Handler.body? (h : Handler) : Option Handler.Body :=
  match h.kind with
  | .gate => some .waitsAtGate
  | .task body => some body
  | _ => none

/-- The number of the call that a job makes. -/
def Job.number? : Job → Option Nat
  | .call n _ _ => some n
  | _ => none

/-- The number of the call that an entry begins. -/
def LogEntry.begun? (e : LogEntry) : Option Nat :=
  match e.deed with
  | .called _ => some e.call
  | _ => none

/-- The number of the call that a fresh task will make. -/
def Task.unbegun? (k : Task) : Option Nat :=
  match k.state with
  | .fresh => some k.call
  | _ => none

/-- The number of the call that a job makes with the first step of a task. -/
def Job.start? (tasks : List Task) : Job → Option Nat
  | .resume t => tasks[t]?.bind Task.unbegun?
  | _ => none

/-- The calls whose tasks are fresh, in the order of the jobs that let them take their first step. -/
def Job.starting (ready : List Job) (tasks : List Task) : List Nat := ready.filterMap (Job.start? tasks)

/-- Whether the call with a number is one of a coroutine. -/
def Call.coroutine (book : List Call) (n : Nat) : Bool := book[n]?.any (·.handler.isCoroutine)

/-- Whether the call with a number leaves a task behind. -/
def Call.awaited (book : List Call) (n : Nat) : Bool := book[n]?.any (·.handler.body?.isSome)

/-- The task is that of a call in the book. -/
def Task.IsOf (book : List Call) (k : Task) : Prop :=
  ∃ h, book[k.call]? = some ⟨h, k.paths⟩ ∧ h.name = k.handler ∧ h.body? = some k.body ∧
    (k.state = .fresh → h.isCoroutine = true)

/-- The entry is that of a call in the book. -/
def LogEntry.IsOf (book : List Call) (e : LogEntry) : Prop :=
  ∃ h paths, book[e.call]? = some ⟨h, paths⟩ ∧ h.name = e.handler ∧ ∀ given, e.deed = .called given → given = paths

theorem Task.IsOf.turn {book : List Call} {k : Task} (h : k.IsOf book) {state : Task.State} (stale : state ≠ .fresh) :
    Task.IsOf book { k with state } := by
  obtain ⟨handler, recorded, name, body, _⟩ := h
  exact ⟨handler, recorded, name, body, fun fresh => absurd fresh stale⟩

namespace Scheduler

open Job (starting)
open Call (coroutine awaited)

/-- The calls that wait to be made. -/
def queued (s : Scheduler) : List Nat := s.ready.filterMap Job.number?

/-- The calls that were made. -/
def begun (s : Scheduler) : List Nat := s.log.filterMap LogEntry.begun?

variable {s : Scheduler} {ready rest jobs : List Job} {tasks : List Task} {t : Nat} {k : Task}

/-! ## Fresh tasks -/

theorem starting_append (ready jobs : List Job) (tasks : List Task) :
    starting (ready ++ jobs) tasks = starting ready tasks ++ starting jobs tasks := List.filterMap_append

theorem starting_congr {tasks' : List Task}
    (same : ∀ t, .resume t ∈ ready → tasks'[t]?.bind Task.unbegun? = tasks[t]?.bind Task.unbegun?) :
    starting ready tasks' = starting ready tasks := by
  induction ready with
  | nil => rfl
  | cons j rest ih =>
    have first : j.start? tasks' = j.start? tasks := by
      cases j with
      | resume t => exact same t List.mem_cons_self
      | _ => rfl
    have later : rest.filterMap (Job.start? tasks') = rest.filterMap (Job.start? tasks) :=
      ih fun t ht => same t (List.mem_cons_of_mem _ ht)
    rw [starting, starting, List.filterMap_cons, List.filterMap_cons, first, later]

theorem starting_eq_nil (stale : ∀ t, .resume t ∈ jobs → tasks[t]?.bind Task.unbegun? = none) :
    starting jobs tasks = [] := by
  rw [starting, List.filterMap_eq_nil_iff]
  intro j hj
  cases j with
  | resume t => exact stale t hj
  | _ => rfl

theorem unbegun_eq_none (stale : k.state ≠ .fresh) : k.unbegun? = none := by
  unfold Task.unbegun?
  split
  · rename_i fresh
    exact absurd fresh stale
  · rfl

/-- **A task comes into another state**: the other fresh tasks stay fresh, in order. -/
theorem starting_turn (h : Counted (k.own t ++ rest) tasks) (hk : tasks[t]? = some k) {state : Task.State}
    (stale : state ≠ .fresh) :
    starting (rest ++ k.jobs t state) (tasks.modify t fun k => { k with state }) = starting rest tasks := by
  -- Task `t` has no other job that lets it step.
  have once : .resume t ∉ rest := by
    intro there
    have counted := h.resumes t
    have pos : 0 < (rest.filterMap Job.resumed?).count t := count_pos_of_mem there rfl
    rw [List.filterMap_append, List.count_append, resumed_own, count_ite_singleton, if_pos rfl, hk,
      Option.any_some] at counted
    omega
  have before : starting rest (tasks.modify t fun k => { k with state }) = starting rest tasks := by
    refine starting_congr fun i hi => ?_
    have other : t ≠ i := fun same => once (same ▸ hi)
    simp [other]
  have behind : starting (k.jobs t state) (tasks.modify t fun k => { k with state }) = [] := by
    refine starting_eq_nil fun i hi => ?_
    obtain rfl : i = t := by
      cases state <;> simp_all [Task.jobs]
    simp [hk, unbegun_eq_none (k := { k with state }) stale]
  rw [starting_append, before, behind, List.append_nil]

/-- The first step of a task begins its call. -/
theorem begun_next (door : Bool) (moving : k.isMoving = true) :
    ((k.next door).1.map (⟨k.call, k.handler, ·⟩)).filterMap LogEntry.begun? = k.unbegun?.toList := by
  unfold Task.isMoving at moving
  unfold Task.next Task.unbegun?
  cases state : k.state with
  | fresh =>
    cases k.body with
    | sleeps n => cases n <;> simp [LogEntry.begun?]
    | waitsAtDoor => cases door <;> simp [LogEntry.begun?]
    | _ => simp [LogEntry.begun?]
  | asleep n => cases n <;> simp [LogEntry.begun?]
  | resumed r =>
    dsimp only
    split
    · simp [LogEntry.begun?]
    · cases r <;> simp [LogEntry.begun?]
  | _ => simp [state] at moving

theorem begun_step (s : Scheduler) (t : Nat) (moving : k.isMoving = true) :
    (s.step t k).begun = s.begun ++ k.unbegun?.toList := by
  rw [← begun_next s.doorOpen moving]
  exact List.filterMap_append

/-- A step records the paths that were given. -/
theorem called_of_mem_next {door : Bool} {given : List Text} (h : .called given ∈ (k.next door).1) :
    given = k.paths := by
  unfold Task.next at h
  cases state : k.state with
  | fresh =>
    rw [state] at h
    cases body : k.body with
    | sleeps n => cases n <;> simpa [body] using h
    | waitsAtDoor => cases door <;> simpa [body] using h
    | _ => simpa [body] using h
  | asleep n => cases n <;> simp [state] at h
  | resumed r =>
    simp only [state] at h
    split at h
    · simp at h
    · cases r <;> simp at h
  | _ => simp [state] at h

/-! ## Whose call -/

/-- Jobs, tasks and entries of the log carry the handler and the paths of a call in the book. -/
structure Recorded (book : List Call) (s : Scheduler) : Prop where
  jobs : ∀ n h paths, .call n h paths ∈ s.ready → book[n]? = some ⟨h, paths⟩
  tasks : ∀ k ∈ s.tasks, k.IsOf book
  log : ∀ e ∈ s.log, e.IsOf book

variable {book : List Call} {m : Move} {s' : Scheduler}

/-- A coming state makes no call ready. -/
theorem call_notMem_jobs {n : Nat} {h : Handler} {paths : List Text} {state : Task.State} :
    .call n h paths ∉ k.jobs t state := by
  cases state <;> simp [Task.jobs]

/-- **A handler is called**, with what was recorded of the call. -/
theorem Recorded.call (h : s.Recorded book) {n : Nat} {handler : Handler} {paths : List Text}
    (front : s.ready = .call n handler paths :: rest) (spawns : ∀ c ∈ s.spawns .next, book[s.spawned]? = some c) :
    ((s.popped rest).callHandler n handler paths).Recorded book := by
  have own : book[n]? = some ⟨handler, paths⟩ := h.jobs n handler paths (by simp [front])
  have jobs : ∀ n h paths, .call n h paths ∈ rest → book[n]? = some ⟨h, paths⟩ :=
    fun n handler paths there => h.jobs n handler paths (by simp [front, there])
  obtain ⟨name, kind⟩ := handler
  have noted : ∀ e ∈ s.log ++ [⟨n, name, .called paths⟩], e.IsOf book := by
    intro e he
    rcases List.mem_append.1 he with old | new
    · exact h.log e old
    · obtain rfl := List.mem_singleton.1 new
      exact ⟨_, paths, own, rfl, fun given e => (Deed.called.inj e).symm⟩
  cases kind with
  | plain => exact ⟨jobs, h.tasks, noted⟩
  | raises message => exact ⟨jobs, h.tasks, noted⟩
  | respawns =>
    refine ⟨fun i handler given there => ?_, h.tasks, noted⟩
    rcases List.mem_append.1 there with old | new
    · exact jobs i handler given old
    · obtain ⟨rfl, rfl, rfl⟩ : i = s.spawned ∧ handler = ⟨name ++ "+", .plain⟩ ∧ given = paths := by
        simpa [popped, note] using new
      exact spawns _ (by simp [Scheduler.spawns, front])
  | gate =>
    refine ⟨jobs, fun k hk => ?_, noted⟩
    rcases List.mem_append.1 hk with old | new
    · exact h.tasks k old
    · obtain rfl := List.mem_singleton.1 new
      exact ⟨_, own, rfl, rfl, fun fresh => by cases fresh⟩
  | task body =>
    refine ⟨fun i handler given there => ?_, fun k hk => ?_, h.log⟩
    · exact jobs i handler given (by simpa [callHandler, push, addTask, popped] using there)
    · rcases List.mem_append.1 hk with old | new
      · exact h.tasks k old
      · obtain rfl := List.mem_singleton.1 new
        exact ⟨_, own, rfl, rfl, fun _ => rfl⟩

/-- **Every move keeps what is recorded of calls.** -/
theorem Recorded.after (h : s.Recorded book) (c : Change s m s')
    (spawns : ∀ c ∈ s.spawns m, book[s.spawned]? = some c) : s'.Recorded book := by
  cases c with
  | spawned handler paths =>
    refine ⟨fun n h' given there => ?_, h.tasks, h.log⟩
    rcases List.mem_append.1 there with old | new
    · exact h.jobs n h' given old
    · obtain ⟨rfl, rfl, rfl⟩ : n = s.spawned ∧ h' = handler ∧ given = paths := by simpa using new
      exact spawns _ List.mem_cons_self
  | called front => exact h.call front spawns
  | @stepped t k rest front hk moving =>
    refine ⟨fun n handler paths there => ?_, ?_, fun e he => ?_⟩
    · refine h.jobs n handler paths ?_
      rw [front]
      exact List.mem_cons_of_mem _ ((List.mem_append.1 there).resolve_right call_notMem_jobs)
    · exact forall_mem_modify h.tasks hk ((h.tasks k (List.mem_of_getElem? hk)).turn (next_ne_fresh _ moving))
    · rcases List.mem_append.1 he with old | new
      · exact h.log e old
      · obtain ⟨deed, recorded, rfl⟩ := List.mem_map.1 new
        obtain ⟨handler, own, name, _⟩ := h.tasks k (List.mem_of_getElem? hk)
        exact ⟨handler, k.paths, own, name, fun given (e : deed = .called given) => called_of_mem_next (e ▸ recorded)⟩
  | @collected t k rest front hk spent =>
    refine ⟨fun n handler paths there => h.jobs n handler paths ?_, ?_, h.log⟩
    · rw [front]
      exact List.mem_cons_of_mem _ there
    · exact forall_mem_modify h.tasks hk (h.tasks k (List.mem_of_getElem? hk))
  | @left g gate k r hg unleft hk waiting body =>
    refine ⟨fun n handler paths there => h.jobs n handler paths ?_, ?_, h.log⟩
    · exact (List.mem_append.1 there).resolve_right call_notMem_jobs
    · exact forall_mem_modify h.tasks hk ((h.tasks k (List.mem_of_getElem? hk)).turn (afterGate_ne_fresh k r))
  | opened =>
    rw [openDoor_eq]
    refine ⟨fun n handler paths there => h.jobs n handler paths ?_, fun k hk => ?_, h.log⟩
    · exact (List.mem_append.1 there).resolve_right (by simp)
    · obtain ⟨k', hk', rfl⟩ := List.mem_map.1 hk
      unfold opened
      split
      · exact (h.tasks k' hk').turn (by simp)
      · exact h.tasks k' hk'
  | alone same spawns leaves =>
    refine ⟨fun n handler paths there => h.jobs n handler paths ?_, ?_, ?_⟩
    · have jobs : s'.ready.filter (!·.isWait) = s.ready.filter (!·.isWait) := congrArg (·.ready) same
      have kept : Job.call n handler paths ∈ s.ready.filter (!·.isWait) := by
        rw [← jobs]
        simp [there, Job.isWait]
      exact (List.mem_filter.1 kept).1
    · exact forall_mem_of_alone_eq same (fun _ => .rfl) h.tasks
    · have log : s'.log = s.log := congrArg (·.log) same
      rw [log]
      exact h.log

/-! ## Order -/

/-- The calls that were made, that fresh tasks will make and that are queued, in the order in which they were spawned;
and the calls of tasks, in the order of the tasks. -/
structure Ordered (book : List Call) (spawned : Nat) (begun starting queued tasks : List Nat) : Prop where
  coroutines : begun.filter (coroutine book) ++ starting ++ queued.filter (coroutine book) =
    (List.range spawned).filter (coroutine book)
  others : begun.filter (!coroutine book ·) ++ queued.filter (!coroutine book ·) =
    (List.range spawned).filter (!coroutine book ·)
  tasks : tasks ++ queued.filter (awaited book) = (List.range spawned).filter (awaited book)

section Lists
variable {spawned n : Nat} {begun starting queued calls : List Nat}

/-- A call is queued behind the others. -/
theorem Ordered.spawn (h : Ordered book spawned begun starting queued calls) :
    Ordered book (spawned + 1) begun starting (queued ++ [spawned]) calls := by
  refine ⟨?_, ?_, ?_⟩
  · rw [List.filter_append, ← List.append_assoc, h.coroutines, List.range_succ, List.filter_append]
  · rw [List.filter_append, ← List.append_assoc, h.others, List.range_succ, List.filter_append]
  · rw [List.filter_append, ← List.append_assoc, h.tasks, List.range_succ, List.filter_append]

/-- A call is made at once. -/
theorem Ordered.made (h : Ordered book spawned begun starting (n :: queued) calls)
    (at_once : coroutine book n = false) :
    Ordered book spawned (begun ++ [n]) starting queued (calls ++ if awaited book n then [n] else []) := by
  refine ⟨?_, ?_, ?_⟩
  · simpa [at_once] using h.coroutines
  · simpa [at_once] using h.others
  · rw [List.append_assoc, ← h.tasks, List.filter_cons]
    split <;> rfl

/-- A call leaves a task behind that will make it. -/
theorem Ordered.left (h : Ordered book spawned begun starting (n :: queued) calls) (later : coroutine book n = true)
    (awaited : awaited book n = true) : Ordered book spawned begun (starting ++ [n]) queued (calls ++ [n]) := by
  refine ⟨?_, ?_, ?_⟩
  · simpa [later] using h.coroutines
  · simpa [later] using h.others
  · simpa [awaited] using h.tasks

/-- A fresh task makes its call. -/
theorem Ordered.started (h : Ordered book spawned begun (n :: starting) queued calls)
    (later : coroutine book n = true) :
    Ordered book spawned (begun ++ [n]) starting queued calls := by
  refine ⟨?_, ?_, h.tasks⟩
  · simpa [later] using h.coroutines
  · simpa [later] using h.others

end Lists

/-- The calls of a scheduler are in order. -/
def InOrder (book : List Call) (s : Scheduler) : Prop :=
  Ordered book s.spawned s.begun (starting s.ready s.tasks) s.queued (s.tasks.map (·.call))

/-- **A handler is called**: the first call of its kind that is queued. -/
theorem InOrder.call (h : s.InOrder book) (sound : s.Sound) {n : Nat} {handler : Handler} {paths : List Text}
    (front : s.ready = .call n handler paths :: rest) (own : book[n]? = some ⟨handler, paths⟩) :
    ((s.popped rest).callHandler n handler paths).InOrder book := by
  have before : Ordered book s.spawned s.begun (starting rest s.tasks) (n :: (s.popped rest).queued)
      (s.tasks.map (·.call)) := by
    rw [InOrder, Scheduler.queued, front] at h
    exact h
  have coroutine : coroutine book n = handler.isCoroutine := by simp [coroutine, own]
  have awaited : awaited book n = handler.body?.isSome := by simp [awaited, own]
  obtain ⟨name, kind⟩ := handler
  have noted : ((s.popped rest).note n name (.called paths)).begun = s.begun ++ [n] := by
    simp [begun, note, popped, LogEntry.begun?]
  -- The jobs that are ready let no new task step.
  have starts (k : Task) : starting rest (s.tasks ++ [k]) = starting rest s.tasks := by
    refine starting_congr fun t ht => ?_
    obtain ⟨k, hk, _⟩ := sound.counted.moving (t := t) (by simp [front, ht])
    rw [List.getElem?_append_left (List.getElem?_eq_some_iff.1 hk).1]
  cases kind with
  | plain =>
    have made := before.made coroutine
    rw [awaited, if_neg (by simp [Handler.body?]), List.append_nil, ← noted] at made
    exact made
  | raises message =>
    have made := before.made coroutine
    rw [awaited, if_neg (by simp [Handler.body?]), List.append_nil, ← noted] at made
    exact made
  | respawns =>
    have made := before.made coroutine
    rw [awaited, if_neg (by simp [Handler.body?]), List.append_nil, ← noted] at made
    have behind := made.spawn
    have queued : ((s.popped rest).queued ++ [s.spawned]) =
        ((s.popped rest).callHandler n ⟨name, .respawns⟩ paths).queued := by
      simp [Scheduler.queued, callHandler, Scheduler.spawn, push, note, popped, Job.number?]
    have starts : starting rest s.tasks = starting (rest ++ [.call s.spawned ⟨name ++ "+", .plain⟩ paths]) s.tasks := by
      simp [starting, Job.start?]
    rw [queued, starts] at behind
    exact behind
  | gate =>
    have made := before.made coroutine
    rw [awaited, if_pos (by simp [Handler.body?]), ← noted] at made
    let k : Task := { call := n, handler := name, paths, body := .waitsAtGate, state := .bare }
    rw [← starts k] at made
    have calls : s.tasks.map (·.call) ++ [n] = (s.tasks ++ [k]).map (·.call) := by simp [k]
    rw [calls] at made
    exact made
  | task body =>
    have left := before.left coroutine awaited
    let k : Task := { call := n, handler := name, paths, body, state := .fresh }
    have calls : s.tasks.map (·.call) ++ [n] = (s.tasks ++ [k]).map (·.call) := by simp [k]
    have queued : (s.popped rest).queued = ((s.popped rest).callHandler n ⟨name, .task body⟩ paths).queued := by
      simp [Scheduler.queued, callHandler, push, addTask, popped, Job.number?]
    have starting : starting rest s.tasks ++ [n] = starting (rest ++ [.resume s.tasks.length]) (s.tasks ++ [k]) := by
      rw [starting_append, starts]
      simp [starting, Job.start?, Task.unbegun?, k]
    rw [calls, queued, starting] at left
    exact left

/-- A task belongs to its call for good. -/
theorem calls_modify (tasks : List Task) (t : Nat) (f : Task → Task) (same : ∀ k, (f k).call = k.call) :
    (tasks.modify t f).map (·.call) = tasks.map (·.call) := by
  refine List.ext_getElem? fun i => ?_
  rw [List.getElem?_map, List.getElem?_map, List.getElem?_modify]
  cases tasks[i]? with
  | none => rfl
  | some k => by_cases here : t = i <;> simp [here, same]

/-- A coming state queues no call. -/
theorem queued_jobs (t : Nat) (k : Task) (state : Task.State) : (k.jobs t state).filterMap Job.number? = [] := by
  cases state <;> simp [Task.jobs, Job.number?]

/-- **A task takes a step**: the first one of a coroutine makes its call. -/
theorem InOrder.step (h : s.InOrder book) (sound : s.Sound) (recorded : s.Recorded book)
    (front : s.ready = .resume t :: rest) (hk : s.tasks[t]? = some k) (moving : k.isMoving = true) :
    ((s.popped rest).step t k).InOrder book := by
  have stale := next_ne_fresh s.doorOpen moving
  have own : s.ready = k.own t ++ rest := by simp [Task.own, moving, front]
  have starts : starting s.ready s.tasks = k.unbegun?.toList ++ starting rest s.tasks := by
    rw [starting, front, List.filterMap_cons, Job.start?, hk, Option.bind_some]
    cases k.unbegun? <;> rfl
  have queued : s.queued = ((s.popped rest).step t k).queued := by
    simp [Scheduler.queued, front, Scheduler.step, turn, popped, queued_jobs, List.filterMap_cons, Job.number?]
  have calls : s.tasks.map (·.call) = ((s.popped rest).step t k).tasks.map (·.call) :=
    (calls_modify s.tasks t _ (by intro; rfl)).symm
  have begun : ((s.popped rest).step t k).begun = s.begun ++ k.unbegun?.toList := begun_step _ t moving
  have later : starting ((s.popped rest).step t k).ready ((s.popped rest).step t k).tasks = starting rest s.tasks :=
    starting_turn (own ▸ sound.counted) hk stale
  rw [InOrder, starts, queued, calls] at h
  rw [InOrder, begun, later]
  cases unbegun : k.unbegun? with
  | none =>
    rw [unbegun] at h
    rw [Option.toList_none, List.append_nil]
    exact h
  | some n =>
    rw [unbegun] at h
    refine Ordered.started h ?_
    obtain ⟨handler, recorded, _, _, fresh⟩ := recorded.tasks k (List.mem_of_getElem? hk)
    unfold Task.unbegun? at unbegun
    split at unbegun
    · rename_i state
      cases unbegun
      simp [coroutine, recorded, fresh state]
    · cases unbegun

theorem call_opened (k : Task) : (opened k).call = k.call := by
  unfold opened
  split <;> rfl

/-- **Every move keeps the order of calls.** -/
theorem InOrder.after (h : s.InOrder book) (sound : s.Sound) (recorded : s.Recorded book) (c : Change s m s') :
    s'.InOrder book := by
  cases c with
  | spawned handler paths =>
    have queued : s.queued ++ [s.spawned] = (s.spawn handler paths).queued := by
      simp [Scheduler.queued, Scheduler.spawn, push, Job.number?]
    have starts : starting s.ready s.tasks = starting (s.spawn handler paths).ready s.tasks := by
      simp [starting, Scheduler.spawn, push, Job.start?]
    have behind := Ordered.spawn h
    rw [queued, starts] at behind
    exact behind
  | called front => exact h.call sound front (recorded.jobs _ _ _ (by simp [front]))
  | stepped front hk moving => exact h.step sound recorded front hk moving
  | @collected t k rest front hk spent =>
    have queued : s.queued = ((s.popped rest).letGo t k).queued := by
      simp [Scheduler.queued, front, letGo, popped, List.filterMap_cons, Job.number?]
    have calls : s.tasks.map (·.call) = ((s.popped rest).letGo t k).tasks.map (·.call) :=
      (calls_modify s.tasks t _ (by intro; rfl)).symm
    have starts : starting s.ready s.tasks = starting rest ((s.popped rest).letGo t k).tasks := by
      have popped : starting s.ready s.tasks = starting rest s.tasks := by
        rw [starting, front, List.filterMap_cons]
        rfl
      rw [popped]
      refine (starting_congr fun i hi => ?_).symm
      show (s.tasks.modify t _)[i]?.bind _ = _
      rw [List.getElem?_modify]
      cases s.tasks[i]? with
      | none => rfl
      | some k => by_cases here : t = i <;> simp [here, Task.unbegun?]
    rw [InOrder, queued, calls, starts] at h
    exact h
  | @left g gate k r hg unleft hk waiting body =>
    have own : s.ready = k.own gate.task ++ s.ready := by simp [Task.own, (still_of_isWaiting waiting).1]
    have starts := starting_turn (own ▸ sound.counted) hk (afterGate_ne_fresh k r)
    have queued : s.queued = (s.leave g gate k r).queued := by
      simp [Scheduler.queued, leave, turn, queued_jobs]
    have calls : s.tasks.map (·.call) = (s.leave g gate k r).tasks.map (·.call) :=
      (calls_modify s.tasks gate.task _ (by intro; rfl)).symm
    rw [InOrder, queued, calls, ← starts] at h
    exact h
  | opened =>
    rw [openDoor_eq]
    have queued : s.queued = (s.ready ++ s.atDoor.map Job.resume).filterMap Job.number? := by
      simp [Scheduler.queued, Job.number?]
    have calls : s.tasks.map (·.call) = (s.tasks.map opened).map (·.call) := by
      simp [Function.comp_def, call_opened]
    have unbegun (k : Task) : (opened k).unbegun? = k.unbegun? := by
      cases here : waitsAtDoor k with
      | false => simp [opened, here]
      | true =>
        have stale : k.state ≠ .fresh := fun fresh => by simp [waitsAtDoor, fresh] at here
        rw [opened, if_pos here, unbegun_eq_none stale]
        rfl
    have starts : starting s.ready s.tasks = starting (s.ready ++ s.atDoor.map Job.resume) (s.tasks.map opened) := by
      have before : starting s.ready (s.tasks.map opened) = starting s.ready s.tasks := by
        refine starting_congr fun t _ => ?_
        rw [List.getElem?_map]
        cases s.tasks[t]? <;> simp [unbegun]
      have behind : starting (s.atDoor.map Job.resume) (s.tasks.map opened) = [] := by
        refine starting_eq_nil fun t ht => ?_
        obtain ⟨k, hk, here⟩ := mem_atDoor.1 (by simpa using ht)
        rw [List.getElem?_map, hk, Option.map_some, Option.bind_some, opened, if_pos here]
        rfl
      rw [starting_append, before, behind, List.append_nil]
    rw [InOrder, queued, calls, starts] at h
    exact h
  | alone same spawns leaves =>
    have begun : s'.begun = s.begun := congrArg (·.begun) same
    have queued : s'.queued = s.queued :=
      filterMap_of_alone_eq same (by rintro (_ | _ | _ | _ | _) <;> simp [Job.isWait, Job.number?])
    have calls : s'.tasks.map (·.call) = s.tasks.map (·.call) :=
      apply_tasks_of_alone_eq same (g := (·.map (·.call))) fun tasks => by simp [Function.comp_def, Task.alone]
    have spawned : s'.spawned = s.spawned := congrArg (·.spawned) same
    have starts : starting s'.ready s'.tasks = starting s.ready s.tasks := by
      have ready : starting s'.ready s'.tasks = starting s.ready s'.tasks :=
        filterMap_of_alone_eq same (by rintro (_ | _ | _ | _ | _) <;> simp [Job.isWait, Job.start?])
      rw [ready]
      refine starting_congr fun t _ => ?_
      have read := map_getElem?_of_alone_eq same (f := Task.unbegun?) (fun _ => rfl) t
      cases h' : s'.tasks[t]? <;> cases h : s.tasks[t]? <;> simp_all
    rw [InOrder, begun, queued, calls, spawned, starts]
    exact h

/-! ## Histories -/

/-- What every history keeps of calls that are recorded in a book. -/
structure Filed (book : List Call) (s : Scheduler) : Prop where
  sound : s.Sound
  recorded : s.Recorded book
  inOrder : s.InOrder book

theorem Filed.new (book : List Call) : Filed book {} :=
  ⟨.new, ⟨fun _ _ _ there => (nomatch there), fun _ there => (nomatch there), fun _ there => nomatch there⟩,
    ⟨rfl, rfl, rfl⟩⟩

/-- One move, whose calls are the next ones in the book. -/
theorem Filed.move (h : s.Filed book) (m : Move) (spawns : ∀ c ∈ s.spawns m, book[s.spawned]? = some c) :
    (s.move m).Filed book :=
  ⟨h.sound.move m, h.recorded.after (h.sound.change m) spawns, h.inOrder.after h.sound h.recorded (h.sound.change m)⟩

/-- A history, whose calls are the next ones in the book. -/
theorem Filed.run (h : s.Filed book) (moves : List Move) (calls : s.calls moves <+: book.drop s.spawned) :
    (s.run moves).Filed book ∧ (s.run moves).spawned = s.spawned + (s.calls moves).length := by
  induction moves generalizing s with
  | nil => exact ⟨h, rfl⟩
  | cons m rest ih =>
    have split : s.calls (m :: rest) = s.spawns m ++ (s.move m).calls rest := rfl
    obtain ⟨behind, e⟩ := calls
    rw [split, List.append_assoc] at e
    have next : book.drop (s.move m).spawned = (s.move m).calls rest ++ behind := by
      rw [spawned_move, ← List.drop_drop, ← e, List.drop_left]
    have spawns : ∀ c ∈ s.spawns m, book[s.spawned]? = some c := by
      intro c hc
      obtain none | ⟨c', one⟩ := s.spawns_cases m
      · simp [none] at hc
      · obtain rfl : c = c' := by simpa [one] using hc
        rw [one] at e
        have first : (book.drop s.spawned)[0]? = some c := by rw [← e]; rfl
        simpa using first
    obtain ⟨filed, spawned⟩ := ih (h.move m spawns) ⟨behind, next.symm⟩
    refine ⟨filed, spawned.trans ?_⟩
    rw [spawned_move, split, List.length_append, Nat.add_assoc]

/-- **A history from the start** keeps to the book of all calls that come. -/
theorem filed_run (before after : List Move) : (run {} before).Filed (calls {} (before ++ after)) ∧
    (run {} before).spawned = (calls {} before).length := by
  have calls : calls {} before <+: calls {} (before ++ after) := ⟨_, (gather_append spawns before after).symm⟩
  obtain ⟨filed, spawned⟩ := (Filed.new (Scheduler.calls {} (before ++ after))).run before calls
  exact ⟨filed, spawned.trans (Nat.zero_add _)⟩

/-- Every call was made, is that of a fresh task or is queued, and only one of these. -/
theorem Filed.perm (h : s.Filed book) :
    (s.begun ++ starting s.ready s.tasks ++ s.queued).Perm (List.range s.spawned) := by
  have all := (List.filter_append_perm (coroutine book) (List.range s.spawned))
  rw [← h.inOrder.coroutines, ← h.inOrder.others] at all
  have begun := List.filter_append_perm (coroutine book) s.begun
  have queued := List.filter_append_perm (coroutine book) s.queued
  rw [List.perm_iff_count] at all begun queued ⊢
  intro n
  have all := all n
  have begun := begun n
  have queued := queued n
  simp only [List.count_append] at all begun queued ⊢
  omega

/-- The call of a task is that of no other. -/
theorem Filed.nodup_calls (h : s.Filed book) :
    (s.tasks.map (·.call) ++ s.queued.filter (awaited book)).Nodup := by
  rw [h.inOrder.tasks]
  exact List.nodup_range.filter _

/-- Different tasks belong to different calls. -/
theorem Filed.call_ne (h : s.Filed book) {i : Nat} {k' : Task} (hk : s.tasks[t]? = some k) (hk' : s.tasks[i]? = some k')
    (other : t ≠ i) : k.call ≠ k'.call := by
  intro same
  have nodup : (s.tasks.map (·.call)).Nodup := (List.nodup_append.1 h.nodup_calls).1
  have both : (s.tasks.map (·.call))[t]? = (s.tasks.map (·.call))[i]? := by simp [hk, hk', same]
  have inside : t < (s.tasks.map (·.call)).length := by simp [(List.getElem?_eq_some_iff.1 hk).1]
  exact other ((List.getElem?_inj inside nodup).1 both)

theorem Filed.nodup (h : s.Filed book) : (s.begun ++ starting s.ready s.tasks ++ s.queued).Nodup :=
  h.perm.nodup_iff.2 List.nodup_range

theorem Filed.nodup_begun (h : s.Filed book) : s.begun.Nodup := by
  have all := h.nodup
  rw [List.append_assoc] at all
  exact (List.nodup_append.1 all).1

theorem Filed.awaited_of_mem (h : s.Filed book) (hk : k ∈ s.tasks) : awaited book k.call = true := by
  have there : k.call ∈ (List.range s.spawned).filter (awaited book) := by
    rw [← h.inOrder.tasks]
    exact List.mem_append_left _ (List.mem_map_of_mem hk)
  exact (List.mem_filter.1 there).2

/-- When nothing is ready, every call was made. -/
theorem Filed.begun_of_idle (h : s.Filed book) (idle : s.ready = []) : s.begun.Perm (List.range s.spawned) := by
  have perm := h.perm
  have queued : s.queued = [] := by simp [Scheduler.queued, idle]
  have starts : starting s.ready s.tasks = [] := by simp [starting, idle]
  rwa [queued, starts, List.append_nil, List.append_nil] at perm

/-- When nothing is ready, every call that leaves a task behind has done so. -/
theorem Filed.tasks_of_idle (h : s.Filed book) (idle : s.ready = []) :
    s.tasks.map (·.call) = (List.range s.spawned).filter (awaited book) := by
  have tasks := h.inOrder.tasks
  have queued : s.queued = [] := by simp [Scheduler.queued, idle]
  rwa [queued, List.filter_nil, List.append_nil] at tasks

/-- A call is over: it was made, and its task is done if it left one behind. -/
def Over (s : Scheduler) (n : Nat) : Prop := n ∈ s.begun ∧ ∀ k ∈ s.tasks, k.call = n → k.isDone = true

instance (s : Scheduler) (n : Nat) : Decidable (s.Over n) := inferInstanceAs (Decidable (_ ∧ _))

/-- The call of a task is over when the task is done, unless it is fresh. -/
theorem Filed.over_iff (h : s.Filed book) (hk : k ∈ s.tasks) (begun : k.call ∈ s.begun) :
    s.Over k.call ↔ k.isDone = true := by
  refine ⟨fun ends => ends.2 k hk rfl, fun done => ⟨begun, fun k' hk' same => ?_⟩⟩
  obtain ⟨t, ht⟩ := List.mem_iff_getElem?.1 hk
  obtain ⟨i, hi⟩ := List.mem_iff_getElem?.1 hk'
  by_cases here : t = i
  · subst here
    exact Option.some.inj (ht.symm.trans hi) ▸ done
  · exact absurd same.symm (h.call_ne ht hi here)

/-- **When nothing is ready, the pending tasks are those whose calls are not over.** -/
theorem Filed.pending_of_idle (h : s.Filed book) (idle : s.ready = []) :
    s.pending = (List.range s.spawned).countP fun n => awaited book n && !decide (s.Over n) := by
  have split := List.countP_filter (p := fun n => !decide (s.Over n)) (q := awaited book) (l := List.range s.spawned)
  have swap : (fun n => awaited book n && !decide (s.Over n)) = fun n => !decide (s.Over n) && awaited book n :=
    funext fun n => Bool.and_comm ..
  rw [swap, ← split, ← h.tasks_of_idle idle, List.countP_map]
  refine List.countP_congr fun k hk => ?_
  have begun : k.call ∈ s.begun := by
    have there : k.call ∈ s.tasks.map (·.call) := List.mem_map_of_mem hk
    rw [h.tasks_of_idle idle] at there
    exact (h.begun_of_idle idle).mem_iff.2 (List.mem_filter.1 there).1
  have gone : k.collected = true ↔ s.Over k.call :=
    (Iff.intro (h.sound.counted.collected k hk) (h.sound.still idle hk).2).trans (h.over_iff hk begun).symm
  cases collected : k.collected <;> simp_all

end Scheduler
end DirWatch

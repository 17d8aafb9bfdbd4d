import DirWatch.Proofs.Scheduler.Moves

/-!
# Jobs follow tasks

- **Tasks** (`Counted`): a task that moves has one job that lets it step, a task that is done has one job that lets go
  of it, and a task that waits has none.
- **Gates** (`Gated`): a gate that was not left has its own task, which waits there.
- Every move keeps both (`Sound.move`).
-/

namespace DirWatch

/-- The task that a job lets step. -/
def Job.resumed? : Job → Option Nat
  | .resume t => some t
  | _ => none

/-- The task that a job lets go of. -/
def Job.collected? : Job → Option Nat
  | .collect t => some t
  | _ => none

/-- Whether a task is done, and the scheduler has not let go of it yet. -/
def Task.isSpent (k : Task) : Bool := k.isDone && !k.collected

/-- The job that lets task `t` step. -/
def Task.own (t : Nat) (k : Task) : List Job := if k.isMoving then [.resume t] else []

namespace Scheduler

variable {ready rest : List Job} {tasks : List Task} {t : Nat} {k : Task}

/-! ## Counts of jobs -/

section Counts
variable {α : Type} {xs : List α} {x : α} {P : α → Bool} {j : Job} {f : Job → Option Nat}

/-- A job that is there counts. -/
theorem count_pos_of_mem (there : j ∈ ready) (reads : f j = some t) : 0 < (ready.filterMap f).count t :=
  List.count_pos_iff.2 (List.mem_filterMap.2 ⟨j, there, reads⟩)

/-- Where exactly the things with a property have a job, one that has a job has the property. -/
theorem exists_of_counted (counted : (ready.filterMap f).count t = (xs[t]?.any P).toNat) (there : j ∈ ready)
    (reads : f j = some t) : ∃ x, xs[t]? = some x ∧ P x = true := by
  have pos := count_pos_of_mem there reads
  rw [counted, Nat.pos_iff_ne_zero, Ne, Bool.toNat_eq_zero, Bool.not_eq_false] at pos
  exact (Option.any_eq_true _ _).1 pos

/-- Where exactly the things with a property have a job, one with the property has a job. -/
theorem exists_mem_of_counted (counted : (ready.filterMap f).count t = (xs[t]?.any P).toNat) (hx : xs[t]? = some x)
    (holds : P x = true) : ∃ j ∈ ready, f j = some t := by
  have one : (ready.filterMap f).count t = 1 := by rw [counted, hx, Option.any_some, holds, Bool.toNat_true]
  exact List.mem_filterMap.1 (List.count_pos_iff.1 (one ▸ Nat.one_pos))

theorem count_ite_singleton (b : Bool) (t i : Nat) :
    (if b then [t] else []).count i = if t = i then b.toNat else 0 := by
  cases b <;> simp [List.count_singleton, apply_ite]

/-- Adding something to a list. -/
theorem toNat_any_concat (P : α → Bool) (i : Nat) : ((xs ++ [x])[i]?.any P).toNat =
    (xs[i]?.any P).toNat + if xs.length = i then (P x).toNat else 0 := by
  rcases Nat.lt_trichotomy i xs.length with old | rfl | later
  · simp [List.getElem?_append_left old, Nat.ne_of_gt old]
  · simp
  · have outside : (xs ++ [x])[i]? = none := List.getElem?_eq_none (by rw [List.length_append]; exact later)
    have before : xs[i]? = none := List.getElem?_eq_none (Nat.le_of_lt later)
    rw [outside, before, if_neg (Nat.ne_of_lt later)]
    rfl

end Counts

/-! ## Tasks -/

/-- Exactly the tasks that move have a job that lets them step, and exactly the tasks that are done and were not let go
of have a job that lets go of them. -/
structure Counted (ready : List Job) (tasks : List Task) : Prop where
  resumes : ∀ t, (ready.filterMap Job.resumed?).count t = (tasks[t]?.any Task.isMoving).toNat
  collects : ∀ t, (ready.filterMap Job.collected?).count t = (tasks[t]?.any Task.isSpent).toNat
  collected : ∀ k ∈ tasks, k.collected = true → k.isDone = true

theorem Counted.same (h : Counted ready tasks) {jobs : List Job}
    (resumes : jobs.filterMap Job.resumed? = ready.filterMap Job.resumed?)
    (collects : jobs.filterMap Job.collected? = ready.filterMap Job.collected?) : Counted jobs tasks :=
  ⟨resumes ▸ h.resumes, collects ▸ h.collects, h.collected⟩

/-- A task that has a job to step moves. -/
theorem Counted.moving (h : Counted ready tasks) (front : .resume t ∈ ready) :
    ∃ k, tasks[t]? = some k ∧ k.isMoving = true := exists_of_counted (h.resumes t) front rfl

/-- A task that is to be let go of is done, and was not let go of. -/
theorem Counted.spent (h : Counted ready tasks) (front : .collect t ∈ ready) :
    ∃ k, tasks[t]? = some k ∧ k.isSpent = true := exists_of_counted (h.collects t) front rfl

/-- What all tasks of a list have, they have when one of them was changed. -/
theorem forall_mem_modify {P : Task → Prop} {f : Task → Task} (h : ∀ k ∈ tasks, P k) (hk : tasks[t]? = some k)
    (new : P (f k)) : ∀ k ∈ tasks.modify t f, P k := by
  intro k' hk'
  obtain ⟨i, hi⟩ := List.mem_iff_getElem?.1 hk'
  obtain ⟨k'', old, rfl⟩ := getElem?_modify_eq_some hi
  by_cases here : t = i
  · subst here
    rw [if_pos rfl, Option.some.inj (old.symm.trans hk)]
    exact new
  · rw [if_neg here]
    exact h k'' (List.mem_of_getElem? old)

theorem resumed_own (t : Nat) (k : Task) :
    (k.own t).filterMap Job.resumed? = if k.isMoving then [t] else [] := by
  unfold Task.own
  split <;> rfl

theorem collected_own (t : Nat) (k : Task) : (k.own t).filterMap Job.collected? = [] := by
  unfold Task.own
  split <;> rfl

theorem resumed_jobs (t : Nat) (k : Task) {state : Task.State} (stale : state ≠ .fresh) :
    (k.jobs t state).filterMap Job.resumed? = if Task.isMoving { k with state } then [t] else [] := by
  cases state with
  | fresh => exact absurd rfl stale
  | done o => simp [Task.jobs, Task.isMoving, Job.resumed?]
  | _ => rfl

theorem collected_jobs (t : Nat) (k : Task) (state : Task.State) :
    (k.jobs t state).filterMap Job.collected? = if Task.isDone { k with state } then [t] else [] := by
  cases state with
  | done o => simp [Task.jobs, Task.isDone, Job.collected?]
  | _ => rfl

/-- **A task that was not done comes into another state**, with its job if it moved. -/
theorem Counted.turn (h : Counted (k.own t ++ rest) tasks) (hk : tasks[t]? = some k) (undone : k.isDone = false)
    {state : Task.State} (stale : state ≠ .fresh) :
    Counted (rest ++ k.jobs t state) (tasks.modify t fun k => { k with state }) := by
  have kept : k.collected = false := by
    cases collected : k.collected with
    | false => rfl
    | true => simp [h.collected k (List.mem_of_getElem? hk) collected] at undone
  refine ⟨fun i => ?_, fun i => ?_, fun k' hk' collected => ?_⟩
  · have before := h.resumes i
    rw [List.filterMap_append, List.count_append, resumed_own, count_ite_singleton] at before
    rw [List.filterMap_append, List.count_append, resumed_jobs t k stale, count_ite_singleton, List.getElem?_modify]
    by_cases here : t = i
    · subst here
      simp_all
    · simp_all
  · have before := h.collects i
    rw [List.filterMap_append, List.count_append, collected_own] at before
    rw [List.filterMap_append, List.count_append, collected_jobs t k state, count_ite_singleton, List.getElem?_modify]
    by_cases here : t = i
    · subst here
      simp_all [Task.isSpent]
    · simp_all
  · refine forall_mem_modify h.collected hk (fun collected => ?_) k' hk' collected
    rw [kept] at collected
    cases collected

/-- **The scheduler lets go of a task.** -/
theorem Counted.collect (h : Counted (.collect t :: rest) tasks) (hk : tasks[t]? = some k) :
    Counted rest (tasks.modify t fun k => { k with collected := true }) := by
  obtain ⟨k', hk', spent⟩ := h.spent List.mem_cons_self
  obtain rfl := Option.some.inj (hk.symm.trans hk')
  have done : k.isDone = true := by
    rw [Task.isSpent, Bool.and_eq_true] at spent
    exact spent.1
  refine ⟨fun i => ?_, fun i => ?_, forall_mem_modify h.collected hk fun _ => done⟩
  · have before : (rest.filterMap Job.resumed?).count i = _ := h.resumes i
    rw [before, List.getElem?_modify]
    by_cases here : t = i
    · subst here
      simp [hk, Task.isMoving]
    · simp [here]
  · have before := h.collects i
    rw [List.getElem?_modify]
    by_cases here : t = i
    · subst here
      simp_all [Job.collected?, Task.isSpent]
    · simp_all [Job.collected?]

/-- A task that has just begun is added, with the job that lets it step. -/
theorem Counted.add (h : Counted ready tasks) (undone : k.isDone = false) (kept : k.collected = false) :
    Counted (ready ++ k.own tasks.length) (tasks ++ [k]) := by
  refine ⟨fun i => ?_, fun i => ?_, fun k' hk' collected => ?_⟩
  · rw [List.filterMap_append, List.count_append, resumed_own, count_ite_singleton, h.resumes, toNat_any_concat]
  · have still : k.isSpent = false := by simp [Task.isSpent, undone]
    rw [List.filterMap_append, List.count_append, collected_own, h.collects, toNat_any_concat, still]
    simp
  · rcases List.mem_append.1 hk' with old | new
    · exact h.collected k' old collected
    · rw [List.mem_singleton.1 new, kept] at collected
      cases collected

theorem count_atDoor (s : Scheduler) (t : Nat) : s.atDoor.count t = (s.tasks[t]?.any waitsAtDoor).toNat := by
  rw [s.nodup_atDoor.count]
  cases hk : s.tasks[t]? with
  | none => simp [mem_atDoor, hk]
  | some k => cases here : waitsAtDoor k <;> simp [mem_atDoor, hk, here]

/-- A task at the door waits. -/
theorem isWaiting_of_waitsAtDoor (h : waitsAtDoor k = true) : k.isWaiting = true := by
  unfold waitsAtDoor at h
  unfold Task.isWaiting
  cases state : k.state <;> simp_all

/-- A task that waits has no job. -/
theorem still_of_isWaiting (h : k.isWaiting = true) : k.isMoving = false ∧ k.isDone = false := by
  unfold Task.isWaiting at h
  unfold Task.isMoving Task.isDone
  cases state : k.state <;> simp_all

/-- A task that moves is not done. -/
theorem undone_of_isMoving (h : k.isMoving = true) : k.isDone = false ∧ k.isWaiting = false := by
  unfold Task.isMoving at h
  unfold Task.isDone Task.isWaiting
  cases state : k.state <;> simp_all

/-- Going on past the door ends no task. -/
theorem isDone_opened (k : Task) : (opened k).isDone = k.isDone := by
  cases here : waitsAtDoor k with
  | false => simp [opened, here]
  | true =>
    rw [opened, if_pos here, (still_of_isWaiting (isWaiting_of_waitsAtDoor here)).2]
    rfl

/-- **The door is opened.** -/
theorem Counted.openDoor {s : Scheduler} (h : Counted s.ready s.tasks) : Counted s.openDoor.ready s.openDoor.tasks := by
  rw [openDoor_eq]
  have moves (k : Task) : (opened k).isMoving.toNat = k.isMoving.toNat + (waitsAtDoor k).toNat := by
    cases here : waitsAtDoor k with
    | false => simp [opened, here]
    | true =>
      rw [opened, if_pos here, (still_of_isWaiting (isWaiting_of_waitsAtDoor here)).1]
      rfl
  have kept (k : Task) : (opened k).collected = k.collected := by
    unfold opened
    split <;> rfl
  refine ⟨fun i => ?_, fun i => ?_, fun k' hk' collected => ?_⟩
  · have opened : (s.atDoor.map Job.resume).filterMap Job.resumed? = s.atDoor := by
      simp [List.filterMap_map, Function.comp_def, Job.resumed?]
    rw [List.filterMap_append, opened, List.count_append, h.resumes, count_atDoor, List.getElem?_map]
    cases s.tasks[i]? <;> simp [moves]
  · have opened : (s.atDoor.map Job.resume).filterMap Job.collected? = [] := by simp [Job.collected?]
    rw [List.filterMap_append, opened, List.append_nil, h.collects, List.getElem?_map]
    cases s.tasks[i]? <;> simp [Task.isSpent, isDone_opened, kept]
  · obtain ⟨k, hk, rfl⟩ := List.mem_map.1 hk'
    rw [isDone_opened]
    exact h.collected k hk (kept k ▸ collected)

/-! ## Gates -/

/-- A gate that was not left has its own task, which waits there. -/
structure Gated (gates : List Gate) (tasks : List Task) : Prop where
  tasks : ∀ g ∈ gates, ∃ k, tasks[g.task]? = some k ∧ k.state ≠ .fresh ∧
    (g.completed = false → k.isWaiting = true ∧ k.body = .waitsAtGate)
  distinct : (gates.map (·.task)).Nodup

variable {gates : List Gate}

/-- Changing a task that is at no gate. -/
theorem Gated.modify (h : Gated gates tasks) (hk : tasks[t]? = some k) {f : Task → Task}
    (stale : k.state ≠ .fresh → (f k).state ≠ .fresh)
    (left : ∀ g ∈ gates, g.task = t → g.completed = false → (f k).isWaiting = true ∧ (f k).body = .waitsAtGate) :
    Gated gates (tasks.modify t f) := by
  refine ⟨fun g hg => ?_, h.distinct⟩
  obtain ⟨k', hk', old, waits⟩ := h.tasks g hg
  rw [List.getElem?_modify, hk']
  by_cases here : t = g.task
  · subst here
    obtain rfl := Option.some.inj (hk.symm.trans hk')
    exact ⟨f k, by simp, stale old, left g hg rfl⟩
  · exact ⟨k', by simp [here], old, waits⟩

/-- Leaving a gate. -/
theorem Gated.complete (h : Gated gates tasks) (g : Nat) :
    Gated (gates.modify g fun x => { x with completed := true }) tasks := by
  have same : (gates.modify g fun x => { x with completed := true }).map (·.task) = gates.map (·.task) := by
    refine List.ext_getElem? fun i => ?_
    rw [List.getElem?_map, List.getElem?_map, List.getElem?_modify]
    cases gates[i]? with
    | none => rfl
    | some x => by_cases here : g = i <;> simp [here]
  refine ⟨fun x hx => ?_, same ▸ h.distinct⟩
  obtain ⟨i, hi⟩ := List.mem_iff_getElem?.1 hx
  rw [List.getElem?_modify] at hi
  obtain ⟨y, hy, rfl⟩ := Option.map_eq_some_iff.1 hi
  obtain ⟨k, hk, old, waits⟩ := h.tasks y (List.mem_of_getElem? hy)
  refine ⟨k, ?_, old, fun unleft => waits ?_⟩
  · split <;> exact hk
  · split at unleft
    · cases unleft
    · exact unleft

/-- A task that waits takes a new gate. -/
theorem Gated.add (h : Gated gates tasks) (hk : tasks[t]? = some k) (waits : k.isWaiting = true)
    (body : k.body = .waitsAtGate) (none : ∀ g ∈ gates, g.task ≠ t) : Gated (gates ++ [{ task := t }]) tasks := by
  have stale : k.state ≠ .fresh := by
    intro fresh
    simp [Task.isWaiting, fresh] at waits
  refine ⟨fun g hg => ?_, ?_⟩
  · rcases List.mem_append.1 hg with old | new
    · exact h.tasks g old
    · obtain rfl := List.mem_singleton.1 new
      exact ⟨k, hk, stale, fun _ => ⟨waits, body⟩⟩
  · rw [List.map_append, List.nodup_append]
    refine ⟨h.distinct, by simp, fun a ha b hb => ?_⟩
    obtain ⟨g, hg, rfl⟩ := List.mem_map.1 ha
    obtain rfl : b = t := by simpa using hb
    exact none g hg

/-- Tasks are added. -/
theorem Gated.append (h : Gated gates tasks) (more : List Task) : Gated gates (tasks ++ more) := by
  refine ⟨fun g hg => ?_, h.distinct⟩
  obtain ⟨k, hk, stands⟩ := h.tasks g hg
  exact ⟨k, by rw [List.getElem?_append_left (List.getElem?_eq_some_iff.1 hk).1, hk], stands⟩

/-- **The door is opened.** -/
theorem Gated.openDoor {s : Scheduler} (h : Gated s.gates s.tasks) : Gated s.openDoor.gates s.openDoor.tasks := by
  rw [openDoor_eq]
  refine ⟨fun g hg => ?_, h.distinct⟩
  obtain ⟨k, hk, stale, waits⟩ := h.tasks g hg
  refine ⟨opened k, by rw [List.getElem?_map, hk]; rfl, ?_, fun unleft => ?_⟩
  · unfold opened
    split
    · simp [pastDoor]
    · exact stale
  · obtain ⟨waiting, body⟩ := waits unleft
    have away : waitsAtDoor k = false := by
      unfold waitsAtDoor
      split <;> simp [body]
    simp [opened, away, waiting, body]

/-! ## Every move keeps jobs and tasks together -/

/-- What every move keeps of jobs, tasks and gates. -/
structure Sound (s : Scheduler) : Prop where
  counted : Counted s.ready s.tasks
  gated : Gated s.gates s.tasks

theorem Sound.new : Sound {} :=
  ⟨⟨fun _ => rfl, fun _ => rfl, fun _ hk => nomatch hk⟩, ⟨fun _ hg => (nomatch hg), List.nodup_nil⟩⟩

variable {s : Scheduler}

/-- Idle waits have nothing to do with it. -/
theorem Sound.congr {s' : Scheduler} (h : s.Sound) (same : s'.alone = s.alone) : s'.Sound := by
  have any (P : Task → Bool) (blind : ∀ k : Task, P k.alone = P k) (t : Nat) :
      s'.tasks[t]?.any P = s.tasks[t]?.any P := by
    have read := map_getElem?_of_alone_eq same blind t
    cases h' : s'.tasks[t]? <;> cases h : s.tasks[t]? <;> simp_all
  have gates : s'.gates = s.gates := congrArg (·.gates) same
  refine ⟨⟨fun t => ?_, fun t => ?_, fun k hk collected => ?_⟩, ⟨fun g hg => ?_, ?_⟩⟩
  · rw [filterMap_of_alone_eq same (by rintro (_ | _ | _ | _ | _) <;> simp [Job.isWait, Job.resumed?]),
      h.counted.resumes, any Task.isMoving fun _ => rfl]
  · rw [filterMap_of_alone_eq same (by rintro (_ | _ | _ | _ | _) <;> simp [Job.isWait, Job.collected?]),
      h.counted.collects, any Task.isSpent fun _ => rfl]
  · exact forall_mem_of_alone_eq same (P := fun k => k.collected = true → k.isDone = true) (fun _ => .rfl)
      h.counted.collected k hk collected
  · obtain ⟨k, hk, stands⟩ := h.gated.tasks g (gates ▸ hg)
    have read := map_getElem?_of_alone_eq same (f := fun k => (k.state, k.body)) (fun _ => rfl) g.task
    rw [hk] at read
    obtain ⟨k', hk', e⟩ := Option.map_eq_some_iff.1 read
    simp only [Prod.mk.injEq] at e
    refine ⟨k', hk', ?_⟩
    rw [Task.isWaiting, e.1, e.2]
    exact stands
  · exact gates ▸ h.gated.distinct

/-- **A task takes a step.** -/
theorem Sound.step (h : s.Sound) (front : s.ready = .resume t :: rest) (hk : s.tasks[t]? = some k)
    (moving : k.isMoving = true) : ((s.popped rest).step t k).Sound := by
  obtain ⟨undone, unmoved⟩ := undone_of_isMoving moving
  have stale := next_ne_fresh s.doorOpen moving
  have own : s.ready = k.own t ++ rest := by simp [Task.own, moving, front]
  refine ⟨Counted.turn (own ▸ h.counted) hk undone stale, ?_⟩
  -- A task that moves waits at no gate.
  have turned : Gated s.gates (s.tasks.modify t fun x => { x with state := (k.next s.doorOpen).2 }) := by
    refine h.gated.modify hk (fun _ => stale) fun g hg here unleft => ?_
    obtain ⟨k', hk', _, waits⟩ := h.gated.tasks g hg
    rw [here, hk] at hk'
    rw [← Option.some.inj hk', unmoved] at waits
    cases (waits unleft).1
  show Gated (s.gates ++ if k.takesGate then [{ task := t }] else []) _
  cases takes : k.takesGate with
  | false =>
    rw [if_neg Bool.false_ne_true, List.append_nil]
    exact turned
  | true =>
    obtain ⟨fresh, body, waits⟩ := next_of_takesGate s.doorOpen takes
    have there : (s.tasks.modify t fun x => { x with state := (k.next s.doorOpen).2 })[t]? =
        some { k with state := .waiting } := by simp [hk, waits]
    refine turned.add there rfl body fun g hg here => ?_
    -- A fresh task has no gate yet.
    obtain ⟨k', hk', stale, _⟩ := h.gated.tasks g hg
    rw [here, hk] at hk'
    exact stale (Option.some.inj hk' ▸ fresh)

/-- **A gate is left.** -/
theorem Sound.leave (h : s.Sound) {g : Nat} {gate : Gate} (hg : s.gates[g]? = some gate)
    (hk : s.tasks[gate.task]? = some k) (waiting : k.isWaiting = true) (r : Gate.Result) :
    (s.leave g gate k r).Sound := by
  obtain ⟨still, undone⟩ := still_of_isWaiting waiting
  have own : s.ready = k.own gate.task ++ s.ready := by simp [Task.own, still]
  have stale := afterGate_ne_fresh k r
  refine ⟨Counted.turn (own ▸ h.counted) hk undone stale, ?_⟩
  refine (h.gated.complete g).modify hk (fun _ => stale) fun x hx here uncompleted => ?_
  -- No other gate has the same task.
  obtain ⟨i, hi⟩ := List.mem_iff_getElem?.1 hx
  rw [List.getElem?_modify] at hi
  obtain ⟨y, hy, rfl⟩ := Option.map_eq_some_iff.1 hi
  by_cases same : g = i
  · simp [same] at uncompleted
  · rw [if_neg same] at here
    have both : (s.gates.map (·.task))[g]? = (s.gates.map (·.task))[i]? := by simp [hg, hy, here]
    have inside : g < (s.gates.map (·.task)).length := by simp [(List.getElem?_eq_some_iff.1 hg).1]
    exact absurd ((List.getElem?_inj inside h.gated.distinct).1 both) same

/-- **A handler is called.** -/
theorem Sound.call (h : s.Sound) {n : Nat} {handler : Handler} {paths : List Text}
    (front : s.ready = .call n handler paths :: rest) : ((s.popped rest).callHandler n handler paths).Sound := by
  have counted : Counted rest s.tasks := h.counted.same (by rw [front]; rfl) (by rw [front]; rfl)
  obtain ⟨name, kind⟩ := handler
  cases kind with
  | plain => exact ⟨counted, h.gated⟩
  | raises message => exact ⟨counted, h.gated⟩
  | respawns =>
    refine ⟨counted.same ?_ ?_, h.gated⟩
    · simp [callHandler, spawn, push, note, popped, Job.resumed?]
    · simp [callHandler, spawn, push, note, popped, Job.collected?]
  | gate =>
    let k : Task := { call := n, handler := name, paths, body := .waitsAtGate, state := .bare }
    have added := counted.add (k := k) rfl rfl
    have here : (s.tasks ++ [k])[s.tasks.length]? = some k := by simp
    have still : k.own s.tasks.length = [] := rfl
    rw [still, List.append_nil] at added
    refine ⟨added, (h.gated.append [k]).add here rfl rfl fun g hg same => ?_⟩
    obtain ⟨k', hk', _⟩ := h.gated.tasks g hg
    have inside : g.task < s.tasks.length := (List.getElem?_eq_some_iff.1 hk').1
    exact absurd same (Nat.ne_of_lt inside)
  | task body =>
    let k : Task := { call := n, handler := name, paths, body, state := .fresh }
    exact ⟨counted.add (k := k) rfl rfl, h.gated.append [k]⟩

/-! ## Moves -/

/-- A move that handlers do not see. -/
inductive Idling (s : Scheduler) : Move → Scheduler → Prop
  | nothing {m : Move} : Idling s m s
  | awaits : Idling s .waitIdle s.waitIdle
  | ran {j : Job} {rest : List Job} (front : s.ready = j :: rest) (wait : j.isWait = true) :
      Idling s .next ((s.popped rest).runJob j)

/-- What a move does. -/
inductive Change (s : Scheduler) : Move → Scheduler → Prop
  | spawned (h : Handler) (paths : List Text) : Change s (.spawn h paths) (s.spawn h paths)
  | called {n : Nat} {h : Handler} {paths : List Text} {rest : List Job} (front : s.ready = .call n h paths :: rest) :
      Change s .next ((s.popped rest).callHandler n h paths)
  | stepped {t : Nat} {k : Task} {rest : List Job} (front : s.ready = .resume t :: rest) (hk : s.tasks[t]? = some k)
      (moving : k.isMoving = true) : Change s .next ((s.popped rest).step t k)
  | collected {t : Nat} {k : Task} {rest : List Job} (front : s.ready = .collect t :: rest)
      (hk : s.tasks[t]? = some k) (spent : k.isSpent = true) : Change s .next ((s.popped rest).letGo t k)
  | left {g : Nat} {gate : Gate} {k : Task} (r : Gate.Result) (hg : s.gates[g]? = some gate)
      (unleft : gate.completed = false) (hk : s.tasks[gate.task]? = some k) (waiting : k.isWaiting = true)
      (body : k.body = .waitsAtGate) : Change s (.complete g r) (s.leave g gate k r)
  | opened : Change s .openDoor s.openDoor
  | alone {m : Move} {s' : Scheduler} (same : s'.alone = s.alone) (spawns : s.spawns m = [])
      (leaves : s.leaves m = []) (idling : Idling s m s') : Change s m s'

/-- A job of an idle wait changes nothing but waits. -/
theorem alone_runJob_front {j : Job} (front : s.ready = j :: rest) (wait : j.isWait = true) :
    ((s.popped rest).runJob j).alone = s.alone := by
  rw [alone_runJob wait]
  simp [alone, popped, front, wait]

/-- **What a move does** to a sound scheduler. -/
theorem Sound.change (h : s.Sound) (m : Move) : Change s m (s.move m) := by
  cases m with
  | spawn handler paths => exact .spawned handler paths
  | complete g r =>
    by_cases gone : ∀ gate, s.gates[g]? = some gate → gate.completed = true
    · have leaves : s.leaves (.complete g r) = [] := by
        cases hg : s.gates[g]? with
        | none => simp [Scheduler.leaves, hg]
        | some gate => simp [Scheduler.leaves, hg, gone gate hg]
      rw [Scheduler.move, completeGate_eq_self gone]
      exact .alone rfl rfl leaves .nothing
    · obtain ⟨gate, hg, unleft⟩ : ∃ gate, s.gates[g]? = some gate ∧ gate.completed = false := by simpa using gone
      obtain ⟨k, hk, _, waits⟩ := h.gated.tasks gate (List.mem_of_getElem? hg)
      obtain ⟨waiting, body⟩ := waits unleft
      rw [Scheduler.move, completeGate_eq hg unleft hk waiting]
      exact .left r hg unleft hk waiting body
  | openDoor => exact .opened
  | waitIdle => exact .alone (by simp [Scheduler.move, waitIdle, Scheduler.alone, push, Job.isWait]) rfl rfl .awaits
  | next =>
    cases front : s.ready with
    | nil =>
      rw [move_next_of_idle front]
      exact .alone rfl (by simp [spawns, front]) rfl .nothing
    | cons j rest =>
      rw [move_next front]
      cases j with
      | call n handler paths => exact .called front
      | resume t =>
        obtain ⟨k, hk, moving⟩ := h.counted.moving (t := t) (by simp [front])
        have there : (s.popped rest).tasks[t]? = some k := hk
        rw [runJob, there]
        dsimp only
        rw [stepTask_eq there moving]
        exact .stepped front hk moving
      | collect t =>
        obtain ⟨k, hk, spent⟩ := h.counted.spent (t := t) (by simp [front])
        have there : (s.popped rest).tasks[t]? = some k := hk
        rw [runJob, there]
        dsimp only
        rw [collectTask_eq]
        exact .collected front hk spent
      | joined w => exact .alone (alone_runJob_front front rfl) (by simp [spawns, front]) rfl (.ran front rfl)
      | check w => exact .alone (alone_runJob_front front rfl) (by simp [spawns, front]) rfl (.ran front rfl)

/-- **Every move keeps jobs and tasks together.** -/
theorem Sound.after (h : s.Sound) {m : Move} {s' : Scheduler} (c : Change s m s') : s'.Sound := by
  cases c with
  | spawned handler paths =>
    exact ⟨h.counted.same (by simp [spawn, push, Job.resumed?]) (by simp [spawn, push, Job.collected?]), h.gated⟩
  | called front => exact h.call front
  | stepped front hk moving => exact h.step front hk moving
  | collected front hk spent =>
    refine ⟨Counted.collect (front ▸ h.counted) hk, h.gated.modify hk (fun stale => stale) fun g hg here unleft => ?_⟩
    obtain ⟨k', hk', _, waits⟩ := h.gated.tasks g hg
    rw [here, hk] at hk'
    exact Option.some.inj hk' ▸ waits unleft
  | left r hg unleft hk waiting body => exact h.leave hg hk waiting r
  | opened => exact ⟨h.counted.openDoor, h.gated.openDoor⟩
  | alone same spawns leaves => exact h.congr same

theorem Sound.move (h : s.Sound) (m : Move) : (s.move m).Sound := h.after (h.change m)

/-- When nothing is ready, no task moves, and the scheduler has let go of all that are done. -/
theorem Sound.still (h : s.Sound) (idle : s.ready = []) (hk : k ∈ s.tasks) :
    k.isMoving = false ∧ (k.isDone = true → k.collected = true) := by
  obtain ⟨t, ht⟩ := List.mem_iff_getElem?.1 hk
  have moving := h.counted.resumes t
  have spent := h.counted.collects t
  rw [idle, ht] at moving spent
  constructor
  · cases moves : k.isMoving with
    | false => rfl
    | true => simp [moves] at moving
  · intro done
    cases collected : k.collected with
    | true => rfl
    | false => simp [Task.isSpent, done, collected] at spent

theorem sound_run (moves : List Move) : (run {} moves).Sound := run_induction (fun _ m h => h.move m) .new moves

end Scheduler
end DirWatch

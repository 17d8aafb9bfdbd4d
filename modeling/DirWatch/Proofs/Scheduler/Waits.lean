import DirWatch.Proofs.Scheduler.Order

/-!
# What idle waits wait for

- **Numbers** (`Counting`): a wait looks for pending tasks with one job of its own, or it waits until it was told as
  often as it has yet to be; the jobs that tell it and the tasks that will do so are as many.
- **Moves** (`Counting.after`): every move keeps these numbers.
- **Rest** (`Counting.unfinished`): when nothing is ready, a wait that has not returned waits for a task that is not
  done.
-/

namespace DirWatch

/-- The wait that a job lets look for pending tasks. -/
def Job.checked? : Job → Option Nat
  | .check w => some w
  | _ => none

/-- The wait that a job tells of a task. -/
def Job.told? : Job → Option Nat
  | .joined w => some w
  | _ => none

/-- Whether a wait is to look for pending tasks. -/
def IdleWait.isLooking (x : IdleWait) : Bool := !x.done && x.remaining == 0

/-- A wait that has returned has begun, and one that waits for tasks has begun and has not returned. -/
structure IdleWait.Sound (x : IdleWait) : Prop where
  returned : x.done = true → x.yielded = true
  waiting : x.remaining ≠ 0 → x.yielded = true ∧ x.done = false

/-- How often a task will tell wait `w` that it is done. -/
def Task.owes (w : Nat) (k : Task) : Nat := if k.isDone then 0 else k.joiners.count w

/-- The sum over a list in which one task was changed. -/
theorem total_modify {tasks : List Task} {t : Nat} {k : Task} (hk : tasks[t]? = some k) (f : Task → Task)
    (g : Task → Nat) : total g (tasks.modify t f) + g k = total g tasks + g (f k) := by
  obtain ⟨inside, rfl⟩ := List.getElem?_eq_some_iff.1 hk
  obtain ⟨front, k, back, e, rfl, modified⟩ := List.exists_of_modify f inside
  have here : tasks[front.length] = k := by simp [e]
  rw [here, modified, e, total_append, total_append, total_cons, total_cons]
  omega

/-- A sum that is something has something in it. -/
theorem exists_of_total_ne_zero {α : Type} {f : α → Nat} {xs : List α} (some : total f xs ≠ 0) :
    ∃ a ∈ xs, f a ≠ 0 := by
  induction xs with
  | nil => exact absurd rfl some
  | cons a rest ih =>
    by_cases none : f a = 0
    · rw [total_cons, none, Nat.zero_add] at some
      obtain ⟨b, hb, more⟩ := ih some
      exact ⟨b, List.mem_cons_of_mem _ hb, more⟩
    · exact ⟨a, List.mem_cons_self, none⟩

namespace Scheduler

variable {s s' : Scheduler} {ready rest jobs : List Job} {tasks : List Task} {waits : List IdleWait} {t w : Nat}
  {k : Task} {x : IdleWait} {m : Move}

/-! ## Numbers -/

/-- How often wait `w` will be told that a task is done. -/
def untold (ready : List Job) (tasks : List Task) (w : Nat) : Nat :=
  (ready.filterMap Job.told?).count w + total (Task.owes w) tasks

/-- Exactly the waits that are to look for pending tasks have a job for it, and every wait will be told as often as it
has yet to be. -/
structure Counting (waits : List IdleWait) (ready : List Job) (tasks : List Task) : Prop where
  checks : ∀ w, (ready.filterMap Job.checked?).count w = (waits[w]?.any IdleWait.isLooking).toNat
  owed : ∀ w, untold ready tasks w = (waits[w]?.map (·.remaining)).getD 0
  sound : ∀ x ∈ waits, x.Sound

theorem Counting.same (h : Counting waits ready tasks) {tasks' : List Task}
    (checks : jobs.filterMap Job.checked? = ready.filterMap Job.checked?)
    (told : jobs.filterMap Job.told? = ready.filterMap Job.told?)
    (owes : ∀ w, total (Task.owes w) tasks' = total (Task.owes w) tasks) : Counting waits jobs tasks' :=
  ⟨checks ▸ h.checks, fun w => by rw [untold, told, owes]; exact h.owed w, h.sound⟩

/-- A wait with a job to look is to look. -/
theorem Counting.looking (h : Counting waits ready tasks) (there : .check w ∈ ready) :
    ∃ x, waits[w]? = some x ∧ x.done = false ∧ x.remaining = 0 := by
  obtain ⟨x, hx, looking⟩ := exists_of_counted (h.checks w) there rfl
  exact ⟨x, hx, by simpa [IdleWait.isLooking] using looking⟩

/-- A wait that is to be told waits for something. -/
theorem Counting.waiting (h : Counting waits ready tasks) (there : .joined w ∈ ready) :
    ∃ x, waits[w]? = some x ∧ x.remaining ≠ 0 ∧ x.yielded = true ∧ x.done = false := by
  have counted := h.owed w
  have pos : 0 < (ready.filterMap Job.told?).count w := count_pos_of_mem there rfl
  rw [untold] at counted
  cases hx : waits[w]? with
  | none => simp [hx] at counted; omega
  | some x =>
    have remaining : x.remaining ≠ 0 := by simp [hx] at counted; omega
    exact ⟨x, rfl, remaining, (h.sound x (List.mem_of_getElem? hx)).waiting remaining⟩

/-! ## Tasks -/

theorem checked_jobs (t : Nat) (k : Task) (state : Task.State) : (k.jobs t state).filterMap Job.checked? = [] := by
  cases state <;> simp [Task.jobs, Job.checked?]

theorem told_jobs (t : Nat) (k : Task) (state : Task.State) :
    (k.jobs t state).filterMap Job.told? = if Task.isDone { k with state } then k.joiners else [] := by
  cases state with
  | done o =>
    have told : (k.joiners.map Job.joined).filterMap Job.told? = k.joiners := by
      rw [List.filterMap_map]
      exact List.filterMap_some
    exact told
  | _ => rfl

/-- **A task comes into another state**: at its end it tells all waits. -/
theorem Counting.turn (h : Counting waits (k.own t ++ rest) tasks) (hk : tasks[t]? = some k)
    (undone : k.isDone = false) (state : Task.State) :
    Counting waits (rest ++ k.jobs t state) (tasks.modify t fun k => { k with state }) := by
  have own : (k.own t).filterMap Job.checked? = [] ∧ (k.own t).filterMap Job.told? = [] := by
    unfold Task.own
    split <;> exact ⟨rfl, rfl⟩
  refine ⟨fun w => ?_, fun w => ?_, h.sound⟩
  · have before := h.checks w
    rw [List.filterMap_append, own.1, List.nil_append] at before
    rw [List.filterMap_append, checked_jobs, List.append_nil, before]
  · have before := h.owed w
    have changed := total_modify hk (fun k => { k with state }) (Task.owes w)
    rw [untold, List.filterMap_append, own.2, List.nil_append] at before
    rw [untold, List.filterMap_append, List.count_append, told_jobs, ← before]
    -- What the task owed is told now, or owed as before.
    have moved : (if Task.isDone { k with state } then k.joiners else []).count w + Task.owes w { k with state } =
        Task.owes w k := by
      unfold Task.owes
      rw [undone]
      cases Task.isDone { k with state } <;> simp
    omega

/-- Changing a task but not whom it will tell. -/
theorem total_owes_modify (tasks : List Task) (t : Nat) {f : Task → Task} (same : ∀ k, Task.owes w (f k) = k.owes w) :
    total (Task.owes w) (tasks.modify t f) = total (Task.owes w) tasks := by
  cases hk : tasks[t]? with
  | none => rw [List.modify_eq_self (List.getElem?_eq_none_iff.1 hk)]
  | some k =>
    have changed := total_modify hk f (Task.owes w)
    rw [same] at changed
    omega

theorem total_owes_opened (w : Nat) (tasks : List Task) :
    total (Task.owes w) (tasks.map opened) = total (Task.owes w) tasks := by
  have same (k : Task) : (opened k).owes w = k.owes w := by
    have joiners : (opened k).joiners = k.joiners := by
      unfold opened
      split <;> rfl
    rw [Task.owes, Task.owes, isDone_opened, joiners]
  induction tasks with
  | nil => rfl
  | cons k rest ih => rw [List.map_cons, total_cons, total_cons, same, ih]

/-! ## Looking -/

theorem joinTask_eq (hk : s.tasks[t]? = some k) : joinTask w s t =
    if k.isDone then s.push (.joined w) else s.update t fun k => { k with joiners := k.joiners ++ [w] } := by
  unfold joinTask Task.isDone
  rw [hk]
  cases state : k.state <;> simp [state]

/-- A task that a wait waits for will tell it once more. -/
theorem untold_joinTask (hk : s.tasks[t]? = some k) (v : Nat) : untold (joinTask w s t).ready (joinTask w s t).tasks v =
    untold s.ready s.tasks v + if w = v then 1 else 0 := by
  rw [joinTask_eq hk]
  cases done : k.isDone with
  | true => simp [untold, push, Job.told?, List.count_singleton]; omega
  | false =>
    have changed := total_modify hk (fun k => { k with joiners := k.joiners ++ [w] }) (Task.owes v)
    have joined : Task.owes v { k with joiners := k.joiners ++ [w] } = k.owes v + if w = v then 1 else 0 := by
      have undone : Task.isDone { k with joiners := k.joiners ++ [w] } = false := done
      simp [Task.owes, undone, done, List.count_singleton]
    show (s.ready.filterMap Job.told?).count v + total (Task.owes v) (s.tasks.modify t _) = _
    rw [untold]
    omega

theorem length_tasks_joinTask (s : Scheduler) (w t : Nat) : (joinTask w s t).tasks.length = s.tasks.length := by
  unfold joinTask
  split <;> simp [push, update]

theorem untold_foldl_joinTask (w : Nat) {ts : List Nat} (inside : ∀ t ∈ ts, t < s.tasks.length) (v : Nat) :
    untold (ts.foldl (joinTask w) s).ready (ts.foldl (joinTask w) s).tasks v =
      untold s.ready s.tasks v + if w = v then ts.length else 0 := by
  induction ts generalizing s with
  | nil => simp
  | cons t ts ih =>
    have first : t < s.tasks.length := inside t List.mem_cons_self
    have hk : s.tasks[t]? = some s.tasks[t] := List.getElem?_eq_getElem first
    have later : ∀ t' ∈ ts, t' < (joinTask w s t).tasks.length := fun t' there => by
      rw [length_tasks_joinTask]
      exact inside t' (List.mem_cons_of_mem _ there)
    rw [List.foldl_cons, ih later, untold_joinTask hk, List.length_cons]
    split <;> omega

/-- **A wait is told at once of the tasks that are done.** -/
theorem ready_foldl_joinTask (w : Nat) (ts : List Nat) : (ts.foldl (joinTask w) s).ready =
    s.ready ++ List.replicate (ts.countP fun t => s.tasks[t]?.any Task.isDone) (.joined w) := by
  induction ts generalizing s with
  | nil => simp
  | cons t ts ih =>
    have same (i : Nat) : (joinTask w s t).tasks[i]?.any Task.isDone = s.tasks[i]?.any Task.isDone := by
      have read := map_getElem?_of_alone_eq (alone_joinTask (s := s) w t) (f := Task.isDone) (fun _ => rfl) i
      cases h' : (joinTask w s t).tasks[i]? <;> cases h : s.tasks[i]? <;> simp_all
    have first : (joinTask w s t).ready =
        s.ready ++ List.replicate (if s.tasks[t]?.any Task.isDone then 1 else 0) (.joined w) := by
      cases hk : s.tasks[t]? with
      | none => simp [joinTask, hk, update]
      | some k => rw [joinTask_eq hk]; cases done : k.isDone <;> simp [done, push, update]
    simp only [List.foldl_cons, ih, same, first, List.countP_cons, List.append_assoc, List.replicate_append_replicate,
      Nat.add_comm]

theorem waits_foldl_joinTask (w : Nat) (ts : List Nat) : (ts.foldl (joinTask w) s).waits = s.waits := by
  induction ts generalizing s with
  | nil => rfl
  | cons t ts ih =>
    refine ih.trans ?_
    unfold joinTask
    split <;> rfl

theorem mem_pendingTasks : t ∈ s.pendingTasks ↔ ∃ k, s.tasks[t]? = some k ∧ k.collected = false := by
  simp [pendingTasks, List.mem_zipIdx_iff_getElem?]

theorem pendingTasks_eq_nil_iff : s.pendingTasks = [] ↔ ∀ k ∈ s.tasks, k.collected = true := by
  rw [List.eq_nil_iff_forall_not_mem]
  simp only [mem_pendingTasks, not_exists, not_and, Bool.not_eq_false]
  refine ⟨fun none k hk => ?_, fun all t k hk => all k (List.mem_of_getElem? hk)⟩
  obtain ⟨t, ht⟩ := List.mem_iff_getElem?.1 hk
  exact none t k ht

/-! ## Jobs of waits -/

/-- **A wait begins.** -/
theorem Counting.begin (h : Counting waits ready tasks) :
    Counting (waits ++ [({} : IdleWait)]) (ready ++ [.check waits.length]) tasks := by
  refine ⟨fun w => ?_, fun w => ?_, fun x hx => ?_⟩
  · have looking : IdleWait.isLooking {} = true := rfl
    rw [List.filterMap_append, List.count_append, h.checks, toNat_any_concat, looking]
    simp [Job.checked?, List.count_singleton]
  · have told : (ready ++ [Job.check waits.length]).filterMap Job.told? = ready.filterMap Job.told? := by
      simp [Job.told?]
    rw [untold, told]
    refine (h.owed w).trans ?_
    rcases Nat.lt_trichotomy w waits.length with old | rfl | later
    · rw [List.getElem?_append_left old]
    · simp
    · have outside : (waits ++ [({} : IdleWait)])[w]? = none :=
        List.getElem?_eq_none (by rw [List.length_append]; exact later)
      rw [outside, List.getElem?_eq_none (Nat.le_of_lt later)]
  · rcases List.mem_append.1 hx with old | new
    · exact h.sound x old
    · obtain rfl := List.mem_singleton.1 new
      exact ⟨fun returned => (nomatch returned), fun waiting => absurd rfl waiting⟩

/-- What is read off the waits when one of them was changed. -/
theorem getElem?_modify_wait (hx : waits[w]? = some x) (f : IdleWait → IdleWait) (i : Nat) :
    (waits.modify w f)[i]? = if w = i then some (f x) else waits[i]? := by
  rw [List.getElem?_modify]
  by_cases here : w = i
  · subst here
    simp [hx]
  · simp [here]

theorem forall_mem_modify_wait {P : IdleWait → Prop} (h : ∀ x ∈ waits, P x) (hx : waits[w]? = some x)
    {f : IdleWait → IdleWait} (new : P (f x)) : ∀ x ∈ waits.modify w f, P x := by
  intro y hy
  obtain ⟨i, hi⟩ := List.mem_iff_getElem?.1 hy
  rw [getElem?_modify_wait hx] at hi
  split at hi
  · exact Option.some.inj hi ▸ new
  · exact h y (List.mem_of_getElem? hi)

/-- **A wait runs a job**, which changes the wait and makes other jobs ready. -/
theorem Counting.ran {j : Job} (h : Counting waits (j :: rest) tasks) (hx : waits[w]? = some x)
    {f : IdleWait → IdleWait} {tasks' : List Task} (looked : j.checked? = if x.isLooking then some w else none)
    (looks : jobs.filterMap Job.checked? = if (f x).isLooking then [w] else [])
    (told : ∀ i, untold jobs tasks' i + (if w = i then x.remaining else 0) =
      untold [j] tasks i + if w = i then (f x).remaining else 0)
    (sound : (f x).Sound) :
    Counting (waits.modify w f) (rest ++ jobs) tasks' := by
  refine ⟨fun i => ?_, fun i => ?_, forall_mem_modify_wait h.sound hx sound⟩
  · have before := h.checks i
    rw [List.filterMap_cons, looked] at before
    rw [List.filterMap_append, List.count_append, looks, count_ite_singleton, getElem?_modify_wait hx]
    by_cases here : w = i
    · subst here
      rw [if_pos rfl, if_pos rfl, Option.any_some]
      cases looking : x.isLooking <;> simp [hx, looking] at before <;> omega
    · rw [if_neg here, if_neg here, Nat.add_zero, ← before]
      split <;> simp_all
  · have before := h.owed i
    have told := told i
    have behind : untold (rest ++ jobs) tasks' i = (rest.filterMap Job.told?).count i + untold jobs tasks' i := by
      rw [untold, untold, List.filterMap_append, List.count_append, Nat.add_assoc]
    have front : untold (j :: rest) tasks i = (rest.filterMap Job.told?).count i + untold [j] tasks i := by
      rw [untold, untold, ← List.singleton_append, List.filterMap_append, List.count_append]
      omega
    rw [front] at before
    rw [behind, getElem?_modify_wait hx]
    by_cases here : w = i
    · subst here
      simp [hx] at before told ⊢
      omega
    · simp only [if_neg here, Nat.add_zero] at told ⊢
      rw [told, before]

/-- **A wait is told of a task**: of the last one, so that it looks again, or it waits for the others. -/
theorem Counting.joined (h : Counting waits (.joined w :: rest) tasks) (hx : waits[w]? = some x) :
    Counting (waits.modify w fun x => { x with remaining := x.remaining - 1 })
      (rest ++ if x.remaining ≤ 1 then [.check w] else []) tasks := by
  obtain ⟨x', hx', busy, yielded, undone⟩ := h.waiting List.mem_cons_self
  obtain rfl := Option.some.inj (hx.symm.trans hx')
  refine h.ran hx ?_ ?_ (fun i => ?_) ⟨fun _ => yielded, fun _ => ⟨yielded, undone⟩⟩
  · simp [Job.checked?, IdleWait.isLooking, busy]
  · by_cases last : x.remaining ≤ 1
    · have none : x.remaining - 1 = 0 := by omega
      simp [last, none, undone, IdleWait.isLooking, Job.checked?]
    · have more : x.remaining - 1 ≠ 0 := by omega
      simp [last, more, IdleWait.isLooking]
  · have none : (if x.remaining ≤ 1 then [Job.check w] else []).filterMap Job.told? = [] := by
      split <;> simp [Job.told?]
    rw [untold, untold, none]
    by_cases here : w = i
    · simp [here, Job.told?]
      omega
    · simp [here, Job.told?]

/-- **A wait lets the jobs before it run.** -/
theorem Counting.yield (h : Counting waits (.check w :: rest) tasks) (hx : waits[w]? = some x) :
    Counting (waits.modify w fun x => { x with yielded := true }) (rest ++ [.check w]) tasks := by
  obtain ⟨x', hx', undone, remaining⟩ := h.looking List.mem_cons_self
  obtain rfl := Option.some.inj (hx.symm.trans hx')
  refine h.ran hx ?_ ?_ (fun i => rfl) ⟨fun _ => rfl, fun busy => absurd remaining busy⟩
  · simp [Job.checked?, IdleWait.isLooking, undone, remaining]
  · simp [Job.checked?, IdleWait.isLooking, undone, remaining]

/-- **A wait finds no pending task**, and returns. -/
theorem Counting.finish (h : Counting waits (.check w :: rest) tasks) (hx : waits[w]? = some x)
    (yielded : x.yielded = true) :
    Counting (waits.modify w fun x => { x with done := true }) rest tasks := by
  obtain ⟨x', hx', undone, remaining⟩ := h.looking List.mem_cons_self
  obtain rfl := Option.some.inj (hx.symm.trans hx')
  rw [← List.append_nil rest]
  refine h.ran hx ?_ ?_ (fun i => rfl) ⟨fun _ => yielded, fun busy => absurd remaining busy⟩
  · simp [Job.checked?, IdleWait.isLooking, undone, remaining]
  · simp [IdleWait.isLooking]

/-- **A wait finds pending tasks**, and waits for them all. -/
theorem Counting.join (h : Counting waits (.check w :: s.ready) s.tasks) (hx : waits[w]? = some x)
    (yielded : x.yielded = true) {ts : List Nat} (inside : ∀ t ∈ ts, t < s.tasks.length) (pending : ts ≠ []) :
    Counting (waits.modify w fun x => { x with remaining := ts.length }) (ts.foldl (joinTask w) s).ready
      (ts.foldl (joinTask w) s).tasks := by
  obtain ⟨x', hx', undone, remaining⟩ := h.looking List.mem_cons_self
  obtain rfl := Option.some.inj (hx.symm.trans hx')
  have told := untold_foldl_joinTask w inside
  have checked (n : Nat) : (List.replicate n (Job.joined w)).filterMap Job.checked? = [] := by
    rw [List.filterMap_eq_nil_iff]
    exact fun j hj => List.eq_of_mem_replicate hj ▸ rfl
  rw [ready_foldl_joinTask] at told ⊢
  refine h.ran hx ?_ ?_ (fun i => ?_) ⟨fun _ => yielded, fun _ => ⟨yielded, undone⟩⟩
  · simp [Job.checked?, IdleWait.isLooking, undone, remaining]
  · rw [checked]
    simp [IdleWait.isLooking, pending]
  · have told := told i
    have own : untold [.check w] s.tasks i = total (Task.owes i) s.tasks := Nat.zero_add _
    rw [untold, untold, List.filterMap_append, List.count_append] at told
    rw [own, untold, remaining, ite_self]
    dsimp only
    omega

/-- What a job of a wait does. -/
inductive Waited (s : Scheduler) : Scheduler → Prop
  | told {w : Nat} {x : IdleWait} {rest : List Job} (front : s.ready = .joined w :: rest) (hx : s.waits[w]? = some x) :
      Waited s { s.updateWait w fun x => { x with remaining := x.remaining - 1 } with
        ready := rest ++ if x.remaining ≤ 1 then [.check w] else [] }
  | yields {w : Nat} {x : IdleWait} {rest : List Job} (front : s.ready = .check w :: rest) (hx : s.waits[w]? = some x)
      (first : x.yielded = false) :
      Waited s { s.updateWait w fun x => { x with yielded := true } with ready := rest ++ [.check w] }
  | finishes {w : Nat} {x : IdleWait} {rest : List Job} (front : s.ready = .check w :: rest)
      (hx : s.waits[w]? = some x) (yielded : x.yielded = true) (none : s.pendingTasks = []) :
      Waited s { s.updateWait w fun x => { x with done := true } with ready := rest }
  | joins {w : Nat} {x : IdleWait} {rest : List Job} (front : s.ready = .check w :: rest) (hx : s.waits[w]? = some x)
      (yielded : x.yielded = true) (pending : s.pendingTasks ≠ []) :
      Waited s (s.pendingTasks.foldl (joinTask w)
        { s.updateWait w fun x => { x with remaining := s.pendingTasks.length } with ready := rest })

/-- **What a job of a wait does** when the wait is there. -/
theorem Counting.waited (h : Counting s.waits s.ready s.tasks) {j : Job} (front : s.ready = j :: rest)
    (wait : j.isWait = true) : Waited s ((s.popped rest).runJob j) := by
  cases j with
  | joined w =>
    obtain ⟨x, hx, _⟩ := h.waiting (w := w) (by simp [front])
    have there : (s.popped rest).waits[w]? = some x := hx
    have told := Waited.told front hx
    rw [runJob, there]
    dsimp only [countJoined]
    split
    · rename_i last
      rw [if_pos last] at told
      exact told
    · rename_i more
      rw [if_neg more, List.append_nil] at told
      exact told
  | check w =>
    obtain ⟨x, hx, _⟩ := h.looking (w := w) (by simp [front])
    have there : (s.popped rest).waits[w]? = some x := hx
    rw [runJob, there]
    dsimp only [checkIdle]
    cases yielded : x.yielded with
    | false => exact .yields front hx yielded
    | true =>
      have same : (s.popped rest).pendingTasks = s.pendingTasks := rfl
      rw [same]
      cases pending : s.pendingTasks with
      | nil => exact .finishes front hx yielded pending
      | cons t ts =>
        have joins := Waited.joins front hx yielded (by simp [pending])
        rw [pending] at joins
        exact joins
  | _ => cases wait

/-- A job of a wait makes only such jobs ready. -/
theorem Waited.ready_eq (c : Waited s s') {j : Job} (front : s.ready = j :: rest) :
    ∃ jobs, s'.ready = rest ++ jobs ∧ ∀ i ∈ jobs, i.isWait = true := by
  cases c with
  | told front' hx =>
    obtain ⟨rfl, rfl⟩ := List.cons.inj (front.symm.trans front')
    refine ⟨_, rfl, fun i hi => ?_⟩
    split at hi
    · exact List.mem_singleton.1 hi ▸ rfl
    · cases hi
  | yields front' hx first =>
    obtain ⟨rfl, rfl⟩ := List.cons.inj (front.symm.trans front')
    exact ⟨_, rfl, fun i hi => List.mem_singleton.1 hi ▸ rfl⟩
  | finishes front' hx yielded none =>
    obtain ⟨rfl, rfl⟩ := List.cons.inj (front.symm.trans front')
    exact ⟨[], (List.append_nil _).symm, fun _ hi => nomatch hi⟩
  | joins front' hx yielded pending =>
    obtain ⟨rfl, rfl⟩ := List.cons.inj (front.symm.trans front')
    exact ⟨_, ready_foldl_joinTask .., fun i hi => List.eq_of_mem_replicate hi ▸ rfl⟩

/-! ## Moves -/

/-- The tasks that a call leaves behind have nobody to tell. -/
theorem Counting.call (h : Counting s.waits s.ready s.tasks) {n : Nat} {handler : Handler} {paths : List Text}
    (front : s.ready = .call n handler paths :: rest) :
    let called := (s.popped rest).callHandler n handler paths
    Counting called.waits called.ready called.tasks := by
  have popped : Counting s.waits rest s.tasks := h.same (by rw [front]; rfl) (by rw [front]; rfl) fun _ => rfl
  have fresh (k : Task) (nobody : k.joiners = []) (w : Nat) :
      total (Task.owes w) (s.tasks ++ [k]) = total (Task.owes w) s.tasks := by
    simp [Task.owes, nobody]
  obtain ⟨name, kind⟩ := handler
  cases kind with
  | plain => exact popped
  | raises message => exact popped
  | respawns =>
    refine popped.same ?_ ?_ fun _ => rfl
    · simp [callHandler, spawn, push, note, Scheduler.popped, Job.checked?]
    · simp [callHandler, spawn, push, note, Scheduler.popped, Job.told?]
  | gate => exact popped.same rfl rfl (fresh _ rfl)
  | task body =>
    refine popped.same ?_ ?_ (fresh _ rfl)
    · simp [callHandler, push, addTask, Scheduler.popped, Job.checked?]
    · simp [callHandler, push, addTask, Scheduler.popped, Job.told?]

/-- **A job of a wait keeps the numbers.** -/
theorem Counting.wait (h : Counting s.waits s.ready s.tasks) (c : Waited s s') :
    Counting s'.waits s'.ready s'.tasks := by
  cases c with
  | told front hx => exact (front ▸ h).joined hx
  | yields front hx first => exact (front ▸ h).yield hx
  | finishes front hx yielded none => exact (front ▸ h).finish hx yielded
  | @joins w x rest front hx yielded pending =>
    have inside : ∀ t ∈ s.pendingTasks, t < s.tasks.length := fun t there => by
      obtain ⟨k, hk, _⟩ := mem_pendingTasks.1 there
      exact (List.getElem?_eq_some_iff.1 hk).1
    rw [waits_foldl_joinTask]
    rw [front] at h
    exact Counting.join (s := { s.updateWait w _ with ready := rest }) h hx yielded inside pending

/-- **Every move keeps the numbers of waits.** -/
theorem Counting.after (h : Counting s.waits s.ready s.tasks) (c : Change s m s') :
    Counting s'.waits s'.ready s'.tasks := by
  cases c with
  | spawned handler paths =>
    exact h.same (by simp [spawn, push, Job.checked?]) (by simp [spawn, push, Job.told?]) fun _ => rfl
  | called front => exact h.call front
  | @stepped t k rest front hk moving =>
    have own : s.ready = k.own t ++ rest := by simp [Task.own, moving, front]
    exact (own ▸ h).turn hk (undone_of_isMoving moving).1 _
  | @collected t k rest front hk spent =>
    refine h.same ?_ ?_ fun w => total_owes_modify s.tasks t fun _ => rfl
    · rw [front]; rfl
    · rw [front]; rfl
  | @left g gate k r hg unleft hk waiting body =>
    obtain ⟨still, undone⟩ := still_of_isWaiting waiting
    have own : s.ready = k.own gate.task ++ s.ready := by simp [Task.own, still]
    exact (own ▸ h).turn hk undone _
  | opened =>
    rw [openDoor_eq]
    refine h.same ?_ ?_ fun w => total_owes_opened w s.tasks
    · simp [Job.checked?]
    · simp [Job.told?]
  | alone same spawns leaves idling =>
    cases idling with
    | nothing => exact h
    | awaits => exact h.begin
    | ran front wait => exact h.wait (h.waited front wait)

/-- **What a wait waits for when nothing is ready**: a task that is not done. -/
theorem Counting.unfinished (h : Counting s.waits s.ready s.tasks) (idle : s.ready = []) (hx : s.waits[w]? = some x)
    (waiting : x.done = false) : ∃ k ∈ s.tasks, k.isDone = false := by
  have checks := h.checks w
  have owed := h.owed w
  rw [idle, hx] at checks owed
  have remaining : x.remaining ≠ 0 := by
    intro none
    simp [IdleWait.isLooking, waiting, none] at checks
  have owes : total (Task.owes w) s.tasks ≠ 0 := by
    simp [untold] at owed
    omega
  obtain ⟨k, hk, owing⟩ := exists_of_total_ne_zero owes
  refine ⟨k, hk, ?_⟩
  cases done : k.isDone with
  | false => rfl
  | true => simp [Task.owes, done] at owing

/-! ## Histories -/

/-- What every history keeps of jobs and waits. -/
structure Waiting (s : Scheduler) : Prop where
  sound : s.Sound
  counting : Counting s.waits s.ready s.tasks

theorem Waiting.move (h : s.Waiting) (m : Move) : (s.move m).Waiting :=
  ⟨h.sound.move m, h.counting.after (h.sound.change m)⟩

theorem waiting_run (moves : List Move) : (run {} moves).Waiting :=
  run_induction (fun _ m h => h.move m) ⟨.new, ⟨fun _ => rfl, fun _ => rfl, fun _ hx => nomatch hx⟩⟩ moves

end Scheduler
end DirWatch

import DirWatch.Proofs.Scheduler.Rest
import DirWatch.Proofs.Scheduler.Spared

/-!
# Idle waits return once earlier calls are over

- **Calls** (`Filed.over_after`): a call that is over stays so.
- **Order** (`Behind`): a wait that has begun looks for pending tasks only after the calls that were spawned before it
  began, since jobs are made ready behind the others (`Counting.queues`).
- **Returns** (`Watches.run`, `pending_of_returning`): a wait that finds no pending task returns, when these calls are
  over.
- With the rest that the loop comes to, all of it is joined in `idle_waits_return`.
-/

namespace DirWatch
namespace Scheduler

variable {s s' : Scheduler} {book : List Call} {ready rest jobs : List Job} {t w n : Nat} {k : Task} {x y : IdleWait}
  {m : Move}

/-! ## Calls that are over -/

/-- What was made stays made. -/
theorem Change.begun (c : Change s m s') : s.begun ⊆ s'.begun := by
  have more (log : List LogEntry) : s.begun ⊆ (s.log ++ log).filterMap LogEntry.begun? := by
    rw [List.filterMap_append]
    exact List.subset_append_left ..
  cases c with
  | spawned handler paths => exact fun _ there => there
  | @called n h paths rest front =>
    obtain ⟨name, kind⟩ := h
    cases kind with
    | task body => exact fun _ there => there
    | _ => exact more _
  | stepped front hk moving => exact more _
  | collected front hk spent => exact fun _ there => there
  | left r hg unleft hk waiting body => exact fun _ there => there
  | opened =>
    rw [openDoor_eq]
    exact fun _ there => there
  | alone same spawns leaves idling =>
    have log : s'.log = s.log := congrArg (·.log) same
    rw [Scheduler.begun, Scheduler.begun, log]
    exact fun _ there => there

/-- A call leaves at most its own task behind. -/
theorem tasks_callHandler (s : Scheduler) (n : Nat) (h : Handler) (paths : List Text) :
    (s.callHandler n h paths).tasks = s.tasks ∨ ∃ k, k.call = n ∧ (s.callHandler n h paths).tasks = s.tasks ++ [k] := by
  obtain ⟨name, kind⟩ := h
  cases kind with
  | gate => exact .inr ⟨_, rfl, rfl⟩
  | task body => exact .inr ⟨_, rfl, rfl⟩
  | _ => exact .inl rfl

/-- **A call that is over stays so.** -/
theorem Filed.over_after (h : s.Filed book) (c : Change s m s') (ended : s.Over n) : s'.Over n := by
  refine ⟨c.begun ended.1, ?_⟩
  -- A task that comes into another state was not done, so it belongs to another call.
  have turned {t : Nat} {k : Task} (hk : s.tasks[t]? = some k) (undone : k.isDone = false) (state : Task.State) :
      ∀ k ∈ s.tasks.modify t fun k => { k with state }, k.call = n → k.isDone = true := by
    refine forall_mem_modify (P := fun k => k.call = n → k.isDone = true) ended.2 hk fun call => ?_
    rw [ended.2 k (List.mem_of_getElem? hk) call] at undone
    cases undone
  cases c with
  | spawned handler paths => exact ended.2
  | @called i handler paths rest front =>
    have other : i ≠ n := by
      rintro rfl
      have queued : i ∈ s.queued := List.mem_filterMap.2 ⟨_, front ▸ List.mem_cons_self, rfl⟩
      exact (List.nodup_append.1 h.nodup).2.2 i (List.mem_append_left _ ended.1) i queued rfl
    obtain same | ⟨k, own, more⟩ := (s.popped rest).tasks_callHandler i handler paths
    · rw [same]
      exact ended.2
    · rw [more]
      intro k' hk' call
      rcases List.mem_append.1 hk' with old | new
      · exact ended.2 k' old call
      · rw [List.mem_singleton.1 new] at call
        exact absurd (own.symm.trans call) other
  | stepped front hk moving => exact turned hk (undone_of_isMoving moving).1 _
  | @collected t k rest front hk spent =>
    exact forall_mem_modify (P := fun k => k.call = n → k.isDone = true) ended.2 hk
      (ended.2 k (List.mem_of_getElem? hk))
  | left r hg unleft hk waiting body => exact turned hk (still_of_isWaiting waiting).2 _
  | opened =>
    rw [openDoor_eq]
    intro k' hk' call
    obtain ⟨k, hk, rfl⟩ := List.mem_map.1 hk'
    rw [isDone_opened]
    exact ended.2 k hk (call_opened k ▸ call)
  | alone same spawns leaves idling =>
    exact forall_mem_of_alone_eq same (P := fun k => k.call = n → k.isDone = true) (fun _ => .rfl) ended.2

/-! ## Jobs behind a wait -/

/-- No job that lets wait `w` look for pending tasks stands before the job that makes call `n`. -/
def Behind (w n : Nat) (ready : List Job) : Prop := ready.Pairwise fun i j => i = .check w → j.number? ≠ some n

theorem Behind.append (h : Behind w n ready) (others : ∀ j ∈ jobs, j.number? ≠ some n) :
    Behind w n (ready ++ jobs) := by
  refine List.pairwise_append.2 ⟨h, ?_, fun _ _ j hj _ => others j hj⟩
  exact List.pairwise_iff_forall_sublist.2 fun pair _ => others _ (pair.subset (by simp))

/-- The scheduler with jobs behind some of the last ones, which make no call but a new one. -/
def Queues (s s' : Scheduler) : Prop := ∃ rest jobs, rest <:+ s.ready ∧ s'.ready = rest ++ jobs ∧
  ∀ j ∈ jobs, ∀ i, j.number? = some i → i = s.spawned

theorem queues_of_eq (old : rest <:+ s.ready) (e : s'.ready = rest) : Queues s s' :=
  ⟨_, [], old, e.trans (List.append_nil _).symm, fun _ hj => nomatch hj⟩

theorem suffix_of_front {j : Job} (front : s.ready = j :: rest) : rest <:+ s.ready := front ▸ List.suffix_cons ..

/-- **Jobs are made ready behind the others**, and make no call but a new one. -/
theorem Counting.queues (h : Counting s.waits s.ready s.tasks) (c : Change s m s') : Queues s s' := by
  have turned (t : Nat) (k : Task) (state : Task.State) :
      ∀ j ∈ k.jobs t state, ∀ i, j.number? = some i → i = s.spawned := by
    intro j hj i number
    have none := List.filterMap_eq_nil_iff.1 (queued_jobs t k state) j hj
    cases none.symm.trans number
  cases c with
  | spawned handler paths => exact ⟨s.ready, _, List.suffix_refl _, rfl, by simp [Job.number?]⟩
  | @called n handler paths rest front =>
    obtain ⟨name, kind⟩ := handler
    cases kind with
    | respawns => exact ⟨rest, _, suffix_of_front front, rfl, by simp [Job.number?, note, popped]⟩
    | task body => exact ⟨rest, _, suffix_of_front front, rfl, by simp [Job.number?]⟩
    | _ => exact queues_of_eq (suffix_of_front front) rfl
  | @stepped t k rest front hk moving => exact ⟨rest, _, suffix_of_front front, rfl, turned t k _⟩
  | @collected t k rest front hk spent => exact queues_of_eq (suffix_of_front front) rfl
  | @left g gate k r hg unleft hk waiting body => exact ⟨s.ready, _, List.suffix_refl _, rfl, turned _ k _⟩
  | opened =>
    rw [openDoor_eq]
    exact ⟨s.ready, _, List.suffix_refl _, rfl, by simp [Job.number?]⟩
  | alone same spawns leaves idling =>
    cases idling with
    | nothing => exact queues_of_eq (List.suffix_refl _) rfl
    | awaits => exact ⟨s.ready, _, List.suffix_refl _, rfl, by simp [Job.number?]⟩
    | ran front wait =>
      obtain ⟨jobs, e, waits⟩ := (h.waited front wait).ready_eq front
      refine ⟨_, jobs, suffix_of_front front, e, fun j hj i number => ?_⟩
      have wait := waits j hj
      cases j <;> simp_all [Job.number?, Job.isWait]

/-- A job that makes a call stays behind what it was behind. -/
theorem Behind.after (h : Behind w n s.ready) (known : n < s.spawned) (c : Queues s s') : Behind w n s'.ready := by
  obtain ⟨rest, jobs, old, e, new⟩ := c
  have behind : Behind w n rest := List.Pairwise.sublist old.sublist h
  rw [e]
  refine behind.append fun j hj number => ?_
  have late := new j hj n number
  omega

/-! ## Where a wait stands -/

/-- Where wait `w` stands after a move. -/
inductive Fared (s : Scheduler) (w : Nat) (s' : Scheduler) (y : IdleWait) : Prop
  | begins (new : y = {})
  | same {x : IdleWait} (hx : s.waits[w]? = some x) (yielded : x.yielded = y.yielded) (done : x.done = y.done)
  | yields {x : IdleWait} {rest : List Job} (front : s.ready = .check w :: rest) (hx : s.waits[w]? = some x)
      (first : x.yielded = false) (waiting : y.done = false) (ready : s'.ready = rest ++ [.check w])
  | finishes {x : IdleWait} {rest : List Job} (front : s.ready = .check w :: rest) (hx : s.waits[w]? = some x)
      (yielded : x.yielded = true) (none : s.pendingTasks = []) (tasks : s'.tasks = s.tasks)

/-- A job of a wait changes no other wait. -/
theorem Counting.fared_of_waited (h : Counting s.waits s.ready s.tasks) (c : Waited s s')
    (hy : s'.waits[w]? = some y) : Fared s w s' y := by
  have only {v : Nat} {x : IdleWait} {f : IdleWait → IdleWait} {waits : List IdleWait} (hx : s.waits[v]? = some x)
      (e : waits = s.waits.modify v f) (hy : waits[w]? = some y) : s.waits[w]? = some y ∨ v = w ∧ f x = y := by
    rw [e, getElem?_modify_wait hx] at hy
    split at hy
    · rename_i here
      exact .inr ⟨here, Option.some.inj hy⟩
    · exact .inl hy
  cases c with
  | told front hx =>
    obtain other | ⟨rfl, rfl⟩ := only hx rfl hy
    · exact .same other rfl rfl
    · exact .same hx rfl rfl
  | yields front hx first =>
    obtain other | ⟨rfl, rfl⟩ := only hx rfl hy
    · exact .same other rfl rfl
    · obtain ⟨x', hx', undone, _⟩ := h.looking (front ▸ List.mem_cons_self)
      obtain rfl := Option.some.inj (hx.symm.trans hx')
      exact .yields front hx first undone rfl
  | finishes front hx yielded none =>
    obtain other | ⟨rfl, rfl⟩ := only hx rfl hy
    · exact .same other rfl rfl
    · exact .finishes front hx yielded none rfl
  | joins front hx yielded pending =>
    obtain other | ⟨rfl, rfl⟩ := only hx (waits_foldl_joinTask ..) hy
    · exact .same other rfl rfl
    · exact .same hx rfl rfl

/-- **Where a wait stands after a move.** -/
theorem Counting.fared (h : Counting s.waits s.ready s.tasks) (c : Change s m s') (hy : s'.waits[w]? = some y) :
    Fared s w s' y := by
  have same (waits : s'.waits = s.waits) : Fared s w s' y := .same (waits ▸ hy) rfl rfl
  cases c with
  | spawned handler paths => exact same rfl
  | @called n handler paths rest front =>
    obtain ⟨name, kind⟩ := handler
    cases kind <;> exact same rfl
  | stepped front hk moving => exact same rfl
  | collected front hk spent => exact same rfl
  | left r hg unleft hk waiting body => exact same rfl
  | opened => exact same (congrArg (·.waits) s.openDoor_eq)
  | alone _ _ _ idling =>
    cases idling with
    | nothing => exact same rfl
    | awaits =>
      have hy : (s.waits ++ [({} : IdleWait)])[w]? = some y := hy
      by_cases old : w < s.waits.length
      · rw [List.getElem?_append_left old] at hy
        exact .same hy rfl rfl
      · rw [List.getElem?_append_right (Nat.le_of_not_lt old), List.getElem?_singleton] at hy
        split at hy
        · exact .begins (Option.some.inj hy).symm
        · cases hy
    | ran front wait => exact h.fared_of_waited (h.waited front wait) hy

/-! ## Waits watch earlier calls -/

/-- Whether wait `w` has begun. -/
def entered (s : Scheduler) (w : Nat) : Bool := s.waits[w]?.any (·.yielded)

/-- Whether wait `w` has returned. -/
def returned (s : Scheduler) (w : Nat) : Bool := s.waits[w]?.any (·.done)

/-- Once wait `w` has begun, it does not look for pending tasks before call `n` is made, and does not return before the
call is over. -/
def Watches (s : Scheduler) (w n : Nat) : Prop :=
  ∀ x, s.waits[w]? = some x → x.yielded = true → Behind w n s.ready ∧ (x.done = true → s.Over n)

/-- A wait that lets jobs run looks again only after them. -/
theorem Counting.behind (h : Counting s.waits s.ready s.tasks) (front : s.ready = .check w :: rest) (n : Nat) :
    Behind w n (rest ++ [.check w]) := by
  have once := h.checks w
  have one : (s.waits[w]?.any IdleWait.isLooking).toNat ≤ 1 := Bool.toNat_le _
  have none : .check w ∉ rest := by
    intro there
    have pos : 0 < (rest.filterMap Job.checked?).count w := count_pos_of_mem there rfl
    simp [front, Job.checked?] at once
    omega
  refine Behind.append (List.pairwise_iff_forall_sublist.2 fun pair here => ?_) (by simp [Job.number?])
  exact absurd (here ▸ pair.subset List.mem_cons_self) none

/-- **A wait that finds no pending task**: the calls that were made before it looked are over. -/
theorem Filed.over_of_finish (h : s.Filed book) (known : n < s.spawned) (behind : Behind w n s.ready)
    (front : s.ready = .check w :: rest) (none : s.pendingTasks = []) : s.Over n := by
  have collected := pendingTasks_eq_nil_iff.1 none
  have done : ∀ k ∈ s.tasks, k.isDone = true := fun k hk => h.sound.counted.collected k hk (collected k hk)
  refine ⟨?_, fun k hk _ => done k hk⟩
  have made : n ∉ s.queued := by
    intro queued
    obtain ⟨j, hj, number⟩ := List.mem_filterMap.1 queued
    rw [front] at hj behind
    obtain rfl | later := List.mem_cons.1 hj
    · cases number
    · exact (List.pairwise_cons.1 behind).1 j later rfl number
  have stale : n ∉ Job.starting s.ready s.tasks := by
    intro starts
    obtain ⟨j, _, starts⟩ := List.mem_filterMap.1 starts
    cases j with
    | resume t =>
      obtain ⟨k, hk, fresh⟩ := Option.bind_eq_some_iff.1 starts
      have done := done k (List.mem_of_getElem? hk)
      unfold Task.unbegun? at fresh
      unfold Task.isDone at done
      cases state : k.state <;> simp_all
    | _ => cases starts
  have all : n ∈ s.begun ++ Job.starting s.ready s.tasks ++ s.queued := h.perm.mem_iff.2 (List.mem_range.2 known)
  simpa [made, stale] using all

/-- **Every move keeps a wait watching.** -/
theorem Watches.after (h : s.Watches w n) (filed : s.Filed book) (counting : Counting s.waits s.ready s.tasks)
    (known : n < s.spawned) (c : Change s m s') : s'.Watches w n := by
  intro y hy entered
  cases counting.fared c hy with
  | begins new => simp [new] at entered
  | same hx yielded done =>
    obtain ⟨behind, ended⟩ := h _ hx (yielded.trans entered)
    exact ⟨behind.after known (counting.queues c), fun returns => filed.over_after c (ended (done.trans returns))⟩
  | yields front hx first waiting ready =>
    refine ⟨ready ▸ counting.behind front n, fun returns => ?_⟩
    rw [waiting] at returns
    cases returns
  | finishes front hx yielded none tasks =>
    obtain ⟨behind, _⟩ := h _ hx yielded
    exact ⟨behind.after known (counting.queues c),
      fun _ => filed.over_after c (filed.over_of_finish known behind front none)⟩

/-- **Every history keeps a wait watching.** -/
theorem Watches.run {before : List Move} (h : (Scheduler.run {} before).Watches w n)
    (known : n < (Scheduler.run {} before).spawned) (after : List Move) :
    (Scheduler.run {} (before ++ after)).Watches w n := by
  induction after generalizing before with
  | nil =>
    rw [List.append_nil]
    exact h
  | cons m rest ih =>
    have step : Scheduler.run {} (before ++ [m]) = (Scheduler.run {} before).move m := run_append before [m]
    have filed := (filed_run before []).1
    have later : (Scheduler.run {} (before ++ [m])).Watches w n := by
      rw [step]
      exact h.after filed (waiting_run before).counting known (filed.sound.change m)
    rw [List.append_cons]
    refine ih later ?_
    rw [step, spawned_move]
    omega

/-- **When a wait has returned**, the calls that were spawned before it began are over. -/
theorem over_of_returned {before after : List Move} (first : (run {} before).entered w = false)
    (known : n < (run {} before).spawned) (returns : (run {} (before ++ after)).returned w = true) :
    (run {} (before ++ after)).Over n := by
  have start : (run {} before).Watches w n := by
    intro x hx entered
    simp [Scheduler.entered, hx, entered] at first
  obtain ⟨x, hx, done⟩ := (Option.any_eq_true _ _).1 returns
  have yielded := ((waiting_run _).counting.sound x (List.mem_of_getElem? hx)).returned done
  exact (start.run known after x hx yielded).2 done

/-- **When a wait returns**, no call is pending. -/
theorem pending_of_returning (moves : List Move) (m : Move) (waits : (run {} moves).returned w = false)
    (returns : ((run {} moves).move m).returned w = true) : ((run {} moves).move m).pending = 0 := by
  obtain ⟨y, hy, done⟩ := (Option.any_eq_true _ _).1 returns
  cases (waiting_run moves).counting.fared ((sound_run moves).change m) hy with
  | begins new => simp [new] at done
  | same hx yielded same =>
    rw [returned, hx, Option.any_some, same, done] at waits
    cases waits
  | yields front hx first waiting =>
    rw [waiting] at done
    cases done
  | finishes front hx yielded none tasks =>
    rw [pending, tasks, List.countP_eq_zero]
    intro k hk
    simp [pendingTasks_eq_nil_iff.1 none k hk]

/-- **When nothing is ready** and all calls are over, every wait has returned. -/
theorem returned_of_idle (moves : List Move) (idle : (run {} moves).ready = [])
    (called : w < (run {} moves).waits.length) (ended : ∀ n < (run {} moves).spawned, (run {} moves).Over n) :
    (run {} moves).returned w = true := by
  have filed := (filed_run moves []).1
  have hx : (run {} moves).waits[w]? = some (run {} moves).waits[w] := List.getElem?_eq_getElem called
  cases undone : ((run {} moves).waits[w]).done with
  | true => rw [returned, hx, Option.any_some, undone]
  | false =>
    obtain ⟨k, hk, unfinished⟩ := (waiting_run moves).counting.unfinished idle hx undone
    have there : k.call ∈ (run {} moves).tasks.map (·.call) := List.mem_map_of_mem hk
    rw [filed.tasks_of_idle idle] at there
    have spawned : k.call < (run {} moves).spawned := List.mem_range.1 (List.mem_filter.1 there).1
    rw [(ended _ spawned).2 k hk rfl] at unfinished
    cases unfinished

/-- **How waits return**: whatever is called on a scheduler leads where moves lead, which run jobs one by one. After
any moves,

- a wait that has returned left no call behind that was spawned before it began: all of these are over;
- with the move by which a wait returns, no task is pending any more;
- the loop comes to rest by and by, and when nothing is ready and all calls are over, every wait has returned, however
  the calls ended;
- if some calls did not fail, the waits would stand as they do. -/
theorem idle_waits_return :
    (∀ actions (s : Scheduler), ∃ moves, s.acts actions = s.run moves ∧
      moves.filter Move.isOutside = actions.filterMap Action.outside?) ∧
    ∀ moves,
      let s := run {} moves
      (∀ before after w n, moves = before ++ after → (run {} before).entered w = false →
        n < (run {} before).spawned → s.returned w = true → s.Over n) ∧
      (∀ m w, s.returned w = false → (s.move m).returned w = true → (s.move m).pending = 0) ∧
      ((∃ n, (s.proceed n).ready = []) ∧
        (s.ready = [] → (∀ n < s.spawned, s.Over n) → ∀ w < s.waits.length, s.returned w = true)) ∧
      ∀ q, (run {} (spareMoves q moves)).waits = s.waits := by
  refine ⟨exists_moves, fun moves => ?_⟩
  intro s
  refine ⟨?_, fun m w => pending_of_returning moves m, ⟨(waiting_run moves).rests, ?_⟩, fun q => ?_⟩
  · rintro before after w n rfl first known returns
    exact over_of_returned first known returns
  · exact fun idle ended w called => returned_of_idle moves idle called ended
  · rw [← spare_run q moves]
    rfl

/-- A wait returns after a call that fails. -/
example :
    (run {} ([.spawn ⟨"h", .task (.raises "no")⟩ [], .waitIdle] ++ List.replicate 7 .next)).returned 0 = true := by
  decide

end Scheduler
end DirWatch

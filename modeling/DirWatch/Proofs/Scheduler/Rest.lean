import DirWatch.Proofs.Scheduler.Waits

/-!
# The loop comes to rest

- **Handlers** (`Sound.next_alone`): a job that is none of a wait does to a scheduler what it does if nobody waits,
  where every job lowers what is ahead (`work_runNext_lt`).
- **Waits** (`Waiting.rests_of_waits`): when only waits have jobs, they look, find what there is and have none left.
- **Rest** (`Waiting.rests`): both alternate, since every job comes to the front by and by.
-/

namespace DirWatch

/-- How often a wait may still act through a job when nothing else is ready. -/
def Job.turns (waits : List IdleWait) : Job → Nat
  | .joined _ => 3
  | .check w => if waits[w]?.any (·.yielded) then 1 else 2
  | _ => 0

namespace Scheduler

variable {s s' : Scheduler} {rest : List Job} {waits : List IdleWait} {t w : Nat} {k : Task} {j : Job}

/-! ## Jobs of handlers -/

theorem jobs_alone (t : Nat) (k : Task) (state : Task.State) :
    (k.jobs t state).filter (!·.isWait) = k.alone.jobs t state := by
  cases state <;> simp [Task.jobs, Task.alone, Job.isWait]

theorem alone_turn (hk : s.tasks[t]? = some k) (state : Task.State) :
    (s.turn t k state).alone = s.alone.turn t k.alone state := by
  have tasks : (s.tasks.modify t fun k => { k with state }).map Task.alone =
      (s.tasks.map Task.alone).modify t fun k => { k with state } := map_modify hk rfl
  simp only [alone, turn, List.filter_append, jobs_alone, tasks]

theorem alone_step (hk : s.tasks[t]? = some k) : (s.step t k).alone = s.alone.step t k.alone := by
  have turned := alone_turn hk (k.next s.doorOpen).2
  have next : k.alone.next s.alone.doorOpen = k.next s.doorOpen := rfl
  unfold step
  rw [next, ← turned]
  rfl

theorem alone_letGo (hk : s.tasks[t]? = some k) : (s.letGo t k).alone = s.alone.letGo t k.alone := by
  have tasks : (s.tasks.modify t fun k => { k with collected := true }).map Task.alone =
      (s.tasks.map Task.alone).modify t fun k => { k with collected := true } := map_modify hk rfl
  simp only [alone, letGo, tasks]
  rfl

theorem alone_callHandler (s : Scheduler) (n : Nat) (h : Handler) (paths : List Text) :
    (s.callHandler n h paths).alone = s.alone.callHandler n h paths := by
  obtain ⟨name, kind⟩ := h
  cases kind <;>
    simp [callHandler, alone, note, report, spawn, push, addGate, addTask, Job.isWait, Task.alone]

/-- **A job that is none of a wait** does what it does if nobody waits. -/
theorem Sound.next_alone (h : s.Sound) (front : s.ready = j :: rest) (busy : j.isWait = false) :
    s.alone.runNext? = some (s.move .next).alone := by
  have first : s.alone.ready = j :: rest.filter (!·.isWait) := by simp [alone, front, busy]
  have next : s.alone.runNext? = some ((s.popped rest).alone.runJob j) := by
    rw [runNext?, first]
    rfl
  rw [next, move_next front]
  refine congrArg some ?_
  cases j with
  | call n handler paths => exact (alone_callHandler ..).symm
  | resume t =>
    obtain ⟨k, hk, moving⟩ := h.counted.moving (t := t) (by simp [front])
    have there : (s.popped rest).tasks[t]? = some k := hk
    have there' : (s.popped rest).alone.tasks[t]? = some k.alone := by simp [alone, there]
    rw [runJob, runJob, there, there']
    dsimp only
    rw [stepTask_eq there moving, stepTask_eq there' moving]
    exact (alone_step there).symm
  | collect t =>
    obtain ⟨k, hk, -⟩ := h.counted.spent (t := t) (by simp [front])
    have there : (s.popped rest).tasks[t]? = some k := hk
    have there' : (s.popped rest).alone.tasks[t]? = some k.alone := by simp [alone, there]
    rw [runJob, runJob, there, there']
    dsimp only
    rw [collectTask_eq, collectTask_eq]
    exact (alone_letGo there).symm
  | joined w => cases busy
  | check w => cases busy

/-- A sound scheduler is steady if nobody waits. -/
theorem Sound.steady (h : s.Sound) : s.alone.Steady where
  waits := rfl
  joiners k hk := by
    obtain ⟨k', _, rfl⟩ := List.mem_map.1 hk
    rfl
  known t there := by
    obtain ⟨k, hk, _⟩ := h.counted.moving (List.mem_filter.1 there).1
    rw [alone, List.length_map]
    exact (List.getElem?_eq_some_iff.1 hk).1
  moving t k hk moves := by
    obtain ⟨k', hk', rfl⟩ := Option.map_eq_some_iff.1 (List.getElem?_map.symm.trans hk)
    obtain ⟨j, hj, resumes⟩ := exists_mem_of_counted (h.counted.resumes t) hk' moves
    cases j with
    | resume i =>
      cases resumes
      exact List.mem_filter.2 ⟨hj, rfl⟩
    | _ => cases resumes

/-! ## Jobs of waits -/

theorem turns_check_le (waits : List IdleWait) (w : Nat) : Job.turns waits (.check w) ≤ 2 := by
  rw [Job.turns]
  split <;> decide

/-- A wait that has begun never begins again. -/
theorem turns_modify_le {f : IdleWait → IdleWait} (keeps : ∀ x, x.yielded = true → (f x).yielded = true) (j : Job) :
    j.turns (waits.modify w f) ≤ j.turns waits := by
  cases j with
  | check v =>
    rw [Job.turns, Job.turns, List.getElem?_modify]
    cases waits[v]? with
    | none => simp
    | some x =>
      by_cases here : w = v
      · cases yielded : x.yielded with
        | true => simp [here, yielded, keeps]
        | false =>
          simp only [here, Option.map_eq_map, Option.map_some, Option.any_some, yielded]
          split <;> split <;> simp_all
      · simp [here]
  | _ => exact Nat.le_refl _

/-- **A job of a wait lowers what waits have ahead**, when nothing else is ready. -/
theorem Waited.turns_lt (c : Waited s s') (counted : Counted s.ready s.tasks) (all : ∀ j ∈ s.ready, j.isWait = true) :
    total (Job.turns s'.waits) s'.ready < total (Job.turns s.waits) s.ready := by
  -- The other jobs keep what they have, and those that are made ready have less than the first one.
  have lower {w : Nat} {f : IdleWait → IdleWait} {j : Job} {rest jobs : List Job} (front : s.ready = j :: rest)
      (waits : s'.waits = s.waits.modify w f) (ready : s'.ready = rest ++ jobs)
      (keeps : ∀ x, x.yielded = true → (f x).yielded = true)
      (less : total (Job.turns s'.waits) jobs < j.turns s.waits) :
      total (Job.turns s'.waits) s'.ready < total (Job.turns s.waits) s.ready := by
    have behind : total (Job.turns s'.waits) rest ≤ total (Job.turns s.waits) rest :=
      total_le_total fun j _ => waits ▸ turns_modify_le keeps j
    rw [ready, front, total_append, total_cons]
    omega
  cases c with
  | @told w x rest front hx =>
    refine lower front rfl rfl (fun _ yielded => yielded) ?_
    split
    · exact Nat.lt_succ_of_le (turns_check_le _ w)
    · exact Nat.succ_pos 2
  | @yields w x rest front hx first =>
    refine lower front rfl rfl (fun _ _ => rfl) ?_
    simp [Job.turns, updateWait, hx, first]
  | @finishes w x rest front hx yielded none =>
    refine lower front rfl (List.append_nil _).symm (fun _ yielded => yielded) ?_
    simp [Job.turns, hx, yielded]
  | @joins w x rest front hx yielded pending =>
    -- A task that is done and was not let go of would have a job of its own.
    have undone : (s.pendingTasks.countP fun t => s.tasks[t]?.any Task.isDone) = 0 := by
      rw [List.countP_eq_zero]
      intro t there
      obtain ⟨k, hk, kept⟩ := mem_pendingTasks.1 there
      rw [hk, Option.any_some]
      intro done
      have spent : k.isSpent = true := by simp [Task.isSpent, done, kept]
      obtain ⟨j, hj, collects⟩ := exists_mem_of_counted (counted.collects t) hk spent
      have wait := all j hj
      cases j <;> simp_all [Job.isWait, Job.collected?]
    have ready : (s.pendingTasks.foldl (joinTask w)
        { s.updateWait w fun x => { x with remaining := s.pendingTasks.length } with ready := rest }).ready =
        rest ++ [] := by
      rw [ready_foldl_joinTask]
      exact congrArg (rest ++ List.replicate · (Job.joined w)) undone
    refine lower front (waits_foldl_joinTask ..) ready (fun _ yielded => yielded) ?_
    simp [Job.turns, hx, yielded]

/-! ## Rest -/

/-- Runs jobs while some are ready, at most `n`. -/
def proceed (s : Scheduler) (n : Nat) : Scheduler := s.run (List.replicate n .next)

theorem proceed_add (s : Scheduler) (m n : Nat) : s.proceed (m + n) = (s.proceed m).proceed n := by
  rw [proceed, proceed, proceed, ← run_append, List.replicate_append_replicate]

theorem Waiting.proceed (h : s.Waiting) (n : Nat) : (s.proceed n).Waiting := run_induction (fun _ m h => h.move m) h _

/-- The loop comes to rest when only waits have jobs. -/
theorem Waiting.rests_of_waits (h : s.Waiting) (all : ∀ j ∈ s.ready, j.isWait = true) :
    ∃ n, (s.proceed n).ready = [] := by
  induction measure : total (Job.turns s.waits) s.ready using Nat.strongRecOn generalizing s with
  | _ _ ih =>
    cases front : s.ready with
    | nil => exact ⟨0, front⟩
    | cons j rest =>
      have waited : Waited s (s.move .next) := move_next front ▸ h.counting.waited front (all j (by simp [front]))
      obtain ⟨jobs, ready, waits⟩ := waited.ready_eq front
      obtain ⟨n, idle⟩ := ih _ (measure ▸ waited.turns_lt h.sound.counted all) (h.move .next) (fun i hi => by
        rw [ready] at hi
        exact (List.mem_append.1 hi).elim (fun old => all i (by simp [front, old])) (waits i)) rfl
      exact ⟨n + 1, idle⟩

/-- A job that is none of a wait comes to the front. -/
theorem Waiting.lowers (h : s.Waiting) {front back : List Job} (ready : s.ready = front ++ j :: back)
    (waits : ∀ i ∈ front, i.isWait = true) (busy : j.isWait = false) :
    ∃ n, (s.proceed n).alone.work < s.alone.work := by
  induction front generalizing s back with
  | nil => exact ⟨1, work_runNext_lt h.sound.steady (h.sound.next_alone ready busy)⟩
  | cons i front ih =>
    have wait : i.isWait = true := waits i List.mem_cons_self
    have waited : Waited s (s.move .next) := move_next ready ▸ h.counting.waited ready wait
    obtain ⟨jobs, later, _⟩ := waited.ready_eq ready
    have split : (s.move .next).ready = front ++ j :: (back ++ jobs) := later.trans (List.append_assoc ..)
    obtain ⟨n, less⟩ := ih (h.move .next) split fun i hi => waits i (List.mem_cons_of_mem _ hi)
    have same : (s.move .next).alone = s.alone := move_next ready ▸ alone_runJob_front ready wait
    rw [same] at less
    exact ⟨n + 1, less⟩

/-- **The loop comes to rest**, whatever was called on it. -/
theorem Waiting.rests (h : s.Waiting) : ∃ n, (s.proceed n).ready = [] := by
  induction measure : s.alone.work using Nat.strongRecOn generalizing s with
  | _ _ ih =>
    cases first : s.ready.find? (!·.isWait) with
    | none => exact h.rests_of_waits fun j hj => by simpa using List.find?_eq_none.1 first j hj
    | some j =>
      obtain ⟨busy, front, back, ready, waits⟩ := List.find?_eq_some_iff_append.1 first
      obtain ⟨m, less⟩ := h.lowers ready (by simpa using waits) (by simpa using busy)
      obtain ⟨n, idle⟩ := ih _ (measure ▸ less) (h.proceed m) rfl
      exact ⟨m + n, proceed_add s m n ▸ idle⟩

end Scheduler
end DirWatch

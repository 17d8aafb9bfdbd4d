import DirWatch.Scheduler.Tick

/-!
# The event loop, job by job

A tick runs the jobs that are ready in order, and what they make ready waits behind them. So a tick is as many steps of
a machine that runs the first job (`runNext?`) as jobs are ready (`tick_eq`).
-/

namespace DirWatch
namespace Scheduler

variable {s s' : Scheduler}

/-! ## Jobs in front of the others -/

/-- The scheduler with jobs in front of those that are ready. -/
def behind (s : Scheduler) (jobs : List Job) : Scheduler := { s with ready := jobs ++ s.ready }

section Behind
variable (s) (jobs : List Job)

@[simp] theorem tasks_behind : (s.behind jobs).tasks = s.tasks := rfl

@[simp] theorem waits_behind : (s.behind jobs).waits = s.waits := rfl

@[simp] theorem push_behind (j : Job) : (s.behind jobs).push j = (s.push j).behind jobs := by
  simp [behind, push]

@[simp] theorem pushAll_behind (js : List Job) : (s.behind jobs).pushAll js = (s.pushAll js).behind jobs := by
  simp [behind, pushAll]

@[simp] theorem spawn_behind (h : Handler) (paths : List Text) :
    (s.behind jobs).spawn h paths = (s.spawn h paths).behind jobs := by
  simp [behind, spawn, push]

@[simp] theorem note_behind (call : Nat) (handler : Text) (deed : Deed) :
    (s.behind jobs).note call handler deed = (s.note call handler deed).behind jobs := rfl

@[simp] theorem report_behind (call : Nat) (handler : Text) (problem : Problem) :
    (s.behind jobs).report call handler problem = (s.report call handler problem).behind jobs := rfl

@[simp] theorem update_behind (t : Nat) (f : Task → Task) :
    (s.behind jobs).update t f = (s.update t f).behind jobs := rfl

@[simp] theorem updateWait_behind (w : Nat) (f : IdleWait → IdleWait) :
    (s.behind jobs).updateWait w f = (s.updateWait w f).behind jobs := rfl

@[simp] theorem addTask_behind (k : Task) : (s.behind jobs).addTask k = (s.addTask k).behind jobs := rfl

@[simp] theorem addGate_behind (t : Nat) : (s.behind jobs).addGate t = (s.addGate t).behind jobs := rfl

@[simp] theorem endTask_behind (t : Nat) (o : Task.Outcome) :
    (s.behind jobs).endTask t o = (s.endTask t o).behind jobs := by
  simp [endTask]

theorem beginTask_behind (t : Nat) (k : Task) :
    (s.behind jobs).beginTask t k = (s.beginTask t k).behind jobs := by
  unfold beginTask
  dsimp only [note_behind]
  split
  · exact endTask_behind ..
  · exact endTask_behind ..
  · exact endTask_behind ..
  · simp [wake]
  · simp [sleep]
  · rfl
  · show (if s.doorOpen then _ else _) = behind (if s.doorOpen then _ else _) jobs
    split
    · simp [passDoor]
    · rfl

theorem stepTask_behind (t : Nat) (k : Task) : (s.behind jobs).stepTask t k = (s.stepTask t k).behind jobs := by
  unfold stepTask
  split
  · exact beginTask_behind ..
  · simp [wake]
  · simp [sleep]
  · split
    · simp [passDoor]
    · unfold leaveGate
      split <;> simp
  · rfl

theorem joinTask_behind (w t : Nat) : joinTask w (s.behind jobs) t = (joinTask w s t).behind jobs := by
  unfold joinTask
  rw [tasks_behind]
  split <;> simp

theorem foldl_joinTask_behind (w : Nat) (ts : List Nat) :
    ts.foldl (joinTask w) (s.behind jobs) = (ts.foldl (joinTask w) s).behind jobs := by
  induction ts generalizing s with
  | nil => rfl
  | cons t ts ih => rw [List.foldl_cons, joinTask_behind, ih, List.foldl_cons]

theorem checkIdle_behind (w : Nat) (wait : IdleWait) :
    (s.behind jobs).checkIdle w wait = (s.checkIdle w wait).behind jobs := by
  have pending : (s.behind jobs).pendingTasks = s.pendingTasks := rfl
  unfold checkIdle
  rw [pending]
  split
  · simp
  · split
    · simp
    · simp [foldl_joinTask_behind]

/-- A job makes others ready behind those that are ready already. -/
theorem runJob_behind (j : Job) : (s.behind jobs).runJob j = (s.runJob j).behind jobs := by
  cases j with
  | call number h paths =>
    simp only [runJob, callHandler]
    cases h.kind <;> simp
  | resume t =>
    simp only [runJob, tasks_behind]
    cases s.tasks[t]? with
    | none => rfl
    | some k => exact stepTask_behind ..
  | collect t =>
    simp only [runJob, tasks_behind]
    cases s.tasks[t]? with
    | none => rfl
    | some k =>
      simp only [collectTask, update_behind]
      split <;> simp
  | joined w =>
    simp only [runJob, waits_behind]
    cases s.waits[w]? with
    | none => rfl
    | some wait =>
      simp only [countJoined, updateWait_behind]
      split <;> simp
  | check w =>
    simp only [runJob, waits_behind]
    cases s.waits[w]? with
    | none => rfl
    | some wait => exact checkIdle_behind ..

end Behind

/-! ## Ticks -/

/-- Runs the first job that is ready. -/
def runNext? (s : Scheduler) : Option Scheduler :=
  match s.ready with
  | [] => none
  | j :: rest => some (runJob { s with ready := rest } j)

/-- Running jobs in order is running the first one again and again. -/
theorem foldl_runJob (jobs : List Job) (s : Scheduler) :
    jobs.foldl runJob s = settle runNext? jobs.length (s.behind jobs) := by
  induction jobs generalizing s with
  | nil => rfl
  | cons j rest ih =>
    have next : (s.behind (j :: rest)).runNext? = some ((s.runJob j).behind rest) :=
      congrArg some (runJob_behind s rest j)
    rw [List.foldl_cons, ih, List.length_cons, settle, next]

/-- **A tick takes as many steps as jobs are ready.** -/
theorem tick_eq (s : Scheduler) : s.tick = settle runNext? s.ready.length s := by
  have whole : ({ s with ready := [] } : Scheduler).behind s.ready = s := by simp [behind]
  rw [tick, foldl_runJob, whole]

end Scheduler
end DirWatch

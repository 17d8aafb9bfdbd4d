import DirWatch.Scheduler.Tick

/-!
# How many jobs come of a job

A call takes one job, and more when its handler leaves a task behind or spawns another handler; a task takes a job for
each step and one to be collected. Waits are not counted.
-/

namespace DirWatch

/-- How many jobs it takes to let a task step and to collect it, at most. -/
def Task.work (k : Task) : Nat :=
  match k.state with
  | .fresh => Scheduler.bodySleep k.body + 2
  | .asleep n => n + 2
  | .resumed _ => 2
  | _ => 1

/-- How many jobs come of a job, itself included, at most. -/
def Job.work (tasks : List Task) : Job → Nat
  | .call _ ⟨_, .task body⟩ _ => Scheduler.bodySleep body + 3
  | .call _ ⟨_, .respawns⟩ _ => 2
  | .resume t => (tasks[t]?.map Task.work).getD 1
  | _ => 1

end DirWatch

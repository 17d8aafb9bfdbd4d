import DirWatch.Value

/-!
# Handler schedulers

A scheduler calls handlers on an event loop. The loop runs in ticks: a tick runs the jobs that are ready when it begins,
and the jobs that they make ready wait for the next one. A handler is a plain function, which is done when the call
returns, or it leaves a task behind, whose steps are jobs of their own. A task may wait at a gate that is opened from
outside, or at the door, which is common to all tasks and stays open.

The scheduler keeps a log of what the handlers did and of the failures that it reported, and the tasks of calls that
were not yet collected are pending (`Scheduler.pending`). Spawning runs nothing (`Scheduler.spawn`).
-/

namespace DirWatch

/-- What a task does once it has recorded its call. -/
inductive Handler.Body where
  | returns
  | raises (message : Text)
  | cancels
  /-- Gives way to other jobs for some ticks. -/
  | sleeps (ticks : Nat)
  /-- Waits at a new gate. -/
  | waitsAtGate
  | waitsAtDoor
  deriving DecidableEq, Repr

/-- What calling a handler does. -/
inductive Handler.Kind where
  | plain
  | raises (message : Text)
  /-- Spawns another handler. -/
  | respawns
  /-- Returns a new gate. -/
  | gate
  | task (body : Handler.Body)
  deriving DecidableEq, Repr

/-- A handler with the name that reports give. -/
structure Handler where
  name : Text
  kind : Handler.Kind
  deriving DecidableEq, Repr

/-- What a handler raises. -/
inductive Problem where
  | value (message : Text)
  | runtime (message : Text)
  | os (message : Text)
  deriving DecidableEq, Repr

/-- How a gate was left. -/
inductive Gate.Result where
  | released (v : Value)
  | failed (message : Text)
  | cancelled

/-- A gate, with the task that waits at it. -/
structure Gate where
  task : Nat
  completed : Bool := false

/-- How a task ended. -/
inductive Task.Outcome where
  | returned
  | raised (p : Problem)
  | cancelled
  deriving DecidableEq, Repr

/-- Where a task stands. -/
inductive Task.State where
  | fresh
  | asleep (ticks : Nat)
  | waiting
  | resumed (r : Gate.Result)
  /-- The task is the gate that its handler returned. -/
  | bare
  | done (o : Task.Outcome)

/-- The task that a call left behind. -/
structure Task where
  call : Nat
  handler : Text
  paths : List Text
  body : Handler.Body
  state : Task.State
  /-- Whether the scheduler has let go of the task. -/
  collected : Bool := false
  /-- The idle waits that wait for the task. -/
  joiners : List Nat := []

/-- A job of the event loop. -/
inductive Job where
  /-- Calls a handler; calls are numbered in the order in which they were spawned. -/
  | call (number : Nat) (h : Handler) (paths : List Text)
  /-- Lets a task take its next step. -/
  | resume (task : Nat)
  /-- Lets go of a task that is done. -/
  | collect (task : Nat)
  /-- Tells an idle wait that one of its tasks is done. -/
  | joined (wait : Nat)
  /-- Lets an idle wait look for pending tasks. -/
  | check (wait : Nat)

/-- A wait until no task is pending. -/
structure IdleWait where
  /-- Whether it has let the jobs before it run. -/
  yielded : Bool := false
  /-- How many tasks it waits for. -/
  remaining : Nat := 0
  done : Bool := false
  deriving DecidableEq, Repr

/-- What a handler did. -/
inductive Deed where
  | called (paths : List Text)
  | woke
  | passedGate (v : Value)
  | passedDoor

/-- An entry of the log. -/
structure LogEntry where
  call : Nat
  handler : Text
  deed : Deed

/-- A report of what a handler raised. -/
structure Report where
  call : Nat
  handler : Text
  problem : Problem
  deriving DecidableEq, Repr

/-- A scheduler with its event loop. -/
structure Scheduler where
  ready : List Job := []
  tasks : List Task := []
  gates : List Gate := []
  doorOpen : Bool := false
  waits : List IdleWait := []
  /-- How many calls were spawned. -/
  spawned : Nat := 0
  log : List LogEntry := []
  reports : List Report := []

namespace Scheduler

/-- The wording that goes with every report. -/
def reportMessage : Text := "Exception in watch handler"

/-- How many tasks were not collected yet. -/
def pending (s : Scheduler) : Nat := s.tasks.countP (!·.collected)

/-- Makes a job ready. -/
def push (s : Scheduler) (j : Job) : Scheduler := { s with ready := s.ready ++ [j] }

/-- Makes jobs ready. -/
def pushAll (s : Scheduler) (js : List Job) : Scheduler := { s with ready := s.ready ++ js }

/-- Queues the call of a handler. -/
def spawn (s : Scheduler) (h : Handler) (paths : List Text) : Scheduler :=
  push { s with spawned := s.spawned + 1 } (.call s.spawned h paths)

/-- Records what a handler did. -/
def note (s : Scheduler) (call : Nat) (handler : Text) (deed : Deed) : Scheduler :=
  { s with log := s.log ++ [⟨call, handler, deed⟩] }

/-- Reports what a handler raised. -/
def report (s : Scheduler) (call : Nat) (handler : Text) (problem : Problem) : Scheduler :=
  { s with reports := s.reports ++ [⟨call, handler, problem⟩] }

/-- Changes task `t`. -/
def update (s : Scheduler) (t : Nat) (f : Task → Task) : Scheduler := { s with tasks := s.tasks.modify t f }

/-- A new task. -/
def addTask (s : Scheduler) (t : Task) : Scheduler := { s with tasks := s.tasks ++ [t] }

/-- A new gate, with the task that waits at it. -/
def addGate (s : Scheduler) (t : Nat) : Scheduler := { s with gates := s.gates ++ [{ task := t }] }

end Scheduler
end DirWatch

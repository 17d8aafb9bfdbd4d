import DirWatch.Scheduler.Basic
import DirWatch.Standstill

/-!
# The event loop of a scheduler

* **Jobs** (`Scheduler.runJob`): a call is made once; a task that ends is collected a tick later, and what it raised is
  reported then. A cancelled task is not reported.
* **Ticks** (`Scheduler.tick`, `Scheduler.idle`): one tick, and ticks until nothing is ready.
* **Idle waits** (`Scheduler.checkIdle`): a wait lets the jobs before it run, and then waits for all pending tasks until
  it finds none.
-/

namespace DirWatch
namespace Scheduler

/-! ## Tasks -/

/-- Ends task `t`: it is to be collected, and the waits for it are to be told. -/
def endTask (s : Scheduler) (t : Nat) (o : Task.Outcome) : Scheduler :=
  let joiners := (s.tasks[t]?.map (·.joiners)).getD []
  pushAll (s.update t fun k => { k with state := .done o }) (.collect t :: joiners.map .joined)

/-- Puts task `t` to sleep for some ticks more. -/
def sleep (s : Scheduler) (t : Nat) (ticks : Nat) : Scheduler :=
  push (s.update t fun k => { k with state := .asleep ticks }) (.resume t)

/-- Task `t` wakes and ends. -/
def wake (s : Scheduler) (t : Nat) (k : Task) : Scheduler := (s.note k.call k.handler .woke).endTask t .returned

/-- Task `t` passes the door and ends. -/
def passDoor (s : Scheduler) (t : Nat) (k : Task) : Scheduler :=
  (s.note k.call k.handler .passedDoor).endTask t .returned

/-- The first step of task `t`. -/
def beginTask (s : Scheduler) (t : Nat) (k : Task) : Scheduler :=
  let s := s.note k.call k.handler (.called k.paths)
  match k.body with
  | .returns => s.endTask t .returned
  | .raises message => s.endTask t (.raised (.runtime message))
  | .cancels => s.endTask t .cancelled
  | .sleeps 0 => s.wake t k
  | .sleeps (n + 1) => s.sleep t n
  | .waitsAtGate => (s.addGate t).update t fun k => { k with state := .waiting }
  | .waitsAtDoor => if s.doorOpen then s.passDoor t k else s.update t fun k => { k with state := .waiting }

/-- What a gate that is left does to task `t`. -/
def leaveGate (s : Scheduler) (t : Nat) (k : Task) : Gate.Result → Scheduler
  | .released v => (s.note k.call k.handler (.passedGate v)).endTask t .returned
  | .failed message => s.endTask t (.raised (.os message))
  | .cancelled => s.endTask t .cancelled

/-- The next step of task `t`. -/
def stepTask (s : Scheduler) (t : Nat) (k : Task) : Scheduler :=
  match k.state with
  | .fresh => s.beginTask t k
  | .asleep 0 => s.wake t k
  | .asleep (n + 1) => s.sleep t n
  | .resumed r => if k.body = .waitsAtDoor then s.passDoor t k else s.leaveGate t k r
  | _ => s

/-- Lets go of task `t`, and reports what it raised. -/
def collectTask (s : Scheduler) (t : Nat) (k : Task) : Scheduler :=
  let s := s.update t fun k => { k with collected := true }
  match k.state with
  | .done (.raised p) => s.report k.call k.handler p
  | _ => s

/-! ## Idle waits -/

/-- Makes wait `w` wait for a task that is still pending. -/
def joinTask (w : Nat) (s : Scheduler) (t : Nat) : Scheduler :=
  match s.tasks[t]?.map (·.state) with
  | some (Task.State.done _) => s.push (.joined w)
  | _ => s.update t fun k => { k with joiners := k.joiners ++ [w] }

/-- The tasks that were not collected yet. -/
def pendingTasks (s : Scheduler) : List Nat := (s.tasks.zipIdx.filter (!·.1.collected)).map (·.2)

/-- Changes wait `w`. -/
def updateWait (s : Scheduler) (w : Nat) (f : IdleWait → IdleWait) : Scheduler :=
  { s with waits := s.waits.modify w f }

/-- Wait `w` looks for pending tasks. -/
def checkIdle (s : Scheduler) (w : Nat) (wait : IdleWait) : Scheduler :=
  if !wait.yielded then push (s.updateWait w fun x => { x with yielded := true }) (.check w)
  else
    match s.pendingTasks with
    | [] => s.updateWait w fun x => { x with done := true }
    | ts => ts.foldl (joinTask w) (s.updateWait w fun x => { x with remaining := ts.length })

/-- Wait `w` is told that one of its tasks is done. -/
def countJoined (s : Scheduler) (w : Nat) (wait : IdleWait) : Scheduler :=
  let s := s.updateWait w fun x => { x with remaining := x.remaining - 1 }
  if wait.remaining ≤ 1 then s.push (.check w) else s

/-! ## Jobs and ticks -/

/-- Calls a handler. -/
def callHandler (s : Scheduler) (call : Nat) (h : Handler) (paths : List Text) : Scheduler :=
  let task (body : Handler.Body) (state : Task.State) : Task := { call, handler := h.name, paths, body, state }
  let noted := s.note call h.name (.called paths)
  match h.kind with
  | .plain => noted
  | .raises message => noted.report call h.name (.value message)
  | .respawns => noted.spawn ⟨h.name ++ "+", .plain⟩ paths
  | .gate => (noted.addGate s.tasks.length).addTask (task .waitsAtGate .bare)
  | .task body => (s.addTask (task body .fresh)).push (.resume s.tasks.length)

/-- Runs a job. -/
def runJob (s : Scheduler) : Job → Scheduler
  | .call number h paths => s.callHandler number h paths
  | .resume t =>
    match s.tasks[t]? with
    | some k => s.stepTask t k
    | none => s
  | .collect t =>
    match s.tasks[t]? with
    | some k => s.collectTask t k
    | none => s
  | .joined w =>
    match s.waits[w]? with
    | some wait => s.countJoined w wait
    | none => s
  | .check w =>
    match s.waits[w]? with
    | some wait => s.checkIdle w wait
    | none => s

/-- Runs the jobs that are ready. -/
def tick (s : Scheduler) : Scheduler := s.ready.foldl runJob { s with ready := [] }

/-- A tick, when something is ready. -/
def tick? (s : Scheduler) : Option Scheduler := if s.ready.isEmpty then none else some s.tick

/-- The ticks that a body sleeps. -/
def bodySleep : Handler.Body → Nat
  | .sleeps ticks => ticks
  | _ => 0

/-- The ticks that a job's handler sleeps. -/
def jobSleep : Job → Nat
  | .call _ ⟨_, .task body⟩ _ => bodySleep body
  | _ => 0

/-- The ticks that a task sleeps. -/
def taskSleep (k : Task) : Nat :=
  match k.state with
  | .fresh => bodySleep k.body
  | .asleep ticks => ticks + 1
  | _ => 0

/-- A bound on the jobs ahead: a ready call makes at most another call and a task, a task takes steps while it sleeps,
two more to begin and to be collected, and two for every wait; a wait looks three times of its own. -/
def load (s : Scheduler) : Nat :=
  let calls := s.ready.length
  let waits := s.waits.length
  2 * calls + (s.tasks.length + calls) * (2 + 2 * waits) + 3 * waits +
    total jobSleep s.ready + total taskSleep s.tasks

/-- Runs ticks until nothing is ready. -/
def idle (s : Scheduler) : Scheduler := settle tick? s.load s

/-! ## Calls from outside -/

/-- Opens gate `g`, or lets it fail, or cancels it; a gate that was left stays as it is. -/
def completeGate (s : Scheduler) (g : Nat) (r : Gate.Result) : Scheduler :=
  match s.gates[g]? with
  | none => s
  | some gate =>
    if gate.completed then s
    else
      let s := { s with gates := s.gates.modify g fun x => { x with completed := true } }
      match s.tasks[gate.task]?.map (·.state), r with
      | some .bare, .released _ => s.endTask gate.task .returned
      | some .bare, .failed message => s.endTask gate.task (.raised (.os message))
      | some .bare, .cancelled => s.endTask gate.task .cancelled
      | _, r => push (s.update gate.task fun k => { k with state := .resumed r }) (.resume gate.task)

/-- Whether a task waits at the door. -/
def waitsAtDoor (k : Task) : Bool :=
  match k.state with
  | .waiting => k.body = .waitsAtDoor
  | _ => false

/-- Opens the door for good. -/
def openDoor (s : Scheduler) : Scheduler :=
  let ts := (s.tasks.zipIdx.filter (waitsAtDoor ·.1)).map (·.2)
  let s := { s with doorOpen := true }
  pushAll (ts.foldl (fun s t => s.update t fun k => { k with state := .resumed (.released .none) }) s) (ts.map .resume)

/-- A new wait until no task is pending. -/
def waitIdle (s : Scheduler) : Scheduler := push { s with waits := s.waits ++ [{}] } (.check s.waits.length)

/-- A call on a scheduler, or a turn of its loop. -/
inductive Action where
  | spawn (h : Handler) (paths : List Text)
  | tick
  | idle
  | complete (gate : Nat) (r : Gate.Result)
  | openDoor
  | waitIdle

/-- Makes a call. -/
def act (s : Scheduler) : Action → Scheduler
  | .spawn h paths => s.spawn h paths
  | .tick => s.tick
  | .idle => s.idle
  | .complete gate r => s.completeGate gate r
  | .openDoor => s.openDoor
  | .waitIdle => s.waitIdle

/-- Makes calls in order. -/
def acts (s : Scheduler) (actions : List Action) : Scheduler := actions.foldl act s

end Scheduler
end DirWatch

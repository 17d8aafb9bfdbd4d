import DirWatch.Handlers
import DirWatch.Options.Reading
import DirWatch.Scheduler.Work
import DirWatch.Session.Steps

/-!
# Host programs

A host program runs sessions on one site and calls their handlers on one scheduler, all on one event loop. It may run a
session that it made itself, any number of times, or ask for watches, each of which becomes a session of its own once
its root, options and handlers are read.

* **Asking for a watch** (`Session.ofValues?`): the root is looked at first, then the options, then the handlers.
* **The loop** (`Host.turn?`): one queue holds the jobs of the sessions and of the scheduler. A turn runs the first one:
  a session makes its next move, or a handler is called, or a task that a handler left behind goes on. What a turn makes
  ready waits behind the rest.
* **Histories** (`Host.act`): after each action the loop turns until nothing is ready.
-/

namespace DirWatch

/-- The session for a watch that a host asks for by values. -/
def Session.ofValues? (root options handlers : Value) : Except Failure Session := do
  let path ← match root with
    | .text t => .ok (Path.ofText t)
    | .path p => .ok p
    | v => .error (.config (.rootNotText v.typeName))
  let options ← Options.ofValue? options
  let registry ← Registry.ofValue? handlers
  return { root := path, registry, watcher := { options } }

/-- The session on a site. -/
def Session.onSite (s : Session) (site : Site) : Session := s.onWatcher fun w => { w with site }

/-- A job of the event loop that sessions and handlers share. -/
inductive Host.Job where
  /-- Lets a session make its next move. -/
  | session (i : Nat)
  /-- A job of the scheduler. -/
  | handler (j : DirWatch.Job)

/-- A host program. -/
structure Host where
  site : Site := {}
  sessions : List Session := []
  /-- How the handlers behave, by name. The calls of any other handler do nothing that is seen. -/
  kinds : List (Text × Handler.Kind) := []
  /-- The scheduler. Its jobs wait in the queue of the loop. -/
  scheduler : Scheduler := {}
  /-- The queue of the loop. -/
  ready : List Host.Job := []
  /-- All runs so far: the session and the number of the run in it, or why there is none. -/
  attempts : List (Except Failure (Nat × Nat)) := []
  /-- All senders so far: the session and the number of the sender in it. -/
  senders : List (Nat × Nat) := []

namespace Host

/-! ## The queue -/

/-- Makes a job ready. -/
def push (h : Host) (j : Job) : Host := { h with ready := h.ready ++ [j] }

/-- Makes all sessions ready. -/
def wake (h : Host) : Host := { h with ready := h.ready ++ (List.range h.sessions.length).map .session }

/-- Lets the scheduler do something. The jobs that it makes ready wait behind the rest. -/
def schedule (h : Host) (f : Scheduler → Scheduler) : Host :=
  let s := f h.scheduler
  { h with scheduler := { s with ready := [] }, ready := h.ready ++ s.ready.map .handler }

/-- Hands a call to the scheduler. -/
def spawn (h : Host) (d : Dispatch) : Host :=
  match h.kinds.find? (·.1 = d.handler) with
  | some (name, kind) => h.schedule (·.spawn ⟨name, kind⟩ d.paths)
  | none => h

/-! ## Sessions -/

/-- The newest session. -/
def newest? (h : Host) : Option Session := h.sessions.getLast?

/-- Session `i` goes from one state to another, and the calls that it handed over meanwhile go to the scheduler. -/
def move (h : Host) (i : Nat) (s t : Session) : Host :=
  (t.spawned.drop s.spawned.length).foldl spawn { h with site := t.watcher.site, sessions := h.sessions.set i t }

/-- Lets session `i` do something on the site. -/
def enter (h : Host) (i : Nat) (f : Session → Session) : Host :=
  match h.sessions[i]? with
  | none => h
  | some s => h.move i s (f (s.onSite h.site))

/-- Adds a session. -/
def addSession (h : Host) (s : Session) : Host :=
  { h with sessions := h.sessions ++ [{ s with watcher := { s.watcher with number := h.sessions.length } }] }

/-- A new run of session `i`. -/
def runSession (h : Host) (i : Nat) : Host :=
  match h.sessions[i]? with
  | none => h
  | some s => { h.enter i (·.call .run) with attempts := h.attempts ++ [.ok (i, s.runs.length)] }

/-- A call on session `i` that adds a sender. -/
def addSender (h : Host) (i : Nat) (a : Session.Action) : Host :=
  match h.sessions[i]? with
  | none => h
  | some s => { h.enter i (·.call a) with senders := h.senders ++ [(i, s.watcher.senders.length)] }

/-! ## Histories -/

/-- What a host does, or what happens around it. -/
inductive Action where
  /-- Asks for a watch. -/
  | watch (root options handlers : Value)
  /-- Runs the newest session. -/
  | run
  /-- Closes the newest session. -/
  | close
  /-- Cancels the newest run. -/
  | cancel
  /-- Sends to the newest session. -/
  | send (m : Message)
  | feed (notices : List Notice)
  | change (c : FileTable.Change)
  | kill (part : Observer.Part)
  | release
  | openDoor
  | wait

/-- What a host learns from an action at once. -/
inductive Reply where
  | noChannel
  | noObserver
  | cancelled (wasPending : Bool)
  deriving DecidableEq, Repr

/-- The session of the newest run. -/
def newestRun? (h : Host) : Option Nat :=
  match h.attempts.getLast? with
  | some (.ok (i, _)) => some i
  | _ => none

/-- The newest observer that has a handler, with the session that it belongs to. -/
def newestObserver? (h : Host) : Option (Nat × Nat) := do
  let observer ← h.site.newest?
  return (← h.site.owner? observer, observer)

/-- Whether the newest session has a channel. -/
def hasChannel (h : Host) : Bool := (h.newest?.map (·.opened)).getD false

/-- What a host learns from an action at once. -/
def reply? (h : Host) : Action → Option Reply
  | .cancel => some (.cancelled (((h.newestRun?.bind (h.sessions[·]?)).map (·.isPending)).getD false))
  | .send _ => if h.hasChannel then none else some .noChannel
  | .feed _ => if h.newestObserver?.isSome then none else some .noObserver
  | .kill _ => if h.newestObserver?.isSome then none else some .noObserver
  | _ => none

/-- Does what an action says. -/
def call (h : Host) : Action → Host
  | .watch root options handlers =>
    match Session.ofValues? root options handlers with
    | .error f => { h with attempts := h.attempts ++ [.error f] }
    | .ok s => (h.addSession s).runSession h.sessions.length
  | .run => h.runSession (h.sessions.length - 1)
  | .close => h.enter (h.sessions.length - 1) (·.call .close)
  | .cancel =>
    match h.newestRun? with
    | none => h
    | some i => h.enter i (·.call .cancel)
  | .send m => if h.hasChannel then h.addSender (h.sessions.length - 1) (.send m) else h
  | .feed notices =>
    match h.newestObserver? with
    | none => h
    | some (i, _) => h.addSender i (.feed notices)
  | .change c => { h with site := h.site.change c }
  | .kill part =>
    match h.newestObserver? with
    | none => h
    | some (_, observer) => { h with site := h.site.kill observer part }
  | .release => { h with site := h.site.release }
  | .openDoor => h.schedule (·.openDoor)
  | .wait => h

/-- Lets session `i` make its next move, after which it is ready again. -/
def advance (h : Host) (i : Nat) : Host :=
  match h.sessions[i]? with
  | none => h
  | some s =>
    match (s.onSite h.site).step with
    | none => h
    | some t => (h.move i s t).push (.session i)

/-- Runs a job. -/
def runJob (h : Host) : Job → Host
  | .session i => h.advance i
  | .handler j => h.schedule (·.runJob j)

/-- A turn of the loop: runs the job that has waited longest. -/
def turn? (h : Host) : Option Host :=
  match h.ready with
  | [] => none
  | j :: rest => some (runJob { h with ready := rest } j)

/-- How many jobs come of a call of a handler, at most. -/
def callWork (handler : Text × Handler.Kind) : Nat := DirWatch.Job.work [] (.call 0 ⟨handler.1, handler.2⟩ [])

/-- How many turns a job takes, with what comes of it on the scheduler, at most. -/
def jobWork (h : Host) : Job → Nat
  | .session _ => 1
  | .handler j => j.work h.scheduler.tasks

/-- A bound on the turns that the loop has ahead of it. A move of a session hands over at most one call. -/
def load (h : Host) : Nat :=
  (total callWork h.kinds + 1) * total Session.load h.sessions + total h.jobWork h.ready

/-- The host once nothing is ready. -/
def rest (h : Host) : Host := settle turn? h.load h

/-- Does what an action says and lets everything come to rest. -/
def act (h : Host) (a : Action) : Host := (h.call a).wake.rest

/-! ## Views -/

/-- How the runs stand. -/
def runs (h : Host) : List RunStatus :=
  h.attempts.map fun
    | .error f => .failed f
    | .ok (i, j) => (h.sessions[i]?.bind (·.runs[j]?)).getD .pending

/-- How the senders stand. -/
def senderStatuses (h : Host) : List Sender.Status :=
  h.senders.map fun (i, j) =>
    (h.sessions[i]?.bind fun s => (s.watcher.senders[j]?).map s.watcher.senderStatus).getD .blocked

end Host
end DirWatch

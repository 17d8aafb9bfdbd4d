import DirWatch.Filter
import DirWatch.Route
import DirWatch.Watcher.Steps

/-!
# Watch sessions

A session joins a watcher to a registry of handlers. It is run once: it opens its channel, starts the watcher, and then
takes messages from the channel one at a time. Each event is filtered and routed, and the call of its handler is handed
to a scheduler; a failure ends the session, and so does the end of the channel.

The phases are told apart by what the session has seen (`Phase`); the stage says what its run waits for (`Stage`). The
session keeps the calls that it handed over and the events that it handled, each with the file table of that moment.
-/

namespace DirWatch

/-- How a run of a session stands. -/
inductive RunStatus where
  | pending
  | returned
  | failed (f : Failure)
  deriving DecidableEq, Repr

/-- What the run of a session waits for. -/
inductive Stage where
  /-- No run is under way. -/
  | idle
  /-- The watcher starts. -/
  | starting
  /-- A receive of the channel, by its number. -/
  | receiving (receive : Nat)
  deriving DecidableEq, Repr

/-- What a session counts. -/
structure Stats where
  received : Nat := 0
  dropped : Nat := 0
  dispatched : Nat := 0
  deriving DecidableEq, Repr

/-- A session, with its watcher and the site that it watches. -/
structure Session where
  root : Path
  registry : Registry Text
  /-- The message with which the scheduler refuses calls, if it does. -/
  refusal : Option Text := none
  /-- The message with which making the watcher fails, if it does. -/
  makerFault : Option Text := none
  watcher : Watcher
  phase : Phase := .created
  /-- Whether the channel was opened. -/
  opened : Bool := false
  /-- Whether the watcher was made. -/
  made : Bool := false
  stage : Stage := .idle
  stats : Stats := {}
  /-- All runs; only the first one of a session that was not closed before runs anything. -/
  runs : List RunStatus := []
  /-- The calls that were handed to the scheduler. -/
  spawned : List Dispatch := []
  /-- The events that were handled, each with the file table at that moment. -/
  handled : List (Event × FileTable) := []
  deriving DecidableEq

namespace Session

/-- The options of the watch. -/
def options (s : Session) : Options := s.watcher.options

/-! ## Calls -/

/-- The run under way ends. -/
def endRun (s : Session) (status : RunStatus) : Session := { s with stage := .idle, runs := s.runs.set 0 status }

/-- The run under way stops the watcher and ends. -/
def finish (s : Session) (status : RunStatus) : Session := endRun { s with watcher := s.watcher.stop } status

/-- A new run of the session. -/
def run (s : Session) : Session :=
  if s.phase ≠ .created then { s with runs := s.runs ++ [.failed (.sessionSpent s.phase)] }
  else if s.opened then { s with runs := s.runs ++ [.failed .sessionReused] }
  else
    match s.makerFault with
    | some message => { s with opened := true, runs := s.runs ++ [.failed (.broken message)] }
    | none =>
      { s with
        opened := true
        made := true
        stage := .starting
        runs := s.runs ++ [.pending]
        watcher := s.watcher.start s.root s.options.recursive }

/-- Asks the session to end. One that was never run is closed at once. -/
def close (s : Session) : Session :=
  if s.opened then { s with watcher := { s.watcher with channel := s.watcher.channel.close } }
  else if s.phase = .created then { s with phase := .closed }
  else s

/-- Whether the newest run is still under way. -/
def isPending (s : Session) : Bool := s.runs.getLast? == some .pending

/-- Gives up the receive that the run waits for, if it waits for one. -/
def withdraw (s : Session) : Session :=
  match s.stage with
  | .receiving i => { s with watcher := { s.watcher with channel := s.watcher.channel.withdraw i } }
  | _ => s

/-- Cancels the newest run. -/
def cancel (s : Session) : Session :=
  if s.isPending then finish { s.withdraw with phase := .closed } (.failed .cancelled) else s

/-! ## Handling events -/

/-- Hands the call for an event that passed the filter to the scheduler. -/
def dispatch (s : Session) (kind : EventKind) (paths : List Text) : Except Failure Session :=
  match s.registry.route kind paths with
  | none => .ok s
  | some d =>
    match s.refusal with
    | some message => .error (.broken message)
    | none =>
      .ok { s with
        spawned := s.spawned ++ [d]
        stats := { s.stats with dispatched := s.stats.dispatched + 1 } }

/-- Filters an event and hands the call for it over. -/
def handle (s : Session) (e : Event) : Except Failure Session :=
  match Filter.paths s.options s.watcher.site.table e with
  | .error f => .error f
  | .ok [] => .ok { s with stats := { s.stats with dropped := s.stats.dropped + 1 } }
  | .ok paths => s.dispatch e.kind paths

/-- Waits for the next message. -/
def await (s : Session) : Session :=
  { s with
    stage := .receiving s.watcher.channel.receives.length
    watcher := { s.watcher with channel := s.watcher.channel.receive } }

/-- Takes an event from the channel. When handling it fails, the run ends in the phase that it is in. -/
def takeEvent (s : Session) (e : Event) : Session :=
  let s := { s with
    stats := { s.stats with received := s.stats.received + 1 }
    handled := s.handled ++ [(e, s.watcher.site.table)] }
  match s.handle e with
  | .error f => s.finish (.failed f)
  | .ok t => t.await

/-- Takes a message from the channel. -/
def takeMessage (s : Session) : Message → Session
  | .event e => s.takeEvent e
  | .failure message => finish { s with phase := .errored } (.failed (.notifier message))

end Session
end DirWatch

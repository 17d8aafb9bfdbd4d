import DirWatch.Session.Basic

/-!
# How a session moves on its own

The run of a session goes on as soon as what it waits for has happened (`Session.react?`), before the watcher moves
any further; so a message is handled before its sender is told that it was accepted.

* **Standstill** (`Session.rest`): the session after all its moves.
* **Calls from outside** (`Session.call`): what is asked of a session, and what changes around it.
-/

namespace DirWatch
namespace Session

/-- The run goes on from the start of the watcher. -/
def reactToStart? (s : Session) : Option Session :=
  match s.watcher.starts.head? with
  | some .finished => some (await { s with phase := .running })
  | some (.failed f) => some (s.finish (.failed f))
  | _ => none

/-- The run goes on from a receive of the channel. -/
def reactToReceive? (s : Session) (i : Nat) : Option Session :=
  match s.watcher.channel.receives[i]? with
  | some (.item m) => some (s.takeMessage m)
  | some .ended => some (finish { s with phase := .closed } .returned)
  | _ => none

/-- The run goes on, if what it waits for has happened. -/
def react? (s : Session) : Option Session :=
  match s.stage with
  | .idle => none
  | .starting => s.reactToStart?
  | .receiving i => s.reactToReceive? i

/-- The next move of the session on its own. -/
def step (s : Session) : Option Session :=
  match s.react? with
  | some t => some t
  | none => s.watcher.step.map fun watcher => { s with watcher }

/-- How many moves the run has ahead of it for what has happened already, at most. -/
def stageLoad (s : Session) : Nat :=
  match s.stage with
  | .idle => 0
  | .starting => 4
  | .receiving i =>
    match s.watcher.channel.receives[i]? with
    | some (.item _) => 3
    | some .ended => 2
    | _ => 1

/-- A bound on the moves that the session has ahead of it. -/
def load (s : Session) : Nat := 3 * s.watcher.load + s.stageLoad

/-- The session once it moves no further. -/
def rest (s : Session) : Session := settle step s.load s

/-! ## Calls from outside -/

/-- A call on a session, or a change of its surroundings. -/
inductive Action where
  | run
  | close
  | cancel
  | send (m : Message)
  | feed (notices : List Notice)
  | change (c : FileTable.Change)
  | kill (part : Observer.Part)
  | release
  | wait

/-- Changes the watcher. -/
def onWatcher (s : Session) (f : Watcher → Watcher) : Session := { s with watcher := f s.watcher }

/-- Makes a call. Messages are lost before the channel is opened, and notices and deaths without an observer that has a
handler. -/
def call (s : Session) : Action → Session
  | .run => s.run
  | .close => s.close
  | .cancel => s.cancel
  | .send m => if s.opened then s.onWatcher (·.send m) else s
  | .feed notices => s.onWatcher (·.call (.feed notices))
  | .change c => s.onWatcher (·.call (.change c))
  | .kill part => s.onWatcher (·.call (.kill part))
  | .release => s.onWatcher (·.call .release)
  | .wait => s

end Session
end DirWatch

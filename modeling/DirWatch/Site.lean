import DirWatch.Notice
import DirWatch.System.FileTable

/-!
# Watched sites

A site is what a watch runs against: the file table, and the observers that the system offers for watching it. An
observer takes a handler (`Site.schedule`), is started (`Site.start`), and when it is shut down it is told to drop its
handlers, to stop, and is waited for (`Site.shutDown`). How the observers of a technique behave is part of the site:
each of the first two calls may change the file table and may fail, and starting may wait at a gate.

Every call of an observer is recorded, whether it fails or not (`Site.calls`). Observers are numbered in the order in
which they were created, and each belongs to a watcher.
-/

namespace DirWatch

/-- The techniques of watching. -/
inductive Technique where
  | native
  | polling
  deriving DecidableEq, Repr

/-- How the observers of a technique behave. -/
structure Behaviour where
  scheduleChange : FileTable.Change := []
  scheduleFault : Option Fault := none
  startChange : FileTable.Change := []
  startFault : Option Fault := none
  /-- Whether starting waits until the gate of the site is open. -/
  gated : Bool := false
  deriving DecidableEq, Repr

/-- An observer of a watcher. -/
structure Observer where
  technique : Technique
  owner : Nat
  /-- Whether a handler was ever scheduled. -/
  listening : Bool := false
  /-- Whether the observer has an emitter. -/
  emitting : Bool := false
  started : Bool := false
  dead : Bool := false
  emitterDead : Bool := false
  echo : Echo := {}
  deriving DecidableEq, Repr

/-- The parts of an observer that may die. -/
inductive Observer.Part where
  | observer
  | emitter
  deriving DecidableEq, Repr

/-- A call of an observer. -/
inductive Observer.Call where
  | create (interval : Option Nat)
  | schedule (root : Path) (recursive : Bool)
  | start
  | unscheduleAll
  | stop
  | join
  deriving DecidableEq, Repr

/-- What a watch runs against. -/
structure Site where
  table : FileTable := {}
  native : Behaviour := {}
  polling : Behaviour := {}
  gateOpen : Bool := false
  observers : List Observer := []
  calls : List (Nat × Observer.Call) := []
  deriving DecidableEq, Repr

/-- What came of bringing an observer up. -/
inductive Launch where
  | up
  | waiting
  | failed (f : Fault)
  deriving DecidableEq, Repr

namespace Site

/-- How the observers of a technique behave. -/
def behaviour (s : Site) : Technique → Behaviour
  | .native => s.native
  | .polling => s.polling

/-- Records a call of observer `i`. -/
def record (s : Site) (i : Nat) (call : Observer.Call) : Site := { s with calls := s.calls ++ [(i, call)] }

/-- Changes observer `i`. -/
def update (s : Site) (i : Nat) (f : Observer → Observer) : Site := { s with observers := s.observers.modify i f }

/-- Changes the file table. -/
def change (s : Site) (c : FileTable.Change) : Site := { s with table := s.table.apply c }

/-- Creates an observer for a watcher; its number is the number of observers so far. -/
def create (s : Site) (t : Technique) (owner : Nat) (interval : Option Nat) : Site :=
  record { s with observers := s.observers ++ [{ technique := t, owner }] } s.observers.length (.create interval)

/-- Schedules a handler on observer `i`. -/
def schedule (s : Site) (t : Technique) (i : Nat) (root : Path) (recursive : Bool) : Site × Option Fault :=
  let called := (s.record i (.schedule root recursive)).change (s.behaviour t).scheduleChange
  match (s.behaviour t).scheduleFault with
  | some f => (called, some f)
  | none => (called.update i fun o => { o with listening := true, emitting := true }, none)

/-- What starting observer `i` does past the gate. -/
def start (s : Site) (t : Technique) (i : Nat) : Site × Launch :=
  let called := s.change (s.behaviour t).startChange
  match (s.behaviour t).startFault with
  | some f => (called, .failed f)
  | none => (called.update i fun o => { o with started := true }, .up)

/-- Starts observer `i`, unless the gate holds it. -/
def startAtGate (s : Site) (t : Technique) (i : Nat) : Site × Launch :=
  if (s.behaviour t).gated && !s.gateOpen then (s.record i .start, .waiting) else (s.record i .start).start t i

/-- Brings observer `i` up: schedules its handler and starts it. -/
def launch (s : Site) (t : Technique) (i : Nat) (root : Path) (recursive : Bool) : Site × Launch :=
  match s.schedule t i root recursive with
  | (scheduled, some f) => (scheduled, .failed f)
  | (scheduled, none) => scheduled.startAtGate t i

/-- Drops the handlers of observer `i`. -/
def unscheduleAll (s : Site) (i : Nat) : Site :=
  (s.update i fun o => { o with emitting := false }).record i .unscheduleAll

/-- Shuts observer `i` down. -/
def shutDown (s : Site) (i : Nat) : Site := ((s.unscheduleAll i).record i .stop).record i .join

/-- Opens the gate for good. -/
def release (s : Site) : Site := { s with gateOpen := true }

/-- The newest observer that a handler was scheduled on. -/
def newest? (s : Site) : Option Nat :=
  ((s.observers.zipIdx.filter (·.1.listening)).getLast?).map (·.2)

/-- The watcher that observer `i` belongs to. -/
def owner? (s : Site) (i : Nat) : Option Nat := s.observers[i]?.map (·.owner)

/-- Kills a part of observer `i`. -/
def kill (s : Site) (i : Nat) : Observer.Part → Site
  | .observer => s.update i fun o => { o with dead := true }
  | .emitter => s.update i fun o => { o with emitterDead := true }

/-- Lets the handler of observer `i` hear a notice: the site afterwards, and whether the notice is an echo. -/
def hear (s : Site) (i : Nat) (n : Notice) : Site × Bool :=
  match s.observers[i]? with
  | none => (s, true)
  | some o => (s.update i fun o => { o with echo := (o.echo.hear n).1 }, (o.echo.hear n).2)

end Site
end DirWatch

import DirWatch.Channel
import DirWatch.Message
import DirWatch.Options.Basic
import DirWatch.Site

/-!
# Watchers

A watcher owns one observer and feeds what it reports into a channel. It is started once (`Watcher.Start`) and may be
stopped at any time, also before or while it starts. Its senders are the threads on the notifier's side: one that hands
over a single message, or one that feeds an observer's handler with notices one after another. A supervisor reports
the death of the observer, once.
-/

namespace DirWatch

/-- How a call to start a watcher stands. -/
inductive StartStatus where
  | pending
  | finished
  | failed (f : Failure)
  deriving DecidableEq, Repr

/-- A thread on the notifier's side. Its current send is known by its number in the channel. -/
inductive Sender where
  /-- Hands over one message. -/
  | single (send : Nat)
  /-- Feeds notices to the handler of an observer; `total` counts them all. -/
  | feed (observer : Nat) (total : Nat) (send : Option Nat) (rest : List Notice)
  deriving DecidableEq, Repr

/-- How a sender stands. -/
inductive Sender.Status where
  | blocked
  | told (accepted : Bool)
  | fed (total : Nat)
  deriving DecidableEq, Repr

/-- An observer that waits at the gate while it starts. -/
structure Waiting where
  technique : Technique
  observer : Nat
  root : Path
  recursive : Bool
  deriving DecidableEq, Repr

/-- A watcher with its channel and the site that it watches. -/
structure Watcher where
  options : Options
  /-- The number that its observers belong to. -/
  number : Nat := 0
  site : Site := {}
  channel : Channel Message := {}
  stopping : Bool := false
  /-- Whether a polling observer was created. -/
  polling : Bool := false
  /-- The observer in use. -/
  current : Option Nat := none
  /-- Whether the supervisor has reported a death. -/
  reported : Bool := false
  /-- All calls to start; only the first one starts anything. -/
  starts : List StartStatus := []
  waiting : Option Waiting := none
  senders : List Sender := []
  deriving DecidableEq

namespace Watcher

/-- Whether the watcher has an observer in use. -/
def isRunning (w : Watcher) : Bool := w.current.isSome && !w.stopping

/-- How a send stands: `none` while it is blocked or not told. -/
def sendResult? (c : Channel Message) (send : Nat) : Option Bool := (c.sends[send]?).bind (·.status.result?)

/-- Whether a sender may go on after its current send, if it has one. -/
def isFree (c : Channel Message) : Option Nat → Bool
  | none => true
  | some send => (sendResult? c send).isSome

/-- How a sender stands. -/
def senderStatus (w : Watcher) : Sender → Sender.Status
  | .single send =>
    match sendResult? w.channel send with
    | none => .blocked
    | some accepted => .told accepted
  | .feed _ total send rest => if rest.isEmpty && isFree w.channel send then .fed total else .blocked

/-- A new thread sends a message. -/
def send (w : Watcher) (m : Message) : Watcher :=
  { w with channel := w.channel.submit m, senders := w.senders ++ [.single w.channel.sends.length] }

/-- A new thread feeds the handler of observer `i` with notices. -/
def feed (w : Watcher) (i : Nat) (notices : List Notice) : Watcher :=
  { w with senders := w.senders ++ [.feed i notices.length none notices] }

end Watcher
end DirWatch

import DirWatch.Watcher.Start

/-!
# How a watcher moves on its own

Between calls a watcher moves in this order: its channel moves; an observer held at the gate starts once the gate is
open; the first sender that is free hands its next notice to its handler; and the supervisor reports a death that it
notices.

* **Standstill** (`Watcher.rest`): the watcher after all its moves.
-/

namespace DirWatch
namespace Watcher

/-- The wording of the failure that the supervisor reports when a part has died. -/
def deathMessage : Observer.Part → Text
  | .observer => "File watcher failed: observer thread stopped unexpectedly"
  | .emitter => "File watcher failed: event emitter stopped (the watched path may have been removed)"

/-- The part of the observer in use that the supervisor finds dead. The observer is looked at before its emitter. -/
def death? (w : Watcher) : Option Observer.Part := do
  let o ← w.site.observers[← w.current]?
  if o.dead then some .observer else if o.emitting && o.emitterDead then some .emitter else none

/-- The supervisor reports a death. -/
def report? (w : Watcher) : Option Watcher :=
  if w.isRunning && !w.reported then
    w.death?.map fun part => { w with reported := true, channel := w.channel.submit (.failure (deathMessage part)) }
  else none

/-- The first sender that is free hands its next notice to its handler, which drops echoes and sends the rest. -/
def hearNext? (site : Site) (c : Channel Message) : List Sender → Option (Site × Channel Message × List Sender)
  | [] => none
  | .feed i total send (n :: ns) :: others =>
    if isFree c send then
      match site.hear i n with
      | (site, true) => some (site, c, .feed i total send ns :: others)
      | (site, false) => some (site, c.submit (.event n.toEvent), .feed i total (some c.sends.length) ns :: others)
    else (hearNext? site c others).map fun r => (r.1, r.2.1, .feed i total send (n :: ns) :: r.2.2)
  | s :: others => (hearNext? site c others).map fun r => (r.1, r.2.1, s :: r.2.2)

/-- A sender goes on. -/
def hear? (w : Watcher) : Option Watcher :=
  (hearNext? w.site w.channel w.senders).map fun r => { w with site := r.1, channel := r.2.1, senders := r.2.2 }

/-- An observer held at the gate goes on once the gate is open. -/
def passGate? (w : Watcher) : Option Watcher := if w.site.gateOpen then w.waiting.map w.passGate else none

/-- The next move of the watcher on its own. -/
def step (w : Watcher) : Option Watcher :=
  match w.channel.step with
  | some channel => some { w with channel }
  | none =>
    match w.passGate? with
    | some v => some v
    | none =>
      match w.hear? with
      | some v => some v
      | none => w.report?

/-- How many moves a sender has ahead of it, at most. -/
def senderLoad : Sender → Nat
  | .single _ => 0
  | .feed _ _ _ rest => 4 * rest.length

/-- A bound on the moves that the watcher has ahead of it. -/
def load (w : Watcher) : Nat :=
  w.channel.load + total senderLoad w.senders + (if w.waiting.isSome then 1 else 0) + (if w.reported then 0 else 4)

/-- The watcher once it moves no further. -/
def rest (w : Watcher) : Watcher := settle step w.load w

/-! ## Histories -/

/-- A call on a watcher, or a change of its surroundings. -/
inductive Action where
  | start (root : Path) (recursive : Bool)
  | stop
  | send (m : Message)
  | feed (notices : List Notice)
  | receive
  | withdraw (i : Nat)
  | change (c : FileTable.Change)
  | kill (part : Observer.Part)
  | release
  | wait

/-- Makes a call. Notices and deaths concern the newest observer with a handler and are lost without one. -/
def call (w : Watcher) : Action → Watcher
  | .start root recursive => w.start root recursive
  | .stop => w.stop
  | .send m => w.send m
  | .feed notices =>
    match w.site.newest? with
    | none => w
    | some i => w.feed i notices
  | .receive => { w with channel := w.channel.receive }
  | .withdraw i => { w with channel := w.channel.withdraw i }
  | .change c => { w with site := w.site.change c }
  | .kill part =>
    match w.site.newest? with
    | none => w
    | some i => { w with site := w.site.kill i part }
  | .release => { w with site := w.site.release }
  | .wait => w

/-- Makes a call and lets the watcher come to rest. -/
def act (w : Watcher) (a : Action) : Watcher := (w.call a).rest

/-- Makes calls in order, each once the watcher is at rest. -/
def run (w : Watcher) (actions : List Action) : Watcher := actions.foldl act w

end Watcher
end DirWatch

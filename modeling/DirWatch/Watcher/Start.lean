import DirWatch.Watcher.Basic

/-!
# Starting and stopping a watcher

A watcher starts on a root that exists and may be read. It brings up a native observer, or a polling one when polling
is asked for; if a native observer fails and the root is still there, a polling one is tried. An observer that fails is
told to drop its handlers and is not shut down.

A start that finds the watcher stopped in the meantime shuts its observer down itself (`Watcher.publish`), so a stop
wins over a start at any moment.

* **Start** (`Watcher.start`): only the first call does anything; any other fails without touching an observer.
* **Stop** (`Watcher.stop`): closes the channel and shuts the observer in use down.
-/

namespace DirWatch
namespace Watcher

/-- The first call to start ends. -/
def endStart (w : Watcher) (status : StartStatus) : Watcher := { w with starts := w.starts.set 0 status }

/-- Puts an observer that is up into use, unless the watcher was stopped. -/
def publish (w : Watcher) (i : Nat) : Watcher :=
  if w.stopping then endStart { w with site := w.site.shutDown i } .finished
  else endStart { w with current := some i } .finished

/-- The first call to start fails for good on an observer. -/
def giveUp (w : Watcher) (i : Nat) (root : Path) (e : OsError) : Watcher :=
  endStart { w with site := w.site.unscheduleAll i } (.failed (.registration root e.reason))

/-- Goes on from what came of a polling observer. -/
def concludePolling (w : Watcher) (i : Nat) (root : Path) (recursive : Bool) : Launch → Watcher
  | .up => w.publish i
  | .waiting => { w with waiting := some ⟨.polling, i, root, recursive⟩ }
  | .failed (.broken message) => w.endStart (.failed (.broken message))
  | .failed (.os e) => w.giveUp i root e

/-- Brings a polling observer up. -/
def startPolling (w : Watcher) (root : Path) (recursive : Bool) : Watcher :=
  match w.options.pollInterval? with
  | none => w.endStart (.failed .intervalOverflow)
  | some interval =>
    let i := w.site.observers.length
    let launched := (w.site.create .polling w.number (some interval)).launch .polling i root recursive
    concludePolling { w with site := launched.1, polling := true } i root recursive launched.2

/-- Goes on from what came of a native observer. -/
def concludeNative (w : Watcher) (i : Nat) (root : Path) (recursive : Bool) : Launch → Watcher
  | .up => w.publish i
  | .waiting => { w with waiting := some ⟨.native, i, root, recursive⟩ }
  | .failed (.broken message) => w.endStart (.failed (.broken message))
  | .failed (.os e) =>
    let w := { w with site := w.site.unscheduleAll i }
    match w.site.table.exists? root.text with
    | .error f => w.endStart (.failed f)
    | .ok false => w.endStart (.failed (.registration root e.reason))
    | .ok true => w.startPolling root recursive

/-- Brings a native observer up. -/
def startNative (w : Watcher) (root : Path) (recursive : Bool) : Watcher :=
  let i := w.site.observers.length
  let launched := (w.site.create .native w.number none).launch .native i root recursive
  concludeNative { w with site := launched.1 } i root recursive launched.2

/-- Why a root cannot be watched, if so. -/
def rootFailure? (t : FileTable) (root : Path) : Option Failure :=
  match t.exists? root.text with
  | .error (.os e) => some (.registration root e.reason)
  | .error f => some f
  | .ok false => some (.registration root "no such file or directory")
  | .ok true =>
    match t.readable? root.text with
    | .error f => some f
    | .ok false => some (.registration root "permission denied")
    | .ok true => none

/-- A call to start watching a root. -/
def start (w : Watcher) (root : Path) (recursive : Bool) : Watcher :=
  if w.starts.isEmpty then
    let w := { w with starts := [.pending] }
    match rootFailure? w.site.table root with
    | some f => w.endStart (.failed f)
    | none => if w.options.poll then w.startPolling root recursive else w.startNative root recursive
  else { w with starts := w.starts ++ [.failed .watcherReused] }

/-- Goes on with an observer that waited at the gate. -/
def passGate (w : Watcher) (waiting : Waiting) : Watcher :=
  let started := w.site.start waiting.technique waiting.observer
  let v := { w with site := started.1, waiting := none }
  match waiting.technique with
  | .native => v.concludeNative waiting.observer waiting.root waiting.recursive started.2
  | .polling => v.concludePolling waiting.observer waiting.root waiting.recursive started.2

/-- Stops the watcher. -/
def stop (w : Watcher) : Watcher :=
  let site := match w.current with
    | none => w.site
    | some i => w.site.shutDown i
  { w with stopping := true, current := none, channel := w.channel.close, site }

end Watcher
end DirWatch

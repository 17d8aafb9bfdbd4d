import DirWatch.Command.Toolkit
import DirWatch.Host

/-!
# Running a request

A watch on the command line is a watch of a host whose handlers, one for each category, print a line for each call. The
command ends when the watch does: well when it returned or was cancelled, and with status 1 when it failed. A failure of
the watch itself is told in one line; any other failure is left to the surroundings.

* **Lines** (`outputLine`): the key of the category, and the paths joined by commas. The toolkit shows them.
* **Ends** (`Toolkit.outcome`).
-/

namespace DirWatch.Command

/-- The version of the program. -/
def version : Text := "0.1.0"

/-- What is printed for the version. -/
def versionLine : Text := "hostfs, version " ++ version ++ "\n"

/-- The line that the handler of a category prints for a call. -/
def outputLine (key : Text) (paths : List Text) : Text := key ++ ": " ++ Text.join ", " paths

/-- The options of a watch, as a host gives them. -/
def WatchRequest.optionEntries (r : WatchRequest) : List (Value × Value) := [
  (.text "pattern", .text r.pattern),
  (.text "recursive", .bool r.recursive),
  (.text "watchFiles", .bool r.files),
  (.text "watchDirectories", .bool r.directories),
  (.text "interval", .int r.interval),
  (.text "poll", .bool r.poll)]

/-- The handlers of a watch, as a host gives them. -/
def handlerEntries : List (Value × Value) := Category.all.map fun c => (.text c.key, .callable c.key)

/-- The host that runs a watch on a site, at rest once the watch has begun. -/
def WatchRequest.begin (r : WatchRequest) (site : Site) : Host :=
  let host : Host := { site, kinds := Category.all.map fun c => (c.key, .plain) }
  host.act (.watch (.path r.root) (.ofPairs r.optionEntries) (.ofPairs handlerEntries))

/-- What a stream shows of the lines that were printed for the calls in a log. -/
def Toolkit.printed (k : Toolkit) (terminal : Bool) (log : List LogEntry) : Text :=
  log.flatMap fun e =>
    match e.deed with
    | .called paths => k.echo terminal (outputLine e.handler paths)
    | _ => []

/-- How a watch ends. -/
inductive Ending where
  | returned
  | cancelled
  | interrupted
  | failed (f : Failure)
  deriving DecidableEq, Repr

/-- How the watch of a host ended, if it did. -/
def ending? (h : Host) : Option Ending :=
  match h.runs.head? with
  | some .returned => some .returned
  | some (.failed .cancelled) => some .cancelled
  | some (.failed f) => some (.failed f)
  | _ => none

/-- The host of a command after actions, of which it takes none once its watch has ended. -/
def proceed (h : Host) : List Host.Action → Host
  | [] => h
  | a :: rest => if (ending? h).isSome then h else proceed (h.act a) rest

/-- What the command leaves behind: its status, what it printed to its two streams, and the failure that nothing
handled. -/
structure Outcome where
  status : Nat
  output : Text := []
  errors : Text := []
  unhandled : Option Failure := none
  deriving DecidableEq, Repr

/-- The line that tells a failure of the watch. -/
def errorLine (f : Failure) : Text := "❌ Error: " ++ f.message

/-- What a command leaves behind that printed something and whose watch ended. -/
def Toolkit.outcome (k : Toolkit) (terminals : Terminals) (output : Text) : Ending → Outcome
  | .returned => { status := 0, output }
  | .cancelled => { status := 0, output }
  | .interrupted => { status := 1, output, errors := k.echo terminals.errors "\nAborted by user." }
  | .failed f =>
    if f.isWatchFailure then { status := 1, output, errors := k.echo terminals.errors (errorLine f) }
    else { status := 1, output, unhandled := some f }

/-- What a command leaves behind that ran no watch. -/
def Refusal.outcome : Refusal → Outcome
  | .usage _ => { status := 2 }
  | .failure f => { status := 1, unhandled := some f }

end DirWatch.Command

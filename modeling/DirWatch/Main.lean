import DirWatch.Command.Feed
import DirWatch.Command.Run

/-!
# The program

Runs a request of the command line. Notices come from standard input, one on a line; the paths that they name are looked
up when they come, those that the request names before it is carried out. The watch is cancelled when the input ends.
-/

namespace DirWatch.Command

/-- The variables that requests are read from. -/
def readEnvironment : IO Environment := do
  let names := [Parameter.interval, .logLevel, .logFile, .logFormat].filterMap Parameter.variable?
  let mut env : Environment := []
  for name in names do
    match ← IO.getEnv name.string with
    | some value => env := env ++ [(name, Text.ofString value)]
    | none => pure ()
  return env

/-- Whether an open file can be read from. -/
def canRead (handle : IO.FS.Handle) : IO Bool := do
  match ← (handle.read 1).toBaseIO with
  | .ok _ => return true
  | .error _ => return false

/-- What there is at a path. What opens and cannot be read from is a directory. -/
def lookUp (path : Text) : IO (Option FileTable.Entry) := do
  match ← (IO.FS.Handle.mk path.string .read).toBaseIO with
  | .ok handle => return some (.present (if ← canRead handle then 0o100644 else 0o040755) true)
  | .error (.permissionDenied _ _ _) => return some (.present 0o100644 false)
  | .error _ => return none

/-- What there is at some paths. -/
def lookUpAll (paths : List Text) : IO FileTable.Change := paths.mapM fun p => do return (p, ← lookUp p)

/-- Which streams of the program are terminals. -/
def terminals : IO Terminals := do
  let output ← (← IO.getStdout).isTty
  let errors ← (← IO.getStderr).isTty
  return { output, errors }

/-- Prints the lines for the calls that were logged between two states. -/
def printNew (before after : Host) : IO Unit := do
  let output ← IO.getStdout
  let log := after.scheduler.log.drop before.scheduler.log.length
  output.putStr (Toolkit.standard.printed (← terminals).output log).string
  output.flush

/-- Feeds lines to the watch until it ends. -/
partial def feedLines (input : IO.FS.Stream) (h : Host) : IO Ending := do
  match ending? h with
  | some e => return e
  | none =>
    let line ← input.getLine
    let actions ←
      if line.isEmpty then pure [.cancel]
      else
        match Notice.ofLine? (Text.ofString line) with
        | none => pure []
        | some n =>
          let change ← lookUpAll (n.toEvent.paths.map Path.text)
          pure [.change change, .feed [n]]
    let next := proceed h actions
    printNew h next
    feedLines input next

/-- Ends the program as an outcome says. The output was printed already. -/
def conclude (o : Outcome) : IO UInt32 := do
  IO.eprint o.errors.escaped.string
  match o.unhandled with
  | some f => IO.eprintln f.message.escaped.string
  | none => pure ()
  return o.status.toUInt32

/-- The file table for the paths that words name. -/
def tableFor (env : Environment) (words : List Text) : IO FileTable := do
  match Toolkit.standard.read {} env words with
  | .ok (.watch r) => return ({} : FileTable).apply (← lookUpAll (r.rootText :: r.logFile.toList))
  | _ => return {}

/-- Runs what the words of a command line ask for. -/
def runWords (words : List String) : IO UInt32 := do
  let words := words.map Text.ofString
  let env ← readEnvironment
  match Toolkit.standard.read (← tableFor env words) env words with
  | .error e => conclude e.outcome
  | .ok .version =>
    IO.print versionLine.string
    return 0
  | .ok (.watch r) =>
    let site : Site := { table := ({} : FileTable).apply (← lookUpAll [r.root.text]) }
    let e ← feedLines (← IO.getStdin) (r.begin site)
    conclude (Toolkit.standard.outcome (← terminals) [] e)

end DirWatch.Command

/-- Runs the program. -/
def main (args : List String) : IO UInt32 := DirWatch.Command.runWords args

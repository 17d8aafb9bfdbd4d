import DirWatch.Command.Request
import DirWatch.Text.Codes

/-!
# Toolkits

The command has its words read and its lines shown by a toolkit that is not its own. What it relies on is that the
toolkit does as it says (`Toolkit.Documented`); the program runs on `Toolkit.standard`.
-/

namespace DirWatch.Command

/-- What reads command lines and shows lines. -/
structure Toolkit where
  /-- What words ask for, by the file table of that moment and the variables of the environment. -/
  read : FileTable → Environment → List Text → Except Refusal Request
  /-- Whether what is there at a path keeps it from being a log file. -/
  barsLogFile : FileTable → Text → Bool
  /-- What a stream shows of a line, be it a terminal or not. -/
  echo : Bool → Text → Text

/-- Which streams of a command are terminals. -/
structure Terminals where
  output : Bool := false
  errors : Bool := false

namespace Toolkit

/-- The toolkit of the program. A stream that is no terminal shows no codes. -/
def standard : Toolkit where
  read := Request.ofList?
  barsLogFile := isBarred
  echo terminal line := (if terminal then line else line.withoutCodes) ++ [.newline]

/-- Whether what is there at the paths of a request is in its way: a root that may not be read, or a log file that the
toolkit will not have. -/
def bars (k : Toolkit) (table : FileTable) (r : WatchRequest) : Bool :=
  isBarred table r.rootText || r.logFile.any (k.barsLogFile table)

/-- What a toolkit says of itself. -/
structure Documented (k : Toolkit) : Prop where
  /-- The interval is a whole number of seconds, one at least. -/
  interval_pos : ∀ {table : FileTable} {env : Environment} {words : List Text} {r : WatchRequest},
    k.read table env words = .ok (.watch r) → 0 < r.interval
  /-- What is there at the paths makes no difference to what words ask for, unless it is in the way. -/
  unbarred : ∀ {table : FileTable} {env : Environment} {words : List Text} {r : WatchRequest},
    k.read {} env words = .ok (.watch r) → k.bars table r = false → k.read table env words = .ok (.watch r)
  /-- A path with something in the way is a matter of usage. -/
  barred : ∀ {table : FileTable} {env : Environment} {words : List Text} {r : WatchRequest},
    k.read {} env words = .ok (.watch r) → k.bars table r = true → ∃ e, k.read table env words = .error (.usage e)
  /-- A terminal shows a line as it is. -/
  echo_terminal : ∀ line, k.echo true line = line ++ [.newline]
  /-- Any other stream shows it without its codes. -/
  echo_other : ∀ line, k.echo false line = line.withoutCodes ++ [.newline]

end Toolkit
end DirWatch.Command

import DirWatch.Path
import DirWatch.Glob.Pattern
import DirWatch.System.OsError

/-!
# Failures

Everything that ends an operation early. A watch fails on its configuration, on registration of its root, or on the
notifier dying later on; those three are the failures that the command line reports as its own
(`Failure.isWatchFailure`). The others come from the surroundings or from misuse.

Each failure is a cause; the wording is in `Failure.message`, and `ConfigError.field` names the option at fault.
-/

namespace DirWatch

/-- The phases of a watch session. -/
inductive Phase where
  | created
  | running
  | closed
  | errored
  deriving DecidableEq, Repr

/-- The name of a phase in messages. -/
def Phase.name : Phase → Text
  | .created => "CREATED"
  | .running => "RUNNING"
  | .closed => "CLOSED"
  | .errored => "ERRORED"

/-- The fields of the watch options. -/
inductive Field where
  | pattern
  | recursive
  | watchFiles
  | watchDirectories
  | interval
  | poll
  deriving DecidableEq, Repr

/-- The name of a field. -/
def Field.name : Field → Text
  | .pattern => "pattern"
  | .recursive => "recursive"
  | .watchFiles => "watch_files"
  | .watchDirectories => "watch_directories"
  | .interval => "interval"
  | .poll => "poll"

/-- What is wrong with options, handlers or the root of a watch. A `typeName` names the type of the value that stands
where another is wanted. -/
inductive ConfigError where
  | rootNotText (typeName : Text)
  | optionsNotMapping (typeName : Text)
  | unknownOption (key : Text)
  | repeatedOption (field : Field)
  | missingPattern
  | patternNotText (typeName : Text)
  | emptyPattern
  | notBoolean (field : Field) (typeName : Text)
  | intervalNotInteger (typeName : Text)
  | intervalNotPositive
  | badPattern (pattern : Text) (error : Glob.SyntaxError)
  | handlersNotMapping (typeName : Text)
  | handlerNotCallable (key : Text) (typeName : Text)
  | other (message : Text) (field : Option Text)
  deriving DecidableEq, Repr

namespace ConfigError

/-- The wording of a configuration error. -/
def message : ConfigError → Text
  | .rootNotText t => "Watch path must be a string, got " ++ t
  | .optionsNotMapping t => "Watch options must be a string or a mapping, got " ++ t
  | .unknownOption key => "Unknown watch option '" ++ key ++ "'"
  | .repeatedOption f => "Watch option '" ++ f.name ++ "' given more than once"
  | .missingPattern => "Watch options are missing required key 'pattern'"
  | .patternNotText t => "Option 'pattern' must be a string, got " ++ t
  | .emptyPattern => "Option 'pattern' must not be empty"
  | .notBoolean f t => "Option '" ++ f.name ++ "' must be a boolean, got " ++ t
  | .intervalNotInteger t => "Option 'interval' must be an integer number of seconds, got " ++ t
  | .intervalNotPositive => "Option 'interval' must be positive"
  | .badPattern pattern e => Pattern.invalid pattern e.reason
  | .handlersNotMapping t => "Watch handlers must be a mapping, got " ++ t
  | .handlerNotCallable key t => "Watch handler '" ++ key ++ "' must be callable, got " ++ t
  | .other message _ => message

/-- The option or handler at fault. -/
def field : ConfigError → Option Text
  | .rootNotText _ => some "path"
  | .optionsNotMapping _ => none
  | .unknownOption key => some key
  | .repeatedOption f => some f.name
  | .missingPattern => some Field.pattern.name
  | .patternNotText _ => some Field.pattern.name
  | .emptyPattern => some Field.pattern.name
  | .notBoolean f _ => some f.name
  | .intervalNotInteger _ => some Field.interval.name
  | .intervalNotPositive => some Field.interval.name
  | .badPattern _ _ => some Field.pattern.name
  | .handlersNotMapping _ => none
  | .handlerNotCallable key _ => some key
  | .other _ field => field

end ConfigError

/-- Why an operation ended early. -/
inductive Failure where
  | config (e : ConfigError)
  | registration (root : Path) (reason : Text)
  | notifier (message : Text)
  | general (message : Text)
  | os (e : OsError)
  | broken (message : Text)
  | nullByte
  | intervalOverflow
  | digitLimit
  | watcherReused
  | sessionReused
  | sessionSpent (phase : Phase)
  | cancelled
  deriving DecidableEq, Repr

namespace Failure

/-- The wording of a failure. -/
def message : Failure → Text
  | .config e => e.message
  | .registration root reason => "Cannot watch '" ++ root.text ++ "': " ++ reason
  | .notifier message => message
  | .general message => message
  | .os e => e.text
  | .broken message => message
  | .nullByte => "embedded null byte"
  | .intervalOverflow => "int too large to convert to float"
  | .digitLimit => "Exceeds the limit (4300 digits) for integer string conversion; " ++
      "use sys.set_int_max_str_digits() to increase the limit"
  | .watcherReused => "NativeWatcher has already been started"
  | .sessionReused => "Watch session has already been started"
  | .sessionSpent phase => "Watch session cannot run from state " ++ phase.name
  | .cancelled => []

/-- Whether a failure is one of the watch itself. -/
def isWatchFailure : Failure → Bool
  | .config _ => true
  | .registration _ _ => true
  | .notifier _ => true
  | .general _ => true
  | _ => false

/-- The failure that a fault of the surroundings becomes when nothing handles it. -/
def ofFault : Fault → Failure
  | .os e => .os e
  | .broken message => .broken message

end Failure
end DirWatch

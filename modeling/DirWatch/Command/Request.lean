import DirWatch.Command.Arguments
import DirWatch.Failure
import DirWatch.Options.Reading
import DirWatch.System.FileTable
import DirWatch.Text.Numeral

/-!
# Requests on the command line

The command line asks for the version or for a watch. A parameter that is not given is read from the environment, where
an empty value counts as none. Paths among the values are looked up in the file table of that moment: what is there has
to be readable.

* **Order of faults** (`WatchRequest.ofList?`): a malformed word first; then the values of the command line in order of
  appearance, the root, the values of the environment, and words too many.
-/

namespace DirWatch.Command

/-- The variables of the environment. -/
abbrev Environment := List (Text × Text)

/-- Why there is no request. -/
inductive Refusal where
  | usage (e : UsageError)
  | failure (f : Failure)
  deriving DecidableEq, Repr

/-- A watch that is asked for. -/
structure WatchRequest where
  /-- The root as it was written. -/
  rootText : Text
  pattern : Text := "*"
  recursive : Bool := false
  files : Bool := true
  directories : Bool := true
  interval : Nat := defaultInterval
  poll : Bool := false
  logLevel : Option Text := none
  logFile : Option Text := none
  deriving DecidableEq, Repr

/-- The root of a watch. -/
def WatchRequest.root (r : WatchRequest) : Path := Path.ofText r.rootText

/-- What the command line asks for. -/
inductive Request where
  | version
  | watch (r : WatchRequest)
  deriving DecidableEq, Repr

/-! ## Values -/

/-- The variable that a parameter is read from when it is not given. -/
def Parameter.variable? : Parameter → Option Text
  | .pattern => none
  | .interval => some "HOSTFS_POLL_INTERVAL"
  | .logLevel => some "PROVIDE_LOG_LEVEL"
  | .logFile => some "PROVIDE_LOG_FILE"
  | .logFormat => some "PROVIDE_LOG_FORMAT"

/-- The value of a variable; an empty one counts as none. -/
def Environment.get? (env : Environment) (name : Text) : Option Text :=
  match (env.find? (·.1 = name)).map (·.2) with
  | some (c :: rest) => some (c :: rest)
  | _ => none

/-- A character without its case, as far as the choices have it. -/
def foldCase (c : Char) : Char :=
  if c = '\u017f' then 's' else if c = '\u212a' then 'k' else c.toLower

/-- A text without its case. -/
def foldText (t : Text) : Text :=
  t.map fun
    | .char c => .char (foldCase c)
    | .stray b => .stray b

/-- The choice that a text names in any case. -/
def choice? (choices : List Text) (t : Text) : Except Refusal Text :=
  match choices.find? (foldText · = foldText t) with
  | some c => .ok c
  | none => .error (.usage (.badChoice t))

/-- The levels of logging. -/
def logLevels : List Text := ["TRACE", "DEBUG", "INFO", "WARNING", "ERROR", "CRITICAL"]

/-- The formats of logging. -/
def logFormats : List Text := ["json", "text", "key_value"]

/-- The seconds that a text writes, one at least. -/
def seconds? (t : Text) : Except Refusal Nat :=
  match t.toInt? with
  | some n => if 1 ≤ n then .ok n.toNat else .error (.usage (.badInteger t))
  | none => .error (.usage (.badInteger t))

/-- Whether there is something at a path that may not be read. -/
def isBarred (table : FileTable) (t : Text) : Bool :=
  match table.status t with
  | .ok (_, readable) => !readable
  | .error _ => false

/-- A text that may be looked up as a path. What cannot be found is left to those who use it. -/
def pathText? (table : FileTable) (t : Text) : Except Refusal Text :=
  if t.contains (.char '\x00') then .error (.failure .nullByte)
  else if isBarred table t then .error (.usage (.unreadable t))
  else .ok t

/-- Whether a text is a value of a parameter. -/
def Parameter.check (table : FileTable) (p : Parameter) (t : Text) : Except Refusal Unit :=
  match p with
  | .pattern => .ok ()
  | .interval => (seconds? t).map fun _ => ()
  | .logLevel => (choice? logLevels t).map fun _ => ()
  | .logFormat => (choice? logFormats t).map fun _ => ()
  | .logFile => (pathText? table t).map fun _ => ()

/-! ## Requests -/

namespace WatchRequest

/-- Checks the values of the command line in order of appearance. Of a parameter given more than once, the last value
is checked where the first one stands. -/
def checkSettings (table : FileTable) (a : Arguments) : List Setting → Except Refusal Unit
  | [] => .ok ()
  | .switch _ :: rest => checkSettings table a rest
  | .parameter p value :: rest => do
    p.check table ((a.value? p).getD value)
    checkSettings table a rest

/-- The value of a parameter, from the environment when it is not given. -/
def value? (a : Arguments) (env : Environment) (p : Parameter) : Option Text :=
  match a.value? p with
  | some t => some t
  | none => p.variable?.bind env.get?

/-- Reads a value, if there is one. -/
def read? {α : Type} (read : Text → Except Refusal α) : Option Text → Except Refusal (Option α)
  | none => .ok none
  | some t => (read t).map some

/-- The watch that words and the environment ask for. -/
def ofList? (table : FileTable) (env : Environment) (words : List Text) : Except Refusal WatchRequest := do
  let a ← (Arguments.ofList? words).mapError .usage
  checkSettings table a a.settings
  let rootText ← match a.positionals with
    | [] => .error (.usage .missingRoot)
    | t :: _ => pathText? table t
  let interval ← read? seconds? (value? a env .interval)
  let logLevel ← read? (choice? logLevels) (value? a env .logLevel)
  let logFile ← read? (pathText? table) (value? a env .logFile)
  let _ ← read? (choice? logFormats) (value? a env .logFormat)
  match a.positionals.drop 1 with
  | [] => pure ()
  | t :: _ => .error (.usage (.extraArgument t))
  return {
    rootText
    pattern := (a.value? .pattern).getD "*"
    recursive := a.isOn (some .recursive) none false
    files := a.isOn (some (.files true)) (some (.files false)) true
    directories := a.isOn (some (.directories true)) (some (.directories false)) true
    interval := interval.getD defaultInterval
    poll := a.isOn (some .poll) none false
    logLevel
    logFile }

end WatchRequest

namespace Request

/-- The name of the command that watches. -/
def watchName : Text := "watch"

/-- The word that asks for the version. -/
def versionWord : Text := "--version"

/-- What the words name after the options in front of them; `version` says whether they asked for the version. -/
def ofCommand? (table : FileTable) (env : Environment) (version : Bool) : List Text → Except Refusal Request
  | [] => if version then .ok .version else .error (.usage .missingCommand)
  | name :: rest =>
    if version then .ok .version
    else if name = watchName then (WatchRequest.ofList? table env rest).map .watch
    else .error (.usage (.unknownCommand name))

/-- What words ask for, after `version` was seen or not. -/
def ofWords? (table : FileTable) (env : Environment) (version : Bool) : List Text → Except Refusal Request
  | [] => ofCommand? table env version []
  | t :: rest =>
    if t = versionWord then ofWords? table env true rest
    else
      match t with
      | [.char '-', .char '-'] => ofCommand? table env version rest
      | .char '-' :: _ :: _ => .error (.usage (.unknownOption t))
      | _ => ofCommand? table env version (t :: rest)

/-- What a command line asks for. -/
def ofList? (table : FileTable) (env : Environment) (words : List Text) : Except Refusal Request :=
  ofWords? table env false words

end Request
end DirWatch.Command

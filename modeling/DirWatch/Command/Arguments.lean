import DirWatch.Text.Symbol

/-!
# Command-line arguments

The words after the command are switches, parameters with a value, and positional words, in any order. A long name may
carry its value after `=`, short names may be joined, and a parameter without a value of its own takes the next word,
whatever it looks like. The word `--` ends the options; a single `-` and the empty word are positional.

* **Reading** (`Arguments.ofList?`): the settings in order of appearance and the positional words in order.
-/

namespace DirWatch.Command

/-- What is wrong with the usage of the command. -/
inductive UsageError where
  | missingCommand
  | unknownCommand (name : Text)
  | unknownOption (name : Text)
  | missingValue (name : Text)
  | unexpectedValue (name : Text)
  | missingRoot
  | extraArgument (word : Text)
  | badInteger (word : Text)
  | badChoice (word : Text)
  | unreadable (path : Text)
  deriving DecidableEq, Repr

/-- The options without a value. -/
inductive Switch where
  | recursive
  | files (shown : Bool)
  | directories (shown : Bool)
  | poll
  deriving DecidableEq, Repr

/-- The options with a value. -/
inductive Parameter where
  | pattern
  | interval
  | logLevel
  | logFile
  | logFormat
  deriving DecidableEq, Repr

/-- An option. -/
inductive Flag where
  | switch (s : Switch)
  | parameter (p : Parameter)
  deriving DecidableEq, Repr

/-- An option as it was given. -/
inductive Setting where
  | switch (s : Switch)
  | parameter (p : Parameter) (value : Text)
  deriving DecidableEq, Repr

/-- The long names, without their hyphens. -/
def Flag.longNames : List (Text × Flag) := [
  ("pattern", .parameter .pattern),
  ("recursive", .switch .recursive),
  ("files", .switch (.files true)),
  ("no-files", .switch (.files false)),
  ("dirs", .switch (.directories true)),
  ("no-dirs", .switch (.directories false)),
  ("interval", .parameter .interval),
  ("poll", .switch .poll),
  ("log-level", .parameter .logLevel),
  ("log-file", .parameter .logFile),
  ("log-format", .parameter .logFormat)]

/-- The short names. -/
def Flag.shortNames : List (Symbol × Flag) := [
  (.char 'p', .parameter .pattern),
  (.char 'r', .switch .recursive),
  (.char 'l', .parameter .logLevel)]

/-- The option of a long name. -/
def Flag.ofLong? (name : Text) : Option Flag := (longNames.find? (·.1 = name)).map (·.2)

/-- The option of a short name. -/
def Flag.ofShort? (name : Symbol) : Option Flag := (shortNames.find? (·.1 = name)).map (·.2)

/-- What a word of the command line is. -/
inductive Word where
  | positional
  | endOfOptions
  | settings (ss : List Setting)
  /-- Settings, and a parameter that takes the next word. -/
  | awaiting (ss : List Setting) (p : Parameter)
  deriving DecidableEq, Repr

namespace Word

/-- Adds a setting in front. -/
def after (s : Setting) : Word → Word
  | settings ss => settings (s :: ss)
  | awaiting ss p => awaiting (s :: ss) p
  | w => w

/-- A word that begins with two hyphens, by what follows them. -/
def ofLong? (t : Text) : Except UsageError Word :=
  let name := t.takeWhile (· ≠ .char '=')
  let rest := t.dropWhile (· ≠ .char '=')
  match Flag.ofLong? name, rest with
  | none, _ => .error (.unknownOption name)
  | some (.switch s), [] => .ok (settings [.switch s])
  | some (.switch _), _ :: _ => .error (.unexpectedValue name)
  | some (.parameter p), [] => .ok (awaiting [] p)
  | some (.parameter p), _ :: value => .ok (settings [.parameter p value])

/-- Short names joined in one word; a parameter takes all that follows it. -/
def ofShort? : Text → Except UsageError Word
  | [] => .ok (settings [])
  | c :: rest =>
    match Flag.ofShort? c with
    | none => .error (.unknownOption [c])
    | some (.switch s) => (ofShort? rest).map (after (.switch s))
    | some (.parameter p) => .ok (if rest.isEmpty then awaiting [] p else settings [.parameter p rest])

/-- What a word is. -/
def ofText? (t : Text) : Except UsageError Word :=
  match t with
  | [] => .ok positional
  | c :: rest =>
    if c = .char '-' then
      match rest with
      | [] => .ok positional
      | d :: more =>
        if d = .char '-' then (if more.isEmpty then .ok endOfOptions else ofLong? more) else ofShort? (d :: more)
    else .ok positional

end Word

/-- The settings and positional words of a command line. -/
structure Arguments where
  settings : List Setting := []
  positionals : List Text := []
  deriving DecidableEq, Repr

namespace Arguments

/-- Adds settings in front. -/
def addSettings (ss : List Setting) (a : Arguments) : Arguments := { a with settings := ss ++ a.settings }

/-- Adds a positional word in front. -/
def addPositional (t : Text) (a : Arguments) : Arguments := { a with positionals := t :: a.positionals }

/-- The arguments that words make up. -/
def ofList? : List Text → Except UsageError Arguments
  | [] => .ok {}
  | t :: rest =>
    match Word.ofText? t with
    | .error e => .error e
    | .ok .positional => (ofList? rest).map (addPositional t)
    | .ok .endOfOptions => .ok { positionals := rest }
    | .ok (.settings ss) => (ofList? rest).map (addSettings ss)
    | .ok (.awaiting ss p) =>
      match rest with
      | [] => .error (.missingValue t)
      | value :: more => (ofList? more).map (addSettings (ss ++ [.parameter p value]))

/-- The value of a parameter, the last one when it is given more than once. -/
def value? (a : Arguments) (p : Parameter) : Option Text :=
  a.settings.foldl (fun found s =>
    match s with
    | .parameter q value => if q = p then some value else found
    | .switch _ => found) none

/-- Whether a switch is on, the last one of its two spellings when both are given. -/
def isOn (a : Arguments) (on off : Option Switch) (default : Bool) : Bool :=
  a.settings.foldl (fun found s =>
    match s with
    | .switch t => if some t = on then true else if some t = off then false else found
    | .parameter _ _ => found) default

end Arguments
end DirWatch.Command

import DirWatch.Value

/-!
# Reading watch options

Options are given as a pattern alone, as a mapping, or as options already built. A mapping has the keys of
`Field.ofKey?`, some of them under two spellings, and a value of `none` means that the option was not given.

* **Which error wins** (`Options.ofValue?`): a key that is unknown or repeated, in the order of the mapping; then a
  missing pattern; then the first wrong value in the order of the fields; then a pattern that is no glob.
* **Unknown keys** (`Given.unknown`) are told by their texts; a key that has none fails in another way.
-/

namespace DirWatch

/-- The field that a key of an option mapping names. -/
def Field.ofKey? (key : Text) : Option Field :=
  if key = "pattern" then some .pattern
  else if key = "recursive" then some .recursive
  else if key = "watchFiles" ∨ key = "watch_files" then some .watchFiles
  else if key = "watchDirectories" ∨ key = "watch_directories" then some .watchDirectories
  else if key = "interval" then some .interval
  else if key = "poll" then some .poll
  else none

/-- The values given for the fields of the options; `none` stands for a field that was not given. -/
structure Given where
  pattern : Option Value := none
  recursive : Option Value := none
  watchFiles : Option Value := none
  watchDirectories : Option Value := none
  interval : Option Value := none
  poll : Option Value := none

namespace Given

/-- The value given for a field. -/
def get (g : Given) : Field → Option Value
  | .pattern => g.pattern
  | .recursive => g.recursive
  | .watchFiles => g.watchFiles
  | .watchDirectories => g.watchDirectories
  | .interval => g.interval
  | .poll => g.poll

/-- Gives a value for a field. -/
def set (g : Given) (f : Field) (v : Value) : Given :=
  match f with
  | .pattern => { g with pattern := some v }
  | .recursive => { g with recursive := some v }
  | .watchFiles => { g with watchFiles := some v }
  | .watchDirectories => { g with watchDirectories := some v }
  | .interval => { g with interval := some v }
  | .poll => { g with poll := some v }

/-- The failure about a key that names no field. -/
def unknown (key : Value) : Failure :=
  match key.shown? with
  | some t => .config (.unknownOption t)
  | none => .digitLimit

theorem unknown_of_shown {key : Value} {t : Text} (h : key.shown? = some t) :
    unknown key = .config (.unknownOption t) := by
  rw [unknown, h]

theorem unknown_of_not_shown {key : Value} (h : key.shown? = none) : unknown key = .digitLimit := by
  rw [unknown, h]

/-- The values given by the entries of a mapping. -/
def ofEntries? : Given → List (Value × Value) → Except Failure Given
  | g, [] => .ok g
  | g, (key, value) :: rest =>
    let field := match key with
      | .text t => Field.ofKey? t
      | _ => none
    match field with
    | none => .error (unknown key)
    | some f =>
      if (g.get f).isSome then .error (.config (.repeatedOption f))
      else if value.isNone then ofEntries? g rest
      else ofEntries? (g.set f value) rest

end Given

namespace Options

/-- The text of a pattern option. -/
def patternText? (v : Option Value) : Except ConfigError Text :=
  match v with
  | none => .error .missingPattern
  | some (.text []) => .error .emptyPattern
  | some (.text (s :: rest)) => .ok (s :: rest)
  | some v => .error (.patternNotText v.typeName)

/-- The truth value of an option, or its default. -/
def flag? (f : Field) (default : Bool) (v : Option Value) : Except ConfigError Bool :=
  match v with
  | none => .ok default
  | some (.bool b) => .ok b
  | some v => .error (.notBoolean f v.typeName)

/-- The seconds of an interval option, or its default. -/
def interval? (v : Option Value) : Except ConfigError (Option Nat) :=
  match v with
  | none => .ok (some defaultInterval)
  | some .none => .ok none
  | some (.int n) => if n ≤ 0 then .error .intervalNotPositive else .ok (some n.toNat)
  | some v => .error (.intervalNotInteger v.typeName)

/-- The options that some given values make up. -/
def ofGiven? (g : Given) : Except ConfigError Options := do
  let text ← patternText? g.pattern
  let recursive ← flag? .recursive false g.recursive
  let watchFiles ← flag? .watchFiles true g.watchFiles
  let watchDirectories ← flag? .watchDirectories true g.watchDirectories
  let interval ← interval? g.interval
  let poll ← flag? .poll false g.poll
  match Pattern.ofText? text with
  | .error e => .error (.badPattern text e)
  | .ok pattern => .ok { pattern, recursive, watchFiles, watchDirectories, interval, poll }

/-- The options that a mapping gives. -/
def ofMapping? (entries : List (Value × Value)) : Except Failure Options := do
  (ofGiven? (← Given.ofEntries? {} entries)).mapError .config

/-- The options that a host value gives. -/
def ofValue? : Value → Except Failure Options
  | .options o => .ok o
  | .text t => (ofGiven? { pattern := some (.text t) }).mapError .config
  | .mapping entries => ofMapping? entries
  | v => .error (.config (.optionsNotMapping v.typeName))

end Options
end DirWatch

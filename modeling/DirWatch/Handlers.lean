import DirWatch.Value

/-!
# Reading handlers

Handlers are given as a mapping from category keys to callables, as a registry already built, or not at all. Keys that
name no category are ignored, but they are noted, and so each needs a text.
-/

namespace DirWatch
namespace Registry

/-- The handler that a mapping gives for a category. -/
def entry? (entries : List (Value × Value)) (c : Category) : Except ConfigError (Option Text) :=
  match Value.lookup? entries c.key with
  | none => .ok none
  | some .none => .ok none
  | some (.callable label) => .ok (some label)
  | some v => .error (.handlerNotCallable c.key v.typeName)

/-- Adds what a mapping gives for some categories. -/
def addEntries? (entries : List (Value × Value)) : Registry Text → List Category → Except ConfigError (Registry Text)
  | r, [] => .ok r
  | r, c :: rest => do
    match ← entry? entries c with
    | none => addEntries? entries r rest
    | some label => addEntries? entries (r.set c label) rest

/-- The registry that a host value gives. -/
def ofValue? : Value → Except Failure (Registry Text)
  | .none => .ok {}
  | .handlers r => .ok r
  | .mapping entries => do
    let registry ← (addEntries? entries {} Category.all).mapError .config
    if entries.any (·.1.shown?.isNone) then .error .digitLimit else .ok registry
  | v => .error (.config (.handlersNotMapping v.typeName))

end Registry
end DirWatch

import DirWatch.Number.Decimal
import DirWatch.Options.Basic
import DirWatch.Registry
import DirWatch.Text.Numeral

/-!
# Host values

Options and handlers come from a host whose values carry their types with them, so any value may stand where a text,
a mapping or a callable is wanted.

* **Type names** (`Value.typeName`), which messages give.
* **Equal keys** (`Value.sameKey`): numbers of all types are compared by value, and a truth value counts as 0 or 1.
* **Mappings** (`Value.ofPairs`): a later entry with an equal key replaces the value and keeps the first key and place.
* **Text of a key** (`Value.shown?`), which it has unless an integer in it has too many digits.
-/

namespace DirWatch

/-- A value of the host. -/
inductive Value where
  | none
  | bool (b : Bool)
  | int (n : Int)
  | fraction (d : Decimal)
  | text (t : Text)
  | bytes (bs : List UInt8)
  | list (vs : List Value)
  | tuple (vs : List Value)
  | mapping (entries : List (Value × Value))
  | path (p : Path)
  | callable (label : Text)
  | options (o : Options)
  | handlers (r : Registry Text)

namespace Value

/-- The name of a value's type. -/
def typeName : Value → Text
  | .none => "NoneType"
  | .bool _ => "bool"
  | .int _ => "int"
  | .fraction _ => "float"
  | .text _ => "str"
  | .bytes _ => "bytes"
  | .list _ => "list"
  | .tuple _ => "tuple"
  | .mapping _ => "dict"
  | .path _ => "PosixPath"
  | .callable _ => "function"
  | .options _ => "WatchOptions"
  | .handlers _ => "WatchHandlers"

/-- Whether a value means that nothing was given. -/
def isNone : Value → Bool
  | .none => true
  | _ => false

/-- The integer that a number is equal to. -/
def integral? : Value → Option Int
  | .bool b => some (if b then 1 else 0)
  | .int n => some n
  | .fraction d => d.toInt?
  | _ => Option.none

mutual

/-- Whether two values are one key of a mapping. -/
def sameKey : Value → Value → Bool
  | .none, .none => true
  | .text s, .text t => s = t
  | .bytes s, .bytes t => s = t
  | .path p, .path q => p = q
  | .callable s, .callable t => s = t
  | .tuple vs, .tuple ws => sameKeys vs ws
  | .fraction d, .fraction e => d = e && d != .undefined
  | v, w =>
    match v.integral?, w.integral? with
    | some m, some n => m = n
    | _, _ => false

/-- Whether two lists of values are the same keys. -/
def sameKeys : List Value → List Value → Bool
  | [], [] => true
  | v :: vs, w :: ws => sameKey v w && sameKeys vs ws
  | _, _ => false

end

/-- Sets a key of a mapping. -/
def insert (key value : Value) : List (Value × Value) → List (Value × Value)
  | [] => [(key, value)]
  | (k, v) :: rest => if sameKey k key then (k, value) :: rest else (k, v) :: insert key value rest

/-- The mapping of some entries, in order. -/
def ofPairs (entries : List (Value × Value)) : Value :=
  .mapping (entries.foldl (fun m e => insert e.1 e.2 m) [])

/-- The value under a text key. -/
def lookup? (entries : List (Value × Value)) (key : Text) : Option Value :=
  (entries.find? fun e => sameKey e.1 (.text key)).map (·.2)

/-! ## Texts -/

/-- The text of an integer, unless it has too many digits. -/
def digits? (n : Int) : Option Text := if n.natAbs < Numeral.bound then some (Text.ofInt n) else Option.none

/-- The text of a truth value. -/
def truth (b : Bool) : Text := if b then "True" else "False"

/-- The text of a handler in a registry. -/
def label (h : Option Text) : Text := h.getD "None"

/-- The text of options, unless the interval has too many digits. -/
def optionsText? (o : Options) : Option Text :=
  (o.interval.elim (some ("None" : Text)) fun n => digits? n).map fun interval =>
    "WatchOptions(pattern=" ++ o.pattern.text.quoted ++ ", recursive=" ++ truth o.recursive ++
      ", watch_files=" ++ truth o.watchFiles ++ ", watch_directories=" ++ truth o.watchDirectories ++
      ", interval=" ++ interval ++ ", poll=" ++ truth o.poll ++ ")"

/-- The text of a registry. -/
def handlersText (r : Registry Text) : Text :=
  "WatchHandlers(added=" ++ label r.added ++ ", read=" ++ label r.read ++ ", removed=" ++ label r.removed ++
    ", changed=" ++ label r.changed ++ ")"

/-- The text of a tuple with members of these texts. -/
def tupleText : List Text → Text
  | [t] => "(" ++ t ++ ",)"
  | ts => "(" ++ Text.join ", " ts ++ ")"

mutual

/-- The text of a value inside another, unless an integer in it has too many digits. -/
def quoted? : Value → Option Text
  | .none => some "None"
  | .bool b => some (truth b)
  | .int n => digits? n
  | .fraction d => some d.text
  | .text t => some t.quoted
  | .bytes bs => some (Text.quotedBytes bs)
  | .list vs => (quotedAll? vs).map fun ts => "[" ++ Text.join ", " ts ++ "]"
  | .tuple vs => (quotedAll? vs).map tupleText
  | .mapping entries => (quotedEntries? entries).map fun ts => "\x7b" ++ Text.join ", " ts ++ "\x7d"
  | .path p => some ("PosixPath(" ++ p.text.quoted ++ ")")
  | .callable label => some label
  | .options o => optionsText? o
  | .handlers r => some (handlersText r)

/-- The texts of values inside another. -/
def quotedAll? : List Value → Option (List Text)
  | [] => some []
  | v :: vs => do return (← quoted? v) :: (← quotedAll? vs)

/-- The texts of the entries of a mapping. -/
def quotedEntries? : List (Value × Value) → Option (List Text)
  | [] => some []
  | (k, v) :: entries => do return ((← quoted? k) ++ ": " ++ (← quoted? v)) :: (← quotedEntries? entries)

end

/-- The text of a value: a text and a path as they are, anything else as inside another value. -/
def shown? : Value → Option Text
  | .text t => some t
  | .path p => some p.text
  | v => v.quoted?

theorem shown_int {n : Int} (h : n.natAbs < Numeral.bound) : (Value.int n).shown? = some (Text.ofInt n) := by
  rw [shown?, quoted?, digits?, if_pos h]
  all_goals simp

theorem shown_int_eq_none {n : Int} (h : Numeral.bound ≤ n.natAbs) : (Value.int n).shown? = Option.none := by
  rw [shown?, quoted?, digits?, if_neg (Nat.not_lt.2 h)]
  all_goals simp

end Value
end DirWatch

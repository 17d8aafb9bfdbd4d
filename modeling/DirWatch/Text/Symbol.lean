/-!
# Text of file names

A file name is a run of bytes that need not be valid UTF-8. Read as text it is a list of symbols: a Unicode character,
or a byte that belongs to no well-formed sequence. Every text of the library has this type, since names turn up in
patterns, messages and output lines alike.

* **Order of symbols** (`Symbol.code`): stray bytes rank in the low surrogates, where no character ranks.
* **Other surrogates** that stand alone, as a string of the host may hold them, come from no file name and have no
  symbol.
-/

namespace DirWatch

/-- A symbol of a file name: a Unicode character, or the byte `128 + b` of no well-formed UTF-8 sequence. -/
inductive Symbol where
  | char (c : Char)
  | stray (b : Fin 128)
  deriving DecidableEq, Repr

/-- A text of file-name symbols. -/
abbrev Text := List Symbol

/-- The rank of a symbol: a character's code point, and `U+DC80 + b` for the stray byte `128 + b`. -/
def Symbol.code : Symbol → Nat
  | .char c => c.toNat
  | .stray b => 0xDC80 + b.val

/-- The symbol that ends a line. -/
def Symbol.newline : Symbol := .char '\n'

/-- Whether a symbol is a Unicode character. -/
def Symbol.isChar : Symbol → Bool
  | .char _ => true
  | .stray _ => false

/-- Whether one text comes no later than another in the order of ranks, symbol by symbol. -/
def Text.le : Text → Text → Bool
  | [], _ => true
  | _ :: _, [] => false
  | a :: s, b :: t => if a.code = b.code then Text.le s t else a.code < b.code

/-- The text of a character string. -/
def Text.ofString (s : String) : Text := s.toList.map .char

instance : Coe String Text := ⟨Text.ofString⟩

/-- A natural number in decimal digits. -/
def Text.ofNat (n : Nat) : Text := (Nat.toDigits 10 n).map .char

/-- An integer in decimal digits, with a minus sign when negative. -/
def Text.ofInt : Int → Text
  | .ofNat n => Text.ofNat n
  | .negSucc n => .char '-' :: Text.ofNat (n + 1)

/-- The characters of a text that has no stray byte; a stray byte reads as U+FFFD. -/
def Text.toChars (t : Text) : List Char :=
  t.map fun
    | .char c => c
    | .stray _ => '\uFFFD'

/-- The string of a text; a stray byte reads as U+FFFD. -/
def Text.string (t : Text) : String := String.ofList t.toChars

/-- Texts joined by a separator. -/
def Text.join (separator : Text) : List Text → Text
  | [] => []
  | [t] => t
  | t :: rest => t ++ separator ++ Text.join separator rest

/-- A symbol that is not in the separator stands in a joined text as often as in its parts. -/
theorem Text.count_join {separator : Text} {c : Symbol} (apart : c ∉ separator) (ts : List Text) :
    (Text.join separator ts).count c = ts.flatten.count c := by
  induction ts with
  | nil => rfl
  | cons t rest ih =>
    cases rest with
    | nil => simp [Text.join]
    | cons u rest =>
      show (t ++ separator ++ Text.join separator (u :: rest)).count c = _
      rw [List.flatten_cons, List.count_append, List.count_append, List.count_append, List.count_eq_zero.2 apart, ih,
        Nat.add_zero]

/-- Whether every symbol of the text is a character. -/
def Text.isUnicode (t : Text) : Bool := t.all Symbol.isChar

end DirWatch

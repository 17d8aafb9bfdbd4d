import DirWatch.Text.Symbol

/-!
# UTF-8 with stray bytes

A byte string falls into pieces: well-formed UTF-8 sequences and maximal ill-formed subparts, each of which is the
longest beginning of a well-formed sequence at its place, or else one byte (`pieces`).

* **Reading** (`Text.ofBytes`): a sequence becomes its character and every byte of an ill-formed subpart a stray symbol,
  so that no byte is lost.
* **Rendering** (`Text.lossy`): a sequence becomes its character and every ill-formed subpart one U+FFFD.
-/

namespace DirWatch
namespace Utf8

/-- Whether a byte may continue a sequence. -/
def isContinuation (b : UInt8) : Bool := 0x80 ≤ b && b ≤ 0xBF

/-- Whether `b` may follow the first byte `a` of a three-byte sequence; overlong forms and surrogates are kept out. -/
def isTripleStart (a b : UInt8) : Bool :=
  if a == 0xE0 then 0xA0 ≤ b && b ≤ 0xBF
  else if a == 0xED then 0x80 ≤ b && b ≤ 0x9F
  else 0xE1 ≤ a && a ≤ 0xEF && isContinuation b

/-- Whether `b` may follow the first byte `a` of a four-byte sequence; overlong forms and numbers above U+10FFFF are
kept out. -/
def isQuadStart (a b : UInt8) : Bool :=
  if a == 0xF0 then 0x90 ≤ b && b ≤ 0xBF
  else if a == 0xF4 then 0x80 ≤ b && b ≤ 0x8F
  else 0xF1 ≤ a && a ≤ 0xF3 && isContinuation b

/-- The bits that a continuation byte carries. -/
def payload (b : UInt8) : Nat := b.toNat % 64

/-- What the bytes since the last boundary amount to. -/
inductive Status where
  | whole (c : Char)
  | unfinished
  | broken
  deriving DecidableEq, Repr

/-- Whether bytes are a well-formed sequence, the beginning of one, or neither. -/
def status : List UInt8 → Status
  | [a] =>
    if a < 0x80 then .whole (Char.ofNat a.toNat)
    else if 0xC2 ≤ a && a ≤ 0xF4 then .unfinished
    else .broken
  | [a, b] =>
    if 0xC2 ≤ a && a ≤ 0xDF && isContinuation b then .whole (Char.ofNat ((a.toNat % 32) * 64 + payload b))
    else if isTripleStart a b || isQuadStart a b then .unfinished
    else .broken
  | [a, b, c] =>
    if isTripleStart a b && isContinuation c then
      .whole (Char.ofNat ((a.toNat % 16) * 4096 + payload b * 64 + payload c))
    else if isQuadStart a b && isContinuation c then .unfinished
    else .broken
  | [a, b, c, d] =>
    if isQuadStart a b && isContinuation c && isContinuation d then
      .whole (Char.ofNat ((a.toNat % 8) * 262144 + payload b * 4096 + payload c * 64 + payload d))
    else .broken
  | _ => .broken

/-- A piece of a byte string. -/
inductive Piece where
  | good (c : Char)
  | bad (bytes : List UInt8)
  deriving DecidableEq, Repr

/-- The pieces of `pending ++ bytes`, where `pending` is empty or the beginning of a sequence. -/
def scan (pending : List UInt8) : List UInt8 → List Piece
  | [] => if pending = [] then [] else [.bad pending]
  | b :: rest =>
    match status (pending ++ [b]) with
    | .whole c => .good c :: scan [] rest
    | .unfinished => scan (pending ++ [b]) rest
    | .broken =>
      if pending = [] then .bad [b] :: scan [] rest
      else
        .bad pending ::
          match status [b] with
          | .whole c => .good c :: scan [] rest
          | .unfinished => scan [b] rest
          | .broken => .bad [b] :: scan [] rest

/-- The pieces of a byte string, in order. -/
def pieces (bytes : List UInt8) : List Piece := scan [] bytes

/-- The symbol of a byte outside every sequence; such a byte is never below 128. -/
def strayByte (a : UInt8) : Symbol :=
  .stray ⟨a.toNat % 128, Nat.mod_lt _ (by decide)⟩

/-- The symbols of a piece. -/
def Piece.symbols : Piece → Text
  | .good c => [.char c]
  | .bad bytes => bytes.map strayByte

/-- The replacement character, which stands for an ill-formed subpart. -/
def replacement : Char := '\uFFFD'

/-- The character that a piece is shown as. -/
def Piece.shown : Piece → Char
  | .good c => c
  | .bad _ => replacement

/-- The bytes of a symbol. -/
def encodeSymbol : Symbol → List UInt8
  | .char c => String.utf8EncodeChar c
  | .stray b => [UInt8.ofNat (128 + b.val)]

end Utf8

/-- The text of a byte string. -/
def Text.ofBytes (bytes : List UInt8) : Text := (Utf8.pieces bytes).flatMap Utf8.Piece.symbols

/-- The bytes of a text. -/
def Text.toBytes (t : Text) : List UInt8 := t.flatMap Utf8.encodeSymbol

/-- The text with every maximal ill-formed subpart of its bytes replaced by U+FFFD. -/
def Text.lossy (t : Text) : Text := (Utf8.pieces t.toBytes).map fun p => .char p.shown

end DirWatch

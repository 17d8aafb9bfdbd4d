import DirWatch.Proofs.Text.Sequence

/-!
# Reading and showing names

Where a sequence starts, a byte string is cut behind it. Elsewhere it is cut behind a maximal subpart: the longest
beginning of a sequence that stands there, or else a single byte (`Utf8.Cut`).

- **The pieces of a byte string** are the one way to cut it (`cut_iff`).
- **Reading** takes every byte of a subpart for itself. No sequence starts within one (`IsSubpart.alone`), so these are
  the bytes where none starts (`Cut.escaped`), and none of them is lost (`Escaped.toBytes`).
- **Showing** puts one U+FFFD for a whole subpart (`renders_names`).
-/

namespace DirWatch
namespace Utf8

variable {a b x : UInt8} {c d : Char} {bs rest sub p : List UInt8} {ps qs : List Piece}

/-! ## Cutting -/

/-- A sequence starts here. -/
def Starts (bs : List UInt8) : Prop := ∃ c, String.utf8EncodeChar c <+: bs

/-- Bytes that may be cut off where no sequence starts: the beginning of a sequence, or a single byte. -/
def IsPart (bs : List UInt8) : Prop := Opens bs ∨ bs.length = 1

/-- The maximal subpart at a place where no sequence starts, with what follows it. -/
structure IsSubpart (sub rest : List UInt8) : Prop where
  stray : ¬ Starts (sub ++ rest)
  part : IsPart sub
  longest : ∀ p, p <+: sub ++ rest → IsPart p → p.length ≤ sub.length

/-- How a byte string is cut into sequences and maximal subparts of what is ill-formed. -/
inductive Cut : List UInt8 → List Piece → Prop where
  | nil : Cut [] []
  | good (c : Char) {rest : List UInt8} {ps : List Piece} (h : Cut rest ps) :
      Cut (String.utf8EncodeChar c ++ rest) (.good c :: ps)
  | bad {sub rest : List UInt8} {ps : List Piece} (ill : IsSubpart sub rest) (h : Cut rest ps) :
      Cut (sub ++ rest) (.bad sub :: ps)

theorem IsPart.ne_nil (h : IsPart bs) : bs ≠ [] := by
  rcases h with h | h
  · exact h.1
  · rintro rfl
    cases h

theorem opens_encode (c : Char) : Opens (String.utf8EncodeChar c) :=
  ⟨String.utf8EncodeChar_ne_nil, c, List.prefix_refl _⟩

/-- No beginning of a sequence reaches beyond bytes that do not go on with the next one. -/
theorem length_le_of_stuck (stuck : ∀ x r, rest = x :: r → status (sub ++ [x]) = .broken)
    (front : p <+: sub ++ rest) (opens : Opens p) : p.length ≤ sub.length := by
  refine Nat.le_of_not_lt fun long => ?_
  obtain ⟨q, rfl⟩ := List.prefix_of_prefix_length_le (List.prefix_append sub rest) front (Nat.le_of_lt long)
  obtain ⟨r, whole⟩ := front
  rw [List.append_assoc, List.append_cancel_left_eq] at whole
  cases q with
  | nil => simp at long
  | cons x q =>
    obtain ⟨-, c, front⟩ := opens
    have further : Opens (sub ++ [x]) :=
      ⟨by simp, c, (List.prefix_append (sub ++ [x]) q).trans (by rwa [← List.append_cons])⟩
    exact opens_iff.1 further (stuck x (q ++ r) whole.symm)

/-- Bytes that do not go on with the next one are a maximal subpart, if they are unfinished or a single byte. -/
theorem isSubpart_of_stuck (part : status sub = .unfinished ∨ sub.length = 1 ∧ status sub = .broken)
    (stuck : ∀ x r, rest = x :: r → status (sub ++ [x]) = .broken) : IsSubpart sub rest := by
  have isPart : IsPart sub := by
    rcases part with unfinished | single
    · exact .inl (opens_iff.2 (unfinished ▸ Status.noConfusion))
    · exact .inr single.1
  refine ⟨?_, isPart, fun p front part => ?_⟩
  · rintro ⟨c, front⟩
    have short := length_le_of_stuck stuck front (opens_encode c)
    obtain ⟨r, rfl⟩ := List.prefix_of_prefix_length_le front (List.prefix_append sub rest) short
    by_cases last : r = []
    · rw [last, List.append_nil, status_encode] at part
      rcases part with part | ⟨-, part⟩ <;> cases part
    · rcases part with unfinished | ⟨single, -⟩
      · have goes : status (String.utf8EncodeChar c ++ r) ≠ .broken := by rw [unfinished]; exact Status.noConfusion
        have told := unfinished_of_append String.utf8EncodeChar_ne_nil last goes
        rw [status_encode] at told
        cases told
      · have first := List.length_pos_iff.2 (String.utf8EncodeChar_ne_nil (c := c))
        have second := List.length_pos_iff.2 last
        rw [List.length_append] at single
        omega
  · rcases part with opens | single
    · exact length_le_of_stuck stuck front opens
    · rw [single]
      exact List.length_pos_iff.2 isPart.ne_nil

/-- A byte that no sequence begins with is a maximal subpart. -/
theorem isSubpart_singleton (told : status [b] = .broken) : IsSubpart [b] rest :=
  isSubpart_of_stuck (.inr ⟨rfl, told⟩) fun x _ _ => Decidable.byContradiction fun goes => by
    rw [unfinished_of_concat (List.cons_ne_nil b []) goes] at told
    cases told

/-- What is scanned behind the beginning of a sequence cuts all of it. -/
theorem cut_scan (ready : bs = [] ∨ status bs = .unfinished) (rest : List UInt8) : Cut (bs ++ rest) (scan bs rest) := by
  induction rest generalizing bs with
  | nil =>
    unfold scan
    split
    · rename_i empty
      rw [empty]
      exact .nil
    · rename_i filled
      exact .bad (isSubpart_of_stuck (.inl (ready.resolve_left filled)) fun _ _ e => by cases e) .nil
  | cons b rest ih =>
    have goes_on (bs : List UInt8) (goes : status (bs ++ [b]) ≠ .broken) :
        Cut (bs ++ b :: rest) (scan bs (b :: rest)) := by
      rw [List.append_cons]
      unfold scan
      cases told : status (bs ++ [b]) with
      | whole c => exact status_eq_whole_iff.1 told ▸ .good c (ih (.inl rfl))
      | unfinished => exact ih (.inr told)
      | broken => exact absurd told goes
    have fresh : Cut (b :: rest) (scan [] (b :: rest)) := by
      by_cases told : status [b] = .broken
      · have alone : scan [] (b :: rest) = .bad [b] :: scan [] rest := by
          conv => lhs; unfold scan
          simp only [List.nil_append, told, if_true]
        rw [alone]
        exact .bad (isSubpart_singleton told) (ih (.inl rfl))
      · exact goes_on [] told
    by_cases empty : bs = []
    · rwa [empty]
    by_cases told : status (bs ++ [b]) = .broken
    · -- The beginning is cut off, and `b` is looked at again.
      have again : scan bs (b :: rest) = .bad bs :: scan [] (b :: rest) := by
        conv => lhs; unfold scan
        conv => rhs; rhs; unfold scan
        simp only [told, if_neg empty, List.nil_append, if_true]
      rw [again]
      refine .bad (isSubpart_of_stuck (.inl (ready.resolve_left empty)) fun x r e => ?_) fresh
      cases e
      exact told
    · exact goes_on bs told

/-! ## One way to cut -/

theorem Cut.of_nil (h : Cut [] ps) : ps = [] := by
  generalize empty : [] = bs at h
  cases h with
  | nil => rfl
  | good c h => exact absurd (List.append_eq_nil_iff.1 empty.symm).1 String.utf8EncodeChar_ne_nil
  | bad ill h => exact absurd (List.append_eq_nil_iff.1 empty.symm).1 ill.part.ne_nil

theorem Cut.of_good (h : Cut (String.utf8EncodeChar c ++ rest) ps) : ∃ qs, ps = .good c :: qs ∧ Cut rest qs := by
  generalize whole : String.utf8EncodeChar c ++ rest = bs at h
  cases h with
  | nil => exact absurd (List.append_eq_nil_iff.1 whole).1 String.utf8EncodeChar_ne_nil
  | good d h =>
    obtain ⟨rfl, rfl⟩ := encode_append_inj whole
    exact ⟨_, rfl, h⟩
  | bad ill h => exact absurd ⟨c, whole ▸ List.prefix_append ..⟩ ill.stray

theorem Cut.of_bad (ill : IsSubpart sub rest) (h : Cut (sub ++ rest) ps) :
    ∃ qs, ps = .bad sub :: qs ∧ Cut rest qs := by
  generalize whole : sub ++ rest = bs at h
  cases h with
  | nil => exact absurd (List.append_eq_nil_iff.1 whole).1 ill.part.ne_nil
  | good c h => exact absurd ⟨c, whole ▸ List.prefix_append ..⟩ ill.stray
  | bad ill' h =>
    have length := Nat.le_antisymm (ill'.longest _ (whole ▸ List.prefix_append ..) ill.part)
      (ill.longest _ (whole ▸ List.prefix_append ..) ill'.part)
    obtain ⟨rfl, rfl⟩ := List.append_inj whole length
    exact ⟨_, rfl, h⟩

theorem Cut.unique (h : Cut bs ps) (h' : Cut bs qs) : ps = qs := by
  induction h generalizing qs with
  | nil => exact h'.of_nil.symm
  | good c h ih =>
    obtain ⟨rs, rfl, others⟩ := h'.of_good
    rw [ih others]
  | bad ill h ih =>
    obtain ⟨rs, rfl, others⟩ := h'.of_bad ill
    rw [ih others]

/-- **The pieces of a byte string are the one way to cut it.** -/
theorem cut_iff : Cut bs ps ↔ pieces bs = ps := by
  have cut : Cut bs (pieces bs) := cut_scan (.inl rfl) bs
  exact ⟨cut.unique, fun e => e ▸ cut⟩

/-- The sequences of characters are cut into those characters. -/
theorem cut_encode (cs : List Char) : Cut (cs.flatMap String.utf8EncodeChar) (cs.map .good) := by
  induction cs with
  | nil => exact .nil
  | cons c cs ih =>
    rw [List.flatMap_cons]
    exact .good c ih

theorem pieces_encode (cs : List Char) : pieces (cs.flatMap String.utf8EncodeChar) = cs.map .good :=
  cut_iff.1 (cut_encode cs)

/-! ## Reading -/

/-- How a byte string is read without loss: a sequence as its character, and every byte where no sequence starts as the
symbol that ranks by the byte from U+DC00 on. -/
inductive Escaped : List UInt8 → Text → Prop where
  | nil : Escaped [] []
  | sequence (c : Char) {rest : List UInt8} {t : Text} (h : Escaped rest t) :
      Escaped (String.utf8EncodeChar c ++ rest) (.char c :: t)
  | stray {a : UInt8} {rest : List UInt8} {s : Symbol} {t : Text} (alone : ¬ Starts (a :: rest))
      (ranks : s.code = 0xDC00 + a.toNat) (h : Escaped rest t) : Escaped (a :: rest) (s :: t)

variable {s : Symbol} {t : Text}

/-- A byte below 128 is a sequence. -/
theorem le_of_stray (alone : ¬ Starts (a :: rest)) : 128 ≤ a.toNat := by
  refine Nat.le_of_not_lt fun low => alone ⟨Char.ofNat a.toNat, ?_⟩
  have told : status [a] = .whole (Char.ofNat a.toNat) := if_pos (UInt8.lt_iff_toNat_lt.2 low)
  rw [status_eq_whole_iff.1 told]
  exact List.prefix_append [a] rest

theorem code_strayByte (alone : ¬ Starts (a :: rest)) : (strayByte a).code = 0xDC00 + a.toNat := by
  have high := le_of_stray alone
  have byte := a.toNat_lt
  simp only [strayByte, Symbol.code]
  omega

/-- A sequence starts with a first byte only. -/
theorem isFirst_of_starts (h : Starts (x :: rest)) : x.IsUTF8FirstByte := by
  obtain ⟨c, front⟩ := h
  have first := front.getElem (List.length_pos_iff.2 (String.utf8EncodeChar_ne_nil (c := c)))
  rw [List.getElem_cons_zero] at first
  exact first ▸ UInt8.isUTF8FirstByte_getElem_utf8EncodeChar.2 rfl

/-- Within a sequence there are no first bytes, so that no sequence starts there. -/
theorem not_starts_of_mem (opens : Opens (a :: bs)) (h : x ∈ bs) : ¬ Starts (x :: rest) := by
  intro starts
  obtain ⟨-, c, front⟩ := opens
  obtain ⟨i, short, rfl⟩ := List.getElem_of_mem h
  have later := front.getElem (i := i + 1) (Nat.succ_lt_succ short)
  rw [List.getElem_cons_succ] at later
  have first := isFirst_of_starts starts
  rw [later, UInt8.isUTF8FirstByte_getElem_utf8EncodeChar] at first
  cases first

/-- Bytes where no sequence starts are read one by one. -/
theorem escaped_append (alone : ∀ a later, a :: later <:+ bs → ¬ Starts (a :: later ++ rest)) (h : Escaped rest t) :
    Escaped (bs ++ rest) (bs.map strayByte ++ t) := by
  induction bs with
  | nil => exact h
  | cons a bs ih =>
    have first := alone a bs (List.suffix_refl _)
    have others (b later) (last : b :: later <:+ bs) := alone b later (last.trans (List.suffix_cons a bs))
    exact .stray first (code_strayByte first) (ih others)

/-- The bytes of a maximal subpart are read one by one. -/
theorem IsSubpart.alone (h : IsSubpart sub rest) {later : List UInt8} (last : a :: later <:+ sub) :
    ¬ Starts (a :: later ++ rest) := by
  obtain ⟨before, rfl⟩ := last
  cases before with
  | nil => exact h.stray
  | cons b before =>
    rcases h.part with opens | single
    · exact not_starts_of_mem opens (List.mem_append_right before List.mem_cons_self)
    · simp at single

theorem Cut.escaped (h : Cut bs ps) : Escaped bs (ps.flatMap Piece.symbols) := by
  induction h with
  | nil => exact .nil
  | good c h ih => exact .sequence c ih
  | bad ill h ih => exact escaped_append (fun _ _ last => ill.alone last) ih

/-- **No byte is lost in reading.** -/
theorem Escaped.toBytes (h : Escaped bs t) : t.toBytes = bs := by
  induction h with
  | nil => rfl
  | sequence c h ih =>
    rw [Text.toBytes, List.flatMap_cons, ← Text.toBytes, ih]
    rfl
  | @stray a rest s t alone ranks h ih =>
    have own : encodeSymbol s = [a] := by
      cases s with
      | char c =>
        have range := toNat_range c
        have byte := a.toNat_lt
        simp only [Symbol.code] at ranks
        omega
      | stray b =>
        simp only [Symbol.code] at ranks
        have number : 128 + b.val = a.toNat := by omega
        rw [encodeSymbol, number, UInt8.ofNat_toNat]
    rw [Text.toBytes, List.flatMap_cons, ← Text.toBytes, ih, own]
    rfl

end Utf8

/-! ## Lossy texts -/

namespace Text

open Utf8

variable {t : Text}

/-- The text of some characters. -/
def ofChars (cs : List Char) : Text := cs.map .char

theorem toBytes_ofChars (cs : List Char) : (ofChars cs).toBytes = cs.flatMap String.utf8EncodeChar :=
  List.flatMap_map ..

theorem ofBytes_encode (cs : List Char) : ofBytes (cs.flatMap String.utf8EncodeChar) = ofChars cs := by
  rw [ofBytes, pieces_encode, List.flatMap_map, ofChars, List.map_eq_flatMap]
  rfl

/-- The lossy text has one character a piece. -/
theorem lossy_eq (t : Text) : t.lossy = ofChars ((pieces t.toBytes).map Piece.shown) := (List.map_map ..).symm

/-- A text of characters is its own lossy text. -/
theorem lossy_ofChars (cs : List Char) : (ofChars cs).lossy = ofChars cs := by
  rw [lossy_eq, toBytes_ofChars, pieces_encode, List.map_map]
  exact congrArg ofChars (List.map_id _)

theorem lossy_lossy (t : Text) : t.lossy.lossy = t.lossy := by
  rw [lossy_eq t]
  exact lossy_ofChars _

theorem toBytes_ofBytes (bytes : List UInt8) : (ofBytes bytes).toBytes = bytes := (cut_iff.2 rfl).escaped.toBytes

/-- A text is its own lossy text just when its bytes are UTF-8. -/
theorem lossy_ofBytes_eq_iff (bytes : List UInt8) :
    (ofBytes bytes).lossy = ofBytes bytes ↔ bytes.toByteArray.IsValidUTF8 := by
  constructor
  · intro same
    rw [lossy_eq] at same
    have whole := toBytes_ofBytes bytes
    rw [← same, toBytes_ofChars] at whole
    exact ⟨_, congrArg List.toByteArray whole.symm⟩
  · rintro ⟨cs, whole⟩
    rw [List.utf8Encode, List.toByteArray_inj] at whole
    rw [whole, ofBytes_encode, lossy_ofChars]

theorem code_lossy {x : Symbol} (h : x ∈ t.lossy) : x.code < 0xD800 ∨ 0xDFFF < x.code := by
  obtain ⟨p, -, rfl⟩ := List.mem_map.1 h
  exact (toNat_range p.shown).imp_right And.left

/-- **Names are read without loss and shown as characters.** What is read from bytes gives them back. Its lossy text has
no surrogates, and is the text itself just when the bytes are UTF-8. In general it has the character of every sequence,
in order, and one U+FFFD for each maximal subpart of what is ill-formed; and a lossy text stays as it is. -/
theorem renders_names (bytes : List UInt8) :
    Escaped bytes (ofBytes bytes) ∧ (ofBytes bytes).toBytes = bytes ∧
      (∀ x ∈ (ofBytes bytes).lossy, x.code < 0xD800 ∨ 0xDFFF < x.code) ∧
      ((ofBytes bytes).lossy = ofBytes bytes ↔ bytes.toByteArray.IsValidUTF8) ∧
      (∃ ps, Cut bytes ps ∧ (∀ qs, Cut bytes qs → qs = ps) ∧
        (ofBytes bytes).lossy = ps.map fun
          | .good c => .char c
          | .bad _ => .char '\uFFFD') ∧
      ∀ t : Text, t.lossy.lossy = t.lossy := by
  have cut : Cut bytes (pieces bytes) := cut_iff.2 rfl
  refine ⟨cut.escaped, toBytes_ofBytes bytes, fun x => code_lossy, lossy_ofBytes_eq_iff bytes, ?_, lossy_lossy⟩
  refine ⟨pieces bytes, cut, fun qs other => other.unique cut, ?_⟩
  rw [lossy, toBytes_ofBytes]
  exact List.map_congr_left fun p _ => by cases p <;> rfl

/-- A sequence that ends too early is one subpart, an overlong form has one for each byte. -/
example : (ofBytes [0x61, 0xF0, 0x9F, 0x98, 0x62, 0xC0, 0xAF]).lossy = "a\uFFFDb\uFFFD\uFFFD" := by decide

end Text
end DirWatch

import DirWatch.Text.Utf8

/-!
# Sequences and their beginnings

The bytes of a character are its sequence, `String.utf8EncodeChar`. Reading tells sequences and their beginnings by the
ranges of the bytes (`Utf8.status`).

- **Sequences** are the bytes that are told to be whole (`status_eq_whole_iff`). What overlong forms, surrogates or
  numbers above U+10FFFF would be written with are not.
- **Beginnings** are the bytes that are not told to be broken (`opens_iff`). So no sequence is the beginning of another
  (`encode_append_inj`).
-/

namespace DirWatch
namespace Utf8

variable {a b x : UInt8} {c d : Char} {bs rest rest' : List UInt8}

/-! ## Ranges of bytes -/

theorem isContinuation_iff : isContinuation b = true ↔ 0x80 ≤ b.toNat ∧ b.toNat ≤ 0xBF := by
  simp [isContinuation, UInt8.le_iff_toNat_le]

theorem isTripleStart_iff : isTripleStart a b = true ↔
    (0xE0 ≤ a.toNat ∧ a.toNat ≤ 0xEF) ∧ (0x80 ≤ b.toNat ∧ b.toNat ≤ 0xBF) ∧
      (a.toNat = 0xE0 → 0xA0 ≤ b.toNat) ∧ (a.toNat = 0xED → b.toNat ≤ 0x9F) := by
  unfold isTripleStart
  simp only [isContinuation, beq_iff_eq, ← UInt8.toNat_inj, UInt8.reduceToNat]
  repeat' split
  all_goals
    simp only [UInt8.le_iff_toNat_le, UInt8.reduceToNat, Bool.and_eq_true, decide_eq_true_eq]
    omega

theorem isQuadStart_iff : isQuadStart a b = true ↔
    (0xF0 ≤ a.toNat ∧ a.toNat ≤ 0xF4) ∧ (0x80 ≤ b.toNat ∧ b.toNat ≤ 0xBF) ∧
      (a.toNat = 0xF0 → 0x90 ≤ b.toNat) ∧ (a.toNat = 0xF4 → b.toNat ≤ 0x8F) := by
  unfold isQuadStart
  simp only [isContinuation, beq_iff_eq, ← UInt8.toNat_inj, UInt8.reduceToNat]
  repeat' split
  all_goals
    simp only [UInt8.le_iff_toNat_le, UInt8.reduceToNat, Bool.and_eq_true, decide_eq_true_eq]
    omega

/-! ## Whole sequences -/

theorem toNat_range (c : Char) : c.toNat < 0xD800 ∨ 0xDFFF < c.toNat ∧ c.toNat < 0x110000 := c.valid

/-- Bytes are told to be the character of a number where they are in range, and the number is the character's. -/
theorem decoded_iff {p : Prop} [Decidable p] {n : Nat} {other : Status} (valid : p → n.isValidChar)
    (differs : other ≠ .whole c) :
    (if p then .whole (Char.ofNat n) else other) = .whole c ↔ p ∧ c.toNat = n := by
  by_cases h : p
  · rw [if_pos h, Status.whole.injEq]
    constructor
    · rintro rfl
      refine ⟨h, ?_⟩
      rw [Char.ofNat, dif_pos (valid h)]
      rfl
    · rintro ⟨-, rfl⟩
      exact Char.ofNat_toNat c
  · rw [if_neg h]
    exact iff_of_false differs fun both => h both.1

/-- The bytes of the sequence of a character are told by the range of its number. -/
theorem encode_eq_iff : String.utf8EncodeChar c = bs ↔
    let v := c.toNat
    (if v ≤ 0x7F then [v]
      else if v ≤ 0x7FF then [0xC0 + v / 64, 0x80 + v % 64]
      else if v ≤ 0xFFFF then [0xE0 + v / 4096, 0x80 + v / 64 % 64, 0x80 + v % 64]
      else [0xF0 + v / 262144, 0x80 + v / 4096 % 64, 0x80 + v / 64 % 64, 0x80 + v % 64]) = bs.map UInt8.toNat := by
  have range := toNat_range c
  rw [← List.map_inj_right (f := UInt8.toNat) fun _ _ => UInt8.toNat_inj.1]
  refine iff_of_eq (congrArg (· = bs.map UInt8.toNat) ?_)
  unfold String.utf8EncodeChar
  rw [← Char.toNat]
  generalize c.toNat = v at *
  dsimp only
  repeat' split
  all_goals
    simp
    omega

/-- **Bytes are told to be a whole sequence just when they are the sequence of the character.** -/
theorem status_eq_whole_iff : ∀ {bs : List UInt8}, status bs = .whole c ↔ String.utf8EncodeChar c = bs
  | [] => by simp [status]
  | [a] => by
    have range := toNat_range c
    have byte := a.toNat_lt
    rw [status, decoded_iff, encode_eq_iff]
    · simp only [UInt8.lt_iff_toNat_lt, UInt8.reduceToNat]
      repeat' split
      all_goals simp; omega
    · simp only [UInt8.lt_iff_toNat_lt, UInt8.reduceToNat, Nat.isValidChar]
      omega
    · split <;> simp
  | [a, b] => by
    have range := toNat_range c
    have byte := a.toNat_lt
    rw [status, decoded_iff, encode_eq_iff]
    · simp only [UInt8.le_iff_toNat_le, UInt8.reduceToNat, isContinuation_iff, payload, Bool.and_eq_true,
        decide_eq_true_eq]
      repeat' split
      all_goals simp; omega
    · simp only [UInt8.le_iff_toNat_le, UInt8.reduceToNat, isContinuation_iff, payload, Bool.and_eq_true,
        decide_eq_true_eq, Nat.isValidChar]
      omega
    · split <;> simp
  | [a, b, x] => by
    have range := toNat_range c
    have byte := a.toNat_lt
    rw [status, decoded_iff, encode_eq_iff]
    · simp only [isContinuation_iff, isTripleStart_iff, payload, Bool.and_eq_true]
      repeat' split
      all_goals simp; omega
    · simp only [isContinuation_iff, isTripleStart_iff, payload, Bool.and_eq_true, Nat.isValidChar]
      omega
    · split <;> simp
  | [a, b, x, y] => by
    have range := toNat_range c
    have byte := a.toNat_lt
    rw [status, decoded_iff, encode_eq_iff]
    · simp only [isContinuation_iff, isQuadStart_iff, payload, Bool.and_eq_true]
      repeat' split
      all_goals simp; omega
    · simp only [isContinuation_iff, isQuadStart_iff, payload, Bool.and_eq_true, Nat.isValidChar]
      omega
    · simp
  | a :: b :: x :: y :: z :: rest => by
    refine iff_of_false (by simp [status]) fun e => ?_
    have length : c.utf8Size = rest.length + 5 := by rw [← String.length_utf8EncodeChar, e]; rfl
    have short := c.utf8Size_le_four
    omega

theorem status_encode (c : Char) : status (String.utf8EncodeChar c) = .whole c := status_eq_whole_iff.2 rfl

/-! ## Beginnings -/

theorem status_one_iff : status [a] = .unfinished ↔ 0xC2 ≤ a.toNat ∧ a.toNat ≤ 0xF4 := by
  simp only [status]
  repeat' split
  all_goals simp_all [UInt8.lt_iff_toNat_lt, UInt8.le_iff_toNat_le]
  all_goals omega

theorem status_two_iff : status [a, b] = .unfinished ↔ isTripleStart a b = true ∨ isQuadStart a b = true := by
  simp only [status]
  repeat' split
  all_goals simp_all [UInt8.le_iff_toNat_le, isTripleStart_iff, isQuadStart_iff]
  all_goals omega

theorem status_three_iff : status [a, b, x] = .unfinished ↔ isQuadStart a b = true ∧ isContinuation x = true := by
  simp only [status]
  repeat' split
  all_goals simp_all [isTripleStart_iff, isQuadStart_iff]
  all_goals omega

theorem length_of_unfinished : ∀ {bs : List UInt8}, status bs = .unfinished → bs.length < 4
  | [], _ => by simp
  | [_], _ => by simp
  | [_, _], _ => by simp
  | [_, _, _], _ => by simp
  | [_, _, _, _], h => by
    simp only [status] at h
    split at h <;> cases h
  | _ :: _ :: _ :: _ :: _ :: _, h => by cases h

/-- The byte behind the first one is a continuation byte, and in a narrower range behind four of them. -/
theorem second_iff : status [a, b] ≠ .broken ↔ status [a] = .unfinished ∧ (0x80 ≤ b.toNat ∧ b.toNat ≤ 0xBF) ∧
    ((a.toNat = 0xE0 → 0xA0 ≤ b.toNat) ∧ (a.toNat = 0xED → b.toNat ≤ 0x9F)) ∧
    (a.toNat = 0xF0 → 0x90 ≤ b.toNat) ∧ (a.toNat = 0xF4 → b.toNat ≤ 0x8F) := by
  rw [status_one_iff]
  simp only [status]
  repeat' split
  all_goals simp_all [UInt8.le_iff_toNat_le, isContinuation_iff, isTripleStart_iff, isQuadStart_iff]
  all_goals omega

/-- Further bytes are continuation bytes, in their whole range. -/
theorem further_iff : ∀ {bs : List UInt8}, 2 ≤ bs.length →
    (status (bs ++ [x]) ≠ .broken ↔ status bs = .unfinished ∧ isContinuation x = true)
  | [a, b], _ => by
    rw [status_two_iff]
    simp only [List.cons_append, List.nil_append, status]
    grind
  | [a, b, y], _ => by
    rw [status_three_iff]
    simp only [List.cons_append, List.nil_append, status]
    grind
  | a :: b :: y :: z :: rest, _ =>
    iff_of_false (fun goes => goes (by cases rest <;> rfl)) fun h => absurd (length_of_unfinished h.1) (by simp)

/-- What goes on with a byte is unfinished without it. -/
theorem unfinished_of_concat : ∀ {bs : List UInt8}, bs ≠ [] → status (bs ++ [x]) ≠ .broken → status bs = .unfinished
  | [], filled, _ => absurd rfl filled
  | [_], _, goes => (second_iff.1 goes).1
  | _ :: _ :: _, _, goes => ((further_iff (by simp)).1 goes).1

/-- What is unfinished goes on with some byte. -/
theorem exists_next : ∀ {bs : List UInt8}, status bs = .unfinished → ∃ x, status (bs ++ [x]) ≠ .broken
  | [], h => by cases h
  | [a], h => by
    by_cases low : a.toNat = 0xE0
    · exact ⟨0xA0, second_iff.2 ⟨h, by simp only [UInt8.reduceToNat]; omega⟩⟩
    by_cases high : a.toNat = 0xF0
    · exact ⟨0x90, second_iff.2 ⟨h, by simp only [UInt8.reduceToNat]; omega⟩⟩
    · exact ⟨0x80, second_iff.2 ⟨h, by simp only [UInt8.reduceToNat]; omega⟩⟩
  | _ :: _ :: _, h => ⟨0x80, (further_iff (by simp)).2 ⟨h, rfl⟩⟩

/-- What goes on with some bytes is unfinished without them. -/
theorem unfinished_of_append (filled : bs ≠ []) (more : rest ≠ []) (goes : status (bs ++ rest) ≠ .broken) :
    status bs = .unfinished := by
  induction rest generalizing bs with
  | nil => exact absurd rfl more
  | cons x rest ih =>
    rw [List.append_cons] at goes
    refine unfinished_of_concat filled (x := x) ?_
    by_cases last : rest = []
    · rwa [last, List.append_nil] at goes
    · rw [ih (List.append_ne_nil_of_right_ne_nil bs (List.cons_ne_nil x [])) last goes]
      exact Status.noConfusion

/-- What is not broken is completed to a sequence. -/
theorem exists_sequence {bs : List UInt8} (h : status bs ≠ .broken) : ∃ c, bs <+: String.utf8EncodeChar c := by
  cases told : status bs with
  | whole c => exact ⟨c, status_eq_whole_iff.1 told ▸ List.prefix_refl _⟩
  | unfinished =>
    have room := length_of_unfinished told
    obtain ⟨x, goes⟩ := exists_next told
    obtain ⟨c, front⟩ := exists_sequence goes
    exact ⟨c, (List.prefix_append bs [x]).trans front⟩
  | broken => exact absurd told h
termination_by 4 - bs.length
decreasing_by
  rw [List.length_append, List.length_singleton]
  omega

/-- Bytes that a sequence begins with. -/
def Opens (bs : List UInt8) : Prop := bs ≠ [] ∧ ∃ c, bs <+: String.utf8EncodeChar c

/-- **Bytes are told to be broken just when no sequence begins with them.** -/
theorem opens_iff : Opens bs ↔ status bs ≠ .broken := by
  constructor
  · rintro ⟨filled, c, rest, whole⟩
    have told : status (bs ++ rest) = .whole c := status_eq_whole_iff.2 whole.symm
    by_cases more : rest = []
    · rw [more, List.append_nil] at told
      rw [told]
      exact Status.noConfusion
    · rw [unfinished_of_append filled more (by rw [told]; exact Status.noConfusion)]
      exact Status.noConfusion
  · intro h
    exact ⟨fun empty => h (by rw [empty]; rfl), exists_sequence h⟩

/-- The sequence that stands in front of other bytes can be told. -/
theorem encode_append_inj (h : String.utf8EncodeChar c ++ rest = String.utf8EncodeChar d ++ rest') :
    c = d ∧ rest = rest' := by
  have first : some c = some d := by
    rw [← ByteArray.utf8DecodeChar?_utf8EncodeChar_append (b := rest.toByteArray) (c := c), ← List.toByteArray_append,
      h, List.toByteArray_append, ByteArray.utf8DecodeChar?_utf8EncodeChar_append]
  cases first
  exact ⟨rfl, List.append_cancel_left h⟩

end Utf8
end DirWatch

import DirWatch.Text.Codes

/-!
# Texts without codes

What is taken out of a text is whole codes, from left to right (`Codes.induction_codes`). They hold no newline, so the
text has as many lines without them (`Text.count_withoutCodes`), and the text stays as it is just when no code
stands in it (`Text.withoutCodes_eq_self_iff`).

A symbol that no code holds parts a text: codes stand before it or behind it, and never across. So a text that is put
together with such symbols in between loses what its parts lose (`Text.withoutCodes_append_cons`,
`Text.withoutCodes_join`).
-/

namespace DirWatch
namespace Codes

/-- The texts that are codes. -/
def IsCode (w : Text) : Prop := ∃ (parameters : Text) (letter : Symbol),
  w = escape :: .char '[' :: (parameters ++ [letter]) ∧ (∀ p ∈ parameters, isParameter p = true) ∧
    isLetter letter = true

/-- A symbol that no code holds. -/
def Foreign (c : Symbol) : Prop := c ≠ escape ∧ c ≠ .char '[' ∧ isParameter c = false ∧ isLetter c = false

instance (c : Symbol) : Decidable (Foreign c) := inferInstanceAs (Decidable (_ ∧ _))

variable {c s : Symbol} {t rest w : Text} {n : Nat}

theorem Foreign.not_mem (foreign : Foreign c) (code : IsCode w) : c ∉ w := by
  obtain ⟨parameters, letter, rfl, all, last⟩ := code
  obtain ⟨escape, bracket, parameter, other⟩ := foreign
  simp only [List.mem_cons, List.mem_append, List.not_mem_nil, or_false, not_or]
  refine ⟨escape, bracket, fun inside => ?_, ?_⟩
  · cases parameter.symm.trans (all c inside)
  · rintro rfl
    cases other.symm.trans last

/-- A code in front of such a symbol ends before it. -/
theorem Foreign.prefix_of_prefix (foreign : Foreign c) (code : IsCode w) (front : w <+: t ++ c :: rest) : w <+: t := by
  obtain ⟨back, e⟩ := front
  obtain ⟨later, rfl, -⟩ | ⟨later, rfl, rest⟩ := List.append_eq_append_iff.1 e
  · exact List.prefix_append ..
  · cases later with
    | nil => exact (List.append_nil t).symm ▸ List.prefix_refl _
    | cons d later =>
      obtain rfl := (List.cons.inj rest).1
      exact absurd (List.mem_append_right _ List.mem_cons_self) (foreign.not_mem code)

theorem IsCode.not_prefix_nil (code : IsCode w) : ¬ w <+: [] := by
  obtain ⟨parameters, letter, rfl, -⟩ := code
  simp

theorem IsCode.length_pos (code : IsCode w) : 0 < w.length := by
  obtain ⟨parameters, letter, rfl, -⟩ := code
  exact Nat.succ_pos _

/-! ## The code in front -/

theorem not_parameter_of_letter (h : isLetter s = true) : isParameter s = false := by
  cases s with
  | stray b => rfl
  | char c =>
    have alpha : 65 ≤ c.val ∧ c.val ≤ 90 ∨ 97 ≤ c.val ∧ c.val ≤ 122 := by
      have cases : (decide (c.val ≥ 65 ∧ c.val ≤ 90) || (decide (c.val ≥ 97) && decide (c.val ≤ 122))) = true := h
      simpa using cases
    have other {d : Char} (low : d.val < 65) : c ≠ d := by
      rintro rfl
      grind
    have semicolon := @other ';' (by decide)
    have question := @other '?' (by decide)
    have digit : c.isDigit = false := by
      rw [Char.isDigit, Bool.and_eq_false_iff, decide_eq_false_iff_not, decide_eq_false_iff_not]
      grind
    simp [isParameter, digit, semicolon, question]

/-- Parameters and a letter are read as such. -/
theorem dropWhile_parameters {parameters : Text} {letter : Symbol} (all : ∀ p ∈ parameters, isParameter p = true)
    (last : isLetter letter = true) (rest : Text) :
    (parameters ++ letter :: rest).dropWhile isParameter = letter :: rest ∧
      (parameters ++ letter :: rest).takeWhile isParameter = parameters := by
  have other := not_parameter_of_letter last
  rw [List.dropWhile_append_of_pos all, List.takeWhile_append_of_pos all,
    List.dropWhile_cons_of_neg (by simp [other]), List.takeWhile_cons_of_neg (by simp [other]), List.append_nil]
  exact ⟨rfl, rfl⟩

/-- A text begins with a code, or with none. -/
theorem length_eq_some_iff : length? t = some n ↔ ∃ w rest, IsCode w ∧ t = w ++ rest ∧ n = w.length := by
  constructor
  · intro h
    unfold length? at h
    split at h
    · rename_i s bracket rest
      split at h
      · rename_i opened
        obtain ⟨rfl, rfl⟩ := opened
        split at h
        · cases h
        · rename_i letter later behind
          split at h
          · rename_i last
            cases h
            refine ⟨_, later, ⟨rest.takeWhile isParameter, letter, rfl, fun p hp => ?_, last⟩, ?_, by simp⟩
            · exact List.all_eq_true.1 List.all_takeWhile p hp
            · have parts := rest.takeWhile_append_dropWhile (p := isParameter)
              rw [behind] at parts
              simp [parts]
          · cases h
      · cases h
    · cases h
  · rintro ⟨w, rest, ⟨parameters, letter, rfl, all, last⟩, rfl, rfl⟩
    obtain ⟨drop, take⟩ := dropWhile_parameters all last rest
    simp [length?, drop, take, last]

/-- No code stands in front of a text. -/
theorem length_eq_none_iff : length? t = none ↔ ∀ w, IsCode w → ¬ w <+: t := by
  rw [Option.eq_none_iff_forall_ne_some]
  constructor
  · rintro none w code ⟨rest, rfl⟩
    exact none w.length (length_eq_some_iff.2 ⟨w, rest, code, rfl, rfl⟩)
  · intro none n h
    obtain ⟨w, rest, code, rfl, -⟩ := length_eq_some_iff.1 h
    exact none w code (List.prefix_append ..)

/-! ## From left to right -/

theorem strip_eq_strip_drop (n : Nat) (t : Text) : strip n t = strip 0 (t.drop n) := by
  induction n generalizing t with
  | zero => rfl
  | succ n ih =>
    cases t with
    | nil => rfl
    | cons s rest => exact ih rest

theorem withoutCodes_cons (none : ∀ w, IsCode w → ¬ w <+: s :: rest) :
    Text.withoutCodes (s :: rest) = s :: rest.withoutCodes := by
  rw [Text.withoutCodes, strip, length_eq_none_iff.2 none]
  rfl

theorem withoutCodes_code_append (code : IsCode w) (rest : Text) :
    Text.withoutCodes (w ++ rest) = rest.withoutCodes := by
  have taken := length_eq_some_iff.2 ⟨w, rest, code, rfl, rfl⟩
  obtain ⟨s, w, rfl⟩ : ∃ s w', w = s :: w' := List.exists_cons_of_length_pos code.length_pos
  rw [List.cons_append] at taken ⊢
  rw [Text.withoutCodes, strip, taken]
  show strip w.length (w ++ rest) = strip 0 rest
  rw [strip_eq_strip_drop, List.drop_left]

/-- A colour is taken out, and what is no whole code stays. -/
example : Text.withoutCodes "\x1b[1;31mb\x1b[" = "b\x1b[" := by decide

/-- **A text is taken apart from left to right**: what stands in front of it is a code, or a symbol. -/
theorem induction_codes {motive : Text → Prop} (nil : motive [])
    (code : ∀ w rest, IsCode w → motive rest → motive (w ++ rest))
    (symbol : ∀ s rest, (∀ w, IsCode w → ¬ w <+: s :: rest) → motive rest → motive (s :: rest)) (t : Text) :
    motive t := by
  induction length : t.length using Nat.strongRecOn generalizing t with
  | ind n ih =>
    subst length
    cases t with
    | nil => exact nil
    | cons s rest =>
      cases front : length? (s :: rest) with
      | none => exact symbol s rest (length_eq_none_iff.1 front) (ih _ (Nat.lt_succ_self _) rest rfl)
      | some n =>
        obtain ⟨w, later, isCode, e, -⟩ := length_eq_some_iff.1 front
        have less : later.length < (s :: rest).length := by
          have := isCode.length_pos
          rw [e, List.length_append]
          omega
        rw [e]
        exact code w later isCode (ih _ less later rfl)

end Codes

namespace Text

open Codes (IsCode Foreign induction_codes withoutCodes_cons withoutCodes_code_append)

variable {c : Symbol}

/-- A code stands somewhere in a text. -/
def HasCode (t : Text) : Prop := ∃ front w back, IsCode w ∧ t = front ++ (w ++ back)

theorem length_withoutCodes_le (t : Text) : t.withoutCodes.length ≤ t.length := by
  induction t using induction_codes with
  | nil => exact Nat.le_refl _
  | code w rest code ih =>
    rw [withoutCodes_code_append code, List.length_append]
    omega
  | symbol s rest none ih =>
    rw [withoutCodes_cons none]
    exact Nat.succ_le_succ ih

theorem length_withoutCodes_lt {t : Text} (h : t.HasCode) : t.withoutCodes.length < t.length := by
  induction t using induction_codes with
  | nil =>
    obtain ⟨front, w, back, code, e⟩ := h
    have := code.length_pos
    have := congrArg List.length e
    simp only [List.length_append, List.length_nil] at this
    omega
  | code w rest code ih =>
    have := rest.length_withoutCodes_le
    have := code.length_pos
    rw [withoutCodes_code_append code, List.length_append]
    omega
  | symbol s rest none ih =>
    obtain ⟨front, w, back, code, e⟩ := h
    cases front with
    | nil => exact absurd (e ▸ List.prefix_append ..) (none w code)
    | cons s' front =>
      rw [withoutCodes_cons none]
      exact Nat.succ_lt_succ (ih ⟨front, w, back, code, (List.cons.inj e).2⟩)

/-- **A text stays as it is** just when no code stands in it. -/
theorem withoutCodes_eq_self_iff (t : Text) : t.withoutCodes = t ↔ ¬ t.HasCode := by
  constructor
  · intro same has
    have less := length_withoutCodes_lt has
    rw [same] at less
    exact Nat.lt_irrefl _ less
  · intro none
    induction t using induction_codes with
    | nil => rfl
    | code w rest code ih => exact absurd ⟨[], w, rest, code, rfl⟩ none
    | symbol s rest other ih =>
      rw [withoutCodes_cons other, ih]
      rintro ⟨front, w, back, code, rfl⟩
      exact none ⟨s :: front, w, back, code, rfl⟩

/-- **A symbol that no code holds** parts a text. -/
theorem withoutCodes_append_cons (foreign : Foreign c) (t rest : Text) :
    (t ++ c :: rest).withoutCodes = t.withoutCodes ++ c :: rest.withoutCodes := by
  induction t using induction_codes with
  | nil => exact withoutCodes_cons fun w code front => code.not_prefix_nil (foreign.prefix_of_prefix code front)
  | code w t code ih => rw [List.append_assoc, withoutCodes_code_append code, ih, withoutCodes_code_append code]
  | symbol s t none ih =>
    have still : ∀ w, IsCode w → ¬ w <+: s :: (t ++ c :: rest) := fun w code front =>
      none w code (foreign.prefix_of_prefix (t := s :: t) code front)
    rw [List.cons_append, withoutCodes_cons still, ih, withoutCodes_cons none, List.cons_append]

/-- Such a symbol stands in the text as often without the codes. -/
theorem count_withoutCodes (foreign : Foreign c) (t : Text) : t.withoutCodes.count c = t.count c := by
  induction t using induction_codes with
  | nil => rfl
  | code w rest code ih =>
    rw [withoutCodes_code_append code, List.count_append, List.count_eq_zero.2 (foreign.not_mem code), ih, Nat.zero_add]
  | symbol s rest none ih => rw [withoutCodes_cons none, List.count_cons, List.count_cons, ih]

theorem withoutCodes_join (ts : List Text) :
    (Text.join ", " ts).withoutCodes = Text.join ", " (ts.map withoutCodes) := by
  induction ts with
  | nil => rfl
  | cons t rest ih =>
    cases rest with
    | nil => rfl
    | cons u rest =>
      have comma : Foreign (.char ',') := by decide
      have blank : Foreign (.char ' ') := by decide
      have parts (t later : Text) :
          (t ++ ", " ++ later).withoutCodes = t.withoutCodes ++ ", " ++ later.withoutCodes := by
        have second := withoutCodes_append_cons blank [] later
        rw [List.append_assoc, List.append_assoc]
        exact (withoutCodes_append_cons comma t _).trans (congrArg (fun l => _ ++ Symbol.char ',' :: l) second)
      exact (parts t _).trans (congrArg _ ih)

/-- A joined text holds its parts. -/
theorem infix_join {separator t : Text} {ts : List Text} (h : t ∈ ts) : t <:+: Text.join separator ts := by
  induction ts with
  | nil => cases h
  | cons u rest ih =>
    cases rest with
    | nil => exact List.mem_singleton.1 h ▸ List.infix_refl _
    | cons v rest =>
      show t <:+: u ++ separator ++ Text.join separator (v :: rest)
      rcases List.mem_cons.1 h with rfl | h
      · rw [List.append_assoc]
        exact (List.prefix_append ..).isInfix
      · exact (ih h).trans (List.suffix_append ..).isInfix

theorem HasCode.of_infix {t u : Text} (h : t.HasCode) (inside : t <:+: u) : u.HasCode := by
  obtain ⟨front, w, back, code, rfl⟩ := h
  obtain ⟨before, behind, rfl⟩ := inside
  exact ⟨before ++ front, w, back ++ behind, code, by simp⟩

end Text
end DirWatch

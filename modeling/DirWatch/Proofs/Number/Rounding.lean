import DirWatch.Options.Basic
import DirWatch.Proofs.Number.Doubles

/-!
# The double nearest to a number

- **Multiples**: what a number rounds to is a multiple of the unit, no further away than half of it, and the even one of
  two multiples that are equally near (`roundTo_spec`).
- **Order**: rounding keeps it, also across a power of two, where the unit doubles (`round_mono`). What carries there is
  the power itself, which is a multiple of both units.
- **The seconds between two scans** are rounded so (`pollInterval_rounds`).
-/

namespace DirWatch
namespace Binary64

variable {unit m n : Nat}

/-! ## Multiples of a unit -/

/-- A number rounds to a multiple of the unit that is half a unit away at most, and to an even one where it is half a
unit away. -/
theorem roundTo_spec (pos : 0 < unit) (n : Nat) :
    let r := roundTo unit n
    unit ∣ r ∧ 2 * ((r : Int) - n).natAbs ≤ unit ∧ (2 * ((r : Int) - n).natAbs = unit → 2 ∣ r / unit) := by
  have rest : n % unit < unit := Nat.mod_lt n pos
  have whole : n / unit * unit + n % unit = n := Nat.div_add_mod' n unit
  have next : (n / unit + 1) * unit = n / unit * unit + unit := Nat.succ_mul _ _
  unfold roundTo
  dsimp only
  split
  all_goals
    refine ⟨Nat.dvd_mul_left .., by omega, fun tie => ?_⟩
    rw [Nat.mul_div_cancel _ pos]
    omega

/-- Multiples stay where they are. -/
theorem roundTo_of_dvd (h : unit ∣ n) : roundTo unit n = n := by
  have rest : n % unit = 0 := Nat.mod_eq_zero_of_dvd h
  have down : ¬ (2 * (n % unit) > unit ∨ 2 * (n % unit) = unit ∧ n / unit % 2 = 1) := by
    rcases Nat.eq_zero_or_pos unit with rfl | pos
    · simp [Nat.zero_dvd.1 h]
    · omega
  unfold roundTo
  dsimp only
  rw [if_neg down, Nat.div_mul_cancel h]

theorem roundTo_mono (le : m ≤ n) : roundTo unit m ≤ roundTo unit n := by
  rcases Nat.lt_or_eq_of_le (Nat.div_le_div_right (c := unit) le) with less | same
  · calc roundTo unit m ≤ (m / unit + 1) * unit := roundTo_le_mul unit m
      _ ≤ n / unit * unit := Nat.mul_le_mul_right unit less
      _ ≤ roundTo unit n := div_mul_le_roundTo unit n
  · -- Between the same two multiples only the rests differ.
    have rests : m % unit ≤ n % unit := by
      have first : m / unit * unit + m % unit = m := Nat.div_add_mod' m unit
      have second : n / unit * unit + n % unit = n := Nat.div_add_mod' n unit
      rw [same] at first
      omega
    unfold roundTo
    dsimp only
    rw [same]
    split
    · refine Nat.le_of_eq (if_pos ?_).symm
      omega
    · split
      · exact Nat.mul_le_mul_right unit (Nat.le_succ _)
      · exact Nat.le_refl _

/-! ## Doubles -/

/-- The spacing hangs on the power of two below a number only. -/
theorem spacing_eq (n : Nat) : spacing n = Nat.pow 2 (n.log2 - 52) := by
  unfold spacing
  split
  · rename_i small
    rcases Nat.eq_zero_or_pos n with rfl | pos
    · rfl
    · have low : n.log2 < 53 := (Nat.log2_lt (Nat.ne_of_gt pos)).2 small
      have none : n.log2 - 52 = 0 := by omega
      rw [none]
  · rfl

theorem spacing_pos (n : Nat) : 0 < spacing n := spacing_eq n ▸ Nat.two_pow_pos _

/-- From `2 ^ 53` on the spacing is the power of two below a number, scaled down by `2 ^ 52`. -/
theorem spacing_eq_div (large : Nat.pow 2 53 ≤ n) : spacing n = Nat.pow 2 n.log2 / Nat.pow 2 52 := by
  have nonzero : n ≠ 0 := fun zero => absurd (zero ▸ large) (by decide)
  have high : 53 ≤ n.log2 := (Nat.le_log2 nonzero).2 large
  rw [spacing_eq]
  exact (Nat.pow_div (by omega) (by decide)).symm

/-- Rounding stays below the next power of two, or carries into it. -/
theorem round_le_two_pow (n : Nat) : round n ≤ Nat.pow 2 (n.log2 + 1) := by
  have multiple : spacing n ∣ Nat.pow 2 (n.log2 + 1) := by
    rw [spacing_eq]
    exact Nat.pow_dvd_pow 2 (by omega)
  calc round n ≤ roundTo (spacing n) (Nat.pow 2 (n.log2 + 1)) := roundTo_mono (Nat.le_of_lt Nat.lt_log2_self)
    _ = Nat.pow 2 (n.log2 + 1) := roundTo_of_dvd multiple

/-- **Rounding keeps the order.** -/
theorem round_mono (le : m ≤ n) : round m ≤ round n := by
  rcases Nat.eq_zero_or_pos m with rfl | pos
  · rw [round, roundTo_of_dvd (Nat.dvd_zero _)]
    exact Nat.zero_le _
  have nonzero : n ≠ 0 := by omega
  have logs : m.log2 ≤ n.log2 := (Nat.le_log2 nonzero).2 (Nat.le_trans (Nat.log2_self_le (by omega)) le)
  rcases Nat.lt_or_eq_of_le logs with less | same
  · calc round m ≤ Nat.pow 2 (m.log2 + 1) := round_le_two_pow m
      _ ≤ Nat.pow 2 n.log2 := Nat.pow_le_pow_right (by decide) less
      _ ≤ round n := two_pow_log2_le_round nonzero
  · have units : spacing m = spacing n := by rw [spacing_eq, spacing_eq, same]
    rw [round, round, units]
    exact roundTo_mono le

/-- Up to `2 ^ 53` every number is a double. -/
theorem round_of_le (small : n ≤ Nat.pow 2 53) : round n = n := by
  refine roundTo_of_dvd ?_
  rcases Nat.lt_or_eq_of_le small with less | rfl
  · rw [spacing, if_pos less]
    exact Nat.one_dvd n
  · decide

theorem eq_round_of_ofNat {r : Nat} (h : ofNat? n = some r) : r = round n := by
  unfold ofNat? at h
  dsimp only at h
  split at h
  · exact (Option.some.inj h).symm
  · cases h

end Binary64

/-! ## The seconds between two scans -/

namespace Options

/-- **The seconds between two scans are the double nearest to the interval.** There is none just where the interval
reaches the middle between the largest double and the power of two behind it. Up to `2 ^ 53` it is the interval itself.
From there on it is a multiple of the power of two below the interval scaled down by `2 ^ 52`, off by half of that at
most, and the even multiple where it is off by half. A larger interval never has a smaller one. -/
theorem pollInterval_rounds (o : Options) :
    let n := o.interval.getD defaultInterval
    (o.pollInterval? = none ↔ Nat.pow 2 1024 - Nat.pow 2 970 ≤ n) ∧
    ∀ r, o.pollInterval? = some r →
      (n ≤ Nat.pow 2 53 → r = n) ∧
      (Nat.pow 2 53 ≤ n → ∃ k, Nat.pow 2 k ≤ n ∧ n < Nat.pow 2 (k + 1) ∧
        let unit := Nat.pow 2 k / Nat.pow 2 52
        unit ∣ r ∧ 2 * ((r : Int) - n).natAbs ≤ unit ∧ (2 * ((r : Int) - n).natAbs = unit → 2 ∣ r / unit)) ∧
      ∀ (o' : Options) (r' : Nat), n ≤ o'.interval.getD defaultInterval → o'.pollInterval? = some r' → r ≤ r' := by
  intro n
  refine ⟨Binary64.ofNat?_eq_none_iff, fun r rounded => ?_⟩
  obtain rfl : r = Binary64.round n := Binary64.eq_round_of_ofNat rounded
  refine ⟨Binary64.round_of_le, fun large => ?_, fun o' r' le rounded' => ?_⟩
  · have nonzero : n ≠ 0 := fun zero => absurd (zero ▸ large) (by decide)
    refine ⟨n.log2, Nat.log2_self_le nonzero, Nat.lt_log2_self, ?_⟩
    rw [← Binary64.spacing_eq_div large]
    exact Binary64.roundTo_spec (Binary64.spacing_pos n) n
  · rw [Binary64.eq_round_of_ofNat rounded']
    exact Binary64.round_mono le

/-- Odd numbers behind `2 ^ 53` are half way between two doubles, and the last one before `2 ^ 54` carries into it. -/
example : [9007199254740993, 9007199254740995, 18014398509481983].map Binary64.ofNat? =
    [some 9007199254740992, some 9007199254740996, some 18014398509481984] := by decide +kernel

end Options
end DirWatch

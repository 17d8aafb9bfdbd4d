import DirWatch.Number.Binary64

/-!
# Which numbers have a double

- **Rounding** leaves a number between the power of two below it and twice its own size (`two_pow_log2_le_round`,
  `round_lt`).
- **Overflow**: a number has a double just when it lies below the middle between the largest double and the power of two
  behind it (`ofNat?_eq_none_iff`). The middle itself is a tie, and goes to the even multiple, which is that power.
-/

namespace DirWatch
namespace Binary64

theorem roundTo_le_mul (unit n : Nat) : roundTo unit n ≤ (n / unit + 1) * unit := by
  unfold roundTo
  dsimp only
  split
  · exact Nat.le_refl _
  · exact Nat.mul_le_mul_right unit (Nat.le_succ _)

theorem roundTo_le (unit n : Nat) : roundTo unit n ≤ n + unit :=
  calc roundTo unit n ≤ (n / unit + 1) * unit := roundTo_le_mul unit n
    _ = n / unit * unit + unit := Nat.succ_mul _ _
    _ ≤ n + unit := Nat.add_le_add_right (Nat.div_mul_le_self n unit) unit

theorem div_mul_le_roundTo (unit n : Nat) : n / unit * unit ≤ roundTo unit n := by
  unfold roundTo
  dsimp only
  split
  · exact Nat.mul_le_mul_right unit (Nat.le_succ _)
  · exact Nat.le_refl _

theorem spacing_le {n : Nat} (h : n ≠ 0) : spacing n ≤ n := by
  unfold spacing
  split
  · exact Nat.one_le_iff_ne_zero.2 h
  · exact Nat.le_trans (Nat.pow_le_pow_right (n := 2) (by decide) (Nat.sub_le _ _)) (Nat.log2_self_le h)

/-- Rounding a number less than doubles it. -/
theorem round_lt {n bound : Nat} (h : n < bound) : round n < bound * 2 := by
  by_cases zero : n = 0
  · subst zero
    exact Nat.mul_pos h (by decide)
  · have rounded : round n ≤ n + spacing n := roundTo_le (spacing n) n
    have gap := spacing_le zero
    omega

/-- The spacing divides the power of two below a number. -/
theorem spacing_dvd {n : Nat} : spacing n ∣ Nat.pow 2 n.log2 := by
  unfold spacing
  split
  · exact Nat.one_dvd _
  · exact Nat.pow_dvd_pow 2 (Nat.sub_le _ _)

/-- Rounding leaves a number above the power of two below it. -/
theorem two_pow_log2_le_round {n : Nat} (h : n ≠ 0) : Nat.pow 2 n.log2 ≤ round n := by
  obtain ⟨m, hm⟩ := spacing_dvd (n := n)
  have pos : 0 < spacing n := Nat.pos_of_dvd_of_pos ⟨m, hm⟩ (Nat.two_pow_pos _)
  have multiple : m ≤ n / spacing n := by
    rw [Nat.le_div_iff_mul_le pos, Nat.mul_comm, ← hm]
    exact Nat.log2_self_le h
  calc Nat.pow 2 n.log2 = m * spacing n := by rw [hm, Nat.mul_comm]
    _ ≤ n / spacing n * spacing n := Nat.mul_le_mul_right _ multiple
    _ ≤ round n := div_mul_le_roundTo _ _

/-- A number below half the bound of doubles has a double. -/
theorem isSome_ofNat {n : Nat} (h : n < Nat.pow 2 1023) : (ofNat? n).isSome = true := by
  generalize half : 1023 = k at h
  have bounded : round n < Nat.pow 2 (k + 1) := round_lt h
  have whole : 1024 = k + 1 := by omega
  unfold ofNat?
  rw [whole, if_pos bounded, Option.isSome_some]

/-! ## Overflow -/

/-- A multiple of a unit and less than a unit more lies below another multiple just when it is a smaller multiple. -/
theorem mul_add_lt_mul_iff {unit q r m : Nat} (less : r < unit) : q * unit + r < m * unit ↔ q < m := by
  rw [← Nat.div_lt_iff_lt_mul (by omega), Nat.mul_comm, Nat.mul_add_div (by omega), Nat.div_eq_of_lt less, Nat.add_zero]

/-- A number rounds to less than an even multiple when it lies more than half a unit below it. -/
theorem roundTo_lt_iff {half n m : Nat} (pos : 0 < half) (even : m % 2 = 0) :
    roundTo (2 * half) n < m * (2 * half) ↔ n + half < m * (2 * half) := by
  have rest : n % (2 * half) < 2 * half := Nat.mod_lt n (by omega)
  have whole : n = n / (2 * half) * (2 * half) + n % (2 * half) := (Nat.div_add_mod' n (2 * half)).symm
  unfold roundTo
  dsimp only
  generalize n / (2 * half) = q at *
  generalize n % (2 * half) = r at *
  have below : q * (2 * half) < m * (2 * half) ↔ q < m := mul_add_lt_mul_iff (r := 0) (by omega)
  have above : (q + 1) * (2 * half) < m * (2 * half) ↔ q + 1 < m := mul_add_lt_mul_iff (r := 0) (by omega)
  have next : (q + 1) * (2 * half) = q * (2 * half) + 2 * half := Nat.succ_mul _ _
  rcases Nat.lt_trichotomy r half with short | rfl | long
  · rw [if_neg (by omega), below, whole, Nat.add_assoc]
    exact (mul_add_lt_mul_iff (by omega)).symm
  · -- In the middle the parity decides, and the multiple in question is even.
    have tie : n + r = (q + 1) * (2 * r) := by omega
    rw [tie, above]
    split
    · exact above
    · rw [below]
      omega
  · have beyond : n + half = (q + 1) * (2 * half) + (r - half) := by omega
    rw [if_pos (by omega), above, beyond]
    exact (mul_add_lt_mul_iff (by omega)).symm

/-- What rounds to less than a power of two. -/
theorem round_lt_iff (k n : Nat) : round n < Nat.pow 2 (k + 54) ↔ n + Nat.pow 2 k < Nat.pow 2 (k + 54) := by
  show round n < 2 ^ (k + 54) ↔ n + 2 ^ k < 2 ^ (k + 54)
  have gap : 2 ^ (k + 54) = 2 ^ (k + 53) * 2 := Nat.pow_succ ..
  have unit : 2 ^ (k + 1) = 2 * 2 ^ k := by rw [Nat.pow_succ, Nat.mul_comm]
  have whole : 2 ^ (k + 54) = 2 ^ 53 * (2 * 2 ^ k) := by
    have sum : k + 54 = 53 + (k + 1) := by omega
    rw [sum, Nat.pow_add 2 53 (k + 1), unit]
  have pos : 0 < 2 ^ k := Nat.two_pow_pos k
  by_cases small : n < 2 ^ (k + 53)
  · have rounded := round_lt small
    omega
  by_cases large : 2 ^ (k + 54) ≤ n
  · have nonzero : n ≠ 0 := by omega
    have power : 2 ^ (k + 54) ≤ 2 ^ n.log2 :=
      Nat.pow_le_pow_right (by decide) ((Nat.le_log2 nonzero).2 large)
    have rounded : 2 ^ n.log2 ≤ round n := two_pow_log2_le_round nonzero
    omega
  · -- The last numbers before the power, which are rounded to multiples of twice `2 ^ k`.
    have nonzero : n ≠ 0 := by omega
    have log : n.log2 = k + 53 := by
      have lower : k + 53 ≤ n.log2 := (Nat.le_log2 nonzero).2 (by omega)
      have upper : n.log2 < k + 54 := (Nat.log2_lt nonzero).2 (by omega)
      omega
    have spacing : spacing n = 2 * 2 ^ k := by
      have big : ¬ n < Nat.pow 2 53 := by
        have : Nat.pow 2 53 ≤ 2 ^ (k + 53) := Nat.pow_le_pow_right (n := 2) (by decide) (by omega)
        omega
      rw [Binary64.spacing, if_neg big, log, ← unit]
      rfl
    rw [round, spacing, whole]
    exact roundTo_lt_iff pos (by decide)

/-- **Which numbers have no double.** -/
theorem ofNat?_eq_none_iff {n : Nat} : ofNat? n = none ↔ Nat.pow 2 1024 - Nat.pow 2 970 ≤ n := by
  have bound : round n < Nat.pow 2 1024 ↔ n < Nat.pow 2 1024 - Nat.pow 2 970 := by
    generalize low : 970 = k
    have high : 1024 = k + 54 := by omega
    rw [high, Nat.lt_sub_iff_add_lt]
    exact round_lt_iff k n
  unfold ofNat?
  dsimp only
  split
  · rename_i less
    exact iff_of_false (by simp) (Nat.not_le.2 (bound.1 less))
  · rename_i more
    exact iff_of_true rfl (Nat.not_lt.1 (mt bound.2 more))

/-- The double of a number that is not zero is not zero either. -/
theorem pos_of_ofNat {n r : Nat} (pos : 0 < n) (h : ofNat? n = some r) : 0 < r := by
  unfold ofNat? at h
  dsimp only at h
  split at h
  · cases h
    exact Nat.lt_of_lt_of_le (Nat.two_pow_pos _) (two_pow_log2_le_round (Nat.ne_of_gt pos))
  · cases h

end Binary64
end DirWatch

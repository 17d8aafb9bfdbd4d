import DirWatch.Proofs.Number.Doubles
import DirWatch.Proofs.Options.Building
import DirWatch.Proofs.Watcher.Failures

/-!
# Intervals that a watcher can use

Options take every positive interval, while a polling observer needs it as a double, which numbers from
`2 ^ 1024 - 2 ^ 970` on do not have.

- **A start blames the interval** only where it has no double (`Timed.run`).
- So the accepted intervals below that bound can be used by every watcher (`accepted_interval_usable`), and one beyond
  it comes out of a start as an overflow (`accepted_interval_overflows`).
-/

namespace DirWatch

namespace Watcher

/-- What every history keeps of a watcher whose starts blame the interval only where it has no double. -/
structure Timed (options : Options) (w : Watcher) : Prop where
  given : w.options = options
  life : Life w
  starts : .failed .intervalOverflow ∈ w.starts → options.pollInterval? = none

variable {options : Options} {w v : Watcher}

theorem Timed.same (h : Timed options w) (life : Life v) (given : v.options = w.options)
    (starts : v.starts = w.starts) : Timed options v :=
  ⟨given.trans h.given, life, starts ▸ h.starts⟩

theorem Timed.start (h : Timed options w) (root : Path) (recursive : Bool) :
    Timed options (w.start root recursive) := by
  refine ⟨(spared_start w root recursive).options.trans h.given, life_start h.life root recursive, fun blamed => ?_⟩
  by_cases first : w.starts = []
  · obtain ⟨answer, starts, answers⟩ := starts_start first root recursive
    rw [starts, List.mem_singleton] at blamed
    rw [← h.given]
    exact answers.interval blamed.symm
  · rw [start_of_started first, List.mem_append] at blamed
    exact h.starts (blamed.resolve_right (by simp))

/-- One call. -/
theorem Timed.call (h : Timed options w) (a : Action) : Timed options (w.call a) := by
  have life := h.life.call a
  cases a with
  | start root recursive => exact h.start root recursive
  | feed notices =>
    refine h.same life ?_ ?_ <;> unfold Watcher.call <;> dsimp only <;> split <;> rfl
  | kill part =>
    refine h.same life ?_ ?_ <;> unfold Watcher.call <;> dsimp only <;> split <;> rfl
  | _ => exact h.same life rfl rfl

/-- One move. -/
theorem Timed.step (h : Timed options w) (e : w.step = some v) : Timed options v := by
  refine ⟨(options_step e).trans h.given, h.life.step e, fun blamed => ?_⟩
  obtain same | ⟨-, answer, answered, answers⟩ := starts_step h.life e
  · exact h.starts (same ▸ blamed)
  · rw [answered] at blamed
    rcases List.mem_or_eq_of_mem_set blamed with blamed | rfl
    · exact h.starts blamed
    · rw [← h.given]
      exact answers.interval rfl

/-- **A start blames the interval only where it has no double**, whatever happens to the watcher. -/
theorem Timed.run (h : Timed options w) (actions : List Action) : Timed options (w.run actions) :=
  run_induction (fun _ a h => h.call a) (fun _ _ h e => h.step e) h actions

end Watcher

namespace Options

open Watcher (Timed)

/-- Which intervals have no double. -/
theorem pollInterval_eq_none_iff (o : Options) :
    o.pollInterval? = none ↔ Nat.pow 2 1024 - Nat.pow 2 970 ≤ o.interval.getD defaultInterval := by
  rw [pollInterval?]
  generalize o.interval.getD defaultInterval = n
  exact Binary64.ofNat?_eq_none_iff (n := n)

/-- **Accepted intervals that can be used**: all below a bound close to `2 ^ 1024`. Their double is at least one, and no
start of a watcher with such options fails on the interval, whatever its surroundings and whatever happens to it. From
the bound on there is no double. -/
theorem accepted_interval_usable {o : Options} (accepted : o.Accepted) :
    (o.interval.getD defaultInterval < Nat.pow 2 1024 - Nat.pow 2 970 →
      (∃ seconds, o.pollInterval? = some seconds ∧ 1 ≤ seconds) ∧
      ∀ number table native polling gateOpen actions,
        let new : Watcher := { options := o, number, site := { table, native, polling, gateOpen } }
        .failed .intervalOverflow ∉ (new.run actions).starts) ∧
    (Nat.pow 2 1024 - Nat.pow 2 970 ≤ o.interval.getD defaultInterval → o.pollInterval? = none) := by
  refine ⟨fun usable => ?_, o.pollInterval_eq_none_iff.2⟩
  have some : o.pollInterval? ≠ none := fun none => Nat.not_le.2 usable (o.pollInterval_eq_none_iff.1 none)
  obtain ⟨seconds, rounded⟩ := Option.ne_none_iff_exists'.1 some
  refine ⟨⟨seconds, rounded, Binary64.pos_of_ofNat accepted.interval_pos rounded⟩, ?_⟩
  intro number table native polling gateOpen actions new blamed
  have timed : Timed o new := ⟨rfl, .fresh rfl rfl rfl ⟨rfl, by simp [new]⟩, by simp [new]⟩
  rw [(timed.run actions).starts blamed] at rounded
  cases rounded

/-- An interval half way between two doubles, which goes to the even one. -/
theorem accepted_interval_usable_of_tie :
    let v : Value := .mapping [(.text "interval", .int 9007199254740993), (.text "pattern", .text "*")]
    let o : Options := { pattern := ⟨"*", [.atom .star], rfl⟩, interval := some 9007199254740993 }
    (o.Accepted ∧ ofValue? v = .ok o ∧ 9007199254740993 < Nat.pow 2 1024 - Nat.pow 2 970) ∧
      o.pollInterval? = some 9007199254740992 ∧
      (∃ seconds, o.pollInterval? = some seconds ∧ 1 ≤ seconds) ∧
      ∀ number table native polling gateOpen actions,
        let new : Watcher := { options := o, number, site := { table, native, polling, gateOpen } }
        .failed .intervalOverflow ∉ (new.run actions).starts := by
  intro v o
  have read : ofValue? v = .ok o := by rfl
  have accepted : o.Accepted := .read read fun _ e => Value.noConfusion e
  have usable : 9007199254740993 < Nat.pow 2 1024 - Nat.pow 2 970 := by decide +kernel
  exact ⟨⟨accepted, read, usable⟩, by decide +kernel, (accepted_interval_usable accepted).1 usable⟩

/-- An accepted interval without a double: a start that is to poll comes out as an overflow, though the root is
there. -/
theorem accepted_interval_overflows :
    let v : Value :=
      .mapping [(.text "pattern", .text "*"), (.text "interval", .int (Nat.pow 10 309)), (.text "poll", .bool true)]
    let o : Options := { pattern := ⟨"*", [.atom .star], rfl⟩, interval := some (Nat.pow 10 309), poll := true }
    let new : Watcher := { options := o, site := { table := ⟨[("w", .present 16877 true)]⟩ } }
    let w := new.run [.start (.ofText "w") false]
    (ofValue? v).toOption = some o ∧ o.pollInterval? = none ∧ w.starts = [.failed .intervalOverflow] := by
  refine ⟨?_, ?_, ?_⟩ <;> decide +kernel

end Options
end DirWatch

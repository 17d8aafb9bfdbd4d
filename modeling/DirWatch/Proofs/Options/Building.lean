import DirWatch.Options.Reading

/-!
# Options that a host can come by

Options are built from values given for the fields, and they are read from a value, which may be options that the host
came by before (`Options.Accepted`).

- **Intervals** of such options are positive (`Accepted.interval_pos`).
-/

namespace DirWatch

/-- A reading that succeeds has succeeded in both of its parts. -/
theorem exists_of_bind_eq_ok {ε α β : Type} {x : Except ε α} {f : α → Except ε β} {b : β} (h : x >>= f = .ok b) :
    ∃ a, x = .ok a ∧ f a = .ok b := by
  cases x with
  | error e => cases h
  | ok a => exact ⟨a, rfl, h⟩

/-- A reading that succeeds and is turned into something has succeeded. -/
theorem exists_of_map_eq_ok {ε α β : Type} {x : Except ε α} {f : α → β} {b : β} (h : x.map f = .ok b) :
    ∃ a, x = .ok a ∧ f a = b := by
  cases x with
  | error e => cases h
  | ok a =>
    cases h
    exact ⟨a, rfl, rfl⟩

/-- What succeeds has succeeded whatever its errors are called. -/
theorem eq_ok_of_mapError {ε ε' α : Type} {x : Except ε α} {f : ε → ε'} {a : α} (h : x.mapError f = .ok a) :
    x = .ok a := by
  cases x with
  | error e => cases h
  | ok b =>
    cases h
    rfl

namespace Options

/-- The options that a host can come by. -/
inductive Accepted : Options → Prop
  | built {g : Given} {o : Options} (built : ofGiven? g = .ok o) : Accepted o
  | read {v : Value} {o : Options} (read : ofValue? v = .ok o) (earlier : ∀ o', v = .options o' → Accepted o') :
      Accepted o

variable {g : Given} {o : Options}

/-- The interval of options that are built is the one that was given for it. -/
theorem interval_of_ofGiven (h : ofGiven? g = .ok o) : interval? g.interval = .ok o.interval := by
  unfold ofGiven? at h
  obtain ⟨text, _, h⟩ := exists_of_bind_eq_ok h
  obtain ⟨recursive, _, h⟩ := exists_of_bind_eq_ok h
  obtain ⟨watchFiles, _, h⟩ := exists_of_bind_eq_ok h
  obtain ⟨watchDirectories, _, h⟩ := exists_of_bind_eq_ok h
  obtain ⟨interval, given, h⟩ := exists_of_bind_eq_ok h
  obtain ⟨poll, _, h⟩ := exists_of_bind_eq_ok h
  split at h
  · cases h
  · cases h
    exact given

theorem interval_pos_of_interval {v : Option Value} {interval : Option Nat} (h : interval? v = .ok interval) :
    0 < interval.getD defaultInterval := by
  have default : 0 < defaultInterval := by decide
  unfold interval? at h
  split at h
  · cases h
    exact default
  · cases h
    exact default
  · split at h
    · cases h
    · cases h
      rw [Option.getD_some]
      omega
  · cases h

/-- **The interval of options that a host can come by is positive.** -/
theorem Accepted.interval_pos (h : Accepted o) : 0 < o.interval.getD defaultInterval := by
  have built {g : Given} {o : Options} (h : ofGiven? g = .ok o) : 0 < o.interval.getD defaultInterval :=
    interval_pos_of_interval (interval_of_ofGiven h)
  induction h with
  | built h => exact built h
  | @read v o read earlier ih =>
    cases v with
    | options o' =>
      cases read
      exact ih o rfl
    | text t => exact built (eq_ok_of_mapError read)
    | mapping entries =>
      obtain ⟨g, _, made⟩ := exists_of_bind_eq_ok read
      exact built (eq_ok_of_mapError made)
    | _ => cases read

end Options
end DirWatch

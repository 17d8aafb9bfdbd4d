import DirWatch.Proofs.Channel.Order

/-!
# Pushing

A watcher reaches its channel from the side of the senders only: it sends, closes, and lets the channel move (`Push`).

- Pushing keeps a fair channel fair and a closed one closed, and sends keep their numbers.
- Pushing answers at most the first pending receive (`Push.receives_cases`). So the receives before it stay, and when
  only the last one may be pending, it is the only one that changes (`Push.last_receive`).
-/

namespace DirWatch
namespace Channel
variable {α : Type}

/-- What is done to a channel from the side of its senders. -/
inductive Push : Channel α → Channel α → Prop
  | idle (c : Channel α) : Push c c
  | submit (c : Channel α) (a : α) : Push c (c.submit a)
  | close (c : Channel α) : Push c c.close
  | step {c d : Channel α} (h : c.step = some d) : Push c d

theorem Fair.push {c d : Channel α} (h : Fair c) (p : Push c d) : Fair d := by
  cases p with
  | idle => exact h
  | submit a => exact h.submit a
  | close => exact h.close
  | step e => exact h.move (.of_step e)

/-- A closed channel stays closed. -/
theorem Push.closed {c d : Channel α} (p : Push c d) (h : c.closed = true) : d.closed = true := by
  cases p with
  | idle => exact h
  | submit a => exact h
  | close => exact closed_of_move h (.close c)
  | step e => exact closed_of_move h (.of_step e)

theorem closed_close (c : Channel α) : c.close.closed = true := by
  unfold close
  split
  · assumption
  · rfl

/-- Sends keep their numbers. -/
theorem Push.length_sends_le {c d : Channel α} (p : Push c d) : c.sends.length ≤ d.sends.length := by
  cases p with
  | idle => exact Nat.le_refl _
  | submit a => simp [Channel.submit]
  | close =>
    unfold Channel.close
    split <;> simp
  | step e => exact Nat.le_of_eq (by simpa [submitted] using congrArg List.length (Alike.of_step e).submitted.symm)

/-- A channel that moves no further delivers nothing, tells nothing and admits nothing. -/
theorem still_of_step_eq_none {c : Channel α} (h : c.step = none) :
    c.deliver? = none ∧ c.confirm? = none ∧ c.admit? = none := by
  unfold step at h
  split at h
  · cases h
  · split at h
    · cases h
    · exact ⟨‹_›, ‹_›, h⟩

/-- At a standstill every sender whose item got in knows. -/
theorem not_entered_of_still {c : Channel α} (h : c.step = none) : ∀ s ∈ c.sends, s.status ≠ .entered := by
  have unconfirmed := (still_of_step_eq_none h).2.1
  intro s hs entered
  rw [confirm?, if_pos (List.any_eq_true.2 ⟨s, hs, by simp [entered]⟩)] at unconfirmed
  cases unconfirmed

/-- A receive that is pending at a standstill finds the queue empty. -/
theorem queue_of_pending {c : Channel α} (h : c.step = none) (hp : .pending ∈ c.receives) : c.queue = [] := by
  have undelivered := (still_of_step_eq_none h).1
  unfold deliver? at undelivered
  split at undelivered
  · assumption
  · exact absurd hp (fillFirst_eq_none (Option.map_eq_none_iff.1 undelivered))

/-- Where there is room at a standstill no sender is blocked. -/
theorem unblocked_of_hasRoom {c : Channel α} (h : c.step = none) (room : c.hasRoom = true) :
    ∀ s ∈ c.sends, s.status ≠ .blocked := by
  have unadmitted := (still_of_step_eq_none h).2.2
  rw [admit?, if_pos room] at unadmitted
  exact enterFirst_eq_none (Option.map_eq_none_iff.1 unadmitted)

/-- An empty queue has room. -/
theorem hasRoom_of_empty {c : Channel α} (h : c.queue = []) : c.hasRoom = true := by
  simp only [hasRoom, h, List.length_nil, Bool.or_eq_true, decide_eq_true_eq]
  omega

/-! ## Receives -/

/-- Pushing leaves the receives alone, or answers the first pending one. Closing leaves them alone only when none is
pending. -/
theorem Push.receives_cases {c d : Channel α} (p : Push c d) :
    (d.receives = c.receives ∧ (d.closed = true → c.closed = true ∨ .pending ∉ c.receives)) ∨
      ∃ front back r, c.receives = front ++ .pending :: back ∧ .pending ∉ front ∧ r ≠ .pending ∧ r ≠ .withdrawn ∧
        d.receives = front ++ r :: back := by
  cases p with
  | idle => exact Or.inl ⟨rfl, Or.inl⟩
  | submit a => exact Or.inl ⟨rfl, Or.inl⟩
  | close =>
    unfold Channel.close
    split
    · exact Or.inl ⟨rfl, Or.inl⟩
    · cases hfill : fillFirst? .ended c.receives with
      | none => exact Or.inl ⟨rfl, fun _ => Or.inr (fillFirst_eq_none hfill)⟩
      | some rs =>
        obtain ⟨front, back, e, hf, rfl⟩ := exists_of_fillFirst hfill
        exact Or.inr ⟨front, back, .ended, e, hf, by simp, by simp, rfl⟩
  | step e =>
    obtain ⟨a, queue, receives, _, hfill, rfl⟩ | rfl | ⟨a, sends, _, _, rfl⟩ := step_cases e
    · obtain ⟨front, back, hc, hf, rfl⟩ := exists_of_fillFirst hfill
      exact Or.inr ⟨front, back, .item a, hc, hf, by simp, by simp, rfl⟩
    · exact Or.inl ⟨rfl, Or.inl⟩
    · exact Or.inl ⟨rfl, Or.inl⟩

/-- Receives of which none is pending stand before the first pending one. -/
theorem exists_behind {rs rest front back : List (Receipt α)} (e : rs ++ rest = front ++ .pending :: back)
    (hp : .pending ∉ rs) : ∃ mid, front = rs ++ mid ∧ rest = mid ++ .pending :: back := by
  rcases List.append_eq_append_iff.1 e with ⟨mid, rfl, rfl⟩ | ⟨mid, rfl, hm⟩
  · exact ⟨mid, rfl, rfl⟩
  · cases mid with
    | nil => exact ⟨[], by simp, by simpa using hm.symm⟩
    | cons r mid =>
      cases hm
      exact absurd (by simp) hp

/-- Receives before the first pending one stay. -/
theorem Push.prefix_receives {c d : Channel α} (p : Push c d) {rs : List (Receipt α)} (h : rs <+: c.receives)
    (hp : .pending ∉ rs) : rs <+: d.receives := by
  rcases p.receives_cases with ⟨e, _⟩ | ⟨front, back, r, e, _, _, _, hd⟩
  · rwa [e]
  · obtain ⟨rest, hrest⟩ := h
    obtain ⟨mid, rfl, _⟩ := exists_behind (hrest.trans e) hp
    exact ⟨mid ++ r :: back, by rw [hd, List.append_assoc]⟩

/-- Where no receive is pending, all of them stay. -/
theorem Push.receives_of_answered {c d : Channel α} (p : Push c d) (h : .pending ∉ c.receives) :
    d.receives = c.receives := by
  rcases p.receives_cases with ⟨e, _⟩ | ⟨front, back, r, e, _⟩
  · exact e
  · exact absurd (by simp [e]) h

/-- No receive comes from pushing. -/
theorem Push.receives_eq_nil {c d : Channel α} (p : Push c d) (h : c.receives = []) : d.receives = [] := by
  rcases p.receives_cases with ⟨e, _⟩ | ⟨front, back, r, e, _⟩
  · rw [e, h]
  · rw [h] at e
    simp at e

/-- When only the last receive may be pending, it is the only one that changes, and closing answers it. -/
theorem Push.last_receive {c d : Channel α} (p : Push c d) {rs : List (Receipt α)} {r : Receipt α}
    (h : c.receives = rs ++ [r]) (hp : .pending ∉ rs) (kept : r ≠ .withdrawn)
    (told : c.closed = true → r ≠ .pending) :
    ∃ s, d.receives = rs ++ [s] ∧ s ≠ .withdrawn ∧ (d.closed = true → s ≠ .pending) := by
  rcases p.receives_cases with ⟨e, hclosed⟩ | ⟨front, back, s, e, _, answered, kept', hd⟩
  · refine ⟨r, e.trans h, kept, fun hd hr => ?_⟩
    rcases hclosed hd with hc | hn
    · exact told hc hr
    · exact hn (by simp [h, hr])
  · -- The pending receive that is answered is the last one.
    obtain ⟨mid, rfl, hm⟩ := exists_behind (h.symm.trans e) hp
    obtain ⟨rfl, rfl⟩ : mid = [] ∧ back = [] := by
      cases mid with
      | nil => exact ⟨rfl, by simpa using congrArg List.tail hm.symm⟩
      | cons x mid => simp at hm
    exact ⟨s, by simpa using hd, kept', fun _ => answered⟩

end Channel
end DirWatch

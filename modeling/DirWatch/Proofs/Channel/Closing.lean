import DirWatch.Proofs.Channel.Push

/-!
# What closing makes of the receives

Closing leaves a channel quiet (`quiet_close`): it does not move, and it refuses every send. A closed channel has
nothing to hand out, so three things can happen to the receives from then on: nothing, a new one that has ended, or a
pending one that is withdrawn (`receives_of_closed`).

- **One is told**: the first pending receive ends, and those behind it stay pending until they are withdrawn; none is
  left exactly when at most one was pending (`receives_after_close`).
- So a second pending receive outlives the channel (`second_receive_outlives_close`).
-/

namespace DirWatch

/-- Whether a receive is pending. -/
def Receipt.isPending {α : Type} : Receipt α → Bool
  | .pending => true
  | _ => false

theorem Receipt.isPending_iff {α : Type} (r : Receipt α) : r.isPending = true ↔ r = .pending := by
  cases r <;> simp [isPending]

namespace Channel
variable {α : Type}

/-- How many receives are pending. -/
def waiting (c : Channel α) : Nat := c.receives.countP Receipt.isPending

theorem waiting_eq_zero_iff (c : Channel α) : c.waiting = 0 ↔ .pending ∉ c.receives := by
  rw [waiting, List.countP_eq_zero]
  constructor
  · intro h hp
    exact h _ hp rfl
  · intro h r hr hp
    exact h ((Receipt.isPending_iff r).1 hp ▸ hr)

/-! ## Quiet channels -/

/-- A closed channel whose queue is empty and whose senders have all been told. -/
structure Quiet (c : Channel α) : Prop where
  closed : c.closed = true
  queue : c.queue = []
  told : ∀ s ∈ c.sends, s.status ≠ .blocked ∧ s.status ≠ .entered

/-- A quiet channel does not move. -/
theorem Quiet.step {c : Channel α} (h : Quiet c) : c.step = none := by
  have undelivered : c.deliver? = none := by rw [deliver?, h.queue]
  have unconfirmed : c.confirm? = none := by
    rw [confirm?, if_neg]
    simpa using fun s hs => (h.told s hs).2
  have unadmitted : c.admit? = none := by
    unfold admit?
    split
    · cases henter : enterFirst? c.sends with
      | none => rfl
      | some r =>
        obtain ⟨front, s, back, e, _, blocked, _⟩ := exists_of_enterFirst (a := r.1) henter
        exact absurd blocked (h.told s (by simp [e])).1
    · rfl
  simp only [Channel.step, undelivered, unconfirmed, unadmitted]

/-- A quiet channel refuses every send and stays quiet. -/
theorem Quiet.submit {c : Channel α} (h : Quiet c) (a : α) :
    Quiet (c.submit a) ∧ (c.submit a).sends = c.sends ++ [⟨a, .refused⟩] := by
  have sends : (c.submit a).sends = c.sends ++ [⟨a, .refused⟩] := by simp [Channel.submit, h.closed]
  refine ⟨⟨h.closed, h.queue, fun s hs => ?_⟩, sends⟩
  rw [sends, List.mem_append, List.mem_singleton] at hs
  rcases hs with hs | rfl
  · exact h.told s hs
  · simp

/-- Closing leaves a channel quiet. -/
theorem quiet_close {c : Channel α} (h : c.closed = false) : Quiet c.close := by
  have closed : c.close = { c with
      closed := true
      queue := []
      sends := c.sends.map endSend
      receives := (fillFirst? .ended c.receives).getD c.receives } := by simp [close, h]
  rw [closed]
  refine ⟨rfl, rfl, fun s hs => ?_⟩
  obtain ⟨⟨a, status⟩, _, rfl⟩ := List.mem_map.1 hs
  cases status <;> simp [endSend]

/-- A closed channel that stands still is quiet. -/
theorem quiet_of_still {c : Channel α} (fair : Fair c) (closed : c.closed = true) (rest : c.step = none) :
    Quiet c := by
  have queue := (fair.lost closed).1
  exact ⟨closed, queue, fun s hs =>
    ⟨unblocked_of_hasRoom rest (hasRoom_of_empty queue) s hs, not_entered_of_still rest s hs⟩⟩

/-! ## Closing -/

/-- Closing leaves nothing to move. -/
theorem step_close {c : Channel α} (h : c.closed = false) : c.close.step = none := (quiet_close h).step

/-- Closing is the only move when a channel is closed. -/
theorem act_close {c : Channel α} (h : c.closed = false) : c.act .close = c.close :=
  settle_of_step_eq_none (step_close h) _

/-- The first pending receive ends, if one is pending. -/
theorem receives_close {c : Channel α} (h : c.closed = false) :
    (.pending ∉ c.receives ∧ c.close.receives = c.receives) ∨
      ∃ front back, c.receives = front ++ .pending :: back ∧ .pending ∉ front ∧
        c.close.receives = front ++ .ended :: back := by
  rw [close, h]
  cases hfill : fillFirst? .ended c.receives with
  | none => exact Or.inl ⟨fillFirst_eq_none hfill, rfl⟩
  | some rs =>
    obtain ⟨front, back, e, hf, rfl⟩ := exists_of_fillFirst hfill
    exact Or.inr ⟨front, back, e, hf, rfl⟩

/-- One receive fewer is pending. -/
theorem waiting_close {c : Channel α} (h : c.closed = false) : c.close.waiting = c.waiting - 1 := by
  rcases receives_close h with ⟨none, e⟩ | ⟨front, back, e, _, ended⟩
  · rw [waiting, e, ← waiting, (waiting_eq_zero_iff c).2 none]
  · rw [waiting, waiting, ended, e]
    simp only [List.countP_append, List.countP_cons, Receipt.isPending]
    simp

/-! ## A closed channel -/

/-- What happens to the receives of a closed channel. -/
theorem receives_of_closed {c d : Channel α} (fair : Fair c) (hc : c.closed = true) (m : Move c d) :
    d.receives = c.receives ∨ d.receives = c.receives ++ [.ended] ∨
      ∃ i, c.receives[i]? = some .pending ∧ d.receives = c.receives.set i .withdrawn := by
  cases m with
  | submit a => exact Or.inl rfl
  | receive => exact Or.inr (Or.inl (by simp [Channel.receive, hc]))
  | withdraw i =>
    unfold Channel.withdraw
    split
    · rename_i hi
      exact Or.inr (Or.inr ⟨i, hi, rfl⟩)
    · exact Or.inl rfl
  | close => exact Or.inl (by rw [Channel.close, if_pos hc])
  | deliver hq _ =>
    rw [(fair.lost hc).1] at hq
    cases hq
  | confirm => exact Or.inl rfl
  | enter _ _ => exact Or.inl rfl

/-- What becomes of the receives `rs` of a closed channel: a pending one may be withdrawn, and new ones have ended. -/
structure Outlived (rs : List (Receipt α)) (c : Channel α) : Prop where
  kept : ∀ (i : Nat) (r : Receipt α), rs[i]? = some r →
    c.receives[i]? = some r ∨ r = .pending ∧ c.receives[i]? = some .withdrawn
  late : ∀ (i : Nat) (r : Receipt α), rs.length ≤ i → c.receives[i]? = some r → r = .ended

theorem Outlived.move {rs : List (Receipt α)} {c d : Channel α} (h : Outlived rs c) (fair : Fair c)
    (hc : c.closed = true) (m : Move c d) : Outlived rs d := by
  obtain hd | hd | ⟨i, hi, hd⟩ := receives_of_closed fair hc m
  · exact ⟨hd ▸ h.kept, hd ▸ h.late⟩
  · have early {i : Nat} {r : Receipt α} (hr : c.receives[i]? = some r) : d.receives[i]? = some r := by
      rw [hd, List.getElem?_append_left (List.getElem?_eq_some_iff.1 hr).1, hr]
    refine ⟨fun i r hr => (h.kept i r hr).imp early (And.imp_right early), fun i r hi hr => ?_⟩
    rw [hd, List.getElem?_append] at hr
    split at hr
    · exact h.late i r hi hr
    · exact List.mem_singleton.1 (List.mem_of_getElem? hr)
  · refine ⟨fun j r hr => ?_, fun j r hj hr => ?_⟩
    · by_cases hij : i = j
      · subst hij
        obtain ⟨bound, _⟩ := List.getElem?_eq_some_iff.1 hi
        have old : r = .pending := by
          rcases h.kept i r hr with same | ⟨pending, _⟩
          · exact Option.some.inj (same.symm.trans hi)
          · exact pending
        exact Or.inr ⟨old, by rw [hd, List.getElem?_set_self bound]⟩
      · rw [hd, List.getElem?_set_ne hij]
        exact h.kept j r hr
    · rw [hd, List.getElem?_set] at hr
      split at hr
      · -- A receive that was pending is not a new one.
        rename_i hij
        cases h.late i _ (hij ▸ hj) hi
      · exact h.late j r hj hr

/-- **The receives of a closed channel**: no history answers one that is pending. -/
theorem outlived_run {c : Channel α} (fair : Fair c) (hc : c.closed = true) (actions : List (Action α)) :
    Outlived c.receives (c.run actions) := by
  have start : Outlived c.receives c := by
    refine ⟨fun _ _ => Or.inl, fun i r hi hr => ?_⟩
    rw [List.getElem?_eq_none hi] at hr
    cases hr
  have keep (d e : Channel α) : (Fair d ∧ d.closed = true ∧ Outlived c.receives d) → Move d e →
      Fair e ∧ e.closed = true ∧ Outlived c.receives e :=
    fun ⟨fair, hd, h⟩ m => ⟨fair.move m, closed_of_move hd m, h.move fair hd m⟩
  exact (run_induction keep ⟨fair, hc, start⟩ actions).2.2

/-! ## Receives and closing -/

/-- **Closing tells one receive.** The first pending receive ends and all others stay as they are, so none is left
pending exactly when at most one was. From then on nothing answers a receive that is still pending, which can only be
withdrawn, and every new receive ends at once. -/
theorem receives_after_close (capacity : Int) (before after : List (Action α)) (h : .close ∉ before) :
    let c := ({ capacity } : Channel α).run before
    let d := c.act .close
    let e := d.run after
    ((.pending ∉ c.receives ∧ d.receives = c.receives) ∨
      ∃ front back, c.receives = front ++ .pending :: back ∧ .pending ∉ front ∧
        d.receives = front ++ .ended :: back) ∧
    (.pending ∉ d.receives ↔ c.waiting ≤ 1) ∧
    (∀ (i : Nat) (r : Receipt α), d.receives[i]? = some r →
      e.receives[i]? = some r ∨ r = .pending ∧ e.receives[i]? = some .withdrawn) ∧
    (∀ (i : Nat) (r : Receipt α), d.receives.length ≤ i → e.receives[i]? = some r → r = .ended) := by
  intro c d e
  have isOpen : c.closed = false := closed_run rfl h
  have fair : Fair c := (Fair.new capacity true).run before
  have same : d = c.close := act_close isOpen
  have shut : d.closed = true := by rw [same]; exact closed_close c
  have outlived : Outlived d.receives e := outlived_run (fair.act .close) shut after
  refine ⟨?_, ?_, outlived.kept, outlived.late⟩
  · rw [same]
    exact receives_close isOpen
  · rw [← waiting_eq_zero_iff, same, waiting_close isOpen]
    omega

/-- Of two pending receives and one that was withdrawn, the second one stays pending beyond the close. -/
theorem receives_after_close_of_two :
    let c := ({ capacity := 1 } : Channel Nat).run [.receive, .receive, .receive, .withdraw 0]
    let d := c.act .close
    .close ∉ [.receive, .receive, .receive, (.withdraw 0 : Action Nat)] ∧ c.waiting = 2 ∧
      d.receives = [.withdrawn, .ended, .pending] ∧ .pending ∈ d.receives ∧
      (d.run [.submit 7, .receive]).receives = [.withdrawn, .ended, .pending, .ended] := by
  intro c d
  have h : .close ∉ [.receive, .receive, .receive, (.withdraw 0 : Action Nat)] := by decide
  obtain ⟨_, left, _, _⟩ := receives_after_close 1 [.receive, .receive, .receive, .withdraw 0] [.submit 7, .receive] h
  have two : c.waiting = 2 := by decide
  have pending : ¬ .pending ∉ d.receives := fun none => absurd (left.1 none) (by decide)
  exact ⟨h, two, by decide, Decidable.not_not.1 pending, by decide⟩

/-- **A second pending receive outlives the channel**: not every receive that is pending has ended at the standstill
after closing. -/
theorem second_receive_outlives_close : ¬ ∀ (capacity : Int) (before : List (Action Nat)), .close ∉ before →
    .pending ∉ ((({ capacity } : Channel Nat).run before).act .close).receives := by
  intro all
  exact all 1 [.receive, .receive] (by decide) (by decide)

end Channel
end DirWatch

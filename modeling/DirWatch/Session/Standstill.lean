import DirWatch.Session.Steps
import DirWatch.Watcher.Standstill

/-!
# A session comes to rest

Every move of a session lowers its load, so the session at rest moves no further (`Session.step_rest`): the run goes on
at most three times for what the watcher did in one move, and a run that goes on adds nothing to the watcher.
-/

namespace DirWatch

/-- Closing a channel adds no moves. -/
theorem Channel.load_close_le {α : Type} (c : Channel α) : c.close.load ≤ c.load := by
  have h (ss : List (Send α)) : total sendLoad (ss.map endSend) ≤ total sendLoad ss := by
    induction ss with
    | nil => simp
    | cons s rest ih =>
      have : sendLoad (endSend s) ≤ sendLoad s := by
        obtain ⟨item, status⟩ := s
        cases status <;> simp [endSend, sendLoad]
      simp only [List.map_cons, total_cons]
      omega
  unfold close
  split
  · exact Nat.le_refl _
  · have := h c.sends
    simp only [load, List.length_nil]
    omega

/-- Stopping a watcher adds no moves. -/
theorem Watcher.load_stop_le (w : Watcher) : w.stop.load ≤ w.load :=
  Nat.add_le_add_right (Nat.add_le_add_right (Nat.add_le_add_right w.channel.load_close_le _) _) _

namespace Session

/-- Where the stage is neither idle nor starting, the run has one to three moves ahead of it. -/
theorem stageLoad_receiving {s : Session} {i : Nat} (h : s.stage = .receiving i) :
    1 ≤ s.stageLoad ∧ s.stageLoad ≤ 3 := by
  unfold stageLoad
  rw [h]
  dsimp only
  split <;> omega

/-- A new receive is not answered with an item at once. -/
theorem stageLoad_await_le (s : Session) : s.await.stageLoad ≤ 2 := by
  unfold await stageLoad Channel.receive
  dsimp only
  rw [List.getElem?_append_right (Nat.le_refl _), Nat.sub_self]
  cases s.watcher.channel.closed <;> simp

/-- Waiting for a message adds nothing to the watcher. -/
theorem load_await (s : Session) : s.await.watcher.load = s.watcher.load := rfl

/-- A run that ends has no moves ahead of it, and the watcher has no more than before. -/
theorem load_finish_le (s : Session) (status : RunStatus) : (s.finish status).load ≤ 3 * s.watcher.load := by
  have := s.watcher.load_stop_le
  simp only [finish, endRun, load, stageLoad]
  omega

/-- Handling an event leaves the watcher alone. -/
theorem watcher_handle {s t : Session} {e : Event} (h : s.handle e = .ok t) : t.watcher = s.watcher := by
  unfold handle at h
  split at h
  · cases h
  · cases h; rfl
  · unfold dispatch at h
    split at h
    · cases h; rfl
    · split at h
      · cases h
      · cases h; rfl

/-- Taking a message leaves at most two moves of the run. -/
theorem load_takeMessage_le (s : Session) (m : Message) : (s.takeMessage m).load ≤ 3 * s.watcher.load + 2 := by
  cases m with
  | failure message => exact Nat.le_trans (load_finish_le _ _) (Nat.le_add_right _ 2)
  | event e =>
    unfold takeMessage takeEvent
    dsimp only
    split
    · exact Nat.le_trans (load_finish_le _ _) (Nat.le_add_right _ 2)
    · rename_i t h
      have hw : t.watcher = s.watcher := (watcher_handle h).trans rfl
      have ha := stageLoad_await_le t
      unfold load
      rw [load_await, hw]
      omega

/-- A run that goes on lowers the load. -/
theorem load_react {s t : Session} (h : s.react? = some t) : t.load < s.load := by
  unfold react? at h
  split at h
  · cases h
  · rename_i hs
    have before : s.load = 3 * s.watcher.load + 4 := by simp [load, stageLoad, hs]
    unfold reactToStart? at h
    split at h
    · cases h
      have ha := stageLoad_await_le { s with phase := .running }
      have hw : (await { s with phase := .running }).watcher.load = s.watcher.load := rfl
      rw [before, load, hw]
      omega
    · rename_i f _
      cases h
      have := load_finish_le s (.failed f)
      omega
    · cases h
  · rename_i i hs
    unfold reactToReceive? at h
    split at h
    · rename_i m hm
      cases h
      have before : s.load = 3 * s.watcher.load + 3 := by simp [load, stageLoad, hs, hm]
      have := load_takeMessage_le s m
      omega
    · rename_i hm
      cases h
      have before : s.load = 3 * s.watcher.load + 2 := by simp [load, stageLoad, hs, hm]
      have := load_finish_le { s with phase := .closed } .returned
      simp only at this
      omega
    · cases h

/-- Every move lowers the load. -/
theorem load_step {s t : Session} (h : s.step = some t) : t.load < s.load := by
  unfold step at h
  split at h
  · rename_i u hr
    cases h
    exact load_react hr
  · obtain ⟨w, hw, rfl⟩ := Option.map_eq_some_iff.1 h
    have hl := Watcher.load_step hw
    have stage : ({ s with watcher := w } : Session).stageLoad ≤ s.stageLoad + 2 := by
      obtain e | e | ⟨i, e⟩ : s.stage = .idle ∨ s.stage = .starting ∨ ∃ i, s.stage = .receiving i := by
        cases s.stage <;> simp
      · simp [stageLoad, e]
      · simp [stageLoad, e]
      · have before := stageLoad_receiving e
        have after := @stageLoad_receiving { s with watcher := w } i e
        omega
    simp only [load] at stage ⊢
    omega

/-- A session at rest moves no further. -/
theorem step_rest (s : Session) : s.rest.step = none :=
  step_settle (fun _ _ => load_step) s.load s (Nat.le_refl _)

end Session
end DirWatch

import DirWatch.Watcher.Steps

/-!
# A watcher comes to rest

Every move of a watcher lowers its load, so the watcher at rest moves no further (`Watcher.step_rest`).

* **Starting leaves the rest alone** (`Kept`): bringing an observer up touches neither the channel nor the senders, and
  with the gate open it leaves nothing waiting (`passGate_kept`).
-/

namespace DirWatch

/-! ## The gate -/

namespace Site

/-- Past the gate nothing waits. -/
theorem start_ne_waiting (s : Site) (t : Technique) (i : Nat) : (s.start t i).2 ≠ .waiting := by
  unfold start
  dsimp only
  split <;> simp

/-- Starting leaves the gate as it is. -/
theorem gateOpen_start (s : Site) (t : Technique) (i : Nat) : (s.start t i).1.gateOpen = s.gateOpen := by
  unfold start
  dsimp only
  split <;> rfl

/-- Scheduling a handler leaves the gate as it is. -/
theorem gateOpen_schedule (s : Site) (t : Technique) (i : Nat) (root : Path) (recursive : Bool) :
    (s.schedule t i root recursive).1.gateOpen = s.gateOpen := by
  unfold schedule
  dsimp only
  split <;> rfl

/-- With the gate open nothing waits at it. -/
theorem startAtGate_ne_waiting {s : Site} (h : s.gateOpen = true) (t : Technique) (i : Nat) :
    (s.startAtGate t i).2 ≠ .waiting := by
  unfold startAtGate
  simp only [h, Bool.not_true, Bool.and_false, Bool.false_eq_true, if_false]
  exact start_ne_waiting _ t i

/-- With the gate open an observer is brought up without waiting. -/
theorem launch_ne_waiting {s : Site} (h : s.gateOpen = true) (t : Technique) (i : Nat) (root : Path)
    (recursive : Bool) : (s.launch t i root recursive).2 ≠ .waiting := by
  unfold launch
  have gate := gateOpen_schedule s t i root recursive
  split
  · simp
  · rename_i scheduled e
    rw [e, h] at gate
    exact startAtGate_ne_waiting gate t i

end Site

namespace Watcher

/-! ## What starting keeps -/

/-- Two watchers with the same channel, senders and report, of which the second has nothing waiting. -/
structure Kept (w v : Watcher) : Prop where
  channel : v.channel = w.channel
  senders : v.senders = w.senders
  reported : v.reported = w.reported
  waiting : v.waiting = none

theorem kept_endStart {w v : Watcher} (h : Kept w v) (status : StartStatus) : Kept w (v.endStart status) :=
  ⟨h.channel, h.senders, h.reported, h.waiting⟩

theorem kept_publish {w v : Watcher} (h : Kept w v) (i : Nat) : Kept w (v.publish i) := by
  unfold publish
  split <;> exact ⟨h.channel, h.senders, h.reported, h.waiting⟩

theorem kept_giveUp {w v : Watcher} (h : Kept w v) (i : Nat) (root : Path) (e : OsError) :
    Kept w (v.giveUp i root e) :=
  ⟨h.channel, h.senders, h.reported, h.waiting⟩

theorem kept_concludePolling {w v : Watcher} (h : Kept w v) (i : Nat) (root : Path) (recursive : Bool)
    {outcome : Launch} (ho : outcome ≠ .waiting) : Kept w (v.concludePolling i root recursive outcome) := by
  cases outcome with
  | up => exact kept_publish h i
  | waiting => exact absurd rfl ho
  | failed f =>
    cases f with
    | broken message => exact kept_endStart h _
    | os e => exact kept_giveUp h i root e

theorem kept_startPolling {w v : Watcher} (h : Kept w v) (gate : v.site.gateOpen = true) (root : Path)
    (recursive : Bool) : Kept w (v.startPolling root recursive) := by
  unfold startPolling
  split
  · exact kept_endStart h _
  · refine kept_concludePolling ?_ _ root recursive (Site.launch_ne_waiting ?_ _ _ root recursive)
    · exact ⟨h.channel, h.senders, h.reported, h.waiting⟩
    · exact gate

theorem kept_concludeNative {w v : Watcher} (h : Kept w v) (gate : v.site.gateOpen = true) (i : Nat) (root : Path)
    (recursive : Bool) {outcome : Launch} (ho : outcome ≠ .waiting) :
    Kept w (v.concludeNative i root recursive outcome) := by
  cases outcome with
  | up => exact kept_publish h i
  | waiting => exact absurd rfl ho
  | failed f =>
    cases f with
    | broken message => exact kept_endStart h _
    | os e =>
      have hv : Kept w { v with site := v.site.unscheduleAll i } := ⟨h.channel, h.senders, h.reported, h.waiting⟩
      unfold concludeNative
      dsimp only
      split
      · exact kept_endStart hv _
      · exact kept_endStart hv _
      · exact kept_startPolling hv gate root recursive

/-- Passing the gate keeps the channel and the senders, and nothing waits afterwards. -/
theorem passGate_kept (w : Watcher) (gate : w.site.gateOpen = true) (waiting : Waiting) :
    Kept w (w.passGate waiting) := by
  have ho := w.site.start_ne_waiting waiting.technique waiting.observer
  have hg := w.site.gateOpen_start waiting.technique waiting.observer
  rw [gate] at hg
  have hv : Kept w { w with site := (w.site.start waiting.technique waiting.observer).1, waiting := none } :=
    ⟨rfl, rfl, rfl, rfl⟩
  unfold passGate
  dsimp only
  split
  · exact kept_concludeNative hv hg _ _ _ ho
  · exact kept_concludePolling hv _ _ _ ho

/-! ## Loads -/

/-- A new send adds at most three moves. -/
theorem load_submit_le (c : Channel Message) (m : Message) : (c.submit m).load ≤ c.load + 3 := by
  unfold Channel.submit Channel.load
  cases c.closed || !c.reachable <;>
    simp only [total_append, total_cons, total_nil, Channel.sendLoad, if_true, if_false, Bool.false_eq_true] <;> omega

/-- A sender that goes on takes four moves from the senders and adds at most three to the channel. -/
theorem load_hearNext {site : Site} {c : Channel Message} {ss : List Sender}
    {r : Site × Channel Message × List Sender} (h : hearNext? site c ss = some r) :
    r.2.1.load + total senderLoad r.2.2 < c.load + total senderLoad ss := by
  induction ss generalizing r with
  | nil => simp [hearNext?] at h
  | cons s others ih =>
    unfold hearNext? at h
    split at h
    · cases h
    · rename_i i total send n ns others' hs
      obtain ⟨rfl, rfl⟩ := List.cons.inj hs
      split at h
      · split at h
        · cases h
          simp only [total_cons, senderLoad, List.length_cons]
          omega
        · cases h
          have := load_submit_le c (.event n.toEvent)
          simp only [total_cons, senderLoad, List.length_cons]
          omega
      · obtain ⟨q, hq, rfl⟩ := Option.map_eq_some_iff.1 h
        have := ih hq
        simp only [total_cons]
        omega
    · rename_i s' others' _ hs
      obtain ⟨rfl, rfl⟩ := List.cons.inj hs
      obtain ⟨q, hq, rfl⟩ := Option.map_eq_some_iff.1 h
      have := ih hq
      simp only [total_cons]
      omega

/-- Every move lowers the load. -/
theorem load_step {w v : Watcher} (h : w.step = some v) : v.load < w.load := by
  unfold step at h
  split at h
  · rename_i channel hc
    cases h
    have := Channel.load_step hc
    simp only [load]
    omega
  · split at h
    · rename_i u hg
      cases h
      unfold passGate? at hg
      split at hg
      · rename_i gate
        obtain ⟨waiting, hw, rfl⟩ := Option.map_eq_some_iff.1 hg
        have k := passGate_kept w gate waiting
        simp only [load, k.channel, k.senders, k.reported, k.waiting, hw]
        simp
      · cases hg
    · split at h
      · rename_i u hh
        cases h
        unfold hear? at hh
        obtain ⟨r, hr, rfl⟩ := Option.map_eq_some_iff.1 hh
        have := load_hearNext hr
        simp only [load]
        omega
      · unfold report? at h
        split at h
        · rename_i hrun
          obtain ⟨part, -, rfl⟩ := Option.map_eq_some_iff.1 h
          have new : w.reported = false := by
            simp only [Bool.and_eq_true, Bool.not_eq_true'] at hrun
            exact hrun.2
          have := load_submit_le w.channel (.failure (deathMessage part))
          simp only [load, new, if_true, Bool.false_eq_true, if_false]
          omega
        · cases h

/-- A watcher at rest moves no further. -/
theorem step_rest (w : Watcher) : w.rest.step = none :=
  step_settle (fun _ _ => load_step) w.load w (Nat.le_refl _)

end Watcher
end DirWatch

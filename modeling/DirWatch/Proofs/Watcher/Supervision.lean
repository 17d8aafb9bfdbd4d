import DirWatch.Proofs.Watcher.Lifecycle

/-!
# The supervisor's reports

The supervisor looks at the observer in use (`observerInUse?`) once nothing else of the watcher moves, and sends a
failure when it finds it or its emitter dead (`isReporting`). That is the only move that sets the flag `reported`.

- **One move** (`supervise_step`): a move is a report, which sends one failure, or it leaves the flag as it is.
- **Standstill** (`reported_of_dead`): a watcher that stands still and runs has reported the death of its observer.
- Nothing that reaches a watcher from outside takes back a report, a stop or a send (`Onward`).
-/

namespace DirWatch

namespace Channel
variable {α : Type}

/-- What was submitted stays. -/
theorem Push.keeps_submitted {c d : Channel α} (p : Push c d) : c.submitted <+: d.submitted := by
  cases p with
  | idle => exact List.prefix_refl _
  | submit a => exact ⟨[a], (submitted_call c (.submit a)).symm⟩
  | close => exact ⟨[], (submitted_call c .close).symm⟩
  | step e => exact ⟨[], by rw [(Alike.of_step e).submitted, List.append_nil]⟩

end Channel

/-- Whether an observer is dead, or has an emitter that is. -/
def Observer.isDead (o : Observer) : Bool := o.dead || o.emitting && o.emitterDead

/-- The part that the supervisor names when an observer is dead. -/
def Observer.deadPart (o : Observer) : Part := if o.dead then .observer else .emitter

namespace Watcher

open Channel (Push)

variable {w v : Watcher}

/-- The observer in use. -/
def observerInUse? (w : Watcher) : Option Observer := w.current.bind (w.site.observers[·]?)

/-- Whether the next move of a watcher is the supervisor's report. -/
def isReporting (w : Watcher) : Bool :=
  w.channel.step.isNone && w.passGate?.isNone && w.hear?.isNone && w.report?.isSome

/-- A death is noticed where the observer in use is dead. -/
theorem death_eq (w : Watcher) :
    w.death? = w.observerInUse?.bind fun o => if o.isDead then some o.deadPart else none := by
  unfold death? observerInUse?
  cases w.current with
  | none => rfl
  | some i =>
    refine congrArg (w.site.observers[i]?.bind ·) (funext fun o => ?_)
    unfold Observer.isDead Observer.deadPart
    cases o.dead with
    | true => rfl
    | false => cases o.emitting && o.emitterDead <;> rfl

theorem death_eq_some_iff {part : Observer.Part} :
    w.death? = some part ↔ ∃ o, w.observerInUse? = some o ∧ o.isDead = true ∧ o.deadPart = part := by
  simp [death_eq, Option.bind_eq_some_iff]

/-- What the supervisor reports. -/
theorem report_eq_some_iff : w.report? = some v ↔ w.isRunning = true ∧ w.reported = false ∧
    ∃ o, w.observerInUse? = some o ∧ o.isDead = true ∧
      v = { w with reported := true, channel := w.channel.submit (.failure (deathMessage o.deadPart)) } := by
  unfold report?
  cases w.isRunning with
  | false => simp
  | true =>
    cases w.reported with
    | true => simp
    | false =>
      simp only [Bool.not_false, Bool.and_true, if_true, Option.map_eq_some_iff, death_eq_some_iff, true_and]
      constructor
      · rintro ⟨part, ⟨o, inUse, dead, rfl⟩, rfl⟩
        exact ⟨o, inUse, dead, rfl⟩
      · rintro ⟨o, inUse, dead, rfl⟩
        exact ⟨_, ⟨o, inUse, dead, rfl⟩, rfl⟩

/-! ## The flag -/

theorem reported_publish (w : Watcher) (i : Nat) : (w.publish i).reported = w.reported := by
  unfold publish
  split <;> rfl

theorem reported_concludePolling (w : Watcher) (i : Nat) (root : Path) (recursive : Bool) (outcome : Launch) :
    (w.concludePolling i root recursive outcome).reported = w.reported := by
  unfold concludePolling
  split
  · exact reported_publish w i
  · rfl
  · rfl
  · rfl

theorem reported_startPolling (w : Watcher) (root : Path) (recursive : Bool) :
    (w.startPolling root recursive).reported = w.reported := by
  unfold startPolling
  split
  · rfl
  · exact reported_concludePolling ..

theorem reported_concludeNative (w : Watcher) (i : Nat) (root : Path) (recursive : Bool) (outcome : Launch) :
    (w.concludeNative i root recursive outcome).reported = w.reported := by
  unfold concludeNative
  split
  · exact reported_publish w i
  · rfl
  · rfl
  · dsimp only
    split
    · rfl
    · rfl
    · exact reported_startPolling ..

theorem reported_start (w : Watcher) (root : Path) (recursive : Bool) :
    (w.start root recursive).reported = w.reported := by
  unfold start
  split
  · dsimp only
    split
    · rfl
    · split
      · exact reported_startPolling ..
      · exact reported_concludeNative ..
  · rfl

theorem reported_passGate (w : Watcher) (waiting : Waiting) : (w.passGate waiting).reported = w.reported := by
  unfold passGate
  dsimp only
  split
  · exact reported_concludeNative ..
  · exact reported_concludePolling ..

/-! ## Moves -/

/-- **What a move says of the supervisor**: it is a report, the first one, which sends the failure of the observer in
use; or it leaves the flag as it is. -/
theorem supervise_step (h : w.step = some v) :
    w.isReporting = false ∧ v.reported = w.reported ∨
      w.isReporting = true ∧ w.reported = false ∧ v.reported = true ∧ ∃ o, w.observerInUse? = some o ∧
        o.isDead = true ∧ v.channel = w.channel.submit (.failure (deathMessage o.deadPart)) := by
  unfold step at h
  unfold isReporting
  cases hc : w.channel.step with
  | some channel =>
    rw [hc] at h
    cases h
    exact Or.inl ⟨rfl, rfl⟩
  | none =>
    cases hg : w.passGate? with
    | some u =>
      rw [hc, hg] at h
      cases h
      unfold passGate? at hg
      split at hg
      · obtain ⟨waiting, -, rfl⟩ := Option.map_eq_some_iff.1 hg
        exact Or.inl ⟨rfl, reported_passGate w waiting⟩
      · cases hg
    | none =>
      cases hh : w.hear? with
      | some u =>
        rw [hc, hg, hh] at h
        cases h
        obtain ⟨r, -, rfl⟩ := Option.map_eq_some_iff.1 hh
        exact Or.inl ⟨rfl, rfl⟩
      | none =>
        rw [hc, hg, hh] at h
        have report : w.report? = some v := h
        obtain ⟨_, first, o, inUse, dead, rfl⟩ := report_eq_some_iff.1 report
        exact Or.inr ⟨by simp [report], first, rfl, o, inUse, dead, rfl⟩

/-- The supervisor of a watcher that was stopped reports nothing. -/
theorem isReporting_of_stopping (h : w.stopping = true) : w.isReporting = false := by
  have stopped : w.report? = none := by simp [report?, isRunning, h]
  simp [isReporting, stopped]

/-- A watcher at a standstill is not about to report. -/
theorem isReporting_of_still (rest : w.step = none) : w.isReporting = false := by
  simp [isReporting, (still_of_step_eq_none rest).2.2.2]

/-- **A watcher that stands still and runs has reported the death of its observer.** -/
theorem reported_of_dead (rest : w.step = none) (running : w.isRunning = true) {o : Observer}
    (inUse : w.observerInUse? = some o) (dead : o.isDead = true) : w.reported = true := by
  cases reported : w.reported with
  | true => rfl
  | false =>
    have report := report_eq_some_iff.2 ⟨running, reported, o, inUse, dead, rfl⟩
    rw [(still_of_step_eq_none rest).2.2.2] at report
    cases report

/-! ## From outside -/

/-- A watcher later on: its reports are the same, a stop stays, and so does what was sent. -/
structure Onward (w v : Watcher) : Prop where
  reported : v.reported = w.reported
  stopping : w.stopping = true → v.stopping = true
  submitted : w.channel.submitted <+: v.channel.submitted

theorem Onward.refl (w : Watcher) : Onward w w := ⟨rfl, id, List.prefix_refl _⟩

theorem Onward.trans {u : Watcher} (h : Onward w v) (k : Onward v u) : Onward w u :=
  ⟨k.reported.trans h.reported, fun stopping => k.stopping (h.stopping stopping), h.submitted.trans k.submitted⟩

/-- What happens to the channel alone. -/
theorem Onward.onChannel {c : Channel Message} (p : Push w.channel c) : Onward w { w with channel := c } :=
  ⟨rfl, id, p.keeps_submitted⟩

/-- **No call makes or takes back a report.** -/
theorem onward_call (w : Watcher) (a : Action) : Onward w (w.call a) := by
  cases a with
  | start root recursive =>
    have k := spared_start w root recursive
    refine ⟨reported_start w root recursive, fun stopping => k.stopping.trans stopping, ?_⟩
    exact ⟨[], by rw [call, k.channel, List.append_nil]⟩
  | stop => exact ⟨rfl, fun _ => rfl, (Push.close w.channel).keeps_submitted⟩
  | send m => exact ⟨rfl, id, (Push.submit w.channel m).keeps_submitted⟩
  | feed notices =>
    unfold call
    dsimp only
    split
    · exact .refl w
    · exact ⟨rfl, id, List.prefix_refl _⟩
  | receive => exact ⟨rfl, id, List.prefix_refl _⟩
  | withdraw i => exact ⟨rfl, id, [], (Channel.submitted_call w.channel (.withdraw i)).symm⟩
  | change c => exact ⟨rfl, id, List.prefix_refl _⟩
  | kill part =>
    unfold call
    dsimp only
    split
    · exact .refl w
    · exact ⟨rfl, id, List.prefix_refl _⟩
  | release => exact ⟨rfl, id, List.prefix_refl _⟩
  | wait => exact .refl w

end Watcher
end DirWatch

import DirWatch.Proofs.Channel.Closing
import DirWatch.Proofs.Session.Course

/-!
# What is left of a session whose run has ended

However a run ends, it stops the watcher. At the next standstill the channel is quiet, so the session is spent
(`Spent`): whatever happens from then on, the phase, the end of the run, the counts and the calls stay as they are, and
every new send is refused (`Frozen`).

- Every deed and every move leaves a spent session spent (`Spent.undergo`, `Spent.step`).
- The watcher does not run, no sender waits, and every observer that was started was shut down (`orderly_teardown`).
-/

namespace DirWatch

/-- When its channel stands still, a watcher that moves does at most one thing to it: it sends a message. -/
theorem Watcher.channel_of_step {w v : Watcher} (h : w.step = some v) (still : w.channel.step = none) :
    v.channel = w.channel ∨ ∃ m, v.channel = w.channel.submit m := by
  obtain ⟨channel, hc, rfl⟩ | ⟨x, _, rfl⟩ | ⟨r, hr, rfl⟩ | ⟨part, rfl⟩ := step_cases h
  · rw [still] at hc
    cases hc
  · exact Or.inl (spared_passGate w x).channel
  · obtain ⟨front, i, total, send, n, ns, back, _, rfl | rfl⟩ := exists_of_hearNext hr
    · exact Or.inl rfl
    · exact Or.inr ⟨_, rfl⟩
  · exact Or.inr ⟨_, rfl⟩

namespace Session

/-! ## Spent sessions -/

/-- The run has ended, and the channel is quiet. -/
structure Spent (s : Session) : Prop where
  opened : s.opened = true
  stage : s.stage = .idle
  runs : s.runs ≠ []
  ended : .pending ∉ s.runs
  quiet : s.watcher.channel.Quiet

/-- What stays of a session; and sends that were added were refused. -/
structure Frozen (s t : Session) : Prop where
  phase : t.phase = s.phase
  first : t.runs.head? = s.runs.head?
  stats : t.stats = s.stats
  spawned : t.spawned = s.spawned
  sends : ∃ late, t.watcher.channel.sends = s.watcher.channel.sends ++ late ∧ ∀ x ∈ late, x.status = .refused

theorem Frozen.refl (s : Session) : Frozen s s := ⟨rfl, rfl, rfl, rfl, [], by simp, by simp⟩

theorem Frozen.trans {s t u : Session} (h : Frozen s t) (k : Frozen t u) : Frozen s u := by
  obtain ⟨late, hs, refused⟩ := h.sends
  obtain ⟨later, ht, refused'⟩ := k.sends
  refine ⟨k.phase.trans h.phase, k.first.trans h.first, k.stats.trans h.stats, k.spawned.trans h.spawned,
    late ++ later, by rw [ht, hs, List.append_assoc], fun x hx => ?_⟩
  rcases List.mem_append.1 hx with hx | hx
  · exact refused x hx
  · exact refused' x hx

variable {new s : Session}

/-- A message that is sent to a spent session is refused. -/
theorem Spent.touched (h : Spent s) {w : Watcher}
    (channel : w.channel = s.watcher.channel ∨ ∃ m, w.channel = s.watcher.channel.submit m) :
    Spent { s with watcher := w } ∧ Frozen s { s with watcher := w } := by
  rcases channel with same | ⟨m, sent⟩
  · exact ⟨⟨h.opened, h.stage, h.runs, h.ended, same ▸ h.quiet⟩, rfl, rfl, rfl, rfl, [], by simp [same], by simp⟩
  · obtain ⟨quiet, sends⟩ := h.quiet.submit m
    exact ⟨⟨h.opened, h.stage, h.runs, h.ended, sent ▸ quiet⟩, rfl, rfl, rfl, rfl, [⟨m, .refused⟩],
      by rw [← sends, ← sent], by simp⟩

/-- A further run fails at once. -/
theorem Spent.rerun (h : Spent s) : Spent s.run ∧ Frozen s s.run := by
  have fails (f : Failure) : Spent { s with runs := s.runs ++ [.failed f] } ∧
      Frozen s { s with runs := s.runs ++ [.failed f] } := by
    refine ⟨⟨h.opened, h.stage, by simp, by simpa using h.ended, h.quiet⟩, rfl, ?_, rfl, rfl, [], by simp, by simp⟩
    show (s.runs ++ _).head? = _
    rw [List.head?_append_of_ne_nil _ h.runs]
  unfold Session.run
  rw [if_pos h.opened]
  split
  · exact fails _
  · exact fails _

/-- **Every deed leaves a spent session as it is.** -/
theorem Spent.undergo (h : Spent s) (d : Deed) : Spent (s.undergo d) ∧ Frozen s (s.undergo d) := by
  obtain rfl | rfl | ⟨_, ⟨i, e⟩ | ⟨w, e, touched⟩⟩ := s.undergo_cases d
  · exact h.rerun
  · have closed : s.watcher.channel.close = s.watcher.channel := if_pos h.quiet.closed
    show Spent s.close ∧ Frozen s s.close
    unfold Session.close
    rw [if_pos h.opened]
    exact h.touched (Or.inl closed)
  · have none : s.runs[i]? ≠ some .pending := fun e => h.ended (List.mem_of_getElem? e)
    rw [e, cancelRun, if_neg none]
    exact ⟨h, .refl s⟩
  · rw [e]
    exact h.touched touched.channel

/-- **Every move leaves a spent session as it is.** -/
theorem Spent.step (h : Spent s) {t : Session} (e : s.step = some t) : Spent t ∧ Frozen s t := by
  obtain hr | ⟨w, hw, rfl⟩ := step_cases e
  · rw [react?, h.stage] at hr
    cases hr
  · exact h.touched (Watcher.channel_of_step hw h.quiet.step)

/-- Every history leaves a spent session as it is. -/
theorem Spent.deeds (h : Spent s) (ds : List Deed) : Frozen s (s.deeds ds) := by
  have keep {t u : Session} (k : Spent t ∧ Frozen s t) (l : Spent u ∧ Frozen t u) : Spent u ∧ Frozen s u :=
    ⟨l.1, k.2.trans l.2⟩
  exact (deeds_induction (fun _ d k => keep k (k.1.undergo d)) (fun _ _ k e => keep k (k.1.step e)) ⟨h, .refl s⟩ ds).2

/-! ## Runs that have ended -/

/-- A session that has made its watcher and whose run has ended is over. -/
theorem Course.of_ended (h : Course s) (made : s.made = true) (ended : s.runs.head? ≠ some .pending) :
    ∃ start status, s.opened = true ∧ s.stage = .idle ∧ s.watcher.starts = [start] ∧ s.runs.head? = some status ∧
      Ending start status s.phase ∧ s.watcher.stopping = true := by
  cases h with
  | fresh _ none => rw [made] at none; cases none
  | shut _ none => rw [made] at none; cases none
  | unmade _ none => rw [made] at none; cases none
  | starting _ _ _ _ _ _ runs => exact absurd runs ended
  | running _ _ _ _ _ runs => exact absurd runs ended
  | ended opened _ stage starts runs ending stopping =>
    exact ⟨_, _, opened, stage, starts, runs, ending, stopping⟩

/-- At a standstill it is spent. -/
theorem Story.spent (h : Story new s) (rest : s.step = none) (made : s.made = true)
    (ended : s.runs.head? ≠ some .pending) : Spent s := by
  obtain ⟨_, status, opened, stage, _, runs, _, stopping⟩ := h.course.of_ended made ended
  refine ⟨opened, stage, ?_, ?_, ?_⟩
  · intro e
    rw [e] at runs
    cases runs
  · cases h.flow.reading with
    | fresh unopened => rw [opened] at unopened; cases unopened
    | starting _ busy => rw [stage] at busy; cases busy
    | receiving _ busy => rw [stage] at busy; cases busy
    | ended _ _ _ none => exact none
  · have still : s.watcher.channel.step = none := (Watcher.still_of_step_eq_none (watcher_still rest)).1
    exact Channel.quiet_of_still h.flow.fair (h.orderly.closed stopping) still

/-- **Orderly teardown.** Once the run that made the watcher has ended, for whatever reason, a standstill finds the
channel closed, no sender waiting, the watcher not running, and every observer that was started shut down, once. From
then on every send is refused, and the counts and the calls stay as they are. -/
theorem orderly_teardown (root : Path) (registry : Registry Text) (refusal makerFault : Option Text)
    (options : Options) (number : Nat) (table : FileTable) (native polling : Behaviour) (gateOpen : Bool)
    (ds : List Deed) :
    let new : Session := { root, registry, refusal, makerFault, watcher :=
      { options, number, site := { table, native, polling, gateOpen } } }
    let s := new.deeds ds
    s.made = true → s.runs.head? ≠ some .pending →
      (s.watcher.channel.closed = true ∧ (∀ x ∈ s.watcher.senders, s.watcher.senderStatus x ≠ .blocked) ∧
        s.watcher.isRunning = false ∧
        ∀ i o, s.watcher.site.observers[i]? = some o → o.started = true → ∃ interval root recursive,
          s.watcher.site.history i =
            [.create interval, .schedule root recursive, .start, .unscheduleAll, .stop, .join]) ∧
      ∀ more, (s.deeds more).stats = s.stats ∧ (s.deeds more).spawned = s.spawned ∧
        ∃ late, (s.deeds more).watcher.channel.sends = s.watcher.channel.sends ++ late ∧
          ∀ x ∈ late, x.status.result? = some false := by
  intro new s made ended
  have story : Story new s :=
    (Story.start root registry refusal makerFault options number table native polling gateOpen).deeds ds
  have acted : ds ≠ [] := by
    rintro rfl
    cases made
  have rest : s.step = none := step_deeds acted new
  have spent := story.spent rest made ended
  obtain ⟨_, _, _, _, _, _, _, stopping⟩ := story.course.of_ended made ended
  refine ⟨⟨spent.quiet.closed, ?_, ?_, fun i o ho up => story.orderly.life.shut_down stopping ho up⟩, fun more => ?_⟩
  · exact Watcher.senderStatus_ne_blocked story.flow.numbered (watcher_still rest) fun x hx => (spent.quiet.told x hx).1
  · rw [Bool.eq_false_iff]
    intro running
    rw [(story.orderly.life.isRunning_iff.1 running).2] at stopping
    cases stopping
  · have frozen := spent.deeds more
    obtain ⟨late, sends, refused⟩ := frozen.sends
    exact ⟨frozen.stats, frozen.spawned, late, sends, fun x hx => by rw [refused x hx]; rfl⟩

/-- A run is cancelled while its observer waits at the gate and a sender waits for room: the sender is refused, and the
observer is shut down once the gate opens. -/
theorem orderly_teardown_at_gate :
    let options : Options := { pattern := ⟨"*", [.atom .star], rfl⟩ }
    let table : FileTable := ⟨[("r", .present 16877 true)]⟩
    let new : Session :=
      { root := .ofText "r", registry := {}, watcher := { options, site := { table, native := { gated := true } } } }
    let message : Message := .event (.ofTexts .created ["r/a"] none)
    let s := new.deeds [.call .run, .call (.send message), .call (.send message), .call .cancel]
    let t := s.deeds [.call .release, .call (.send message)]
    (s.made = true ∧ s.runs.head? ≠ some .pending) ∧
      (t.stats = s.stats ∧ t.spawned = s.spawned) ∧
      t.watcher.channel.sends.map (·.status.result?) = [some true, some false, some false] ∧
      t.watcher.site.history 0 =
        [.create none, .schedule (.ofText "r") false, .start, .unscheduleAll, .stop, .join] := by
  intro options table new message s t
  have made : s.made = true := by decide
  have ended : s.runs.head? ≠ some .pending := by decide
  obtain ⟨_, later⟩ := orderly_teardown (.ofText "r") {} none none options 0 table { gated := true } {} false
    [.call .run, .call (.send message), .call (.send message), .call .cancel] made ended
  obtain ⟨stats, spawned, _⟩ := later [.call .release, .call (.send message)]
  exact ⟨⟨made, ended⟩, ⟨stats, spawned⟩, by decide, by decide⟩

end Session
end DirWatch

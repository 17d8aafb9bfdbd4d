import DirWatch.Proofs.Session.Lifecycle
import DirWatch.Proofs.Session.Runs
import DirWatch.Proofs.Watcher.Supervision

/-!
# The first failure is a fence

A run that receives a failure of the notifier ends with it. So the events that the channel accepted before are those
that were handled, and whatever was accepted behind it is neither handled nor raised.

- **Receives** (`Heard`): once the run has ended, a failure that was received is the one that ended it. This needs that
  deeds come at a standstill: there no message waits to be taken.
- **Reports** (`reports`): the supervisor sends one failure at most, none after a stop, and one at a standstill at which
  a watcher runs whose observer is dead (`Supervised`, `length_filter_isReporting`).
- Both are joined in `first_failure_fences`.
-/

namespace DirWatch
namespace Session

open Channel (Push)
open Watcher (Onward)

variable {new s : Session}

/-! ## Failures that were received -/

/-- Once the run has ended no receive is pending, and a failure that was received is the one that the run ended with. -/
def Heard (s : Session) : Prop :=
  s.stage = .idle → .pending ∉ s.watcher.channel.receives ∧ ∀ message,
    .item (.failure message) ∈ s.watcher.channel.receives → s.runs.head? = some (.failed (.notifier message))

theorem failure_notMem_taken (s : Session) (message : Text) : .item (.failure message) ∉ s.taken := by
  simp [taken]

/-- What happens to a session whose run has ended answers no receive and changes no run. -/
theorem Heard.same {t : Session} (h : Heard s) (push : Push s.watcher.channel t.watcher.channel)
    (stage : t.stage = s.stage) (runs : ∀ status, s.runs.head? = some status → t.runs.head? = some status) :
    Heard t := by
  intro idle
  obtain ⟨answered, heard⟩ := h (stage.symm.trans idle)
  rw [push.receives_of_answered answered]
  exact ⟨answered, fun message hm => runs _ (heard message hm)⟩

/-- The run ends, with the failure if it has received one. -/
theorem Heard.finish (runs : s.UnderWay) {status : RunStatus} (answered : .pending ∉ s.watcher.channel.receives)
    (heard : ∀ message, .item (.failure message) ∈ s.watcher.channel.receives →
      status = .failed (.notifier message)) : Heard (s.finish status) := by
  intro _
  have same : (s.finish status).watcher.channel.receives = s.watcher.channel.receives :=
    (Push.close s.watcher.channel).receives_of_answered answered
  rw [same]
  refine ⟨answered, fun message hm => ?_⟩
  obtain ⟨later, runs, _⟩ := runs
  rw [← heard message hm]
  exact Watcher.head_set (congrArg List.head? runs) status

/-- The run goes on: with a failure it ends. -/
theorem Heard.react {t : Session} (flow : Flow new s) (e : s.react? = some t) : Heard t := by
  unfold react? at e
  cases flow.reading with
  | fresh _ stage => rw [stage] at e; cases e
  | ended _ stage => rw [stage] at e; cases e
  | starting _ stage _ _ receives runs =>
    rw [stage] at e
    simp only [reactToStart?] at e
    split at e
    · cases e
      intro idle
      cases idle
    · cases e
      exact Heard.finish runs (by simp [receives]) (by simp [receives])
    · cases e
  | @receiving r _ stage receives kept told runs =>
    have current := getElem?_handled receives
    rw [stage] at e
    simp only [reactToReceive?, current] at e
    cases r with
    | pending => cases e
    | withdrawn => cases e
    | ended =>
      cases e
      refine Heard.finish (s := { s with phase := .closed }) runs ?_ fun message hm => ?_
      · simp [receives, pending_notMem_taken]
      · simp [receives, failure_notMem_taken] at hm
    | item m =>
      cases e
      cases m with
      | failure text =>
        refine Heard.finish (s := { s with phase := .errored }) runs ?_ fun message hm => ?_
        · simp [receives, pending_notMem_taken]
        · obtain rfl : message = text := by simpa [receives, failure_notMem_taken] using hm
          rfl
      | event e =>
        show Heard (s.takeEvent e)
        rw [takeEvent_eq]
        split
        · refine Heard.finish (s := s.note e) runs ?_ fun message hm => ?_
          · simp [note, receives, pending_notMem_taken]
          · simp [note, receives, failure_notMem_taken] at hm
        · intro idle
          cases idle

theorem Heard.step {t : Session} (h : Heard s) (flow : Flow new s) (e : s.step = some t) : Heard t := by
  obtain hr | ⟨w, hw, rfl⟩ := step_cases e
  · exact .react flow hr
  · exact h.same (Watcher.push_step hw) rfl fun _ => id

/-- At a standstill a run that is under way has taken all that it received. -/
theorem Flow.receives_of_still (h : Flow new s) (rest : s.step = none) (busy : s.stage ≠ .idle) :
    s.stage = .starting ∧ s.watcher.channel.receives = [] ∨
      s.stage = .receiving s.handled.length ∧ s.watcher.channel.receives = s.taken ++ [.pending] := by
  have idle := (still_of_step_eq_none rest).1
  cases h.reading with
  | fresh _ stage => exact absurd stage busy
  | ended _ stage => exact absurd stage busy
  | starting _ stage _ _ receives => exact Or.inl ⟨stage, receives⟩
  | @receiving r _ stage receives kept told =>
    have current := getElem?_handled receives
    rw [react?, stage] at idle
    simp only [reactToReceive?, current] at idle
    cases r with
    | pending => exact Or.inr ⟨stage, receives⟩
    | item m => cases idle
    | ended => cases idle
    | withdrawn => exact absurd rfl kept

/-- A run that is cancelled at a standstill has taken all that it received. -/
theorem Heard.cancelRun (h : Heard s) (flow : Flow new s) (rest : s.step = none) (i : Nat) :
    Heard (s.cancelRun i) := by
  unfold Session.cancelRun
  split
  · rename_i under
    obtain ⟨busy, runs⟩ := flow.stage_of_pending (List.mem_of_getElem? under)
    obtain ⟨stage, receives⟩ | ⟨stage, receives⟩ := flow.receives_of_still rest busy
    · have still : s.withdraw = s := by simp [withdraw, stage]
      rw [still]
      exact Heard.finish (s := { s with phase := .closed }) runs (by simp [receives]) (by simp [receives])
    · have gone : s.withdraw = { s with watcher := { s.watcher with
          channel := s.watcher.channel.withdraw s.handled.length } } := by simp [withdraw, stage]
      have left : (s.watcher.channel.withdraw s.handled.length).receives = s.taken ++ [.withdrawn] := by
        simp [Channel.withdraw, receives, ← length_taken]
      rw [gone]
      refine Heard.finish (s := { s with
        watcher := { s.watcher with channel := s.watcher.channel.withdraw s.handled.length }
        phase := .closed }) runs ?_ fun message hm => ?_
      · simp [left, pending_notMem_taken]
      · simp [left, failure_notMem_taken] at hm
  · exact h

/-- A further run changes no run before it. -/
theorem Heard.run (h : Heard s) : Heard s.run := by
  have more {t : Session} (channel : t.watcher.channel = s.watcher.channel) (stage : t.stage = s.stage)
      {status : RunStatus} (runs : t.runs = s.runs ++ [status]) : Heard t := by
    refine h.same (channel ▸ .idle _) stage fun first e => ?_
    rw [runs, List.head?_append, e, Option.some_or]
  unfold Session.run
  split
  · exact more rfl rfl rfl
  · split
    · exact more rfl rfl rfl
    · split
      · exact more rfl rfl rfl
      · intro idle
        cases idle

theorem Heard.undergo (h : Heard s) (flow : Flow new s) (rest : s.step = none) (d : Deed) :
    Heard (s.undergo d) := by
  obtain rfl | rfl | ⟨_, ⟨i, e⟩ | ⟨w, e, touched⟩⟩ := s.undergo_cases d
  · exact h.run
  · show Heard s.close
    unfold Session.close
    split
    · exact h.same (.close _) rfl fun _ => id
    · split
      · exact h
      · exact h
  · rw [e]
    exact h.cancelRun flow rest i
  · rw [e]
    exact h.same touched.push rfl fun _ => id

/-- A failure that was received by a standstill has ended the run. -/
theorem Heard.of_received (h : Heard s) (flow : Flow new s) (rest : s.step = none) {message : Text}
    (received : .item (.failure message) ∈ s.watcher.channel.receives) :
    s.runs.head? = some (.failed (.notifier message)) := by
  by_cases idle : s.stage = .idle
  · exact (h idle).2 message received
  · obtain ⟨_, receives⟩ | ⟨_, receives⟩ := flow.receives_of_still rest idle
    · simp [receives] at received
    · simp [receives, failure_notMem_taken] at received

/-- Behind the events that were handled the channel accepted the failure that ended the run. -/
theorem Story.accepted_of_failed (h : Story new s) {message : Text}
    (failed : s.runs.head? = some (.failed (.notifier message))) :
    ∃ later, s.watcher.channel.accepted = s.handled.map (.event ·.1) ++ .failure message :: later := by
  have items : (s.taken ++ [Receipt.item (Message.failure message)]).filterMap Receipt.item? =
      s.handled.map (Message.event ·.1) ++ [Message.failure message] := by
    simp [taken, Receipt.item?, List.filterMap_map, Function.comp_def]
  obtain ⟨later, e⟩ := ((h.course.heard failed).filterMap Receipt.item?).trans h.flow.fair.obtained_prefix
  exact ⟨later, by rw [← e, items, List.append_assoc, List.singleton_append]⟩

/-! ## Behind the failure -/

/-- Once the run has ended nothing more is handled. -/
theorem Spent.handled_deeds (h : Spent s) (ds : List Deed) : (s.deeds ds).handled = s.handled := by
  refine (deeds_induction (P := fun t => Spent t ∧ t.handled = s.handled) ?_ ?_ ⟨h, rfl⟩ ds).2
  · rintro t d ⟨spent, same⟩
    exact ⟨(spent.undergo d).1, (t.undergo_frame d).1.trans same⟩
  · rintro t u ⟨spent, same⟩ e
    obtain hr | ⟨w, _, rfl⟩ := step_cases e
    · rw [react?, spent.stage] at hr
      cases hr
    · exact ⟨(spent.step e).1, same⟩

/-- Only the first run ends with a report of the notifier. -/
def Unrepeated (s : Session) : Prop := ∀ message, .failed (.notifier message) ∉ s.runs.tail

theorem tail_set (runs : List RunStatus) (status : RunStatus) : (runs.set 0 status).tail = runs.tail := by
  cases runs <;> rfl

/-- The run that goes on is the first one. -/
theorem tail_runs_react {t : Session} (h : s.react? = some t) : t.runs.tail = s.runs.tail := by
  obtain same | ⟨status, ended⟩ := runs_react h
  · rw [same]
  · rw [ended, tail_set]

/-- A further run does not end with a report. -/
theorem Unrepeated.run (h : Unrepeated s) : Unrepeated s.run := by
  have more {t : Session} {status : RunStatus} (runs : t.runs = s.runs ++ [status])
      (other : ∀ message, status ≠ .failed (.notifier message)) : Unrepeated t := by
    intro message hm
    rw [runs] at hm
    cases e : s.runs with
    | nil => simp [e] at hm
    | cons first later =>
      have hm : .failed (.notifier message) ∈ later ++ [status] := by simpa [e] using hm
      rcases List.mem_append.1 hm with hm | hm
      · exact h message (by simpa [e] using hm)
      · exact other message (List.mem_singleton.1 hm).symm
  unfold Session.run
  split
  · exact more rfl (by simp)
  · split
    · exact more rfl (by simp)
    · split
      · exact more rfl (by simp)
      · exact more rfl (by simp)

theorem Unrepeated.undergo (h : Unrepeated s) (d : Deed) : Unrepeated (s.undergo d) := by
  have same {t : Session} (runs : t.runs.tail = s.runs.tail) : Unrepeated t := fun message => runs ▸ h message
  obtain rfl | rfl | ⟨_, ⟨i, e⟩ | ⟨w, e, _⟩⟩ := s.undergo_cases d
  · exact h.run
  · refine same ?_
    show s.close.runs.tail = _
    unfold close
    split
    · rfl
    · split <;> rfl
  · rw [e, cancelRun]
    split
    · obtain ⟨channel, gone, _⟩ := s.withdraw_eq
      rw [gone]
      exact same (tail_set ..)
    · exact h
  · rw [e]
    exact h

theorem Unrepeated.step {t : Session} (h : Unrepeated s) (e : s.step = some t) : Unrepeated t := by
  obtain hr | ⟨w, _, rfl⟩ := step_cases e
  · intro message
    rw [tail_runs_react hr]
    exact h message
  · exact h

/-- Only one run ends with a report of the notifier, and it is the first one. -/
theorem Unrepeated.runs_eq (h : Unrepeated s) {message : Text}
    (failed : s.runs.head? = some (.failed (.notifier message))) :
    ∃ others, s.runs = .failed (.notifier message) :: others ∧
      ∀ other, .failed (.notifier other) ∉ others := by
  obtain ⟨others, e⟩ := List.head?_eq_some_iff.1 failed
  exact ⟨others, e, fun other ho => h other (by simpa [e] using ho)⟩

/-! ## The supervisor's reports -/

/-- Whether the next move of a session is the supervisor's report. -/
def isReporting (s : Session) : Bool := s.react?.isNone && s.watcher.isReporting

/-- The sessions that a history passes whose next move is the supervisor's report. -/
def reports (s : Session) (ds : List Deed) : List Session := (s.passed ds).filter isReporting

/-- From one session to the next: the supervisor reports, for the first time, the death of the observer in use, or else
nothing is reported. A stop stays, and so does what was sent. -/
structure Supervised (s t : Session) : Prop where
  silent : s.isReporting = false → t.watcher.reported = s.watcher.reported
  report : s.isReporting = true → s.watcher.reported = false ∧ t.watcher.reported = true ∧
    ∃ o, s.watcher.observerInUse? = some o ∧ o.isDead = true ∧ t.watcher.channel.submitted =
      s.watcher.channel.submitted ++ [.failure (Watcher.deathMessage o.deadPart)]
  stopping : s.watcher.stopping = true → t.watcher.stopping = true
  submitted : s.watcher.channel.submitted <+: t.watcher.channel.submitted

theorem Supervised.of_onward {t : Session} (h : Onward s.watcher t.watcher) (silent : s.isReporting = false) :
    Supervised s t where
  silent _ := h.reported
  report reporting := by
    rw [silent] at reporting
    cases reporting
  stopping := h.stopping
  submitted := h.submitted

theorem isReporting_of_still (rest : s.step = none) : s.isReporting = false := by
  simp [isReporting, Watcher.isReporting_of_still (watcher_still rest)]

theorem isReporting_of_stopping (stopping : s.watcher.stopping = true) : s.isReporting = false := by
  simp [isReporting, Watcher.isReporting_of_stopping stopping]

/-- No deed is a report. -/
theorem onward_undergo (s : Session) (d : Deed) : Onward s.watcher (s.undergo d).watcher := by
  have cancelled (i : Nat) : Onward s.watcher (s.cancelRun i).watcher := by
    unfold cancelRun
    split
    · obtain ⟨channel, gone, withdrawn⟩ := s.withdraw_eq
      have left : Onward s.watcher { s.watcher with channel } := by
        rcases withdrawn with rfl | ⟨i, rfl⟩
        · exact .refl _
        · exact Watcher.onward_call s.watcher (.withdraw i)
      rw [gone]
      exact left.trans (Watcher.onward_call _ .stop)
    · exact .refl _
  cases d with
  | cancelRun i => exact cancelled i
  | call a =>
    cases a with
    | run =>
      show Onward s.watcher s.run.watcher
      obtain ⟨same | started, _⟩ := s.run_frame
      · rw [same]
        exact .refl _
      · rw [started]
        exact Watcher.onward_call ..
    | close =>
      show Onward s.watcher s.close.watcher
      unfold close
      split
      · exact .onChannel (.close _)
      · split <;> exact .refl _
    | cancel =>
      show Onward s.watcher s.cancel.watcher
      rw [cancel_eq_cancelRun]
      exact cancelled _
    | send m =>
      show Onward s.watcher (if s.opened then s.onWatcher (·.send m) else s).watcher
      split
      · exact Watcher.onward_call s.watcher (.send m)
      · exact .refl _
    | feed notices => exact Watcher.onward_call s.watcher (.feed notices)
    | change c => exact Watcher.onward_call s.watcher (.change c)
    | kill part => exact Watcher.onward_call s.watcher (.kill part)
    | release => exact Watcher.onward_call s.watcher .release
    | wait => exact .refl _

/-- What a move says of the supervisor. -/
theorem supervised_step {t : Session} (e : s.step = some t) : Supervised s t := by
  unfold step at e
  cases hr : s.react? with
  | some u =>
    rw [hr] at e
    cases e
    refine .of_onward ?_ (by simp [isReporting, hr])
    obtain ⟨received | stopped, _⟩ := react_frame hr
    · rw [received]
      exact Watcher.onward_call ..
    · rw [stopped]
      exact Watcher.onward_call ..
  | none =>
    rw [hr] at e
    obtain ⟨w, hw, rfl⟩ := Option.map_eq_some_iff.1 e
    have same : s.isReporting = s.watcher.isReporting := by simp [isReporting, hr]
    have stopping : s.watcher.stopping = true → w.stopping = true := (Watcher.stopping_step hw).trans
    have submitted := (Watcher.push_step hw).keeps_submitted
    obtain ⟨silent, kept⟩ | ⟨reporting, first, reported, o, inUse, dead, channel⟩ := Watcher.supervise_step hw
    · exact .of_onward ⟨kept, stopping, submitted⟩ (same.trans silent)
    · refine ⟨fun silent => ?_, fun _ => ⟨first, reported, o, inUse, dead, ?_⟩, stopping, submitted⟩
      · rw [same, reporting] at silent
        cases silent
      · show w.channel.submitted = _
        rw [channel]
        exact Channel.submitted_call s.watcher.channel (.submit _)

/-- All that a history passes is supervised. -/
theorem isChain_supervised (still : s.step = none) (ds : List Deed) : (s :: s.passed ds).IsChain Supervised :=
  isChain_passed_of_still (P := fun _ => True) (fun _ _ _ _ => trivial) (fun _ _ _ _ => trivial)
    (fun t d still _ => .of_onward (t.onward_undergo d) (isReporting_of_still still)) (fun _ _ _ e => supervised_step e)
    still trivial ds

/-- **Reports are told by the flag**: along a chain there is one exactly when the flag was not set before and is set in
the end. -/
theorem length_filter_isReporting {l : List Session} {last : Session} (chain : (s :: l).IsChain Supervised)
    (ending : (s :: l).getLast? = some last) (still : last.isReporting = false) :
    ((s :: l).filter isReporting).length + s.watcher.reported.toNat = last.watcher.reported.toNat := by
  induction l generalizing s with
  | nil =>
    obtain rfl : s = last := by simpa using ending
    simp [still]
  | cons t l ih =>
    obtain ⟨edge, chain⟩ := List.isChain_cons_cons.1 chain
    have later := ih chain (by simpa using ending)
    cases reporting : s.isReporting with
    | true =>
      obtain ⟨first, reported, _⟩ := edge.report reporting
      rw [List.filter_cons_of_pos reporting, List.length_cons, first]
      rw [reported] at later
      exact later
    | false =>
      rw [List.filter_cons_of_neg (by simp [reporting]), ← edge.silent reporting]
      exact later

/-- What was submitted stays to the end of a chain. -/
theorem submitted_prefix_of_isChain {l : List Session} {last : Session} (chain : (s :: l).IsChain Supervised)
    (ending : (s :: l).getLast? = some last) :
    s.watcher.channel.submitted <+: last.watcher.channel.submitted := by
  refine chain.induction (fun t => s.watcher.channel.submitted <+: t.watcher.channel.submitted) _ ?_ ?_ _
    (List.mem_of_getLast? ending)
  · exact fun _ _ edge sent => sent.trans edge.submitted
  · exact fun _ => List.prefix_refl _

/-- A report sends the failure of the observer in use, and nothing else has its place. -/
theorem submitted_of_reporting {l : List Session} {last : Session} (chain : (s :: l).IsChain Supervised)
    (ending : (s :: l).getLast? = some last) (still : last.isReporting = false) (reporting : s.isReporting = true) :
    ∃ o, s.watcher.observerInUse? = some o ∧ o.isDead = true ∧
      last.watcher.channel.submitted[s.watcher.channel.sends.length]? =
        some (.failure (Watcher.deathMessage o.deadPart)) := by
  cases l with
  | nil =>
    obtain rfl : s = last := by simpa using ending
    rw [reporting] at still
    cases still
  | cons t l =>
    obtain ⟨edge, chain⟩ := List.isChain_cons_cons.1 chain
    obtain ⟨_, _, o, inUse, dead, sent⟩ := edge.report reporting
    obtain ⟨later, e⟩ := submitted_prefix_of_isChain chain (by simpa using ending)
    refine ⟨o, inUse, dead, ?_⟩
    have place : s.watcher.channel.sends.length = s.watcher.channel.submitted.length := by simp [Channel.submitted]
    rw [← e, sent, place, List.append_assoc, List.getElem?_append_right (Nat.le_refl _), Nat.sub_self]
    rfl

/-- Behind a stop nothing is reported. -/
theorem filter_isReporting_of_stopping {l : List Session} (chain : (s :: l).IsChain Supervised)
    (stopping : s.watcher.stopping = true) : (s :: l).filter isReporting = [] := by
  have stopped : ∀ t ∈ s :: l, t.watcher.stopping = true :=
    chain.induction (fun t => t.watcher.stopping = true) _ (fun _ _ edge => edge.stopping) fun _ => stopping
  rw [List.filter_eq_nil_iff]
  intro t ht
  simp [isReporting_of_stopping (stopped t ht)]

/-! ## The fence -/

/-- What every history keeps of a new session, when deeds come at standstills only. -/
structure Fenced (new s : Session) : Prop where
  story : Story new s
  heard : Heard s
  unrepeated : Unrepeated s

theorem Fenced.step {t : Session} (h : Fenced new s) (e : s.step = some t) : Fenced new t :=
  ⟨h.story.step e, h.heard.step h.story.flow e, h.unrepeated.step e⟩

theorem Fenced.undergo (h : Fenced new s) (rest : s.step = none) (d : Deed) : Fenced new (s.undergo d) :=
  ⟨h.story.undergo d, h.heard.undergo h.story.flow rest d, h.unrepeated.undergo d⟩

/-- A session that is run and has received a failure has made its watcher. -/
theorem Course.made_of_failed (h : Course s) {message : Text}
    (failed : s.runs.head? = some (.failed (.notifier message))) : s.made = true := by
  cases h with
  | fresh _ _ _ _ _ runs => simp [runs] at failed
  | shut _ _ _ _ _ runs => cases runs _ (List.mem_of_mem_head? failed)
  | unmade _ _ _ _ _ runs => simp [runs] at failed
  | starting _ made => exact made
  | running _ made => exact made
  | ended _ made => exact made

/-- **The first failure is a fence.** Whatever happens to a session, a failure that its run took from the channel is the
first one that the channel accepted: the events accepted before it are those that were handled, and no event is handled
later. The run ends with that failure, and no other run ends with one. The supervisor reports at most one death, of the
observer that is in use then, and sends the failure that names the observer if that is dead and its emitter otherwise;
behind a stop it reports nothing; and a standstill at which the watcher runs and its observer is dead finds the death
reported. -/
theorem first_failure_fences (root : Path) (registry : Registry Text) (refusal makerFault : Option Text)
    (options : Options) (number : Nat) (table : FileTable) (native polling : Behaviour) (gateOpen : Bool)
    (ds : List Deed) :
    let new : Session := { root, registry, refusal, makerFault, watcher :=
      { options, number, site := { table, native, polling, gateOpen } } }
    let s := new.deeds ds
    let c := s.watcher.channel
    (∀ message, .item (.failure message) ∈ c.receives →
      (∃ later, c.accepted = s.handled.map (.event ·.1) ++ .failure message :: later) ∧
      ∀ more, (s.deeds more).handled = s.handled ∧
        ∃ others, (s.deeds more).runs = .failed (.notifier message) :: others ∧
          ∀ other, .failed (.notifier other) ∉ others) ∧
    ((new.reports ds).length ≤ 1 ∧
      ∀ t ∈ new.reports ds, ∃ o, t.watcher.observerInUse? = some o ∧ o.isDead = true ∧
        c.submitted[t.watcher.channel.sends.length]? = some (.failure (Watcher.deathMessage o.deadPart))) ∧
    (∀ front t back, new.passed ds = front ++ t :: back → t.watcher.stopping = true →
      (t :: back).filter isReporting = []) ∧
    (s.watcher.isRunning = true → ∀ o, s.watcher.observerInUse? = some o → o.isDead = true →
      (new.reports ds).length = 1) := by
  intro new s c
  have still : new.step = none := step_new root registry refusal makerFault options number _
  have fenced : Fenced new s := by
    refine deeds_induction_of_still (fun _ d rest h => h.undergo rest d) (fun _ _ h e => h.step e) still ?_ ds
    exact ⟨Story.start root registry refusal makerFault options number table native polling gateOpen,
      fun _ => by simp [new], fun _ => by simp [new]⟩
  have rest : s.step = none := step_deeds_of_still still ds
  have chain := isChain_supervised still ds
  have ending := getLast?_passed new ds
  have silent : s.isReporting = false := isReporting_of_still rest
  have flag : (new.reports ds).length = s.watcher.reported.toNat := by
    have counted := length_filter_isReporting chain ending silent
    rw [List.filter_cons_of_neg (by simp [isReporting_of_still still])] at counted
    exact counted
  refine ⟨fun message received => ?_, ⟨?_, fun t ht => ?_⟩, fun front t back split stopping => ?_,
    fun running o inUse dead => ?_⟩
  · have failed := fenced.heard.of_received fenced.story.flow rest received
    have spent := fenced.story.spent rest (fenced.story.course.made_of_failed failed) (by simp [failed])
    refine ⟨fenced.story.accepted_of_failed failed, fun more => ⟨spent.handled_deeds more, ?_⟩⟩
    have unrepeated : Unrepeated (s.deeds more) :=
      deeds_induction (fun _ d h => h.undergo d) (fun _ _ h e => h.step e) fenced.unrepeated more
    exact unrepeated.runs_eq ((spent.deeds more).first.trans failed)
  · rw [flag]
    exact Bool.toNat_le _
  · obtain ⟨passed, reporting⟩ := List.mem_filter.1 ht
    obtain ⟨front, back, split⟩ := List.append_of_mem passed
    rw [split, ← List.cons_append] at chain ending
    rw [List.getLast?_append_of_ne_nil _ (List.cons_ne_nil _ _)] at ending
    exact submitted_of_reporting chain.right_of_append ending silent reporting
  · rw [split, ← List.cons_append] at chain
    exact filter_isReporting_of_stopping chain.right_of_append stopping
  · rw [flag, Watcher.reported_of_dead (watcher_still rest) running inUse dead]
    rfl

/-- An observer dies between two events: the first one is handled, and the run ends with the death. -/
example :
    let table : FileTable := ⟨[("r", .present 16877 true)]⟩
    let options : Options := { pattern := ⟨"*", [.atom .star], rfl⟩ }
    let new : Session := { root := .ofText "r", registry := {}, watcher := { options, site := { table } } }
    let event (path : Text) : Deed := .call (.send (.event (.ofTexts .created [path] none)))
    let s := new.deeds [.call .run, event "r/a", .call (.kill .observer), event "r/b", .call (.send (.failure "late"))]
    s.handled.map (·.1) = [.ofTexts .created ["r/a"] none] ∧
      s.runs = [.failed (.notifier (Watcher.deathMessage .observer))] := by decide

end Session
end DirWatch

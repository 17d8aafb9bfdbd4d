import DirWatch.Proofs.Session.Deeds
import DirWatch.Proofs.Watcher.Failures

/-!
# The course of a session

A session is fresh, was closed before it was run, has no watcher because none could be made, starts its watcher, takes
messages, or is over (`Course`). Each state says the phase, how the first run stands, and what was asked of the watcher;
a run that is over says how it ended (`Ending`).

- Every deed and every move leads from one state to another, and the phase goes along one edge at most
  (`Course.undergo`, `Course.step`).
- A run ends with what the channel or the surroundings gave it: so the notifier's report is told apart from every
  other failure (`Failure.isOutside`).
-/

namespace DirWatch

/-! ## Phases -/

/-- The edges between the phases of a session. -/
inductive Phase.Next : Phase → Phase → Prop
  | start : Next .created .running
  | forgo : Next .created .closed
  | close : Next .running .closed
  | fail : Next .running .errored

/-- A phase stays or goes along an edge. -/
def Phase.Leads (p q : Phase) : Prop := p = q ∨ p.Next q

theorem Phase.Leads.of_eq {p q : Phase} (h : q = p) : p.Leads q := Or.inl h.symm

/-- A closed session and one that has failed stay so. -/
theorem Phase.Leads.eq_of_final {p q : Phase} (h : p.Leads q) (final : p = .closed ∨ p = .errored) : q = p := by
  rcases h with rfl | next
  · rfl
  · cases next <;> simp at final

/-- No phase leads back to the first one. -/
theorem Phase.Leads.ne_created {p q : Phase} (h : p.Leads q) (past : p ≠ .created) : q ≠ .created := by
  rcases h with rfl | next
  · exact past
  · cases next <;> simp

/-! ## What can go wrong with an event -/

namespace Filter

theorem isOutside_typeOf {table : FileTable} {hint : Option Bool} {path : Path} {f : Failure}
    (h : typeOf table hint path = .error f) : f.isOutside = true := by
  unfold typeOf at h
  dsimp only at h
  split at h
  · cases h
  · cases h
  · cases h
  · rename_i g _ e
    cases h
    exact Failure.isOutside_of_isOfTable (FileTable.isOfTable_probe e)

theorem isOutside_keeps {o : Options} {table : FileTable} {hint : Option Bool} {path : Path} {f : Failure}
    (h : keeps o table hint path = .error f) : f.isOutside = true := by
  unfold keeps at h
  cases e : typeOf table hint path with
  | error g =>
    rw [e] at h
    cases h
    exact isOutside_typeOf e
  | ok type =>
    rw [e] at h
    cases type <;> cases h

theorem isOutside_keep {o : Options} {table : FileTable} {hint : Option Bool} {paths : List Path} {f : Failure}
    (h : keep o table hint paths = .error f) : f.isOutside = true := by
  induction paths with
  | nil => cases h
  | cons p rest ih =>
    unfold keep at h
    cases e : keeps o table hint p with
    | error g =>
      rw [e] at h
      cases h
      exact isOutside_keeps e
    | ok kept =>
      rw [e] at h
      cases e' : keep o table hint rest with
      | error g =>
        rw [e'] at h
        cases h
        exact ih e'
      | ok others =>
        rw [e'] at h
        cases h

end Filter

namespace Session

open Channel (Push)
open Watcher (Orderly Outside)

/-- An event cannot be handled only for a reason that lies outside. -/
theorem isOutside_handle {s : Session} {e : Event} {f : Failure} (h : s.handle e = .error f) :
    f.isOutside = true := by
  unfold handle at h
  split at h
  · rename_i g hf
    cases h
    exact Filter.isOutside_keep hf
  · cases h
  · unfold dispatch at h
    split at h
    · cases h
    · split at h
      · cases h
        rfl
      · cases h

/-- Handling an event leaves the phase and the watcher's making alone. -/
theorem handle_stays {s t : Session} {e : Event} (h : s.handle e = .ok t) :
    t.phase = s.phase ∧ t.made = s.made ∧ t.makerFault = s.makerFault := by
  obtain ⟨f, hf, _⟩ | ⟨ht, _⟩ | ⟨ht, _⟩ | ⟨d, ht, _⟩ := handle_cases (s := s) rfl rfl e
  · rw [h] at hf
    cases hf
  · cases h.symm.trans ht
    exact ⟨rfl, rfl, rfl⟩
  · cases h.symm.trans ht
    exact ⟨rfl, rfl, rfl⟩
  · cases h.symm.trans ht
    exact ⟨rfl, rfl, rfl⟩

/-! ## The course of a session -/

/-- How the run that made the watcher ended: the answer to the watcher's start, the end of the run, and the phase that
is left. -/
inductive Ending : StartStatus → RunStatus → Phase → Prop
  /-- The watcher could not be started. -/
  | unstarted {f : Failure} (outside : f.isOutside = true) : Ending (.failed f) (.failed f) .created
  /-- The channel was closed. -/
  | returned : Ending .finished .returned .closed
  /-- The notifier reported a failure. -/
  | notified (message : Text) : Ending .finished (.failed (.notifier message)) .errored
  /-- An event could not be handled. -/
  | broken {f : Failure} (outside : f.isOutside = true) : Ending .finished (.failed f) .running
  /-- The run was cancelled, maybe while the watcher started. -/
  | cancelled (start : StartStatus) : Ending start (.failed .cancelled) .closed

/-- How a session stands. -/
inductive Course (s : Session) : Prop
  /-- The session was neither run nor closed. -/
  | fresh (opened : s.opened = false) (made : s.made = false) (stage : s.stage = .idle) (phase : s.phase = .created)
      (starts : s.watcher.starts = []) (runs : s.runs = [])
  /-- The session was closed before it was run. -/
  | shut (opened : s.opened = false) (made : s.made = false) (stage : s.stage = .idle) (phase : s.phase = .closed)
      (starts : s.watcher.starts = []) (runs : ∀ r ∈ s.runs, r = .failed (.sessionSpent .closed))
  /-- The watcher could not be made. -/
  | unmade {message : Text} (opened : s.opened = true) (made : s.made = false) (stage : s.stage = .idle)
      (phase : s.phase = .created) (starts : s.watcher.starts = [])
      (runs : s.runs.head? = some (.failed (.broken message)))
  /-- The watcher starts. -/
  | starting {start : StartStatus} (opened : s.opened = true) (made : s.made = true) (stage : s.stage = .starting)
      (phase : s.phase = .created) (starts : s.watcher.starts = [start]) (outside : Outside start)
      (runs : s.runs.head? = some .pending)
  /-- The run takes messages. -/
  | running {i : Nat} (opened : s.opened = true) (made : s.made = true) (stage : s.stage = .receiving i)
      (phase : s.phase = .running) (starts : s.watcher.starts = [.finished]) (runs : s.runs.head? = some .pending)
  /-- The run has ended, and the watcher was stopped. A run that ended with the notifier's report has received it. -/
  | ended {start : StartStatus} {status : RunStatus} (opened : s.opened = true) (made : s.made = true)
      (stage : s.stage = .idle) (starts : s.watcher.starts = [start]) (runs : s.runs.head? = some status)
      (ending : Ending start status s.phase) (stopping : s.watcher.stopping = true)
      (heard : ∀ message, status = .failed (.notifier message) →
        s.taken ++ [.item (.failure message)] <+: s.watcher.channel.receives)

variable {new s : Session}

/-- What happens on the side of the watcher, its first start apart, leaves a session where it is. -/
theorem Course.push (h : Course s) {w : Watcher} (p : Push s.watcher.channel w.channel)
    (starts : w.starts = s.watcher.starts) (stopping : w.stopping = s.watcher.stopping) :
    Course { s with watcher := w } := by
  cases h with
  | fresh opened made stage phase none runs => exact .fresh opened made stage phase (starts.trans none) runs
  | shut opened made stage phase none runs => exact .shut opened made stage phase (starts.trans none) runs
  | unmade opened made stage phase none runs => exact .unmade opened made stage phase (starts.trans none) runs
  | starting opened made stage phase first outside runs =>
    exact .starting opened made stage phase (starts.trans first) outside runs
  | running opened made stage phase first runs => exact .running opened made stage phase (starts.trans first) runs
  | ended opened made stage first runs ending stopped heard =>
    refine .ended opened made stage (starts.trans first) runs ending (stopping.trans stopped) fun message e => ?_
    exact p.prefix_receives (heard message e) (by simp [pending_notMem_taken])

/-- The run under way ends. -/
theorem Course.finish {start : StartStatus} (opened : s.opened = true) (made : s.made = true)
    (starts : s.watcher.starts = [start]) (runs : s.runs.head? = some .pending) {status : RunStatus}
    (ending : Ending start status s.phase)
    (heard : ∀ message, status = .failed (.notifier message) →
      s.taken ++ [.item (.failure message)] <+: s.watcher.channel.receives) : Course (s.finish status) := by
  refine .ended opened made rfl starts (Watcher.head_set runs status) ending rfl fun message e => ?_
  exact (Push.close s.watcher.channel).prefix_receives (heard message e) (by simp [pending_notMem_taken])

/-! ## Moves -/

/-- Taking the message that the run waited for. -/
theorem Course.takeMessage {m : Message} (opened : s.opened = true) (made : s.made = true)
    (phase : s.phase = .running) (starts : s.watcher.starts = [.finished]) (runs : s.runs.head? = some .pending)
    (receives : s.watcher.channel.receives = s.taken ++ [.item m]) :
    Course (s.takeMessage m) ∧ s.phase.Leads (s.takeMessage m).phase := by
  cases m with
  | failure message =>
    refine ⟨?_, Or.inr (phase ▸ .fail)⟩
    refine Course.finish (s := { s with phase := .errored }) opened made starts runs (.notified message) ?_
    intro text e
    cases e
    exact ⟨[], by rw [List.append_nil]; exact receives.symm⟩
  | event e =>
    show Course (s.takeEvent e) ∧ s.phase.Leads (s.takeEvent e).phase
    rw [takeEvent_eq]
    cases ht : (s.note e).handle e with
    | error f =>
      have outside := isOutside_handle ht
      refine ⟨?_, .of_eq rfl⟩
      refine Course.finish (s := s.note e) opened made starts runs ?_ ?_
      · rw [show (s.note e).phase = .running from phase]
        exact .broken outside
      · intro message e
        cases e
        cases outside
    | ok t =>
      obtain ⟨hw, _, ho, hr⟩ := handle_frame ht
      obtain ⟨hp, hm, _⟩ := handle_stays ht
      refine ⟨.running (ho.trans opened) (hm.trans made) rfl (hp.trans phase) ?_ ?_, .of_eq hp⟩
      · show t.watcher.starts = _
        rw [hw]
        exact starts
      · show t.runs.head? = _
        rw [hr]
        exact runs

/-- The run that goes on. -/
theorem Course.react {t : Session} (h : Course s) (flow : Flow new s) (e : s.react? = some t) :
    Course t ∧ s.phase.Leads t.phase := by
  unfold react? at e
  cases h with
  | fresh _ _ stage => rw [stage] at e; cases e
  | shut _ _ stage => rw [stage] at e; cases e
  | unmade _ _ stage => rw [stage] at e; cases e
  | ended _ _ stage => rw [stage] at e; cases e
  | @starting start opened made stage phase starts outside runs =>
    rw [stage] at e
    simp only [reactToStart?, starts, List.head?_cons] at e
    cases start with
    | pending => cases e
    | finished =>
      cases e
      exact ⟨.running opened made rfl rfl starts runs, Or.inr (phase ▸ .start)⟩
    | failed f =>
      cases e
      refine ⟨.finish opened made starts runs ?_ ?_, .of_eq rfl⟩
      · rw [phase]
        exact .unstarted (outside f rfl)
      · intro message e
        cases e
        cases outside _ rfl
  | @running i opened made stage phase starts runs =>
    rw [stage] at e
    cases flow.reading with
    | fresh _ idle => rw [stage] at idle; cases idle
    | starting _ starting => rw [stage] at starting; cases starting
    | ended _ idle => rw [stage] at idle; cases idle
    | @receiving r _ waits receives kept told =>
      obtain rfl : i = s.handled.length := by
        rw [stage] at waits
        exact Stage.receiving.inj waits
      have current := getElem?_handled receives
      simp only [reactToReceive?, current] at e
      cases r with
      | item m =>
        cases e
        exact Course.takeMessage opened made phase starts runs receives
      | ended =>
        cases e
        refine ⟨?_, Or.inr (phase ▸ .close)⟩
        exact Course.finish (s := { s with phase := .closed }) opened made starts runs .returned (by simp)
      | pending => cases e
      | withdrawn => cases e

/-- **Every move of a session leads from one state to another**, and the phase along one edge at most. -/
theorem Course.step {t : Session} (h : Course s) (flow : Flow new s) (orderly : s.watcher.Orderly)
    (e : s.step = some t) : Course t ∧ s.phase.Leads t.phase := by
  obtain hr | ⟨w, hw, rfl⟩ := step_cases e
  · exact h.react flow hr
  · refine ⟨?_, .of_eq rfl⟩
    have p := Watcher.push_step hw
    have stopping := Watcher.stopping_step hw
    rcases Watcher.starts_step orderly.life hw with same | ⟨pending, answer, answered, outside, -⟩
    · exact h.push p same stopping
    · -- Only a start that is pending is answered, so the session waits for it or was cancelled meanwhile.
      cases h with
      | fresh _ _ _ _ none => simp [none] at pending
      | shut _ _ _ _ none => simp [none] at pending
      | unmade _ _ _ _ none => simp [none] at pending
      | starting opened made stage phase starts _ runs =>
        exact .starting opened made stage phase (by simp [answered, starts]) outside runs
      | running _ _ _ _ starts => simp [starts] at pending
      | ended opened made stage starts runs ending stopped heard =>
        obtain rfl : _ = StartStatus.pending := by simpa [starts] using pending
        have first : w.starts = [answer] := by simp [answered, starts]
        refine .ended opened made stage first runs ?_ (stopping.trans stopped) fun message e => ?_
        · show Ending answer _ s.phase
          generalize s.phase = phase at ending
          cases ending
          exact .cancelled answer
        · exact p.prefix_receives (heard message e) (by simp [pending_notMem_taken])

/-! ## Deeds -/

/-- What reaches a watcher from outside, starting, stopping and closing apart: at most it sends a message. -/
structure Touched (w v : Watcher) : Prop where
  channel : v.channel = w.channel ∨ ∃ m, v.channel = w.channel.submit m
  starts : v.starts = w.starts
  stopping : v.stopping = w.stopping
  orderly : w.Orderly → v.Orderly

theorem Touched.push {w v : Watcher} (h : Touched w v) : Push w.channel v.channel := by
  rcases h.channel with same | ⟨m, sent⟩
  · rw [same]
    exact .idle _
  · rw [sent]
    exact .submit _ m

theorem Touched.of_call {w : Watcher} {a : Watcher.Action} (h : (w.call a).channel = w.channel ∧
    (w.call a).starts = w.starts ∧ (w.call a).stopping = w.stopping) : Touched w (w.call a) :=
  ⟨Or.inl h.1, h.2.1, h.2.2, fun orderly => orderly.call a⟩

/-- **What a deed does**: it runs or closes the session, cancels a run, or reaches the watcher. -/
theorem undergo_cases (s : Session) (d : Deed) :
    d = .call .run ∨ d = .call .close ∨ d.isDecisive = false ∧ ((∃ i, s.undergo d = s.cancelRun i) ∨
      ∃ w, s.undergo d = { s with watcher := w } ∧ Touched s.watcher w) := by
  have same : Touched s.watcher s.watcher := ⟨Or.inl rfl, rfl, rfl, id⟩
  cases d with
  | cancelRun i => exact Or.inr (Or.inr ⟨rfl, Or.inl ⟨i, rfl⟩⟩)
  | call a =>
    cases a with
    | run => exact Or.inl rfl
    | close => exact Or.inr (Or.inl rfl)
    | cancel => exact Or.inr (Or.inr ⟨rfl, Or.inl ⟨_, s.cancel_eq_cancelRun⟩⟩)
    | send m =>
      refine Or.inr (Or.inr ⟨rfl, Or.inr ?_⟩)
      by_cases opened : s.opened = true
      · exact ⟨s.watcher.send m, if_pos opened, Or.inr ⟨m, rfl⟩, rfl, rfl, fun h => h.call (.send m)⟩
      · exact ⟨s.watcher, if_neg opened, same⟩
    | feed notices =>
      refine Or.inr (Or.inr ⟨rfl, Or.inr ⟨_, rfl, .of_call ?_⟩⟩)
      unfold Watcher.call
      dsimp only
      split <;> exact ⟨rfl, rfl, rfl⟩
    | change c => exact Or.inr (Or.inr ⟨rfl, Or.inr ⟨_, rfl, .of_call ⟨rfl, rfl, rfl⟩⟩⟩)
    | kill part =>
      refine Or.inr (Or.inr ⟨rfl, Or.inr ⟨_, rfl, .of_call ?_⟩⟩)
      unfold Watcher.call
      dsimp only
      split <;> exact ⟨rfl, rfl, rfl⟩
    | release => exact Or.inr (Or.inr ⟨rfl, Or.inr ⟨_, rfl, .of_call ⟨rfl, rfl, rfl⟩⟩⟩)
    | wait => exact Or.inr (Or.inr ⟨rfl, Or.inr ⟨_, rfl, same⟩⟩)

/-- A session that was not opened and is in its first phase was neither run nor closed. -/
theorem Course.of_unopened (h : Course s) (unopened : ¬ s.opened = true) (phase : s.phase = .created) :
    s.made = false ∧ s.stage = .idle ∧ s.watcher.starts = [] ∧ s.runs = [] := by
  cases h with
  | fresh _ made stage _ starts runs => exact ⟨made, stage, starts, runs⟩
  | shut _ _ _ closed => rw [phase] at closed; cases closed
  | unmade opened => exact absurd opened unopened
  | starting opened => exact absurd opened unopened
  | running opened => exact absurd opened unopened
  | ended opened => exact absurd opened unopened

/-- A further run fails at once. -/
theorem Course.rerun (h : Course s) {f : Failure} (spent : s.phase = .created → s.opened = true)
    (reason : s.phase ≠ .created → f = .sessionSpent s.phase) : Course { s with runs := s.runs ++ [.failed f] } := by
  have same {status : RunStatus} (runs : s.runs.head? = some status) :
      (s.runs ++ [RunStatus.failed f]).head? = some status := by
    rw [List.head?_append, runs]
    rfl
  cases h with
  | fresh opened _ _ phase =>
    rw [spent phase] at opened
    cases opened
  | shut opened made stage phase starts runs =>
    refine .shut opened made stage phase starts fun r hr => ?_
    rcases List.mem_append.1 hr with hr | hr
    · exact runs r hr
    · rw [List.mem_singleton.1 hr, reason (by simp [phase]), phase]
  | unmade opened made stage phase starts runs => exact .unmade opened made stage phase starts (same runs)
  | starting opened made stage phase starts outside runs =>
    exact .starting opened made stage phase starts outside (same runs)
  | running opened made stage phase starts runs => exact .running opened made stage phase starts (same runs)
  | ended opened made stage starts runs ending stopping heard =>
    exact .ended opened made stage starts (same runs) ending stopping heard

theorem Course.run (h : Course s) : Course s.run ∧ s.run.phase = s.phase := by
  unfold Session.run
  split
  · rename_i phase
    exact ⟨h.rerun (fun created => absurd created phase) fun _ => rfl, rfl⟩
  rename_i phase
  have phase : s.phase = .created := by simpa using phase
  split
  · rename_i opened
    exact ⟨h.rerun (fun _ => opened) fun other => absurd phase other, rfl⟩
  rename_i unopened
  obtain ⟨made, stage, starts, runs⟩ := h.of_unopened unopened phase
  split
  · rename_i message _
    have failed : (s.runs ++ [RunStatus.failed (.broken message)]).head? = some (.failed (.broken message)) := by
      simp [runs]
    exact ⟨.unmade rfl made stage phase starts failed, rfl⟩
  · obtain ⟨answer, first, outside, -⟩ := Watcher.starts_start starts s.root s.options.recursive
    exact ⟨.starting rfl rfl rfl phase first outside (by simp [runs]), rfl⟩

theorem Course.close (h : Course s) : Course s.close ∧ s.phase.Leads s.close.phase := by
  unfold Session.close
  split
  · exact ⟨h.push (.close _) rfl rfl, .of_eq rfl⟩
  rename_i unopened
  split
  · rename_i phase
    obtain ⟨made, stage, starts, runs⟩ := h.of_unopened unopened phase
    have opened : s.opened = false := by simpa using unopened
    exact ⟨.shut opened made stage rfl starts (by simp [runs]), Or.inr (phase ▸ .forgo)⟩
  · exact ⟨h, .of_eq rfl⟩

/-- Giving a receive up changes the channel alone. -/
theorem withdraw_eq (s : Session) :
    ∃ channel, s.withdraw = { s with watcher := { s.watcher with channel } } ∧
      (channel = s.watcher.channel ∨ ∃ i, channel = s.watcher.channel.withdraw i) := by
  unfold withdraw
  split
  · exact ⟨_, rfl, Or.inr ⟨_, rfl⟩⟩
  · exact ⟨s.watcher.channel, rfl, Or.inl rfl⟩

theorem Course.cancelRun (h : Course s) (flow : Flow new s) (i : Nat) :
    Course (s.cancelRun i) ∧ s.phase.Leads (s.cancelRun i).phase := by
  unfold Session.cancelRun
  split
  · rename_i under
    obtain ⟨channel, gone, _⟩ := s.withdraw_eq
    rw [gone]
    have cancel {start : StartStatus} (opened : s.opened = true) (made : s.made = true)
        (starts : s.watcher.starts = [start]) (runs : s.runs.head? = some .pending) (next : s.phase.Next .closed) :
        Course (Session.finish { s with watcher := { s.watcher with channel }, phase := .closed }
          (.failed .cancelled)) ∧ s.phase.Leads .closed :=
      ⟨Course.finish (s := { s with watcher := { s.watcher with channel }, phase := .closed }) opened made starts runs
        (.cancelled start) (by simp), Or.inr next⟩
    obtain ⟨busy, _⟩ := flow.stage_of_pending (List.mem_of_getElem? under)
    cases h with
    | fresh _ _ stage => exact absurd stage busy
    | shut _ _ stage => exact absurd stage busy
    | unmade _ _ stage => exact absurd stage busy
    | ended _ _ stage => exact absurd stage busy
    | starting opened made _ phase starts _ runs => exact cancel opened made starts runs (phase ▸ .forgo)
    | running opened made _ phase starts runs => exact cancel opened made starts runs (phase ▸ .close)
  · exact ⟨h, .of_eq rfl⟩

/-- **Every deed leads from one state to another**, and the phase along one edge at most. -/
theorem Course.undergo (h : Course s) (flow : Flow new s) (d : Deed) :
    Course (s.undergo d) ∧ s.phase.Leads (s.undergo d).phase := by
  obtain rfl | rfl | ⟨_, ⟨i, e⟩ | ⟨w, e, touched⟩⟩ := s.undergo_cases d
  · exact ⟨h.run.1, .of_eq h.run.2⟩
  · exact h.close
  · rw [e]
    exact h.cancelRun flow i
  · rw [e]
    exact ⟨h.push touched.push touched.starts touched.stopping, .of_eq rfl⟩

/-- No deed handles an event or hands a call over. -/
theorem undergo_frame (s : Session) (d : Deed) :
    (s.undergo d).handled = s.handled ∧ (s.undergo d).spawned = s.spawned := by
  obtain rfl | rfl | ⟨_, ⟨i, e⟩ | ⟨w, e, _⟩⟩ := s.undergo_cases d
  · show s.run.handled = _ ∧ s.run.spawned = _
    unfold Session.run
    split
    · exact ⟨rfl, rfl⟩
    · split
      · exact ⟨rfl, rfl⟩
      · split <;> exact ⟨rfl, rfl⟩
  · show s.close.handled = _ ∧ s.close.spawned = _
    unfold Session.close
    split
    · exact ⟨rfl, rfl⟩
    · split <;> exact ⟨rfl, rfl⟩
  · rw [e, Session.cancelRun]
    split
    · obtain ⟨channel, gone, _⟩ := s.withdraw_eq
      rw [gone]
      exact ⟨rfl, rfl⟩
    · exact ⟨rfl, rfl⟩
  · rw [e]
    exact ⟨rfl, rfl⟩

/-! ## The story of a session -/

/-- What a run that goes on does: it waits for a message, the first one or the next one, or it ends. -/
inductive Reaction (s : Session) : Session → Prop
  | starts (start : s.watcher.starts.head? = some .finished) : Reaction s (await { s with phase := .running })
  | unstarted {f : Failure} (start : s.watcher.starts.head? = some (.failed f)) : Reaction s (s.finish (.failed f))
  | reads {e : Event} {t : Session} (handled : (s.note e).handle e = .ok t) : Reaction s t.await
  | breaks {e : Event} {f : Failure} (handled : (s.note e).handle e = .error f) :
      Reaction s ((s.note e).finish (.failed f))
  | fails {message : Text} : Reaction s (finish { s with phase := .errored } (.failed (.notifier message)))
  | closes : Reaction s (finish { s with phase := .closed } .returned)

/-- **A run goes on in one of these ways.** -/
theorem reaction_of_react {t : Session} (h : s.react? = some t) : Reaction s t := by
  unfold react? at h
  split at h
  · cases h
  · unfold reactToStart? at h
    split at h
    · rename_i start
      cases h
      exact .starts start
    · rename_i start
      cases h
      exact .unstarted start
    · cases h
  · unfold reactToReceive? at h
    split at h
    · rename_i m _
      cases h
      cases m with
      | failure message => exact .fails
      | event e =>
        rw [takeMessage, takeEvent_eq]
        cases handled : (s.note e).handle e with
        | error f => exact .breaks handled
        | ok t => exact .reads handled
    · cases h
      exact .closes
    · cases h

/-- What a run that goes on does to the watcher, and what it leaves alone. -/
theorem react_frame {t : Session} (h : s.react? = some t) :
    (t.watcher = s.watcher.call .receive ∨ t.watcher = s.watcher.call .stop) ∧
      t.makerFault = s.makerFault ∧ t.opened = s.opened ∧ t.made = s.made := by
  cases reaction_of_react h with
  | starts => exact ⟨Or.inl rfl, rfl, rfl, rfl⟩
  | unstarted => exact ⟨Or.inr rfl, rfl, rfl, rfl⟩
  | @reads e t handled =>
    obtain ⟨hw, _, ho, _⟩ := handle_frame handled
    obtain ⟨_, hm, hf⟩ := handle_stays handled
    refine ⟨Or.inl ?_, hf, ho, hm⟩
    show t.watcher.call .receive = _
    rw [hw]
    rfl
  | breaks => exact ⟨Or.inr rfl, rfl, rfl, rfl⟩
  | fails => exact ⟨Or.inr rfl, rfl, rfl, rfl⟩
  | closes => exact ⟨Or.inr rfl, rfl, rfl, rfl⟩

/-- What every history keeps of a new session. -/
structure Story (new s : Session) : Prop where
  flow : Flow new s
  course : Course s
  orderly : s.watcher.Orderly
  maker : s.makerFault = new.makerFault

theorem Story.step {t : Session} (h : Story new s) (e : s.step = some t) : Story new t := by
  have kept : t.watcher.Orderly ∧ t.makerFault = s.makerFault := by
    obtain hr | ⟨w, hw, rfl⟩ := step_cases e
    · obtain ⟨hw | hw, maker, _⟩ := react_frame hr
      · exact ⟨hw ▸ h.orderly.call .receive, maker⟩
      · exact ⟨hw ▸ h.orderly.call .stop, maker⟩
    · exact ⟨h.orderly.step hw, rfl⟩
  exact ⟨h.flow.step e, (h.course.step h.flow h.orderly e).1, kept.1, kept.2.trans h.maker⟩

/-- What running a session does to the watcher, and what it leaves alone. -/
theorem run_frame (s : Session) : (s.run.watcher = s.watcher ∨
    s.run.watcher = s.watcher.call (.start s.root s.options.recursive)) ∧ s.run.makerFault = s.makerFault := by
  unfold run
  split
  · exact ⟨Or.inl rfl, rfl⟩
  · split
    · exact ⟨Or.inl rfl, rfl⟩
    · split
      · exact ⟨Or.inl rfl, rfl⟩
      · exact ⟨Or.inr rfl, rfl⟩

theorem close_frame (h : s.watcher.Orderly) : s.close.watcher.Orderly ∧
    s.close.makerFault = s.makerFault ∧ s.close.opened = s.opened ∧ s.close.made = s.made := by
  unfold close
  split
  · exact ⟨h.onChannel fun _ => Channel.closed_close _, rfl, rfl, rfl⟩
  · split
    · exact ⟨h, rfl, rfl, rfl⟩
    · exact ⟨h, rfl, rfl, rfl⟩

theorem cancelRun_frame (h : s.watcher.Orderly) (i : Nat) : (s.cancelRun i).watcher.Orderly ∧
    (s.cancelRun i).makerFault = s.makerFault ∧ (s.cancelRun i).opened = s.opened ∧
      (s.cancelRun i).made = s.made := by
  unfold cancelRun
  split
  · obtain ⟨channel, gone, withdrawn⟩ := s.withdraw_eq
    rw [gone]
    have still : s.watcher.channel.closed = true → channel.closed = true := by
      rcases withdrawn with rfl | ⟨i, rfl⟩
      · exact id
      · exact fun closed => Channel.closed_of_move closed (.withdraw _ i)
    exact ⟨(h.onChannel still).call .stop, rfl, rfl, rfl⟩
  · exact ⟨h, rfl, rfl, rfl⟩

theorem Story.undergo (h : Story new s) (d : Deed) : Story new (s.undergo d) := by
  have kept : (s.undergo d).watcher.Orderly ∧ (s.undergo d).makerFault = s.makerFault := by
    obtain rfl | rfl | ⟨_, ⟨i, e⟩ | ⟨w, e, touched⟩⟩ := s.undergo_cases d
    · obtain ⟨hw | hw, maker⟩ := s.run_frame
      · exact ⟨hw ▸ h.orderly, maker⟩
      · exact ⟨hw ▸ h.orderly.call _, maker⟩
    · obtain ⟨orderly, maker, _⟩ := close_frame h.orderly
      exact ⟨orderly, maker⟩
    · obtain ⟨orderly, maker, _⟩ := cancelRun_frame h.orderly i
      rw [e]
      exact ⟨orderly, maker⟩
    · rw [e]
      exact ⟨touched.orderly h.orderly, rfl⟩
  exact ⟨h.flow.undergo d, (h.course.undergo h.flow d).1, kept.1, kept.2.trans h.maker⟩

/-- A new session on a site without observers. -/
theorem Story.start (root : Path) (registry : Registry Text) (refusal makerFault : Option Text) (options : Options)
    (number : Nat) (table : FileTable) (native polling : Behaviour) (gateOpen : Bool) :
    let new : Session := { root, registry, refusal, makerFault, watcher :=
      { options, number, site := { table, native, polling, gateOpen } } }
    Story new new where
  flow := Flow.start root registry refusal makerFault options number _
  course := .fresh rfl rfl rfl rfl rfl rfl
  orderly := .new options number table native polling gateOpen
  maker := rfl

theorem Story.deed (h : Story new s) (d : Deed) : Story new (s.deed d) :=
  settle_induction (fun _ _ h e => h.step e) _ _ (h.undergo d)

theorem Story.deeds (h : Story new s) (ds : List Deed) : Story new (s.deeds ds) :=
  deeds_induction (fun _ d h => h.undergo d) (fun _ _ h e => h.step e) h ds

end Session
end DirWatch

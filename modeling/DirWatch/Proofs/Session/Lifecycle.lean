import DirWatch.Proofs.Session.Teardown

/-!
# The life of a session

The first deed that runs or closes a fresh session decides whether a watcher is made (`made_deeds`). From then on the
session is used (`Used`): a further run fails at once and changes nothing else (`deed_run_of_used`).

- **Phases**: a session goes from phase to phase along the edges of `Phase.Next`, one at a time, and the final phases
  are never left.
- **How the run ends** decides the phase, and a watcher that could not be started leaves the session as it was for good
  (`session_lifecycle`).
-/

namespace DirWatch
namespace Session

variable {new s : Session}

/-! ## Sessions that were run or closed -/

/-- The session was run or closed. -/
def Used (s : Session) : Prop := s.opened = true ∨ s.phase ≠ .created

/-- A session that is not used waits for nothing and was never run. -/
theorem Course.of_unused (h : Course s) (unused : ¬ s.Used) :
    s.stage = .idle ∧ s.runs = [] ∧ s.made = false ∧ s.opened = false ∧ s.phase = .created := by
  obtain ⟨unopened, phase⟩ := not_or.1 unused
  have phase : s.phase = .created := Decidable.not_not.1 phase
  obtain ⟨made, stage, _, runs⟩ := h.of_unopened unopened phase
  exact ⟨stage, runs, made, by simpa using unopened, phase⟩

/-- A further run fails at once. -/
theorem run_of_used (h : s.Used) : s.run =
    { s with runs := s.runs ++ [.failed (if s.phase = .created then .sessionReused else .sessionSpent s.phase)] } := by
  unfold run
  by_cases phase : s.phase = .created
  · have opened : s.opened = true := h.resolve_right fun other => other phase
    rw [if_neg (not_not_intro phase), if_pos opened, if_pos phase]
  · rw [if_pos phase, if_neg phase]

/-- The runs that have failed do not move a session. -/
theorem step_eq_none_of_runs (rest : s.step = none) (runs : List RunStatus) :
    ({ s with runs } : Session).step = none := by
  obtain ⟨idle, watcher⟩ := still_of_step_eq_none rest
  have idle : ({ s with runs } : Session).react? = none := by
    cases hs : s.stage with
    | idle => simp [react?]
    | starting =>
      simp only [react?, hs, reactToStart?] at idle ⊢
      cases ha : s.watcher.starts.head? with
      | none => rfl
      | some answer =>
        rw [ha] at idle
        cases answer with
        | pending => rfl
        | finished => cases idle
        | failed f => cases idle
    | receiving i =>
      simp only [react?, hs, reactToReceive?] at idle ⊢
      cases hr : s.watcher.channel.receives[i]? with
      | none => rfl
      | some receipt =>
        rw [hr] at idle
        cases receipt with
        | pending => rfl
        | withdrawn => rfl
        | item m => cases idle
        | ended => cases idle
  unfold Session.step
  rw [idle]
  exact Option.map_eq_none_iff.2 watcher

/-- A further run fails at once, and nothing else changes. -/
theorem deed_run_of_used (h : s.Used) (rest : s.step = none) : s.deed (.call .run) =
    { s with runs := s.runs ++ [.failed (if s.phase = .created then .sessionReused else .sessionSpent s.phase)] } := by
  show s.run.rest = _
  rw [run_of_used h]
  exact settle_of_step_eq_none (step_eq_none_of_runs rest _) _

/-! ## What decides whether a watcher is made -/

/-- A session that is used stays so, and no watcher is made any more. -/
structure Decided (new : Session) (made : Bool) (s : Session) : Prop where
  story : Story new s
  used : s.Used
  made : s.made = made

/-- What keeps the session opened and moves its phase along the edges keeps it used. -/
theorem Used.of_leads {t : Session} (h : s.Used) (opened : t.opened = s.opened) (leads : s.phase.Leads t.phase) :
    t.Used := by
  exact h.imp opened.trans leads.ne_created

theorem Decided.undergo {made : Bool} (h : Decided new made s) (d : Deed) : Decided new made (s.undergo d) := by
  have leads := (h.story.course.undergo h.story.flow d).2
  have kept : (s.undergo d).opened = s.opened ∧ (s.undergo d).made = s.made := by
    obtain rfl | rfl | ⟨_, ⟨i, e⟩ | ⟨w, e, _⟩⟩ := s.undergo_cases d
    · show s.run.opened = _ ∧ s.run.made = _
      rw [run_of_used h.used]
      exact ⟨rfl, rfl⟩
    · exact (close_frame h.story.orderly).2.2
    · rw [e]
      exact (cancelRun_frame h.story.orderly i).2.2
    · rw [e]
      exact ⟨rfl, rfl⟩
  exact ⟨h.story.undergo d, h.used.of_leads kept.1 leads, kept.2.trans h.made⟩

theorem Decided.step {made : Bool} {t : Session} (h : Decided new made s) (e : s.step = some t) :
    Decided new made t := by
  have leads := (h.story.course.step h.story.flow h.story.orderly e).2
  have kept : t.opened = s.opened ∧ t.made = s.made := by
    obtain hr | ⟨w, _, rfl⟩ := step_cases e
    · exact (react_frame hr).2.2
    · exact ⟨rfl, rfl⟩
  exact ⟨h.story.step e, h.used.of_leads kept.1 leads, kept.2.trans h.made⟩

theorem Decided.rest {made : Bool} (h : Decided new made s) : Decided new made s.rest :=
  settle_induction (fun _ _ h e => h.step e) _ _ h

theorem Decided.deeds {made : Bool} (h : Decided new made s) (ds : List Deed) : Decided new made (s.deeds ds) :=
  deeds_induction (fun _ d h => h.undergo d) (fun _ _ h e => h.step e) h ds

/-- A deed that neither runs nor closes a session leaves it unused. -/
theorem unused_deed (story : Story new s) (unused : ¬ s.Used) {d : Deed} (indecisive : d.isDecisive = false) :
    ¬ (s.deed d).Used := by
  obtain ⟨stage, runs, _, opened, phase⟩ := story.course.of_unused unused
  have at_once : (s.undergo d).opened = false ∧ (s.undergo d).phase = .created := by
    obtain rfl | rfl | ⟨_, ⟨i, e⟩ | ⟨w, e, _⟩⟩ := s.undergo_cases d
    · cases indecisive
    · cases indecisive
    · rw [e, cancelRun, if_neg (by simp [runs])]
      exact ⟨opened, phase⟩
    · rw [e]
      exact ⟨opened, phase⟩
  have fresh {t : Session} (h : t.opened = false ∧ t.phase = .created) : ¬ t.Used := by
    rintro (isOpen | past)
    · rw [h.1] at isOpen
      cases isOpen
    · exact past h.2
  -- A session that is not used waits for nothing, so only its watcher moves.
  refine fresh (settle_induction (P := fun t => Story new t ∧ t.opened = false ∧ t.phase = .created) ?_ _ _
    ⟨story.undergo d, at_once⟩).2
  rintro t u ⟨story, h⟩ e
  refine ⟨story.step e, ?_⟩
  have idle := (story.course.of_unused (fresh h)).1
  obtain hr | ⟨w, _, rfl⟩ := step_cases e
  · rw [react?, idle] at hr
    cases hr
  · exact h

/-- **The first run or close decides.** A watcher is made exactly when the first deed that runs or closes the session
runs it, and the watcher can be made. -/
theorem made_deeds (story : Story new s) (unused : ¬ s.Used) (ds : List Deed) :
    ((s.deeds ds).made = true ↔ new.makerFault = none ∧ ds.find? Deed.isDecisive = some (.call .run)) ∧
      ((∃ d ∈ ds, d.isDecisive = true) → (s.deeds ds).Used) := by
  induction ds generalizing s with
  | nil =>
    obtain ⟨_, _, made, _⟩ := story.course.of_unused unused
    exact ⟨by simp [deeds, made], by simp⟩
  | cons d rest ih =>
    obtain ⟨_, _, unmade, opened, phase⟩ := story.course.of_unused unused
    have decided {made : Bool} (h : Decided new made (s.undergo d)) : Decided new made (s.deeds (d :: rest)) :=
      h.rest.deeds rest
    obtain rfl | rfl | ⟨indecisive, _⟩ := s.undergo_cases d
    · have run : (s.undergo (.call .run)).Used ∧ (s.undergo (.call .run)).made = new.makerFault.isNone := by
        show s.run.Used ∧ s.run.made = _
        unfold Session.run
        rw [if_neg (not_not_intro phase), if_neg (by simp [opened]), ← story.maker]
        cases s.makerFault with
        | none => exact ⟨Or.inl rfl, rfl⟩
        | some message => exact ⟨Or.inl rfl, unmade⟩
      have after := decided ⟨story.undergo _, run.1, run.2⟩
      rw [List.find?_cons_of_pos rfl, after.made]
      exact ⟨by simp, fun _ => after.used⟩
    · have closed : (s.undergo (.call .close)).Used ∧ (s.undergo (.call .close)).made = false := by
        show s.close.Used ∧ s.close.made = false
        unfold Session.close
        rw [if_neg (by simp [opened]), if_pos phase]
        exact ⟨Or.inr (by simp), unmade⟩
      have after := decided ⟨story.undergo _, closed.1, closed.2⟩
      rw [List.find?_cons_of_pos rfl, after.made]
      exact ⟨by simp, fun _ => after.used⟩
    · obtain ⟨made, used⟩ := ih (story.deed d) (unused_deed story unused indecisive)
      rw [List.find?_cons_of_neg (by simp [indecisive])]
      refine ⟨made, ?_⟩
      rintro ⟨e, he, decisive⟩
      rcases List.mem_cons.1 he with rfl | later
      · rw [indecisive] at decisive
        cases decisive
      · exact used ⟨e, later, decisive⟩

/-! ## How the run ends and what it leaves -/

/-- A run that has ended is not pending. -/
theorem Ending.ne_pending {start : StartStatus} {status : RunStatus} {phase : Phase} (h : Ending start status phase) :
    status ≠ .pending := by
  cases h <;> simp

/-- Only the notifier's report leaves a session in the phase of failure. -/
theorem Ending.errored_iff {start : StartStatus} {status : RunStatus} {phase : Phase}
    (h : Ending start status phase) : phase = .errored ↔ ∃ message, status = .failed (.notifier message) := by
  have other {f : Failure} (outside : f.isOutside = true) (message : Text) : f ≠ .notifier message := by
    rintro rfl
    cases outside
  cases h with
  | unstarted outside => simpa using other outside
  | returned => simp
  | notified message => simp
  | broken outside => simpa using other outside
  | cancelled => simp

/-- A run that returned or was cancelled leaves its session closed. -/
theorem Ending.closed {start : StartStatus} {status : RunStatus} {phase : Phase} (h : Ending start status phase)
    (ended : status = .returned ∨ status = .failed .cancelled) : phase = .closed := by
  cases h with
  | unstarted outside =>
    rcases ended with e | e
    · cases e
    · cases e
      cases outside
  | returned => rfl
  | notified => simp at ended
  | broken outside =>
    rcases ended with e | e
    · cases e
    · cases e
      cases outside
  | cancelled => rfl

/-- A start that failed ends the run with its failure, unless the run was cancelled. -/
theorem Ending.unstarted_of_failed {f : Failure} {status : RunStatus} {phase : Phase}
    (h : Ending (.failed f) status phase) (waited : status ≠ .failed .cancelled) :
    status = .failed f ∧ phase = .created := by
  cases h with
  | unstarted => exact ⟨rfl, rfl⟩
  | cancelled => exact absurd rfl waited

/-- The watcher is started once, if it was made. -/
theorem Course.length_starts (h : Course s) : s.watcher.starts.length = if s.made then 1 else 0 := by
  cases h with
  | fresh _ made _ _ starts => simp [made, starts]
  | shut _ made _ _ starts => simp [made, starts]
  | unmade _ made _ _ starts => simp [made, starts]
  | starting _ made _ _ starts => simp [made, starts]
  | running _ made _ _ starts => simp [made, starts]
  | ended _ made _ starts => simp [made, starts]

theorem Course.errored_iff (h : Course s) :
    s.phase = .errored ↔ ∃ message, s.runs.head? = some (.failed (.notifier message)) := by
  cases h with
  | fresh _ _ _ phase _ runs => simp [phase, runs]
  | shut _ _ _ phase _ runs =>
    rw [phase]
    constructor
    · intro e
      cases e
    · rintro ⟨message, e⟩
      cases runs _ (List.mem_of_mem_head? e)
  | unmade _ _ _ phase _ runs => simp [phase, runs]
  | starting _ _ _ phase _ _ runs => simp [phase, runs]
  | running _ _ _ phase _ runs => simp [phase, runs]
  | ended _ _ _ _ runs ending => simp [ending.errored_iff, runs]

/-- A run that ended with the notifier's report has received it behind the events that were handled. -/
theorem Course.heard (h : Course s) {message : Text} (failed : s.runs.head? = some (.failed (.notifier message))) :
    s.taken ++ [.item (.failure message)] <+: s.watcher.channel.receives := by
  cases h with
  | fresh _ _ _ _ _ runs => simp [runs] at failed
  | shut _ _ _ _ _ runs => cases runs _ (List.mem_of_mem_head? failed)
  | unmade _ _ _ _ _ runs => simp [runs] at failed
  | starting _ _ _ _ _ _ runs => simp [runs] at failed
  | running _ _ _ _ _ runs => simp [runs] at failed
  | ended _ _ _ _ runs _ _ heard =>
    rw [runs] at failed
    exact heard message (Option.some.inj failed)

theorem Course.closed (h : Course s)
    (ended : s.runs.head? = some .returned ∨ s.runs.head? = some (.failed .cancelled)) : s.phase = .closed := by
  cases h with
  | fresh _ _ _ _ _ runs => simp [runs] at ended
  | shut _ _ _ phase => exact phase
  | unmade _ _ _ _ _ runs => simp [runs] at ended
  | starting _ _ _ _ _ _ runs => simp [runs] at ended
  | running _ _ _ _ _ runs => simp [runs] at ended
  | ended _ _ _ _ runs ending => exact ending.closed (by simpa [runs] using ended)

/-- At a standstill no run waits for a start that has failed. -/
theorem Course.ended_of_failed (h : Course s) (rest : s.step = none) {f : Failure}
    (starts : s.watcher.starts = [.failed f]) : s.made = true ∧ s.runs.head? ≠ some .pending := by
  cases h with
  | fresh _ _ _ _ none => simp [starts] at none
  | shut _ _ _ _ none => simp [starts] at none
  | unmade _ _ _ _ none => simp [starts] at none
  | starting _ _ stage =>
    have goesOn : s.react? = some (s.finish (.failed f)) := by simp [react?, stage, reactToStart?, starts]
    rw [(still_of_step_eq_none rest).1] at goesOn
    cases goesOn
  | running _ _ _ _ started => simp [starts] at started
  | ended _ made _ _ runs ending =>
    exact ⟨made, fun e => ending.ne_pending (Option.some.inj (runs.symm.trans e))⟩

/-- A start that failed leaves the session as it was before, for good. -/
theorem Story.unstarted (h : Story new s) (rest : s.step = none) {f : Failure}
    (starts : s.watcher.starts = [.failed f]) (waited : s.runs.head? ≠ some (.failed .cancelled)) :
    s.runs.head? = some (.failed f) ∧
      ∀ more, (s.deeds more).phase = .created ∧ (s.deeds more).runs.head? = some (.failed f) := by
  obtain ⟨made, ended⟩ := h.course.ended_of_failed rest starts
  obtain ⟨start, status, _, _, first, runs, ending, _⟩ := h.course.of_ended made ended
  obtain rfl : start = .failed f := by simpa [starts] using first.symm
  obtain ⟨rfl, phase⟩ := ending.unstarted_of_failed fun e => waited (e ▸ runs)
  refine ⟨runs, fun more => ?_⟩
  have frozen := (h.spent rest made ended).deeds more
  exact ⟨frozen.phase.trans phase, frozen.first.trans runs⟩

/-! ## The life of a session -/

/-- The final phases are never left. -/
theorem Story.phase_of_final (h : Story new s) (final : s.phase = .closed ∨ s.phase = .errored) (ds : List Deed) :
    (s.deeds ds).phase = s.phase := by
  have keep {t u : Session} (phase : t.phase = s.phase) (leads : t.phase.Leads u.phase) : u.phase = s.phase :=
    (leads.eq_of_final (by rwa [phase])).trans phase
  refine (deeds_induction (P := fun t => Story new t ∧ t.phase = s.phase) ?_ ?_ ⟨h, rfl⟩ ds).2
  · rintro t d ⟨story, phase⟩
    exact ⟨story.undergo d, keep phase (story.course.undergo story.flow d).2⟩
  · rintro t u ⟨story, phase⟩ e
    exact ⟨story.step e, keep phase (story.course.step story.flow story.orderly e).2⟩

/-- **The life of a session.** Whatever happens to a session, its phase goes along the edges one at a time, and the
final phases are never left. A watcher is made at most once, by the first run of a session that was not closed before;
every other run fails at once and changes nothing else. The session has failed exactly when its run ended with the
notifier's report, which it had received; a run that returned or was cancelled leaves it closed; and a watcher that
could not be started ends the run with that failure, unless the run was cancelled, and leaves the session as it was for
good. -/
theorem session_lifecycle (root : Path) (registry : Registry Text) (refusal makerFault : Option Text)
    (options : Options) (number : Nat) (table : FileTable) (native polling : Behaviour) (gateOpen : Bool)
    (ds : List Deed) :
    let new : Session := { root, registry, refusal, makerFault, watcher :=
      { options, number, site := { table, native, polling, gateOpen } } }
    let s := new.deeds ds
    (((new :: new.passed ds).map (·.phase)).IsChain Phase.Leads ∧
      (s.phase = .closed ∨ s.phase = .errored → ∀ more, (s.deeds more).phase = s.phase)) ∧
    ((s.made = true ↔ makerFault = none ∧ ds.find? Deed.isDecisive = some (.call .run)) ∧
      s.watcher.starts.length = (if s.made then 1 else 0) ∧
      ((∃ d ∈ ds, d.isDecisive = true) → s.deed (.call .run) = { s with runs := s.runs ++
        [.failed (if s.phase = .created then .sessionReused else .sessionSpent s.phase)] })) ∧
    ((s.phase = .errored ↔ ∃ message, s.runs.head? = some (.failed (.notifier message))) ∧
      ∀ message, s.runs.head? = some (.failed (.notifier message)) →
        s.taken ++ [.item (.failure message)] <+: s.watcher.channel.receives) ∧
    (s.runs.head? = some .returned ∨ s.runs.head? = some (.failed .cancelled) → s.phase = .closed) ∧
    ∀ f, s.watcher.starts = [.failed f] → s.runs.head? ≠ some (.failed .cancelled) →
      s.runs.head? = some (.failed f) ∧
        ∀ more, (s.deeds more).phase = .created ∧ (s.deeds more).runs.head? = some (.failed f) := by
  intro new s
  have start : Story new new :=
    Story.start root registry refusal makerFault options number table native polling gateOpen
  have story : Story new s := start.deeds ds
  have unused : ¬ new.Used := by simp [Used, new]
  obtain ⟨made, used⟩ := made_deeds start unused ds
  have along : (new :: new.passed ds).IsChain fun t u => t.phase.Leads u.phase :=
    isChain_passed (P := Story new) (fun _ d h => h.undergo d) (fun _ _ h e => h.step e)
      (fun _ d h => (h.course.undergo h.flow d).2) (fun _ _ h e => (h.course.step h.flow h.orderly e).2) start ds
  refine ⟨⟨(List.isChain_map _).2 along, story.phase_of_final⟩, ⟨made, story.course.length_starts, ?_⟩,
    ⟨story.course.errored_iff, fun message => story.course.heard⟩, story.course.closed, fun f starts waited => ?_⟩
  · rintro ⟨d, hd, decisive⟩
    exact deed_run_of_used (used ⟨d, hd, decisive⟩) (step_deeds (List.ne_nil_of_mem hd) new)
  · have acted : ds ≠ [] := by
      rintro rfl
      cases starts
    exact story.unstarted (step_deeds acted new) starts waited

/-- The first run is cancelled after the session was asked to run again. -/
example :
    let table : FileTable := ⟨[("r", .present 16877 true)]⟩
    let options : Options := { pattern := ⟨"*", [.atom .star], rfl⟩ }
    let new : Session := { root := .ofText "r", registry := {}, watcher := { options, site := { table } } }
    let s := new.deeds [.call .run, .call .run, .cancelRun 0]
    s.runs = [.failed .cancelled, .failed (.sessionSpent .running)] ∧ s.phase = .closed := by decide

end Session
end DirWatch

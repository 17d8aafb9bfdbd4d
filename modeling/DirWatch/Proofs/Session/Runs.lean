import DirWatch.Proofs.Session.Course

/-!
# Runs that have ended

A session changes its runs in three ways: a further run comes behind them, the first one ends, or the newest one is
cancelled while it is under way, which is the first one as well (`runs_undergo`, `runs_react`). So how a run has ended
never changes (`EndsStay`).
-/

namespace DirWatch
namespace Session

variable {new s t : Session}

/-- Every run that has ended stays as it is. -/
def EndsStay (s t : Session) : Prop :=
  ∀ (i : Nat) (status : RunStatus), s.runs[i]? = some status → status ≠ .pending → t.runs[i]? = some status

theorem EndsStay.of_eq (same : t.runs = s.runs) : EndsStay s t := fun _ _ hi _ => same ▸ hi

/-- Further runs come behind the others. -/
theorem EndsStay.of_more (more : s.runs <+: t.runs) : EndsStay s t := by
  intro i status hi _
  obtain ⟨later, e⟩ := more
  rw [← e, List.getElem?_append_left (List.getElem?_eq_some_iff.1 hi).1]
  exact hi

/-- The run that ends is under way. -/
theorem EndsStay.of_set (underWay : s.UnderWay) {status : RunStatus} (ended : t.runs = s.runs.set 0 status) :
    EndsStay s t := by
  intro i other hi final
  obtain ⟨later, runs, _⟩ := underWay
  rw [ended, List.getElem?_set_ne ?_, hi]
  rintro rfl
  rw [runs] at hi
  exact final (Option.some.inj hi).symm

/-- When the run goes on, it ends or no run changes. -/
theorem runs_react (h : s.react? = some t) : t.runs = s.runs ∨ ∃ status, t.runs = s.runs.set 0 status := by
  cases reaction_of_react h with
  | starts => exact Or.inl rfl
  | reads handled => exact Or.inl (handle_frame handled).2.2.2
  | unstarted => exact Or.inr ⟨_, rfl⟩
  | breaks => exact Or.inr ⟨_, rfl⟩
  | fails => exact Or.inr ⟨_, rfl⟩
  | closes => exact Or.inr ⟨_, rfl⟩

/-- A deed adds a run, ends the one under way, or leaves all runs alone. -/
theorem runs_undergo (s : Session) (d : Deed) : s.runs <+: (s.undergo d).runs ∨
    .pending ∈ s.runs ∧ ∃ status, (s.undergo d).runs = s.runs.set 0 status := by
  obtain rfl | rfl | ⟨_, ⟨i, e⟩ | ⟨w, e, _⟩⟩ := s.undergo_cases d
  · refine Or.inl ?_
    show s.runs <+: s.run.runs
    unfold Session.run
    split
    · exact List.prefix_append ..
    · split
      · exact List.prefix_append ..
      · split <;> exact List.prefix_append ..
  · refine Or.inl ?_
    show s.runs <+: s.close.runs
    unfold close
    split
    · exact List.prefix_refl _
    · split <;> exact List.prefix_refl _
  · rw [e, cancelRun]
    split
    · rename_i pending
      obtain ⟨channel, gone, _⟩ := s.withdraw_eq
      rw [gone]
      exact Or.inr ⟨List.mem_of_getElem? pending, _, rfl⟩
    · exact Or.inl (List.prefix_refl _)
  · rw [e]
    exact Or.inl (List.prefix_refl _)

/-- The run that goes on is under way. -/
theorem Flow.underWay_of_react (h : Flow new s) (e : s.react? = some t) : s.UnderWay := by
  have idle (stage : s.stage = .idle) : s.UnderWay := by simp [react?, stage] at e
  cases h.reading with
  | fresh _ stage => exact idle stage
  | ended _ stage => exact idle stage
  | starting _ _ _ _ _ runs => exact runs
  | receiving _ _ _ _ _ runs => exact runs

/-- **How a run has ended stays**, whatever is done. -/
theorem Flow.endsStay_undergo (h : Flow new s) (d : Deed) : EndsStay s (s.undergo d) := by
  obtain more | ⟨pending, status, ended⟩ := s.runs_undergo d
  · exact .of_more more
  · exact .of_set (h.stage_of_pending pending).2 ended

/-- **How a run has ended stays**, whatever the session does on its own. -/
theorem Flow.endsStay_step (h : Flow new s) (e : s.step = some t) : EndsStay s t := by
  obtain hr | ⟨w, _, rfl⟩ := step_cases e
  · obtain same | ⟨status, ended⟩ := runs_react hr
    · exact .of_eq same
    · exact .of_set (h.underWay_of_react hr) ended
  · exact .of_eq rfl

end Session
end DirWatch

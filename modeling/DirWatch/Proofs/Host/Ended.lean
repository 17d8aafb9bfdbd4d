import DirWatch.Proofs.Host.Acts
import DirWatch.Proofs.Session.Runs

/-!
# How the runs of a host end

The sessions of a host are histories of fresh sessions, but for the site, which the host moves from one to the other.
So how a run of a host has ended never changes (`Since`, `ends_acts`).
-/

namespace DirWatch

namespace Session

/-- The site of a session does not matter to its flow. -/
theorem Flow.onSite {new s : Session} (h : Flow new s) (site : Site) : Flow new (s.onSite site) :=
  h.push (.idle _) h.numbered rfl

end Session

namespace Host

open Session (Flow EndsStay)

/-- How an attempt stands. -/
def standing (sessions : List Session) : Except Failure (Nat × Nat) → RunStatus
  | .error f => .failed f
  | .ok (i, j) => (sessions[i]?.bind (·.runs[j]?)).getD .pending

theorem runs_eq (h : Host) : h.runs = h.attempts.map (standing h.sessions) := by
  refine List.map_congr_left fun attempt _ => ?_
  cases attempt <;> rfl

/-- Sessions that leave the ends of their runs alone leave the ends of attempts alone. -/
theorem standing_eq {before after : List Session}
    (stay : ∀ (i : Nat) (s : Session), before[i]? = some s → ∃ t, after[i]? = some t ∧ EndsStay s t)
    {attempt : Except Failure (Nat × Nat)} {status : RunStatus} (h : standing before attempt = status)
    (final : status ≠ .pending) : standing after attempt = status := by
  cases attempt with
  | error e => exact h
  | ok place =>
    obtain ⟨i, j⟩ := place
    cases hs : before[i]? with
    | none =>
      rw [standing, hs] at h
      exact absurd h.symm final
    | some s =>
      obtain ⟨t, ht, stays⟩ := stay i s hs
      rw [standing, hs] at h
      cases hr : s.runs[j]? with
      | none =>
        rw [Option.bind_some, hr] at h
        exact absurd h.symm final
      | some run =>
        rw [Option.bind_some, hr, Option.getD_some] at h
        subst h
        rw [standing, ht, Option.bind_some, stays j run hr final, Option.getD_some]

/-- Every session is a history of a fresh one. -/
def Flowing (h : Host) : Prop := ∀ s ∈ h.sessions, ∃ new, Flow new s

/-- What holds of a host that came of another one: its sessions flow, and the runs that had ended stay so. -/
structure Since (h g : Host) : Prop where
  flow : g.Flowing
  ends : ∀ (k : Nat) (status : RunStatus), h.runs[k]? = some status → status ≠ .pending → g.runs[k]? = some status

theorem Since.refl {h : Host} (flow : h.Flowing) : Since h h := ⟨flow, fun _ _ hk _ => hk⟩

variable {h g g' : Host}

/-- What leaves the ends of the sessions' runs alone, and only adds attempts. -/
theorem Since.of_stay (since : Since h g) (flow : g'.Flowing) (attempts : g.attempts <+: g'.attempts)
    (stay : ∀ (i : Nat) (s : Session), g.sessions[i]? = some s → ∃ t, g'.sessions[i]? = some t ∧ EndsStay s t) :
    Since h g' := by
  refine ⟨flow, fun k status hk final => ?_⟩
  have hk := since.ends k status hk final
  rw [runs_eq, List.getElem?_map, Option.map_eq_some_iff] at hk ⊢
  obtain ⟨attempt, here, stands⟩ := hk
  obtain ⟨later, e⟩ := attempts
  refine ⟨attempt, ?_, standing_eq stay stands final⟩
  rw [← e, List.getElem?_append_left (List.getElem?_eq_some_iff.1 here).1]
  exact here

/-- A session goes to a state that keeps its flow and the ends of its runs. -/
theorem Since.move (since : Since h g) {i : Nat} {s t : Session} (hi : g.sessions[i]? = some s)
    (keeps : ∀ {new : Session}, Flow new (s.onSite g.site) → Flow new t ∧ EndsStay s t) : Since h (g.move i s t) := by
  obtain ⟨new, flow⟩ := since.flow s (List.mem_of_getElem? hi)
  obtain ⟨flow, stays⟩ := keeps (flow.onSite g.site)
  refine since.of_stay (fun u hu => ?_) (attempts_move .. ▸ List.prefix_refl _) fun k u hk => ?_
  · rw [sessions_move] at hu
    rcases List.mem_or_eq_of_mem_set hu with old | rfl
    · exact since.flow u old
    · exact ⟨new, flow⟩
  · rw [sessions_move]
    by_cases same : i = k
    · subst same
      obtain rfl := Option.some.inj (hi.symm.trans hk)
      exact ⟨_, List.getElem?_set_self (List.getElem?_eq_some_iff.1 hi).1, stays⟩
    · exact ⟨u, (List.getElem?_set_ne same).trans hk, .of_eq rfl⟩

/-- **Every history leaves the ends of runs alone.** -/
theorem kept_since (h : Host) : Kept (Since h) := by
  refine .of_sessions (fun since sessions _ attempts => ?_) (fun a since hi => ?_) (fun since hi e => ?_)
    fun {g} root options registry since => ?_
  · refine since.of_stay (fun s hs => since.flow s (sessions ▸ hs)) attempts fun i s hi => ⟨s, ?_, .of_eq rfl⟩
    rw [sessions]
    exact hi
  · exact since.move hi fun flow => ⟨flow.call a, flow.endsStay_undergo (.call a)⟩
  · exact since.move hi fun flow => ⟨flow.step e, flow.endsStay_step e⟩
  · refine since.of_stay (fun s hs => ?_) (List.prefix_refl _) fun i s hi => ⟨s, ?_, .of_eq rfl⟩
    · rcases List.mem_append.1 hs with old | new
      · exact since.flow s old
      · rw [List.mem_singleton.1 new]
        exact ⟨_, Flow.start root registry none none options g.sessions.length {}⟩
    · exact (List.getElem?_append_left (List.getElem?_eq_some_iff.1 hi).1).trans hi

theorem flowing_act (flow : h.Flowing) {a : Action} : (h.act a).Flowing := ((kept_since h).acts (.refl flow) [a]).flow

/-- Attempts are never forgotten. -/
theorem kept_attempts : Kept (·.attempts ≠ []) := by
  refine .of_sessions (fun some _ _ more none => some (List.prefix_nil.1 (none ▸ more))) (fun _ some _ => ?_)
    (fun some _ _ => ?_) fun _ _ _ some => some
  · rwa [attempts_move]
  · rwa [attempts_move]

end Host
end DirWatch

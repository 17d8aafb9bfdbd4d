import DirWatch.Proofs.Scheduler.Reports
import DirWatch.Proofs.Scheduler.Spared

/-!
# Handlers are called once, in order, and reported once

- **Order** (`Filed.begun_prefix`): at any time the calls of either kind that were made are the first ones that were
  spawned.
- **Failures** (`Told.cancelled`, `pending_spare`): a cancelled call is not reported, and a call that fails changes
  nothing for the others.
- All of it is joined in `handlers_scheduled`.
-/

namespace DirWatch
namespace Scheduler

open Call (coroutine awaited)
open Gate (leftOf)

variable {s : Scheduler} {book : List Call} {left : List (Nat × Gate.Result)} {k : Task}

/-- **The calls that were made are the first ones of their kind.** -/
theorem Filed.begun_prefix (h : s.Filed book) :
    s.begun.filter (coroutine book) <+: (List.range s.spawned).filter (coroutine book) ∧
      s.begun.filter (!coroutine book ·) <+: (List.range s.spawned).filter (!coroutine book ·) := by
  constructor
  · rw [← h.inOrder.coroutines, List.append_assoc]
    exact List.prefix_append ..
  · rw [← h.inOrder.others]
    exact List.prefix_append ..

/-- **A cancelled call is not reported.** -/
theorem Told.cancelled (h : s.Told book left) (filed : s.Filed book) (hk : k ∈ s.tasks)
    (cancelled : k.state = .done .cancelled) : ∀ r ∈ s.reports, r.call ≠ k.call := by
  intro r there same
  obtain ⟨c, recorded, _, raised⟩ := h.sound filed there
  obtain ⟨handler, recorded', _, leaves, _⟩ := filed.recorded.tasks k hk
  rw [same] at recorded raised
  obtain rfl : c = ⟨handler, k.paths⟩ := Option.some.inj (recorded.symm.trans recorded')
  have stands := h.stands k hk
  rw [Task.Stands, cancelled] at stands
  obtain ⟨_, kind, _⟩ | ⟨body, leaves', outcome⟩ := Call.problem_cases raised
  · have kind : handler.kind = _ := kind
    simp [Handler.body?, kind] at leaves
  · obtain rfl := Option.some.inj (leaves.symm.trans leaves')
    cases stands.symm.trans outcome

theorem pending_spare (q : Nat → Bool) (s : Scheduler) : (s.spare q).pending = s.pending := by
  simp [pending, spare, List.countP_map, Function.comp_def, collected_spare]

/-- **How handlers are called**: whatever is called on a scheduler leads where moves lead, which run jobs one by one.
After any moves,

- a call that is spawned runs nothing;
- no call was made twice, each was made with the paths that it was spawned with, and of the coroutines as well as of the
  other handlers the first ones that were spawned were made, in this order;
- no call is reported twice, each report names the handler and what it raised, and no cancelled call is reported;
- as soon as nothing is ready, every call was made, every failure is reported, and the pending tasks are those whose
  calls are not over;
- if some calls did not fail, nothing else would change but that they were not reported. -/
theorem handlers_scheduled :
    (∀ actions, ∃ moves, acts {} actions = run {} moves ∧
      moves.filter Move.isOutside = actions.filterMap Action.outside?) ∧
    ∀ moves,
      let s := run {} moves
      let book := calls {} moves
      let left := Scheduler.left {} moves
      (∀ h paths, (s.spawn h paths).log = s.log ∧ (s.spawn h paths).tasks = s.tasks ∧
        (s.spawn h paths).reports = s.reports) ∧
      (s.begun.Nodup ∧ (∀ e ∈ s.log, e.IsOf book) ∧
        s.begun.filter (coroutine book) <+: (List.range book.length).filter (coroutine book) ∧
        s.begun.filter (!coroutine book ·) <+: (List.range book.length).filter (!coroutine book ·)) ∧
      ((s.reports.map (·.call)).Nodup ∧
        (∀ r ∈ s.reports, ∃ c, book[r.call]? = some c ∧ c.handler.name = r.handler ∧
          c.problem? (leftOf left r.call) = some r.problem) ∧
        ∀ k ∈ s.tasks, k.state = .done .cancelled → ∀ r ∈ s.reports, r.call ≠ k.call) ∧
      (s.ready = [] →
        s.begun.Perm (List.range book.length) ∧
        (∀ n c p, book[n]? = some c → c.problem? (leftOf left n) = some p → ⟨n, c.handler.name, p⟩ ∈ s.reports) ∧
        s.pending = (List.range book.length).countP fun n => awaited book n && !decide (s.Over n)) ∧
      ∀ q,
        let spared := run {} (spareMoves q moves)
        spared.log = s.log ∧ spared.pending = s.pending ∧ spared.spawned = s.spawned ∧
          spared.ready.length = s.ready.length ∧ spared.reports = s.reports.filter (!q ·.call) := by
  refine ⟨fun actions => exists_moves actions {}, fun moves => ?_⟩
  intro s book left
  obtain ⟨filed, spawned⟩ := filed_run moves []
  have told := told_run moves []
  rw [List.append_nil] at filed told
  obtain ⟨coroutines, others⟩ := filed.begun_prefix
  rw [spawned] at coroutines others
  refine ⟨fun _ _ => ⟨rfl, rfl, rfl⟩, ⟨filed.nodup_begun, filed.recorded.log, coroutines, others⟩,
    ⟨told.nodup filed, fun r => told.sound filed, fun k => told.cancelled filed⟩, fun idle => ?_, fun q => ?_⟩
  · have begun := filed.begun_of_idle idle
    have pending := filed.pending_of_idle idle
    rw [spawned] at begun pending
    refine ⟨begun, fun n c p recorded raised => told.complete filed idle ?_ recorded raised, pending⟩
    rw [spawned]
    exact (List.getElem?_eq_some_iff.1 recorded).1
  · intro spared
    have same : s.spare q = spared := spare_run q moves
    rw [← same]
    exact ⟨rfl, pending_spare q s, rfl, List.length_map .., rfl⟩

end Scheduler
end DirWatch

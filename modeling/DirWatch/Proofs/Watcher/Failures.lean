import DirWatch.Proofs.Watcher.Lifecycle

/-!
# How the first start of a watcher ends

Bringing observers up either leaves the first start pending or answers it, and when the answer is a failure it comes
from outside: from the file table, from an observer, or from the interval (`Concluded`). So it is never the report of
the notifier, a cancellation or a refusal of the watcher's own; and the interval is to blame only where it has no double
(`Answers`).

- Starting (`starts_start`) and what the watcher does on its own (`starts_step`).
- A start that has its answer keeps it (`starts_step`): only one that is pending is answered.
-/

namespace DirWatch

/-- Whether a failure comes from what a watch runs against: the file system, its observers, the interval, or the host's
own machinery. -/
def Failure.isOutside : Failure → Bool
  | .registration _ _ => true
  | .os _ => true
  | .broken _ => true
  | .nullByte => true
  | .intervalOverflow => true
  | _ => false

/-- Whether a failure is what asking the file system may come to. -/
def Failure.isOfTable : Failure → Bool
  | .os _ => true
  | .broken _ => true
  | .nullByte => true
  | _ => false

theorem Failure.isOutside_of_isOfTable {f : Failure} (h : f.isOfTable = true) : f.isOutside = true := by
  cases f <;> first | rfl | cases h

namespace FileTable

theorem isOfTable_status {t : FileTable} {path : Text} {f : Failure} (h : t.status path = .error f) :
    f.isOfTable = true := by
  unfold status at h
  split at h
  · cases h; rfl
  · split at h
    · cases h
    · rename_i fault _
      cases h
      cases fault <;> rfl
    · cases h; rfl

theorem isOfTable_probe {t : FileTable} {path : Text} {f : Failure} (h : t.probe path = .error f) :
    f.isOfTable = true := by
  unfold probe at h
  split at h
  · cases h
  · split at h
    · cases h
    · cases h; rfl
  · rename_i g _ e
    cases h
    exact isOfTable_status e

theorem isOfTable_exists {t : FileTable} {path : Text} {f : Failure} (h : t.exists? path = .error f) :
    f.isOfTable = true := by
  unfold exists? at h
  cases e : t.probe path with
  | error g =>
    rw [e] at h
    cases h
    exact isOfTable_probe e
  | ok type => rw [e] at h; cases h

theorem isOfTable_readable {t : FileTable} {path : Text} {f : Failure} (h : t.readable? path = .error f) :
    f.isOfTable = true := by
  unfold readable? at h
  split at h
  · cases h
  · cases h
  · rename_i g _ e
    cases h
    exact isOfTable_status e

end FileTable

namespace Watcher

/-- A failure that is the answer of a start comes from outside. -/
def Outside (answer : StartStatus) : Prop := ∀ f, answer = .failed f → f.isOutside = true

/-- What a start may be answered with. -/
structure Answers (o : Options) (answer : StartStatus) : Prop where
  outside : Outside answer
  interval : answer = .failed .intervalOverflow → o.pollInterval? = none

variable {o : Options}

theorem answers_pending : Answers o .pending := ⟨by simp [Outside], by simp⟩

theorem answers_finished : Answers o .finished := ⟨by simp [Outside], by simp⟩

theorem answers_failed {f : Failure} (h : f.isOutside = true) (other : f ≠ .intervalOverflow) :
    Answers o (.failed f) := by
  refine ⟨fun g e => ?_, fun e => ?_⟩
  · cases e
    exact h
  · cases e
    exact absurd rfl other

theorem answers_ofTable {f : Failure} (h : f.isOfTable = true) : Answers o (.failed f) :=
  answers_failed (Failure.isOutside_of_isOfTable h) fun e => by rw [e] at h; cases h

/-- Why a root cannot be watched lies outside. -/
theorem answers_rootFailure {t : FileTable} {root : Path} {f : Failure} (h : rootFailure? t root = some f) :
    Answers o (.failed f) := by
  unfold rootFailure? at h
  split at h
  · cases h
    exact answers_failed rfl (by simp)
  · rename_i g _ e
    cases h
    exact answers_ofTable (FileTable.isOfTable_exists e)
  · cases h
    exact answers_failed rfl (by simp)
  · split at h
    · rename_i g e
      cases h
      exact answers_ofTable (FileTable.isOfTable_readable e)
    · cases h
      exact answers_failed rfl (by simp)
    · cases h

/-! ## Bringing observers up -/

/-- What becomes of the calls to start: nothing, or the first one is answered. -/
def Concluded (o : Options) (starts later : List StartStatus) : Prop :=
  later = starts ∨ ∃ answer, later = starts.set 0 answer ∧ Answers o answer

variable {starts : List StartStatus} {w : Watcher}

theorem concluded_endStart (h : w.starts = starts) {answer : StartStatus} (answers : Answers o answer) :
    Concluded o starts (w.endStart answer).starts := Or.inr ⟨answer, congrArg (·.set 0 answer) h, answers⟩

theorem concluded_publish (h : w.starts = starts) (i : Nat) : Concluded o starts (w.publish i).starts := by
  unfold publish
  split
  · exact concluded_endStart h answers_finished
  · exact concluded_endStart h answers_finished

theorem concluded_concludePolling (h : w.starts = starts) (i : Nat) (root : Path) (recursive : Bool)
    (outcome : Launch) : Concluded o starts (w.concludePolling i root recursive outcome).starts := by
  unfold concludePolling
  split
  · exact concluded_publish h i
  · exact Or.inl h
  · exact concluded_endStart h (answers_failed rfl (by simp))
  · exact concluded_endStart h (answers_failed rfl (by simp))

theorem concluded_startPolling (options : w.options = o) (h : w.starts = starts) (root : Path) (recursive : Bool) :
    Concluded o starts (w.startPolling root recursive).starts := by
  unfold startPolling
  rw [options]
  split
  · rename_i none
    refine concluded_endStart h ⟨fun f e => ?_, fun _ => none⟩
    cases e
    rfl
  · refine concluded_concludePolling ?_ _ root recursive _
    exact h

theorem concluded_concludeNative (options : w.options = o) (h : w.starts = starts) (i : Nat) (root : Path)
    (recursive : Bool) (outcome : Launch) :
    Concluded o starts (w.concludeNative i root recursive outcome).starts := by
  unfold concludeNative
  split
  · exact concluded_publish h i
  · exact Or.inl h
  · exact concluded_endStart h (answers_failed rfl (by simp))
  · dsimp only
    split
    · rename_i e
      exact concluded_endStart h (answers_ofTable (FileTable.isOfTable_exists e))
    · exact concluded_endStart h (answers_failed rfl (by simp))
    · refine concluded_startPolling ?_ ?_ root recursive
      · exact options
      · exact h

theorem concluded_passGate (options : w.options = o) (h : w.starts = starts) (waiting : Waiting) :
    Concluded o starts (w.passGate waiting).starts := by
  unfold passGate
  dsimp only
  split
  · refine concluded_concludeNative ?_ ?_ _ _ _ _
    · exact options
    · exact h
  · refine concluded_concludePolling ?_ _ _ _ _
    exact h

/-! ## The first start -/

/-- The first call to start is pending or answered. -/
theorem starts_start (h : w.starts = []) (root : Path) (recursive : Bool) :
    ∃ answer, (w.start root recursive).starts = [answer] ∧ Answers w.options answer := by
  have first {later : List StartStatus} (c : Concluded w.options [.pending] later) :
      ∃ answer, later = [answer] ∧ Answers w.options answer := by
    rcases c with e | ⟨answer, e, answers⟩
    · exact ⟨.pending, e, answers_pending⟩
    · exact ⟨answer, e, answers⟩
  refine first ?_
  unfold start
  rw [if_pos (by simp [h])]
  dsimp only
  split
  · rename_i f e
    exact concluded_endStart rfl (answers_rootFailure e)
  · split
    · refine concluded_startPolling ?_ ?_ root recursive
      · rfl
      · rfl
    · refine concluded_concludeNative ?_ ?_ _ root recursive _
      · rfl
      · rfl

/-- On its own a watcher answers its first start, if that is pending. -/
theorem starts_step {v : Watcher} (life : Life w) (h : w.step = some v) :
    v.starts = w.starts ∨
      w.starts.head? = some .pending ∧ ∃ answer, v.starts = w.starts.set 0 answer ∧ Answers w.options answer := by
  obtain ⟨channel, _, rfl⟩ | ⟨x, hx, rfl⟩ | ⟨r, _, rfl⟩ | ⟨part, rfl⟩ := step_cases h
  · exact Or.inl rfl
  · have pending : w.starts.head? = some .pending := by
      cases life with
      | held starts => exact starts
      | fresh _ _ waiting => rw [hx] at waiting; cases waiting
      | inUse _ _ waiting => rw [hx] at waiting; cases waiting
      | ended _ _ waiting => rw [hx] at waiting; cases waiting
      | failed _ _ waiting => rw [hx] at waiting; cases waiting
    exact (concluded_passGate rfl rfl x).imp id fun answered => ⟨pending, answered⟩
  · exact Or.inl rfl
  · exact Or.inl rfl

end Watcher
end DirWatch

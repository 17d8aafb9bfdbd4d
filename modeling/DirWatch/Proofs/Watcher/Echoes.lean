import Mathlib.Data.List.Induction
import DirWatch.Notice

/-!
# Echoes by history

A handler remembers directories that were touched, and drops the modification of a remembered one. Which notices those
are can be said by the notices heard before (`Notice.IsEcho`), without the memory.

- **The memory** holds a directory when the latest notice that concerns it touches it (`mem_touched_after`), so what is
  dropped is an echo (`dropped_after_iff`).
- **One modification** of a directory is dropped, however often it was touched since the last one (`isEcho_since_iff`).
-/

namespace DirWatch

/-! ## Notices and directories -/

namespace Notice

/-- Whether a notice touches a directory: something in it was created, deleted, moved or closed, or was moved there. -/
def Touches (n : Notice) (directory : Text) : Prop :=
  n.type ∈ [.created, .deleted, .moved, .closed] ∧ Path.parentText n.source = directory ∨
    n.type = .moved ∧ n.destination ≠ [] ∧ Path.parentText n.destination = directory

/-- Whether a notice says that a directory itself was modified. -/
def Modifies (n : Notice) (directory : Text) : Prop :=
  n.type = .modified ∧ n.isDirectory = true ∧ n.source = directory

/-- Whether a notice touches a directory or says that it was modified. -/
def Concerns (n : Notice) (directory : Text) : Prop := n.Touches directory ∨ n.Modifies directory

instance (n : Notice) (directory : Text) : Decidable (n.Touches directory) := by unfold Touches; infer_instance

instance (n : Notice) (directory : Text) : Decidable (n.Modifies directory) := by unfold Modifies; infer_instance

instance (n : Notice) (directory : Text) : Decidable (n.Concerns directory) := by unfold Concerns; infer_instance

/-- A notice after others is an echo when it says that a directory was modified, and the latest of the others that
concerns the directory touches it. -/
def IsEcho (past : List Notice) (n : Notice) : Prop :=
  n.Modifies n.source ∧ ∃ m ∈ (past.filter fun m => m.Concerns n.source).getLast?, m.Touches n.source

instance (past : List Notice) (n : Notice) : Decidable (n.IsEcho past) := by unfold IsEcho; infer_instance

/-- What of some notices, heard in this order after others, is no echo. -/
def forwarded (past : List Notice) : List Notice → List Notice
  | [] => []
  | n :: rest => (if n.IsEcho past then [] else [n]) ++ forwarded (past ++ [n]) rest

theorem touches_iff {n : Notice} {directory : Text} : n.Touches directory ↔ directory ∈ n.touched := by
  obtain ⟨type, source, destination, isDirectory⟩ := n
  unfold Touches touched texts
  cases type with
  | moved =>
    by_cases none : destination = []
    · simp [NoticeType.touchesParent, none, eq_comm]
    · simp [NoticeType.touchesParent, none, eq_comm]
  | _ => simp [NoticeType.touchesParent, eq_comm]

theorem modifies_iff {n : Notice} {directory : Text} :
    n.Modifies directory ↔ n.isDirectoryChange = true ∧ n.source = directory := by
  simp [Modifies, isDirectoryChange, and_assoc]

/-- A notice does not touch what it says was modified. -/
theorem Modifies.not_touches {n : Notice} {d directory : Text} (h : n.Modifies d) : ¬n.Touches directory := by
  simp [Touches, h.1]

end Notice

/-! ## The memory -/

namespace Echo

open Notice (Touches Modifies Concerns IsEcho)

theorem mem_touched_remember {e : Echo} {d directory : Text} :
    directory ∈ (e.remember d).touched ↔ directory = d ∨ directory ∈ e.touched := by
  unfold remember
  split
  · rename_i known
    exact ⟨Or.inr, fun h => h.elim (fun e => e ▸ known) id⟩
  · exact List.mem_cons

theorem mem_touched_foldl_remember {e : Echo} {directories : List Text} {directory : Text} :
    directory ∈ (directories.foldl remember e).touched ↔ directory ∈ directories ∨ directory ∈ e.touched := by
  induction directories generalizing e with
  | nil => simp
  | cons d rest ih => rw [List.foldl_cons, ih, mem_touched_remember, List.mem_cons, or_left_comm, or_assoc]

/-- A notice is dropped when it says that a remembered directory was modified. -/
theorem dropped_iff {e : Echo} {n : Notice} : (e.hear n).2 = true ↔ n.Modifies n.source ∧ n.source ∈ e.touched := by
  rw [Notice.modifies_iff, and_iff_left rfl]
  unfold hear
  split
  · rename_i change
    split
    · rename_i known
      exact iff_of_true rfl ⟨change, known⟩
    · rename_i unknown
      exact iff_of_false (by simp) fun h => unknown h.2
  · rename_i other
    exact iff_of_false (by simp) fun h => other h.1

/-- **The memory after a notice**: what it touches comes in, and what it says was modified goes out. -/
theorem mem_touched_hear {e : Echo} {n : Notice} {directory : Text} :
    directory ∈ (e.hear n).1.touched ↔ n.Touches directory ∨ directory ∈ e.touched ∧ ¬n.Modifies directory := by
  rw [Notice.touches_iff, Notice.modifies_iff]
  unfold hear
  split
  · rename_i change
    have touches : n.touched = [] := by
      have type : n.type = .modified := (Notice.modifies_iff.2 ⟨change, rfl⟩ : n.Modifies n.source).1
      simp [Notice.touched, type, NoticeType.touchesParent]
    rw [touches]
    split
    · simp [change, eq_comm (a := directory)]
    · rename_i unknown
      have other (h : directory ∈ e.touched) : n.source ≠ directory := fun e => unknown (e ▸ h)
      simpa [change] using other
  · rename_i other
    rw [mem_touched_foldl_remember]
    simp [other]

/-- The memory after some notices. -/
def after (past : List Notice) : Echo := past.foldl (fun e n => (e.hear n).1) {}

theorem after_concat (past : List Notice) (n : Notice) : after (past ++ [n]) = ((after past).hear n).1 :=
  List.foldl_append

/-- **The memory holds a directory when the latest notice that concerns it touches it.** -/
theorem mem_touched_after {past : List Notice} {directory : Text} : directory ∈ (after past).touched ↔
    ∃ m ∈ (past.filter fun m => m.Concerns directory).getLast?, m.Touches directory := by
  induction past using List.reverseRecOn with
  | nil => simp [after]
  | append_singleton past n ih =>
    rw [after_concat, mem_touched_hear, ih]
    by_cases touches : n.Touches directory
    · have concerns : n.Concerns directory := Or.inl touches
      simp [concerns, touches]
    · by_cases modifies : n.Modifies directory
      · have concerns : n.Concerns directory := Or.inr modifies
        simp [concerns, touches, modifies]
      · have concerns : ¬n.Concerns directory := fun h => h.elim touches modifies
        simp [concerns, touches, modifies]

/-- **What is dropped is an echo.** -/
theorem dropped_after_iff {past : List Notice} {n : Notice} : ((after past).hear n).2 = true ↔ n.IsEcho past := by
  rw [dropped_iff, mem_touched_after]
  rfl

end Echo

/-! ## Since the last modification -/

/-- **One modification is dropped**, however often the directory was touched since the last one. -/
theorem Notice.isEcho_since_iff {front between : List Notice} {n : Notice}
    (last : ∀ m ∈ front.getLast?, m.Modifies n.source) (since : ∀ m ∈ between, ¬m.Modifies n.source) :
    n.IsEcho (front ++ between) ↔ n.Modifies n.source ∧ ∃ m ∈ between, m.Touches n.source := by
  refine and_congr_right fun _ => ?_
  rw [← Echo.mem_touched_after]
  induction between using List.reverseRecOn with
  | nil =>
    rw [List.append_nil, Echo.mem_touched_after]
    refine iff_of_false ?_ (by simp)
    rintro ⟨m, hm, touches⟩
    rcases List.eq_nil_or_concat front with rfl | ⟨past, c, rfl⟩
    · simp at hm
    · have change : c.Modifies n.source := last c (by simp)
      have concerns : c.Concerns n.source := Or.inr change
      obtain rfl : c = m := by simpa [concerns] using hm
      exact change.not_touches touches
  | append_singleton between m ih =>
    have none : ¬m.Modifies n.source := since m (by simp)
    rw [← List.append_assoc, Echo.after_concat, Echo.mem_touched_hear,
      ih fun m hm => since m (List.mem_append_left _ hm)]
    simp [none, or_comm, or_and_right, exists_or]

end DirWatch

import DirWatch.Proofs.Number.Doubles
import DirWatch.Watcher.Start

/-!
# What a start meets

- **Paths** are written without symbols that are not in the text they were read from, slashes and dots apart
  (`Path.mem_of_mem_normalise`), so a root without NUL characters may be asked about.
- **System errors** are all that fails in some sites (`Site.OnlySystem`), whatever is asked of them (`exists_error`,
  `launch`).
-/

namespace DirWatch

/-! ## Texts of paths -/

theorem Text.mem_join {separator : Text} {ts : List Text} {s : Symbol} (h : s ∈ Text.join separator ts) :
    s ∈ separator ∨ ∃ t ∈ ts, s ∈ t := by
  by_cases apart : s ∈ separator
  · exact Or.inl apart
  · rw [← List.count_pos_iff, Text.count_join apart, List.count_pos_iff] at h
    exact Or.inr (List.mem_flatten.1 h)

namespace Path

theorem mem_of_mem_pieces {t c : Text} {s : Symbol} (h : c ∈ pieces t) (hs : s ∈ c) : s ∈ t := by
  induction t generalizing c with
  | nil =>
    rw [pieces, List.mem_singleton] at h
    rwa [h] at hs
  | cons x rest ih =>
    unfold pieces at h
    split at h
    · rcases List.mem_cons.1 h with rfl | h
      · cases hs
      · exact List.mem_cons_of_mem x (ih h hs)
    · split at h
      · rw [List.mem_singleton.1 h, List.mem_singleton] at hs
        rw [hs]
        exact List.mem_cons_self
      · rename_i p ps e
        rcases List.mem_cons.1 h with rfl | h
        · rcases List.mem_cons.1 hs with rfl | hs
          · exact List.mem_cons_self
          · exact List.mem_cons_of_mem x (ih (by rw [e]; exact List.mem_cons_self) hs)
        · exact List.mem_cons_of_mem x (ih (by rw [e]; exact List.mem_cons_of_mem p h) hs)

/-- A path is written with the symbols of the text that it was read from, slashes and dots. -/
theorem mem_of_mem_normalise {t : Text} {s : Symbol} (h : s ∈ (ofText t).text) : s = slash ∨ s ∈ dot ∨ s ∈ t := by
  unfold text at h
  split at h
  · exact Or.inr (Or.inl h)
  · rcases List.mem_append.1 h with h | h
    · refine Or.inl ?_
      generalize (ofText t).form = form at h
      cases form with
      | relative => cases h
      | rooted => simpa [Form.text] using h
      | doubleRooted => simpa [Form.text] using h
    · rcases Text.mem_join h with h | ⟨c, hc, hs⟩
      · exact Or.inl (List.mem_singleton.1 h)
      · exact Or.inr (Or.inr (mem_of_mem_pieces (List.mem_filter.1 hc).1 hs))

theorem nul_notMem_ofText {t : Text} (h : .char '\x00' ∉ t) : .char '\x00' ∉ (ofText t).text := by
  intro listed
  rcases mem_of_mem_normalise listed with slash | dot | own
  · exact absurd slash (by decide)
  · exact absurd dot (by decide)
  · exact h own

end Path

/-! ## System errors -/

/-- Whether a fault is an error of the system. -/
def Fault.isSystem : Fault → Bool
  | .os _ => true
  | .broken _ => false

/-- Whether asking about a path fails with system errors only. -/
def FileTable.Entry.isSystem : Entry → Bool
  | .present _ _ => true
  | .faulty f => f.isSystem

namespace FileTable

/-- A table whose faults are errors of the system. -/
def OnlySystem (t : FileTable) : Prop := ∀ p ∈ t.entries, p.2.isSystem = true

/-- A change whose new faults are errors of the system. -/
def Change.OnlySystem (c : Change) : Prop := ∀ p ∈ c, ∀ e ∈ p.2, e.isSystem = true

instance (t : FileTable) : Decidable t.OnlySystem := by unfold OnlySystem; infer_instance

instance (c : Change) : Decidable c.OnlySystem := by unfold Change.OnlySystem; infer_instance

theorem OnlySystem.set {t : FileTable} (h : t.OnlySystem) (path : Text) {entry : Option Entry}
    (he : ∀ e ∈ entry, e.isSystem = true) : (t.set path entry).OnlySystem := by
  have others : ∀ p ∈ t.entries.filter (·.1 ≠ path), p.2.isSystem = true := fun p hp => h p (List.mem_filter.1 hp).1
  cases entry with
  | none => exact others
  | some e =>
    intro p hp
    rcases List.mem_cons.1 hp with rfl | hp
    · exact he e rfl
    · exact others p hp

theorem OnlySystem.apply {t : FileTable} (h : t.OnlySystem) {c : Change} (hc : c.OnlySystem) :
    (t.apply c).OnlySystem := by
  induction c generalizing t with
  | nil => exact h
  | cons p rest ih =>
    exact ih (h.set p.1 (hc p List.mem_cons_self)) fun q hq => hc q (List.mem_cons_of_mem p hq)

variable {t : FileTable} {path : Text}

theorem OnlySystem.status (h : t.OnlySystem) (whole : .char '\x00' ∉ path) {f : Failure}
    (e : t.status path = .error f) : ∃ error, f = .os error := by
  unfold FileTable.status at e
  rw [if_neg (by simpa using whole)] at e
  split at e
  · cases e
  · rename_i fault found
    cases e
    obtain ⟨p, listed, entry⟩ := Option.map_eq_some_iff.1 found
    have system := h p (List.mem_of_find?_eq_some listed)
    rw [entry] at system
    cases fault with
    | os error => exact ⟨error, rfl⟩
    | broken message => cases system
  · cases e
    exact ⟨_, rfl⟩

theorem OnlySystem.exists_error (h : t.OnlySystem) (whole : .char '\x00' ∉ path) {f : Failure}
    (e : t.exists? path = .error f) : ∃ error, f = .os error := by
  unfold exists? probe at e
  cases status : t.status path with
  | ok answer =>
    rw [status] at e
    cases e
  | error g =>
    obtain ⟨error, rfl⟩ := h.status whole status
    rw [status] at e
    dsimp only at e
    split at e
    · cases e
    · cases e
      exact ⟨error, rfl⟩

theorem OnlySystem.readable (h : t.OnlySystem) (whole : .char '\x00' ∉ path) :
    ∃ answer, t.readable? path = .ok answer := by
  unfold readable?
  cases status : t.status path with
  | ok answer => exact ⟨answer.2, rfl⟩
  | error g =>
    obtain ⟨error, rfl⟩ := h.status whole status
    exact ⟨false, rfl⟩

end FileTable

/-- Observers that fail with errors of the system only. -/
structure Behaviour.OnlySystem (b : Behaviour) : Prop where
  scheduleChange : b.scheduleChange.OnlySystem
  scheduleFault : ∀ f ∈ b.scheduleFault, f.isSystem = true
  startChange : b.startChange.OnlySystem
  startFault : ∀ f ∈ b.startFault, f.isSystem = true

namespace Site

/-- A site that fails with errors of the system only. -/
structure OnlySystem (s : Site) : Prop where
  table : s.table.OnlySystem
  native : s.native.OnlySystem
  polling : s.polling.OnlySystem

variable {s : Site}

theorem OnlySystem.behaviour (h : s.OnlySystem) (t : Technique) : (s.behaviour t).OnlySystem := by
  cases t with
  | native => exact h.native
  | polling => exact h.polling

/-- Observers and their calls do not matter. -/
theorem OnlySystem.same {t : Site} (h : s.OnlySystem) (table : t.table = s.table) (native : t.native = s.native)
    (polling : t.polling = s.polling) : t.OnlySystem :=
  ⟨table ▸ h.table, native ▸ h.native, polling ▸ h.polling⟩

theorem OnlySystem.change (h : s.OnlySystem) {c : FileTable.Change} (hc : c.OnlySystem) : (s.change c).OnlySystem :=
  ⟨h.table.apply hc, h.native, h.polling⟩

/-- A launch that fails does so with an error of the system. -/
def Systematic (r : Site × Launch) : Prop := r.1.OnlySystem ∧ ∀ f, r.2 = .failed f → f.isSystem = true

theorem OnlySystem.start (h : s.OnlySystem) (t : Technique) (i : Nat) : Systematic (s.start t i) := by
  have changed := h.change (h.behaviour t).startChange
  have faults := (h.behaviour t).startFault
  unfold Site.start
  dsimp only
  split
  · rename_i f e
    refine ⟨changed, fun g failed => ?_⟩
    cases failed
    exact faults f e
  · refine ⟨changed.same rfl rfl rfl, fun g failed => ?_⟩
    cases failed

theorem OnlySystem.launch (h : s.OnlySystem) (t : Technique) (i : Nat) (root : Path) (recursive : Bool) :
    Systematic (s.launch t i root recursive) := by
  have scheduled : (s.schedule t i root recursive).1.OnlySystem ∧
      ∀ f, (s.schedule t i root recursive).2 = some f → f.isSystem = true := by
    have recorded : (s.record i (.schedule root recursive)).OnlySystem := h.same rfl rfl rfl
    have changed := recorded.change (h.behaviour t).scheduleChange
    have faults := (h.behaviour t).scheduleFault
    unfold schedule
    dsimp only
    split
    · rename_i f e
      refine ⟨changed, fun g failed => ?_⟩
      cases failed
      exact faults f e
    · refine ⟨changed.same rfl rfl rfl, fun g failed => ?_⟩
      cases failed
  unfold Site.launch
  split
  · rename_i f e
    rw [e] at scheduled
    refine ⟨scheduled.1, fun g failed => ?_⟩
    cases failed
    exact scheduled.2 f rfl
  · rename_i u e
    rw [e] at scheduled
    have recorded : (u.record i .start).OnlySystem := scheduled.1.same rfl rfl rfl
    unfold startAtGate
    split
    · refine ⟨recorded, fun g failed => ?_⟩
      cases failed
    · exact recorded.start t i

end Site

end DirWatch

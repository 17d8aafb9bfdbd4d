import DirWatch.Site

/-!
# What happens to observers

A watcher brings observers up one after another, and each one gets its calls together. So a site is in one of two
states: no observer was started (`Barren`), or the last one was brought to its start (`Brought`), with all its calls at
the end of the record.

- A launch of a new observer leads from the first state to either of them (`came_launch`), and so does the gate
  (`Brought.start`).
- The calls of the last observer are read off the end of the record (`Brought.history_eq`).
-/

namespace DirWatch
namespace Site

/-! ## Views of a site -/

/-- Which observers were started, by number. -/
def ups (s : Site) : List Bool := s.observers.map (·.started)

/-- The calls of observer `i`, in order. -/
def history (s : Site) (i : Nat) : List Observer.Call := (s.calls.filter (·.1 = i)).map (·.2)

theorem ups_update (s : Site) (i : Nat) (f : Observer → Observer) (h : ∀ o, (f o).started = o.started) :
    (s.update i f).ups = s.ups := by
  apply List.ext_getElem?
  intro j
  simp only [ups, update, List.getElem?_map, List.getElem?_modify]
  cases s.observers[j]? with
  | none => rfl
  | some o =>
    simp only [Option.map_eq_map, Option.map_some]
    split <;> simp [h]

theorem ups_update_started (s : Site) (i : Nat) :
    (s.update i fun o => { o with started := true }).ups = s.ups.set i true := by
  apply List.ext_getElem?
  intro j
  simp only [ups, update, List.getElem?_map, List.getElem?_modify, List.getElem?_set, List.length_map]
  split
  · rename_i hij
    subst hij
    split
    · rename_i hi
      simp [List.getElem?_eq_getElem hi]
    · rename_i hi
      simp [List.getElem?_eq_none (Nat.not_lt.1 hi)]
  · simp

@[simp] theorem ups_create (s : Site) (t : Technique) (owner : Nat) (interval : Option Nat) :
    (s.create t owner interval).ups = s.ups ++ [false] := by
  simp [ups, create, record]

@[simp] theorem ups_unscheduleAll (s : Site) (i : Nat) : (s.unscheduleAll i).ups = s.ups :=
  ups_update s i (fun o => { o with emitting := false }) fun _ => rfl

@[simp] theorem ups_shutDown (s : Site) (i : Nat) : (s.shutDown i).ups = s.ups := ups_unscheduleAll s i

@[simp] theorem calls_shutDown (s : Site) (i : Nat) :
    (s.shutDown i).calls = s.calls ++ [(i, .unscheduleAll), (i, .stop), (i, .join)] := by
  simp [shutDown, unscheduleAll, update, record]

@[simp] theorem ups_schedule (s : Site) (t : Technique) (i : Nat) (root : Path) (recursive : Bool) :
    (s.schedule t i root recursive).1.ups = s.ups := by
  unfold schedule
  dsimp only
  split
  · rfl
  · exact ups_update _ i _ fun _ => rfl

@[simp] theorem calls_schedule (s : Site) (t : Technique) (i : Nat) (root : Path) (recursive : Bool) :
    (s.schedule t i root recursive).1.calls = s.calls ++ [(i, .schedule root recursive)] := by
  unfold schedule
  dsimp only
  split <;> rfl

/-! ## Barren sites and sites with an observer -/

/-- No observer was started, and every call is a call of an observer. -/
structure Barren (s : Site) : Prop where
  ups : s.ups = List.replicate s.observers.length false
  calls : ∀ r ∈ s.calls, r.1 < s.observers.length

/-- The calls that bring an observer to its start. -/
def bringing (interval : Option Nat) (root : Path) (recursive : Bool) : List Observer.Call :=
  [.create interval, .schedule root recursive, .start]

/-- Observer `i` is the last one. It was asked to start and is up or not, and after that it got the calls `late`. -/
structure Brought (s : Site) (i : Nat) (up : Bool) (late : List Observer.Call) : Prop where
  ups : s.ups = List.replicate i false ++ [up]
  calls : ∃ earlier interval root recursive, (∀ r ∈ earlier, r.1 < i) ∧
    s.calls = earlier ++ (bringing interval root recursive ++ late).map (i, ·)

/-- What may come of bringing observer `i` up. -/
def Came (i : Nat) (r : Site × Launch) : Prop :=
  match r.2 with
  | .up => r.1.Brought i true []
  | .waiting => r.1.Brought i false []
  | .failed _ => r.1.Barren ∧ i < r.1.observers.length

theorem length_ups (s : Site) : s.ups.length = s.observers.length := List.length_map ..

theorem Barren.same {s t : Site} (h : s.Barren) (hu : t.ups = s.ups) (hc : t.calls = s.calls) : t.Barren := by
  have hl : t.observers.length = s.observers.length := by rw [← length_ups, hu, length_ups]
  exact ⟨by rw [hu, h.ups, hl], by rw [hc, hl]; exact h.calls⟩

theorem Brought.same {s t : Site} {i : Nat} {up : Bool} {late : List Observer.Call} (h : s.Brought i up late)
    (hu : t.ups = s.ups) (hc : t.calls = s.calls) : t.Brought i up late :=
  ⟨hu.trans h.ups, by rw [hc]; exact h.calls⟩

/-- An observer that is not up leaves a barren site. -/
theorem Brought.barren {s : Site} {i : Nat} {late : List Observer.Call} (h : s.Brought i false late) :
    s.Barren ∧ i < s.observers.length := by
  have hl : s.observers.length = i + 1 := by rw [← length_ups, h.ups]; simp
  obtain ⟨earlier, interval, root, recursive, he, hc⟩ := h.calls
  refine ⟨⟨by rw [hl, h.ups, List.replicate_succ'], fun r hr => ?_⟩, by omega⟩
  rw [hc, List.mem_append] at hr
  rcases hr with hr | hr
  · have := he r hr
    omega
  · obtain ⟨call, _, rfl⟩ := List.mem_map.1 hr
    show i < _
    omega

/-- Dropping the handlers of an observer leaves a barren site barren. -/
theorem Barren.unscheduleAll {s : Site} (h : s.Barren) {i : Nat} (hi : i < s.observers.length) :
    (s.unscheduleAll i).Barren := by
  have hl : (s.unscheduleAll i).observers.length = s.observers.length := by
    rw [← length_ups, ups_unscheduleAll, length_ups]
  refine ⟨by rw [ups_unscheduleAll, h.ups, hl], fun r hr => ?_⟩
  rw [hl]
  rcases List.mem_append.1 hr with hr | hr
  · exact h.calls r hr
  · rw [List.mem_singleton.1 hr]
    exact hi

/-- Shutting the last observer down. -/
theorem Brought.shutDown {s : Site} {i : Nat} {up : Bool} (h : s.Brought i up []) :
    (s.shutDown i).Brought i up [.unscheduleAll, .stop, .join] := by
  obtain ⟨earlier, interval, root, recursive, he, hc⟩ := h.calls
  refine ⟨by rw [ups_shutDown, h.ups], earlier, interval, root, recursive, he, ?_⟩
  rw [calls_shutDown, hc]
  simp

/-- Past the gate. -/
theorem Brought.start {s : Site} {i : Nat} (h : s.Brought i false []) (t : Technique) : Came i (s.start t i) := by
  unfold Site.start
  dsimp only
  split
  · exact Brought.barren (h.same rfl rfl)
  · refine ⟨?_, h.calls⟩
    have hu : ((s.change (s.behaviour t).startChange).update i fun o => { o with started := true }).ups =
        s.ups.set i true := ups_update_started _ i
    rw [hu, h.ups]
    simp

/-- **Launching a new observer.** -/
theorem came_launch {s : Site} (h : s.Barren) (t : Technique) (owner : Nat) (interval : Option Nat) (root : Path)
    (recursive : Bool) : Came s.observers.length
      ((s.create t owner interval).launch t s.observers.length root recursive) := by
  have hu := ups_schedule (s.create t owner interval) t s.observers.length root recursive
  have hc := calls_schedule (s.create t owner interval) t s.observers.length root recursive
  rw [ups_create, h.ups] at hu
  unfold launch
  split
  · rename_i scheduled f e
    rw [e] at hu hc
    have hl : scheduled.observers.length = s.observers.length + 1 := by rw [← length_ups, hu]; simp
    refine ⟨⟨by rw [hl, hu, List.replicate_succ'], fun r hr => ?_⟩, by simp only [hl]; omega⟩
    simp only [hl]
    rw [hc] at hr
    simp only [create, record, List.append_assoc, List.mem_append, List.mem_singleton] at hr
    rcases hr with hr | rfl | rfl
    · have := h.calls r hr
      omega
    · simp
    · simp
  · rename_i scheduled e
    rw [e] at hu hc
    have brought : (scheduled.record s.observers.length .start).Brought s.observers.length false [] := by
      refine ⟨hu, s.calls, interval, root, recursive, h.calls, ?_⟩
      show scheduled.calls ++ _ = _
      rw [hc]
      simp [create, record, bringing]
    unfold startAtGate
    split
    · exact brought
    · exact brought.start t

/-- The calls of the last observer. -/
theorem Brought.history_eq {s : Site} {i : Nat} {up : Bool} {late : List Observer.Call} (h : s.Brought i up late) :
    ∃ interval root recursive, s.history i = bringing interval root recursive ++ late := by
  obtain ⟨earlier, interval, root, recursive, he, hc⟩ := h.calls
  refine ⟨interval, root, recursive, ?_⟩
  have old : earlier.filter (·.1 = i) = [] := by
    rw [List.filter_eq_nil_iff]
    intro r hr
    have := he r hr
    simpa using Nat.ne_of_lt this
  have own : ∀ calls : List Observer.Call, (calls.map (i, ·)).filter (·.1 = i) = calls.map (i, ·) := by
    intro calls
    rw [List.filter_eq_self]
    intro r hr
    obtain ⟨call, _, rfl⟩ := List.mem_map.1 hr
    simp
  rw [history, hc, List.filter_append, old, own, List.nil_append, List.map_map]
  exact List.map_id _

end Site
end DirWatch

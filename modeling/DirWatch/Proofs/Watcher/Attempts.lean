import DirWatch.Options.Basic
import DirWatch.Proofs.Watcher.Observers

/-!
# Attempts to bring observers up

An observer is created and scheduled, and it is started where that did not fail. One that failed is told to drop its
handlers, and gets no call after that (`Behaviour.attempt`).

- **A site** holds the observers that were tried one after another (`Site.Tried`), and there may be one more that is
  starting (`Site.Trying`).
- **One more attempt** fails just when its observer does, unless the gate holds it (`Site.Tried.launch`,
  `Site.Trying.start`).
-/

namespace DirWatch

namespace Behaviour

/-- What bringing an observer up fails with. -/
def fault? (b : Behaviour) : Option Fault := b.scheduleFault.or b.startFault

/-- The calls of an observer that is brought up. -/
def attempt (b : Behaviour) (interval : Option Nat) (root : Path) (recursive : Bool) : List Observer.Call :=
  [.create interval, .schedule root recursive] ++
    if b.scheduleFault.isSome then [.unscheduleAll]
    else .start :: if b.startFault.isSome then [.unscheduleAll] else []

/-- Whether an observer is held before it starts. -/
def isHeld (b : Behaviour) (gateOpen : Bool) : Bool := b.scheduleFault.isNone && b.gated && !gateOpen

/-- The file table that an attempt leaves when it fails. -/
def left (b : Behaviour) (t : FileTable) : FileTable :=
  if b.scheduleFault.isSome then t.apply b.scheduleChange else (t.apply b.scheduleChange).apply b.startChange

end Behaviour

/-- The seconds between two scans that an observer is created with. -/
def Technique.seconds? (o : Options) : Technique → Option Nat
  | .native => none
  | .polling => o.pollInterval?

namespace Site

/-- The observers by technique, and whether they were started. -/
def roster (s : Site) : List (Technique × Bool) := s.observers.map fun o => (o.technique, o.started)

/-- The calls of attempts with observers of some techniques, one after another. -/
def attempts (b : Technique → Behaviour) (o : Options) (root : Path) (recursive : Bool) (ts : List Technique) :
    List (Nat × Observer.Call) :=
  ts.zipIdx.flatMap fun r => ((b r.1).attempt (r.1.seconds? o) root recursive).map (r.2, ·)

variable {b : Technique → Behaviour} {o : Options} {root : Path} {recursive : Bool} {ts : List Technique}
  {t : Technique} {s u : Site} {i : Nat}

theorem attempts_concat : attempts b o root recursive (ts ++ [t]) =
    attempts b o root recursive ts ++ ((b t).attempt (t.seconds? o) root recursive).map (ts.length, ·) := by
  simp [attempts, List.zipIdx_append]

/-! ## The roster -/

theorem length_roster (s : Site) : s.roster.length = s.observers.length := List.length_map ..

theorem roster_update {f : Observer → Observer} (h : ∀ o, (f o).technique = o.technique ∧ (f o).started = o.started) :
    (s.update i f).roster = s.roster := by
  apply List.ext_getElem?
  intro j
  simp only [roster, update, List.getElem?_map, List.getElem?_modify]
  cases s.observers[j]? with
  | none => rfl
  | some o =>
    simp only [Option.map_eq_map, Option.map_some]
    split <;> simp [h]

theorem roster_started {front : List (Technique × Bool)} {up : Bool} (h : s.roster = front ++ [(t, up)])
    (hi : i = front.length) : (s.update i fun o => { o with started := true }).roster = front ++ [(t, true)] := by
  have started : (s.update i fun o => { o with started := true }).roster = s.roster.modify i fun r => (r.1, true) := by
    apply List.ext_getElem?
    intro j
    simp only [roster, update, List.getElem?_map, List.getElem?_modify]
    cases s.observers[j]? with
    | none => rfl
    | some o =>
      simp only [Option.map_eq_map, Option.map_some]
      split <;> rfl
  rw [started, h, hi]
  clear h hi
  induction front with
  | nil => rfl
  | cons r front ih => simpa using ih

theorem roster_create (owner : Nat) (interval : Option Nat) : (s.create t owner interval).roster =
    s.roster ++ [(t, false)] := by
  simp [roster, create, record]

theorem roster_unscheduleAll : (s.unscheduleAll i).roster = s.roster :=
  roster_update fun _ => ⟨rfl, rfl⟩

/-! ## Sites with attempts -/

/-- Observers of the techniques `ts` were tried one after another. -/
structure Tried (b : Technique → Behaviour) (o : Options) (root : Path) (recursive : Bool) (ts : List Technique)
    (s : Site) : Prop where
  behaviour : s.behaviour = b
  roster : s.roster = ts.map fun t => (t, (b t).fault?.isNone)
  calls : s.calls = attempts b o root recursive ts

theorem Tried.techniques (h : Tried b o root recursive ts s) : s.observers.map (·.technique) = ts := by
  have first : s.observers.map (·.technique) = s.roster.map Prod.fst := by
    rw [Site.roster, List.map_map]
    rfl
  rw [first, h.roster, List.map_map]
  exact List.map_id ts

theorem Tried.started (h : Tried b o root recursive ts s) {x : Observer} (hx : x ∈ s.observers) :
    x.started = true ↔ (b x.technique).fault? = none := by
  have listed : (x.technique, x.started) ∈ s.roster := List.mem_map.2 ⟨x, hx, rfl⟩
  rw [h.roster] at listed
  obtain ⟨t, -, e⟩ := List.mem_map.1 listed
  obtain ⟨technique, started⟩ := Prod.mk.inj e
  rw [← technique, ← started, Option.isNone_iff_eq_none]

/-- Observers of the techniques `ts` were tried, and one of technique `t` is starting. -/
structure Trying (b : Technique → Behaviour) (o : Options) (root : Path) (recursive : Bool) (ts : List Technique)
    (t : Technique) (s : Site) : Prop where
  behaviour : s.behaviour = b
  roster : s.roster = (ts.map fun t => (t, (b t).fault?.isNone)) ++ [(t, false)]
  calls : s.calls = attempts b o root recursive ts ++
    [.create (t.seconds? o), .schedule root recursive, .start].map (ts.length, ·)
  scheduled : (b t).scheduleFault = none

/-- What comes of an attempt with technique `t` after others with the techniques `ts`, once the gate lets it pass.
Where it fails it leaves the file table `left`. -/
inductive Attempted (b : Technique → Behaviour) (o : Options) (root : Path) (recursive : Bool) (ts : List Technique)
    (t : Technique) (left : FileTable) : Site × Launch → Prop
  | up {s : Site} (well : (b t).fault? = none) (tried : Tried b o root recursive (ts ++ [t]) s) :
      Attempted b o root recursive ts t left (s, .up)
  | failed {s : Site} {f : Fault} (fault : (b t).fault? = some f)
      (tried : Tried b o root recursive (ts ++ [t]) (s.unscheduleAll ts.length)) (table : s.table = left) :
      Attempted b o root recursive ts t left (s, .failed f)

/-- An attempt that is over. -/
theorem tried_concat (behaviour : u.behaviour = b)
    (roster : u.roster = (ts.map fun t => (t, (b t).fault?.isNone)) ++ [(t, (b t).fault?.isNone)])
    (calls : u.calls = attempts b o root recursive ts ++
      ((b t).attempt (t.seconds? o) root recursive).map (ts.length, ·)) : Tried b o root recursive (ts ++ [t]) u := by
  refine ⟨behaviour, ?_, ?_⟩
  · rw [roster, List.map_append]
    rfl
  · rw [calls, attempts_concat]

/-- **Past the gate** the observer that is starting is up or fails. -/
theorem Trying.start (h : Trying b o root recursive ts t s) :
    Attempted b o root recursive ts t (s.table.apply (b t).startChange) (s.start t ts.length) := by
  unfold Site.start
  rw [h.behaviour]
  dsimp only
  cases fault : (b t).startFault with
  | some f =>
    have failed : (b t).fault? = some f := by rw [Behaviour.fault?, h.scheduled, fault, Option.none_or]
    refine .failed failed (tried_concat h.behaviour ?_ ?_) rfl
    · rw [roster_unscheduleAll, failed]
      exact h.roster
    · show s.calls ++ _ = _
      rw [h.calls, List.append_assoc]
      simp [Behaviour.attempt, h.scheduled, fault]
  | none =>
    have well : (b t).fault? = none := by rw [Behaviour.fault?, h.scheduled, fault, Option.none_or]
    refine .up well (tried_concat h.behaviour ?_ ?_)
    · rw [well]
      refine roster_started (s := s.change (b t).startChange) h.roster ?_
      rw [List.length_map]
    · show s.calls = _
      rw [h.calls]
      simp [Behaviour.attempt, h.scheduled, fault]

/-- What comes of one more attempt: the gate holds its observer, or it passes. -/
inductive Launched (b : Technique → Behaviour) (o : Options) (root : Path) (recursive : Bool) (ts : List Technique)
    (t : Technique) (s : Site) : Site × Launch → Prop
  | held {u : Site} (held : (b t).isHeld s.gateOpen = true) (trying : Trying b o root recursive ts t u)
      (gate : u.gateOpen = s.gateOpen) (table : u.table = s.table.apply (b t).scheduleChange) :
      Launched b o root recursive ts t s (u, .waiting)
  | passed {r : Site × Launch} (free : (b t).isHeld s.gateOpen = false)
      (attempted : Attempted b o root recursive ts t ((b t).left s.table) r) : Launched b o root recursive ts t s r

/-- **One more attempt.** -/
theorem Tried.launch (h : Tried b o root recursive ts s) (t : Technique) (owner : Nat) :
    Launched b o root recursive ts t s
      ((s.create t owner (t.seconds? o)).launch t s.observers.length root recursive) := by
  have position : s.observers.length = ts.length := by rw [← length_roster, h.roster, List.length_map]
  have roster : (s.create t owner (t.seconds? o)).roster =
      (ts.map fun t => (t, (b t).fault?.isNone)) ++ [(t, false)] := by
    rw [roster_create, h.roster]
  have calls : (s.create t owner (t.seconds? o)).calls =
      attempts b o root recursive ts ++ [(ts.length, .create (t.seconds? o))] := by
    rw [← h.calls, ← position]
    rfl
  rw [position]
  generalize creation : s.create t owner (t.seconds? o) = c at roster calls
  have behaviour : c.behaviour = b := by
    rw [← creation, ← h.behaviour]
    rfl
  have table : c.table = s.table := by rw [← creation]; rfl
  have gate : c.gateOpen = s.gateOpen := by rw [← creation]; rfl
  clear creation
  unfold Site.launch Site.schedule
  rw [behaviour]
  dsimp only
  cases fault : (b t).scheduleFault with
  | some f =>
    have failed : (b t).fault? = some f := by rw [Behaviour.fault?, fault, Option.some_or]
    have free : (b t).isHeld s.gateOpen = false := by rw [Behaviour.isHeld, fault]; rfl
    refine .passed free (.failed failed (tried_concat behaviour ?_ ?_) ?_)
    · rw [roster_unscheduleAll, failed]
      exact roster
    · show (c.calls ++ _) ++ _ = _
      rw [calls]
      simp [Behaviour.attempt, fault]
    · show c.table.apply _ = _
      rw [Behaviour.left, fault, table]
      rfl
  | none =>
    dsimp only
    generalize scheduled : ((c.record ts.length (.schedule root recursive)).change (b t).scheduleChange).update
      ts.length (fun o => { o with listening := true, emitting := true }) = u
    have trying : Trying b o root recursive ts t (u.record ts.length .start) := by
      refine ⟨?_, ?_, ?_, fault⟩
      · rw [← behaviour, ← scheduled]
        rfl
      · rw [← roster, ← scheduled]
        exact roster_update fun _ => ⟨rfl, rfl⟩
      · rw [← scheduled]
        show (c.calls ++ _) ++ _ = _
        rw [calls]
        simp
    have changed : u.table = s.table.apply (b t).scheduleChange := by
      rw [← table, ← scheduled]
      rfl
    have gate : u.gateOpen = s.gateOpen := by
      rw [← gate, ← scheduled]
      rfl
    have offers : u.behaviour = b := trying.behaviour
    have held : (b t).isHeld s.gateOpen = ((b t).gated && !u.gateOpen) := by rw [Behaviour.isHeld, fault, gate]; rfl
    unfold startAtGate
    rw [offers]
    split
    · rename_i closed
      exact .held (held.trans closed) trying gate changed
    · rename_i free
      have started := trying.start
      have left : (u.record ts.length .start).table.apply (b t).startChange = (b t).left s.table := by
        rw [Behaviour.left, fault, ← changed]
        rfl
      rw [left] at started
      exact .passed (held.trans (Bool.eq_false_iff.2 free)) started

end Site
end DirWatch

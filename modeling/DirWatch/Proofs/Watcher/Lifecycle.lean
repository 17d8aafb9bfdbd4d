import DirWatch.Proofs.Watcher.Channel
import DirWatch.Proofs.Watcher.Observers

/-!
# Starting and stopping in any order

A watcher is not started, holds an observer at the gate, uses one, has shut one down, or failed to start (`Life`). Each
state says what happened to all observers, and every call and every move leads from one to another (`Life.call`,
`Life.step`).

- **One observer**: at most one observer is ever started, and every later call to start fails and does nothing else.
- **Stop wins**: once the watcher was stopped, the channel is closed and the observer that was started was shut down,
  once (`start_stop_race`).
-/

namespace DirWatch
namespace Watcher

open Channel (Push)

/-- The life of a watcher: how its first start stands, which observer it uses, and what happened to the observers. -/
inductive Life (w : Watcher) : Prop
  /-- The watcher was not started. -/
  | fresh (starts : w.starts = []) (current : w.current = none) (waiting : w.waiting = none) (site : w.site.Barren)
  /-- An observer waits at the gate. -/
  | held {x : Waiting} (starts : w.starts.head? = some .pending) (current : w.current = none)
      (waiting : w.waiting = some x) (site : w.site.Brought x.observer false [])
  /-- An observer is in use. -/
  | inUse {i : Nat} (starts : w.starts.head? = some .finished) (current : w.current = some i)
      (waiting : w.waiting = none) (stopping : w.stopping = false) (site : w.site.Brought i true [])
  /-- The observer that was started was shut down. -/
  | ended {i : Nat} (starts : w.starts.head? = some .finished) (current : w.current = none)
      (waiting : w.waiting = none) (stopping : w.stopping = true)
      (site : w.site.Brought i true [.unscheduleAll, .stop, .join])
  /-- No observer could be started. -/
  | failed {f : Failure} (starts : w.starts.head? = some (.failed f)) (current : w.current = none)
      (waiting : w.waiting = none) (site : w.site.Barren)

/-! ## Starting -/

/-- The first start is under way, and no observer waits or is in use. -/
structure Opening (w : Watcher) : Prop where
  starts : w.starts.head? = some .pending
  current : w.current = none
  waiting : w.waiting = none

/-- Setting the first element of a list that has one. -/
theorem head_set {α : Type} {xs : List α} {x : α} (h : xs.head? = some x) (y : α) : (xs.set 0 y).head? = some y := by
  cases xs with
  | nil => cases h
  | cons first later => rfl

theorem life_endStart {w : Watcher} (h : Opening w) (hs : w.site.Barren) (f : Failure) :
    Life (w.endStart (.failed f)) := .failed (head_set h.starts _) h.current h.waiting hs

theorem life_publish {w : Watcher} (h : Opening w) {i : Nat} (hs : w.site.Brought i true []) : Life (w.publish i) := by
  unfold publish
  -- A stop that came while the observer was brought up leaves its end to the start.
  split
  · rename_i stopping
    exact .ended (head_set h.starts _) h.current h.waiting stopping hs.shutDown
  · rename_i stopping
    have running : w.stopping = false := by simpa using stopping
    exact .inUse (head_set h.starts _) rfl h.waiting running hs

theorem life_concludePolling {w : Watcher} (h : Opening w) {i : Nat} {outcome : Launch}
    (hs : Site.Came i (w.site, outcome)) (root : Path) (recursive : Bool) :
    Life (w.concludePolling i root recursive outcome) := by
  cases outcome with
  | up => exact life_publish h hs
  | waiting => exact .held h.starts h.current rfl hs
  | failed f =>
    cases f with
    | broken message => exact life_endStart h hs.1 _
    | os e =>
      have hv : Opening { w with site := w.site.unscheduleAll i } := ⟨h.starts, h.current, h.waiting⟩
      exact life_endStart hv (hs.1.unscheduleAll hs.2) _

theorem life_startPolling {w : Watcher} (h : Opening w) (hs : w.site.Barren) (root : Path) (recursive : Bool) :
    Life (w.startPolling root recursive) := by
  unfold startPolling
  split
  · exact life_endStart h hs _
  · refine life_concludePolling ?_ ?_ root recursive
    · exact ⟨h.starts, h.current, h.waiting⟩
    · exact Site.came_launch hs ..

theorem life_concludeNative {w : Watcher} (h : Opening w) {i : Nat} {outcome : Launch}
    (hs : Site.Came i (w.site, outcome)) (root : Path) (recursive : Bool) :
    Life (w.concludeNative i root recursive outcome) := by
  cases outcome with
  | up => exact life_publish h hs
  | waiting => exact .held h.starts h.current rfl hs
  | failed f =>
    cases f with
    | broken message => exact life_endStart h hs.1 _
    | os e =>
      have hv : Opening { w with site := w.site.unscheduleAll i } := ⟨h.starts, h.current, h.waiting⟩
      have barren : (w.site.unscheduleAll i).Barren := hs.1.unscheduleAll hs.2
      unfold concludeNative
      dsimp only
      split
      · exact life_endStart hv barren _
      · exact life_endStart hv barren _
      · exact life_startPolling hv barren root recursive

/-- Another observer is never started. -/
theorem start_of_started {w : Watcher} (h : w.starts ≠ []) (root : Path) (recursive : Bool) :
    w.start root recursive = { w with starts := w.starts ++ [.failed .watcherReused] } := by
  unfold start
  rw [if_neg (by simpa using h)]

/-- A call to start that fails at once changes nothing else. -/
theorem Life.more {w : Watcher} (h : Life w) (hs : w.starts ≠ []) (status : StartStatus) :
    Life { w with starts := w.starts ++ [status] } := by
  have hh : (w.starts ++ [status]).head? = w.starts.head? := by
    cases e : w.starts with
    | nil => exact absurd e hs
    | cons first later => rfl
  cases h with
  | fresh starts => exact absurd starts hs
  | held starts current waiting site => exact .held (hh.trans starts) current waiting site
  | inUse starts current waiting stopping site => exact .inUse (hh.trans starts) current waiting stopping site
  | ended starts current waiting stopping site => exact .ended (hh.trans starts) current waiting stopping site
  | failed starts current waiting site => exact .failed (hh.trans starts) current waiting site

theorem life_start {w : Watcher} (h : Life w) (root : Path) (recursive : Bool) : Life (w.start root recursive) := by
  by_cases hs : w.starts = []
  · cases h with
    | fresh _ current waiting site =>
      have opening : Opening { w with starts := [.pending] } := ⟨rfl, current, waiting⟩
      unfold start
      rw [if_pos (by simpa using hs)]
      dsimp only
      split
      · exact life_endStart opening site _
      · split
        · exact life_startPolling opening site root recursive
        · refine life_concludeNative ?_ ?_ root recursive
          · exact ⟨rfl, current, waiting⟩
          · exact Site.came_launch site ..
    | held starts => simp [hs] at starts
    | inUse starts => simp [hs] at starts
    | ended starts => simp [hs] at starts
    | failed starts => simp [hs] at starts
  · rw [start_of_started hs]
    exact h.more hs _

theorem life_passGate {w : Watcher} (h : Life w) {x : Waiting} (hx : w.waiting = some x) : Life (w.passGate x) := by
  cases h with
  | @held y starts current waiting site =>
    obtain rfl : y = x := Option.some.inj (waiting.symm.trans hx)
    have came := site.start y.technique
    unfold passGate
    dsimp only
    split
    · refine life_concludeNative ?_ came _ _
      exact ⟨starts, current, rfl⟩
    · refine life_concludePolling ?_ came _ _
      exact ⟨starts, current, rfl⟩
  | fresh _ _ waiting => rw [hx] at waiting; cases waiting
  | inUse _ _ waiting => rw [hx] at waiting; cases waiting
  | ended _ _ waiting => rw [hx] at waiting; cases waiting
  | failed _ _ waiting => rw [hx] at waiting; cases waiting

/-! ## Stopping -/

theorem Life.stop {w : Watcher} (h : Life w) : Life w.stop := by
  cases h with
  | fresh starts current waiting site => exact .fresh starts rfl waiting (by simpa [Watcher.stop, current] using site)
  | held starts current waiting site =>
    exact .held starts rfl waiting (by simpa [Watcher.stop, current] using site)
  | inUse starts current waiting _ site =>
    exact .ended starts rfl waiting rfl (by simpa [Watcher.stop, current] using site.shutDown)
  | ended starts current waiting _ site =>
    exact .ended starts rfl waiting rfl (by simpa [Watcher.stop, current] using site)
  | failed starts current waiting site =>
    exact .failed starts rfl waiting (by simpa [Watcher.stop, current] using site)

/-! ## Everything else -/

/-- What neither starts nor stops keeps the life of a watcher. -/
theorem Life.same {w v : Watcher} (h : Life w) (starts : v.starts = w.starts) (current : v.current = w.current)
    (waiting : v.waiting = w.waiting) (stopping : v.stopping = w.stopping) (ups : v.site.ups = w.site.ups)
    (calls : v.site.calls = w.site.calls) : Life v := by
  cases h with
  | fresh s c x site => exact .fresh (starts.trans s) (current.trans c) (waiting.trans x) (site.same ups calls)
  | held s c x site => exact .held (starts ▸ s) (current.trans c) (waiting.trans x) (site.same ups calls)
  | inUse s c x t site =>
    exact .inUse (starts ▸ s) (current.trans c) (waiting.trans x) (stopping.trans t) (site.same ups calls)
  | ended s c x t site =>
    exact .ended (starts ▸ s) (current.trans c) (waiting.trans x) (stopping.trans t) (site.same ups calls)
  | failed s c x site => exact .failed (starts ▸ s) (current.trans c) (waiting.trans x) (site.same ups calls)

theorem ups_hear (s : Site) (i : Nat) (n : Notice) : (s.hear i n).1.ups = s.ups := by
  unfold Site.hear
  split
  · rfl
  · exact Site.ups_update s i _ fun _ => rfl

theorem calls_hear (s : Site) (i : Nat) (n : Notice) : (s.hear i n).1.calls = s.calls := by
  unfold Site.hear
  split <;> rfl

theorem ups_kill (s : Site) (i : Nat) (part : Observer.Part) : (s.kill i part).ups = s.ups := by
  cases part with
  | observer => exact Site.ups_update s i _ fun _ => rfl
  | emitter => exact Site.ups_update s i _ fun _ => rfl

/-- **Every move keeps the life of a watcher.** -/
theorem Life.step {w v : Watcher} (h : Life w) (e : w.step = some v) : Life v := by
  obtain ⟨channel, _, rfl⟩ | ⟨x, hx, rfl⟩ | ⟨r, hr, rfl⟩ | ⟨part, rfl⟩ := step_cases e
  · exact h.same rfl rfl rfl rfl rfl rfl
  · exact life_passGate h hx
  · obtain ⟨front, i, total, send, n, ns, back, _, rfl | rfl⟩ := exists_of_hearNext hr
    · exact h.same rfl rfl rfl rfl (ups_hear w.site i n) (calls_hear w.site i n)
    · exact h.same rfl rfl rfl rfl (ups_hear w.site i n) (calls_hear w.site i n)
  · exact h.same rfl rfl rfl rfl rfl rfl

/-- **Every call keeps the life of a watcher.** -/
theorem Life.call {w : Watcher} (h : Life w) (a : Action) : Life (w.call a) := by
  cases a with
  | start root recursive => exact life_start h root recursive
  | stop => exact h.stop
  | send m => exact h.same rfl rfl rfl rfl rfl rfl
  | feed notices =>
    unfold Watcher.call
    dsimp only
    split
    · exact h
    · exact h.same rfl rfl rfl rfl rfl rfl
  | receive => exact h.same rfl rfl rfl rfl rfl rfl
  | withdraw i => exact h.same rfl rfl rfl rfl rfl rfl
  | change c => exact h.same rfl rfl rfl rfl rfl rfl
  | kill part =>
    unfold Watcher.call
    dsimp only
    split
    · exact h
    · rename_i i _
      exact h.same rfl rfl rfl rfl (ups_kill w.site i part) (by cases part <;> rfl)
  | release => exact h.same rfl rfl rfl rfl rfl rfl
  | wait => exact h

/-! ## Histories -/

/-- What all calls and all moves keep, a history keeps. -/
theorem run_induction {P : Watcher → Prop} (call : ∀ w a, P w → P (w.call a))
    (step : ∀ w v, P w → w.step = some v → P v) {w : Watcher} (h : P w) (actions : List Action) :
    P (w.run actions) := history_induction call step actions h

/-- After a call the watcher moves no further. -/
theorem step_run {actions : List Action} (h : actions ≠ []) (w : Watcher) : (w.run actions).step = none :=
  step_history (fun _ _ => load_step) h w

theorem stopping_step {w v : Watcher} (h : w.step = some v) : v.stopping = w.stopping := by
  obtain ⟨channel, _, rfl⟩ | ⟨x, _, rfl⟩ | ⟨r, _, rfl⟩ | ⟨part, rfl⟩ := step_cases h
  · rfl
  · exact (spared_passGate w x).stopping
  · rfl
  · rfl

/-- What every history keeps of a new watcher. -/
structure Orderly (w : Watcher) : Prop where
  life : Life w
  closed : w.stopping = true → w.channel.closed = true
  later : ∀ s ∈ w.starts.tail, s = .failed .watcherReused

theorem Orderly.spared {w v : Watcher} (h : Orderly w) (k : Spared w v) (life : Life v) : Orderly v where
  life := life
  closed stopping := by
    rw [k.channel]
    exact h.closed (k.stopping ▸ stopping)
  later s hs := (k.later s hs).elim (h.later s) id

/-- What happens to the channel alone. -/
theorem Orderly.onChannel {w : Watcher} (h : Orderly w) {c : Channel Message}
    (closed : w.channel.closed = true → c.closed = true) : Orderly { w with channel := c } :=
  ⟨h.life.same rfl rfl rfl rfl rfl rfl, fun stopping => closed (h.closed stopping), h.later⟩

theorem Orderly.step {w v : Watcher} (h : Orderly w) (e : w.step = some v) : Orderly v := by
  refine ⟨h.life.step e, fun stopping => ?_, ?_⟩
  · exact (push_step e).closed (h.closed (stopping_step e ▸ stopping))
  · obtain ⟨channel, _, rfl⟩ | ⟨x, _, rfl⟩ | ⟨r, _, rfl⟩ | ⟨part, rfl⟩ := step_cases e
    · exact h.later
    · exact fun s hs => ((spared_passGate w x).later s hs).elim (h.later s) id
    · exact h.later
    · exact h.later

theorem Orderly.call {w : Watcher} (h : Orderly w) (a : Action) : Orderly (w.call a) := by
  have life := h.life.call a
  cases a with
  | start root recursive => exact h.spared (spared_start w root recursive) life
  | stop => exact ⟨life, fun _ => Channel.closed_close w.channel, h.later⟩
  | send m => exact ⟨life, h.closed, h.later⟩
  | feed notices =>
    unfold Watcher.call at life ⊢
    dsimp only at life ⊢
    split at life
    · exact h
    · exact ⟨life, h.closed, h.later⟩
  | receive => exact ⟨life, h.closed, h.later⟩
  | withdraw i =>
    exact ⟨life, fun stopping => Channel.closed_of_move (h.closed stopping) (.withdraw w.channel i), h.later⟩
  | change c => exact ⟨life, h.closed, h.later⟩
  | kill part =>
    unfold Watcher.call at life ⊢
    dsimp only at life ⊢
    split at life
    · exact h
    · exact ⟨life, h.closed, h.later⟩
  | release => exact ⟨life, h.closed, h.later⟩
  | wait => exact h

/-- A site without observers. -/
theorem Orderly.new (options : Options) (number : Nat) (table : FileTable) (native polling : Behaviour)
    (gateOpen : Bool) : Orderly { options, number, site := { table, native, polling, gateOpen } } where
  life := .fresh rfl rfl rfl ⟨rfl, by simp⟩
  closed h := by cases h
  later := by simp

theorem Life.isRunning_iff {w : Watcher} (h : Life w) :
    w.isRunning = true ↔ w.starts.head? = some .finished ∧ w.stopping = false := by
  unfold isRunning
  cases h with
  | fresh starts current => simp [starts, current]
  | held starts current => simp [starts, current]
  | inUse starts current _ stopping => simp [starts, current, stopping]
  | ended starts current _ stopping => simp [starts, current, stopping]
  | failed starts current => simp [starts, current]

/-- Once a watcher was stopped, each observer that was started was shut down once. -/
theorem Life.shut_down {w : Watcher} (h : Life w) (stopping : w.stopping = true) {i : Nat} {o : Observer}
    (ho : w.site.observers[i]? = some o) (up : o.started = true) :
    ∃ interval root recursive, w.site.history i =
      Site.bringing interval root recursive ++ [.unscheduleAll, .stop, .join] := by
  have hi : w.site.ups[i]? = some true := by simp [Site.ups, ho, up]
  have barren (site : w.site.Barren) : False := by
    rw [site.ups, List.getElem?_replicate] at hi
    split at hi <;> cases hi
  cases h with
  | fresh _ _ _ site => exact (barren site).elim
  -- The observer at the gate is not started yet.
  | held _ _ _ site => exact (barren site.barren.1).elim
  | inUse _ _ _ running => rw [stopping] at running; cases running
  | @ended j _ _ _ _ site =>
    obtain rfl : i = j := by
      rw [site.ups, List.getElem?_append] at hi
      split at hi
      · rw [List.getElem?_replicate] at hi
        split at hi <;> cases hi
      · rename_i hj
        rw [List.length_replicate] at hi hj
        obtain ⟨hlast, _⟩ := List.getElem?_eq_some_iff.1 hi
        rw [List.length_singleton] at hlast
        omega
    exact site.history_eq
  | failed _ _ _ site => exact (barren site).elim

/-- A stop while the observer waits at the gate: the start shuts the observer down once the gate opens. -/
example :
    let options : Options := { pattern := ⟨"*", [.atom .star], rfl⟩ }
    let site : Site := { table := ⟨[("r", .present 16877 true)]⟩, native := { gated := true } }
    let w := Watcher.run { options, site } [.start (.ofText "r") false, .stop, .release]
    w.starts = [.finished] ∧ w.isRunning = false ∧ w.site.history 0 =
      [.create none, .schedule (.ofText "r") false, .start, .unscheduleAll, .stop, .join] := by decide

end Watcher
end DirWatch

import DirWatch.Proofs.Watcher.Registration

/-!
# Which observers the first start tries

A root that is there and may be read is watched by a polling observer where that is asked for, and else by a native
one; when that fails and the root is still there, by a polling one (`Selects`).

- **The first start** is answered once its last observer is up or has failed (`Answered`); until then an observer is
  held at the gate (`Holding`).
- Bringing observers up leads from one to the other (`Opened.startPolling`, `Opened.concludeNative`), and nothing else
  touches them (`undisturbed_call`, `undisturbed_step`).
- **A whole history** keeps the choice that was made (`first_start_selects`).
-/

namespace DirWatch

theorem Behaviour.OnlySystem.fault {behaviour : Behaviour} (h : behaviour.OnlySystem) {f : Fault}
    (e : behaviour.fault? = some f) : f.isSystem = true := by
  rcases Option.or_eq_some_iff.1 e with e | ⟨-, e⟩
  · exact h.scheduleFault f e
  · exact h.startFault f e

namespace Watcher

/-! ## What is asked about the root -/

/-- Whether a root is there and may be read. -/
def Watchable (t : FileTable) (root : Path) : Prop :=
  t.exists? root.text = .ok true ∧ t.readable? root.text = .ok true

theorem rootFailure_eq_none_iff {table : FileTable} {root : Path} :
    rootFailure? table root = none ↔ Watchable table root := by
  unfold rootFailure? Watchable
  cases table.exists? root.text with
  | error f => cases f <;> simp
  | ok there =>
    cases there with
    | false => simp
    | true =>
      cases table.readable? root.text with
      | error f => simp
      | ok readable => cases readable <;> simp

/-- The file table when a native observer has failed, on a site where the first start was made before the actions
`after`. While the gate holds the observer the table may change. -/
def tableAtFailure (s : Site) (after : List Action) : FileTable :=
  if s.native.isHeld s.gateOpen then
    (tableAfter (s.table.apply s.native.scheduleChange) (after.takeWhile fun a => !a.opens)).apply s.native.startChange
  else s.native.left s.table

/-- The techniques of the observers that are tried, where asking about the root again meets the table `asked`. -/
inductive Selects (b : Technique → Behaviour) (o : Options) (root : Path) (asked : FileTable) : List Technique → Prop
  | polling (poll : o.poll = true) : Selects b o root asked [.polling]
  | native (poll : o.poll = false)
      (stays : (b .native).fault? = none ∨ asked.exists? root.text ≠ .ok true) : Selects b o root asked [.native]
  | fallback (poll : o.poll = false) (fault : (b .native).fault? ≠ none) (there : asked.exists? root.text = .ok true) :
      Selects b o root asked [.native, .polling]

/-- Why the start fails when the observer of technique `t` has failed and no other is tried. Asking about the root again
may fail itself. -/
def lastFailure (root : Path) (asked : FileTable) : Technique → Fault → Failure
  | _, .broken message => .broken message
  | .polling, .os e => .registration root e.reason
  | .native, .os e =>
    match asked.exists? root.text with
    | .error f => f
    | .ok _ => .registration root e.reason

/-- How the start is answered when the last observer is one of technique `t`. -/
def answer (b : Technique → Behaviour) (root : Path) (asked : FileTable) (t : Technique) : StartStatus :=
  match (b t).fault? with
  | none => .finished
  | some f => .failed (lastFailure root asked t f)

theorem answer_eq_finished_iff {b : Technique → Behaviour} {root : Path} {asked : FileTable} {t : Technique} :
    answer b root asked t = .finished ↔ (b t).fault? = none := by
  unfold answer
  cases (b t).fault? <;> simp

variable {b : Technique → Behaviour} {o : Options} {root : Path} {recursive : Bool} {asked : FileTable}
  {ts : List Technique} {t : Technique} {w v : Watcher}

/-! ## Bringing observers up -/

/-- The first start is under way on a watcher that was not stopped. -/
structure Opened (o : Options) (w : Watcher) : Prop where
  options : w.options = o
  stopping : w.stopping = false
  starts : w.starts.head? = some .pending
  waiting : w.waiting = none

/-- The first start was answered when observers of the techniques `ts` were tried. -/
structure Answered (b : Technique → Behaviour) (o : Options) (root : Path) (recursive : Bool) (asked : FileTable)
    (ts : List Technique) (w : Watcher) : Prop where
  tried : Site.Tried b o root recursive ts w.site
  waiting : w.waiting = none
  answer : ∃ t, ts.getLast? = some t ∧ w.starts.head? = some (answer b root asked t)
  polling : w.polling = true ↔ .polling ∈ ts

/-- An observer of technique `t` is held behind those of the techniques `ts`. -/
structure Holding (b : Technique → Behaviour) (o : Options) (root : Path) (recursive : Bool) (ts : List Technique)
    (t : Technique) (w : Watcher) : Prop where
  options : w.options = o
  stopping : w.stopping = false
  starts : w.starts.head? = some .pending
  waiting : w.waiting = some ⟨t, ts.length, root, recursive⟩
  trying : Site.Trying b o root recursive ts t w.site
  polling : w.polling = true ↔ t = .polling

/-- It is settled which observers are tried, though the last one may still be held. -/
inductive Chosen (b : Technique → Behaviour) (o : Options) (root : Path) (recursive : Bool) (asked : FileTable)
    (w : Watcher) : Prop
  | answered {ts : List Technique} (selects : Selects b o root asked ts)
      (answered : Answered b o root recursive asked ts w)
  | held {ts : List Technique} (selects : Selects b o root asked (ts ++ [.polling]))
      (holding : Holding b o root recursive ts .polling w)

theorem Opened.endStart (h : Opened o w) (tried : Site.Tried b o root recursive (ts ++ [t]) w.site)
    (polling : w.polling = true ↔ .polling ∈ ts ++ [t]) {status : StartStatus} (told : status = answer b root asked t) :
    Answered b o root recursive asked (ts ++ [t]) (w.endStart status) where
  tried := tried
  waiting := h.waiting
  answer := ⟨t, List.getLast?_concat, told ▸ head_set h.starts status⟩
  polling := polling

/-- An observer that failed for good. -/
theorem Opened.giveUp (h : Opened o w) (tried : Site.Tried b o root recursive (ts ++ [t]) w.site)
    (polling : w.polling = true ↔ .polling ∈ ts ++ [t]) {g : Fault} (fault : (b t).fault? = some g) {f : Failure}
    (last : lastFailure root asked t g = f) :
    Answered b o root recursive asked (ts ++ [t]) (w.endStart (.failed f)) :=
  h.endStart tried polling (by rw [answer, fault, ← last])

theorem Opened.publish (h : Opened o w) (tried : Site.Tried b o root recursive (ts ++ [t]) w.site)
    (polling : w.polling = true ↔ .polling ∈ ts ++ [t]) (well : (b t).fault? = none) (i : Nat) :
    Answered b o root recursive asked (ts ++ [t]) (w.publish i) := by
  have used : Opened o { w with current := some i } := ⟨h.options, h.stopping, h.starts, h.waiting⟩
  unfold Watcher.publish
  rw [if_neg (by simp [h.stopping])]
  exact used.endStart tried polling (answer_eq_finished_iff.2 well).symm

/-- A polling observer that passed the gate answers the start. -/
theorem Opened.concludePolling (h : Opened o w) (polling : w.polling = true)
    (system : ∀ f, (b .polling).fault? = some f → f.isSystem = true) {left : FileTable} {r : Site × Launch}
    (attempted : Site.Attempted b o root recursive ts .polling left r) :
    Answered b o root recursive asked (ts ++ [.polling])
      (Watcher.concludePolling { w with site := r.1 } ts.length root recursive r.2) := by
  have polls : w.polling = true ↔ .polling ∈ ts ++ [.polling] := iff_of_true polling (by simp)
  cases attempted with
  | @up s well tried =>
    have opened : Opened o { w with site := s } := ⟨h.options, h.stopping, h.starts, h.waiting⟩
    exact opened.publish tried polls well _
  | @failed s f fault tried =>
    have opened : Opened o { w with site := s.unscheduleAll ts.length } := ⟨h.options, h.stopping, h.starts, h.waiting⟩
    cases f with
    | broken message => cases system _ fault
    | os e => exact opened.giveUp tried polls fault rfl

theorem Opened.startPolling (h : Opened o w) (interval : o.pollInterval?.isSome = true)
    (system : ∀ f, (b .polling).fault? = some f → f.isSystem = true) (tried : Site.Tried b o root recursive ts w.site)
    (selects : Selects b o root asked (ts ++ [.polling])) :
    Chosen b o root recursive asked (w.startPolling root recursive) := by
  obtain ⟨seconds, hs⟩ := Option.isSome_iff_exists.1 interval
  have position : w.site.observers.length = ts.length := by rw [← Site.length_roster, tried.roster, List.length_map]
  have launched := tried.launch .polling w.number
  rw [Technique.seconds?, hs] at launched
  have polled : Opened o { w with polling := true } := ⟨h.options, h.stopping, h.starts, h.waiting⟩
  have given : w.options.pollInterval? = some seconds := by rw [h.options, hs]
  unfold Watcher.startPolling
  rw [given]
  dsimp only
  rw [position] at launched ⊢
  generalize (w.site.create .polling w.number (some seconds)).launch .polling ts.length root recursive = r at launched
  cases launched with
  | held held trying gate table =>
    exact .held selects ⟨h.options, h.stopping, h.starts, rfl, trying, iff_of_true rfl rfl⟩
  | passed free attempted => exact .answered selects (polled.concludePolling rfl system attempted)

/-- A native observer that passed the gate answers the start, or a polling one is tried. -/
theorem Opened.concludeNative (h : Opened o w) (interval : o.pollInterval?.isSome = true)
    (system : ∀ t f, (b t).fault? = some f → f.isSystem = true) (poll : o.poll = false) (polling : w.polling = false)
    {r : Site × Launch} (attempted : Site.Attempted b o root recursive [] .native asked r) :
    Chosen b o root recursive asked (Watcher.concludeNative { w with site := r.1 } 0 root recursive r.2) := by
  have polls : w.polling = true ↔ .polling ∈ [] ++ [Technique.native] := iff_of_false (by simp [polling]) (by simp)
  cases attempted with
  | @up s well tried =>
    have opened : Opened o { w with site := s } := ⟨h.options, h.stopping, h.starts, h.waiting⟩
    exact .answered (.native poll (.inl well)) (opened.publish tried polls well _)
  | @failed s f fault tried table =>
    have opened : Opened o { w with site := s.unscheduleAll 0 } := ⟨h.options, h.stopping, h.starts, h.waiting⟩
    cases f with
    | broken message => cases system _ _ fault
    | os e =>
      have again : (s.unscheduleAll 0).table = asked := table
      unfold Watcher.concludeNative
      dsimp only
      rw [again]
      cases there : asked.exists? root.text with
      | error g =>
        exact .answered (.native poll (.inr (by simp [there])))
          (opened.giveUp tried polls fault (by rw [lastFailure, there]))
      | ok answer =>
        cases answer with
        | false =>
          exact .answered (.native poll (.inr (by simp [there])))
            (opened.giveUp tried polls fault (by rw [lastFailure, there]))
        | true => exact opened.startPolling interval (system _) tried (.fallback poll (by simp [fault]) there)

/-! ## The first start -/

/-- A watcher that was not started or stopped, with no observer. -/
structure Idle (b : Technique → Behaviour) (o : Options) (root : Path) (recursive : Bool) (w : Watcher) : Prop where
  options : w.options = o
  stopping : w.stopping = false
  starts : w.starts = []
  waiting : w.waiting = none
  polling : w.polling = false
  tried : Site.Tried b o root recursive [] w.site

/-- The first start on a root that may be watched. -/
theorem Idle.start_eq (h : Idle b o root recursive w) (there : Watchable w.site.table root) :
    w.start root recursive =
      if o.poll then Watcher.startPolling { w with starts := [.pending] } root recursive
      else Watcher.startNative { w with starts := [.pending] } root recursive := by
  unfold Watcher.start
  rw [if_pos (by simp [h.starts])]
  dsimp only
  rw [rootFailure_eq_none_iff.2 there, h.options]

theorem Idle.opened (h : Idle b o root recursive w) : Opened o { w with starts := [.pending] } :=
  ⟨h.options, h.stopping, rfl, h.waiting⟩

/-- The first start on any other root touches no observer. -/
theorem Idle.start_refused (h : Idle b o root recursive w) {f : Failure} (e : rootFailure? w.site.table root = some f) :
    w.start root recursive = { w with starts := [.failed f] } := by
  unfold Watcher.start
  rw [if_pos (by simp [h.starts])]
  dsimp only
  rw [e]
  rfl

/-- **A native observer** comes first where polling is not asked for. -/
theorem Idle.startNative (h : Idle b o root recursive w) (interval : o.pollInterval?.isSome = true)
    (system : ∀ t f, (b t).fault? = some f → f.isSystem = true) (there : Watchable w.site.table root)
    (poll : o.poll = false) :
    (w.site.native.isHeld w.site.gateOpen = false ∧
      Chosen b o root recursive (w.site.native.left w.site.table) (w.start root recursive)) ∨
    (w.site.native.isHeld w.site.gateOpen = true ∧
      Holding b o root recursive [] .native (w.start root recursive) ∧
      (w.start root recursive).site.table = w.site.table.apply w.site.native.scheduleChange ∧
      (w.start root recursive).site.gateOpen = w.site.gateOpen) := by
  have own : w.site.native = b .native := by rw [← h.tried.behaviour]; rfl
  have position : w.site.observers.length = 0 := by rw [← Site.length_roster, h.tried.roster]; rfl
  have launched := h.tried.launch .native w.number
  rw [h.start_eq there, if_neg (by simp [poll])]
  unfold Watcher.startNative
  dsimp only
  rw [position, Technique.seconds?] at launched
  rw [position, own]
  generalize (w.site.create .native w.number none).launch .native 0 root recursive = r at launched
  cases launched with
  | held held trying gate table =>
    exact .inr ⟨held, ⟨h.options, h.stopping, rfl, rfl, trying, iff_of_false (by simp [concludeNative, h.polling])
      (by simp)⟩, table, gate⟩
  | passed free attempted => exact .inl ⟨free, h.opened.concludeNative interval system poll h.polling attempted⟩

/-! ## At the gate -/

theorem Holding.opened (h : Holding b o root recursive ts t w) : Opened o { w with waiting := none } :=
  ⟨h.options, h.stopping, h.starts, rfl⟩

/-- A polling observer that was held goes on. -/
theorem Holding.passPolling (h : Holding b o root recursive ts .polling w)
    (system : ∀ t f, (b t).fault? = some f → f.isSystem = true) :
    Answered b o root recursive asked (ts ++ [.polling]) (w.passGate ⟨.polling, ts.length, root, recursive⟩) :=
  h.opened.concludePolling (h.polling.2 rfl) (system _) h.trying.start

/-- A native observer that was held goes on. -/
theorem Holding.passNative (h : Holding b o root recursive [] .native w) (interval : o.pollInterval?.isSome = true)
    (system : ∀ t f, (b t).fault? = some f → f.isSystem = true) (poll : o.poll = false) :
    Chosen b o root recursive (w.site.table.apply (b .native).startChange)
      (w.passGate ⟨.native, 0, root, recursive⟩) := by
  have polling : w.polling = false := by simpa using h.polling
  exact h.opened.concludeNative interval system poll polling h.trying.start

/-! ## Everything else -/

theorem Answered.undisturbed (h : Answered b o root recursive asked ts w) (k : Undisturbed w v) :
    Answered b o root recursive asked ts v where
  tried := ⟨k.behaviour.trans h.tried.behaviour, k.roster.trans h.tried.roster, k.calls.trans h.tried.calls⟩
  waiting := k.waiting.trans h.waiting
  answer := k.starts ▸ h.answer
  polling := k.polling ▸ h.polling

theorem Holding.undisturbed (h : Holding b o root recursive ts t w) (k : Undisturbed w v) :
    Holding b o root recursive ts t v where
  options := k.options.trans h.options
  stopping := k.stopping.trans h.stopping
  starts := k.starts.trans h.starts
  waiting := k.waiting.trans h.waiting
  trying := ⟨k.behaviour.trans h.trying.behaviour, k.roster.trans h.trying.roster, k.calls.trans h.trying.calls,
    h.trying.scheduled⟩
  polling := k.polling ▸ h.polling

theorem Chosen.undisturbed (h : Chosen b o root recursive asked w) (k : Undisturbed w v) :
    Chosen b o root recursive asked v := by
  cases h with
  | answered selects answered => exact .answered selects (answered.undisturbed k)
  | held selects holding => exact .held selects (holding.undisturbed k)

/-! ## Whole histories -/

theorem Holding.started (h : Holding b o root recursive ts t w) : w.starts ≠ [] := by
  intro none
  have starts := h.starts
  rw [none] at starts
  cases starts

theorem Chosen.started (h : Chosen b o root recursive asked w) : w.starts ≠ [] := by
  cases h with
  | answered selects answered =>
    obtain ⟨t, -, head⟩ := answered.answer
    intro none
    rw [none] at head
    cases head
  | held selects holding => exact holding.started

/-- **One move** keeps the choice. -/
theorem Chosen.step (h : Chosen b o root recursive asked w) (system : ∀ t f, (b t).fault? = some f → f.isSystem = true)
    (e : w.step = some v) : Chosen b o root recursive asked v := by
  obtain ⟨k, -⟩ | ⟨-, x, hx, rfl⟩ := undisturbed_step e
  · exact h.undisturbed k
  · cases h with
    | answered selects answered =>
      rw [answered.waiting] at hx
      cases hx
    | held selects holding =>
      rw [holding.waiting] at hx
      cases hx
      exact .answered selects (holding.passPolling system)

/-- **A history** without a stop keeps the choice. -/
theorem Chosen.run (h : Chosen b o root recursive asked w) (system : ∀ t f, (b t).fault? = some f → f.isSystem = true)
    {actions : List Action} (unstopped : .stop ∉ actions) : Chosen b o root recursive asked (w.run actions) := by
  induction actions generalizing w with
  | nil => exact h
  | cons a rest ih =>
    have called := (undisturbed_call (fun none => absurd none h.started)
      (fun e => unstopped (e ▸ List.mem_cons_self) : a ≠ .stop)).1
    have acted : Chosen b o root recursive asked (w.act a) :=
      settle_induction (fun _ _ h e => h.step system e) _ _ (h.undisturbed called)
    exact ih acted fun hs => unstopped (List.mem_cons_of_mem a hs)

/-- A native observer stays held while the gate is closed. -/
theorem Holding.rest (h : Holding b o root recursive [] .native w) (closed : w.site.gateOpen = false) :
    Holding b o root recursive [] .native w.rest ∧ w.rest.site.gateOpen = false ∧
      w.rest.site.table = w.site.table := by
  refine settle_induction (P := fun v => Holding b o root recursive [] .native v ∧ v.site.gateOpen = false ∧
    v.site.table = w.site.table) (fun u v hu e => ?_) _ _ ⟨h, closed, rfl⟩
  obtain ⟨held, closed, table⟩ := hu
  obtain ⟨k, still, gate⟩ | ⟨gate, -⟩ := undisturbed_step e
  · exact ⟨held.undisturbed k, gate.trans closed, still.trans table⟩
  · rw [closed] at gate
    cases gate

/-- A native observer may pass the open gate, or it did. -/
inductive Freed (b : Technique → Behaviour) (o : Options) (root : Path) (recursive : Bool) (asked : FileTable)
    (w : Watcher) : Prop
  | waits (holding : Holding b o root recursive [] .native w) (gate : w.site.gateOpen = true)
      (table : w.site.table.apply (b .native).startChange = asked)
  | passed (chosen : Chosen b o root recursive asked w)

theorem Freed.step (h : Freed b o root recursive asked w) (interval : o.pollInterval?.isSome = true)
    (system : ∀ t f, (b t).fault? = some f → f.isSystem = true) (poll : o.poll = false) (e : w.step = some v) :
    Freed b o root recursive asked v := by
  cases h with
  | waits holding gate table =>
    obtain ⟨k, still, same⟩ | ⟨-, x, hx, rfl⟩ := undisturbed_step e
    · exact .waits (holding.undisturbed k) (same.trans gate) (still ▸ table)
    · rw [holding.waiting] at hx
      cases hx
      rw [← table]
      exact .passed (holding.passNative interval system poll)
  | passed chosen => exact .passed (chosen.step system e)

/-- Once the gate opens a native observer is held no longer. -/
theorem Holding.release (h : Holding b o root recursive [] .native w) (interval : o.pollInterval?.isSome = true)
    (system : ∀ t f, (b t).fault? = some f → f.isSystem = true) (poll : o.poll = false) :
    Chosen b o root recursive (w.site.table.apply (b .native).startChange) (w.act .release) := by
  have opens := (undisturbed_call (fun none => absurd none h.started) (a := .release) (by simp)).1
  have freed : Freed b o root recursive (w.site.table.apply (b .native).startChange) (w.act .release) :=
    settle_induction (fun _ _ h e => h.step interval system poll e) _ _ (.waits (h.undisturbed opens) rfl rfl)
  cases freed with
  | waits holding gate table =>
    have still : (w.act .release).passGate? = none := (still_of_step_eq_none (step_rest (w.call .release))).2.1
    rw [passGate?, if_pos gate, holding.waiting] at still
    cases still
  | passed chosen => exact chosen

/-- **A native observer that is held** fails, if so, on the file table that the actions before the gate opens leave. -/
theorem Holding.run (h : Holding b o root recursive [] .native w) (closed : w.site.gateOpen = false)
    (interval : o.pollInterval?.isSome = true) (system : ∀ t f, (b t).fault? = some f → f.isSystem = true)
    (poll : o.poll = false) {actions : List Action} (unstopped : .stop ∉ actions) :
    (w.run actions).starts.head? = some .pending ∨
      Chosen b o root recursive ((tableAfter w.site.table (actions.takeWhile fun a => !a.opens)).apply
        (b .native).startChange) (w.run actions) := by
  induction actions generalizing w with
  | nil => exact .inl h.starts
  | cons a rest ih =>
    have own : a ≠ .stop := fun e => unstopped (e ▸ List.mem_cons_self)
    have later : .stop ∉ rest := fun hs => unstopped (List.mem_cons_of_mem a hs)
    cases shut : a.opens with
    | true =>
      obtain rfl : a = .release := by
        cases a with
        | release => rfl
        | _ => cases shut
      exact .inr ((h.release interval system poll).run system later)
    | false =>
      obtain ⟨k, changed, gate⟩ := undisturbed_call (fun none => absurd none h.started) own
      rw [closed, shut] at gate
      obtain ⟨held, closed, table⟩ := (h.undisturbed k).rest gate
      have next := ih held closed later
      rw [table, changed] at next
      rwa [List.takeWhile_cons_of_pos (by simp [shut]), tableAfter_cons]

/-! ## What the first start comes to -/

/-- A watcher without observers. -/
theorem idle_of_undisturbed {number : Nat} {table : FileTable} {native polling : Behaviour} {gateOpen : Bool}
    (k : Undisturbed { options := o, number, site := { table, native, polling, gateOpen } } w) :
    Idle (Site.behaviour { table, native, polling, gateOpen }) o root recursive w where
  options := k.options
  stopping := k.stopping
  starts := List.head?_eq_none_iff.1 k.starts
  waiting := k.waiting
  polling := k.polling
  tried := ⟨k.behaviour, k.roster, k.calls⟩

/-- The last observer is up, or it has failed, and so has the start. -/
theorem Answered.last (h : Answered b o root recursive asked ts w) :
    (w.starts.head? = some .finished ↔ ∃ x, w.site.observers.getLast? = some x ∧ x.started = true) ∧
      ∀ x, w.site.observers.getLast? = some x → w.starts.head? = some (Watcher.answer b root asked x.technique) := by
  obtain ⟨t, last, head⟩ := h.answer
  rw [← h.tried.techniques, List.getLast?_map] at last
  obtain ⟨x, hx, rfl⟩ := Option.map_eq_some_iff.1 last
  rw [head, hx, Option.some.injEq, answer_eq_finished_iff]
  have up := h.tried.started (List.mem_of_getLast? hx)
  refine ⟨?_, ?_⟩
  · simp [up]
  · rintro y e
    cases e
    rfl

/-- **A first start that is refused** creates no observer, then or later. -/
theorem Idle.refused (h : Idle b o root recursive w) {f : Failure} (e : rootFailure? w.site.table root = some f)
    {after : List Action} (unstopped : .stop ∉ after) :
    ((w.act (.start root recursive)).run after).site.observers = [] ∧
      ((w.act (.start root recursive)).run after).site.calls = [] ∧
      ((w.act (.start root recursive)).run after).starts.head? = some (.failed f) := by
  have refused : w.call (.start root recursive) = { w with starts := [.failed f] } := h.start_refused e
  have rested : Undisturbed { w with starts := [.failed f] } (w.act (.start root recursive)) := by
    rw [act, refused]
    exact undisturbed_rest h.waiting
  have answered : (w.act (.start root recursive)).starts.head? = some (.failed f) := rested.starts
  have later := undisturbed_run (rested.waiting.trans h.waiting)
    (fun none => by rw [none] at answered; cases answered) unstopped
  have unchanged := rested.trans later
  refine ⟨?_, unchanged.calls.trans h.tried.calls, unchanged.starts⟩
  exact List.map_eq_nil_iff.1 (unchanged.roster.trans h.tried.roster)

/-- **The choice of the first start** on a root that may be watched, whatever happens behind it but a stop. -/
theorem Idle.chosen (h : Idle b o root recursive w) (interval : o.pollInterval?.isSome = true)
    (system : ∀ t f, (b t).fault? = some f → f.isSystem = true) (there : Watchable w.site.table root)
    {after : List Action} (unstopped : .stop ∉ after) :
    ((w.act (.start root recursive)).run after).starts.head? = some .pending ∨
      Chosen b o root recursive (tableAtFailure w.site after) ((w.act (.start root recursive)).run after) := by
  have goesOn {asked : FileTable} (chosen : Chosen b o root recursive asked (w.start root recursive)) :
      Chosen b o root recursive asked ((w.act (.start root recursive)).run after) := by
    have rested : Chosen b o root recursive asked (w.act (.start root recursive)) :=
      settle_induction (fun _ _ h e => h.step system e) _ _ chosen
    exact rested.run system unstopped
  cases poll : o.poll with
  | true =>
    refine .inr (goesOn ?_)
    rw [h.start_eq there, if_pos poll]
    exact h.opened.startPolling interval (system _) h.tried (.polling poll)
  | false =>
    rcases h.startNative interval system there poll with ⟨free, chosen⟩ | ⟨held, holding, table, gate⟩
    · rw [tableAtFailure, if_neg (by simp [free])]
      exact .inr (goesOn chosen)
    · have own : w.site.native = b .native := by rw [← h.tried.behaviour]; rfl
      have closed : (w.start root recursive).site.gateOpen = false := by
        rw [gate]
        rw [Behaviour.isHeld, Bool.and_eq_true, Bool.not_eq_true'] at held
        exact held.2
      obtain ⟨rested, closed, still⟩ := holding.rest closed
      have later := rested.run closed interval system poll unstopped
      rw [still, table, own] at later
      rw [tableAtFailure, if_pos held, own]
      exact later

/-- **Which observers the first start tries**, and how it calls them, on a watcher that is not stopped. Once it is
answered: a root that is missing, that cannot be asked about or that may not be read is refused, and no observer is
created; the reason is what `Refuses` says. On any other root the techniques are those that `Selects` says. Each
observer gets the calls of its attempt before the next one is created, so one that failed is told to drop its handlers,
once, and is not shut down, and none is started that could not be scheduled. The start finishes just when the last
observer is up, and fails for the reason of the last observer when that has failed (`answer`). -/
theorem first_start_selects (options : Options) (number : Nat) (table : FileTable) (native polling : Behaviour)
    (gateOpen : Bool) (root : Text) (recursive : Bool) (before after : List Action)
    (interval : options.pollInterval?.isSome = true) (whole : .char '\x00' ∉ root)
    (system : table.OnlySystem ∧ native.OnlySystem ∧ polling.OnlySystem)
    (changes : ∀ c, .change c ∈ before → c.OnlySystem) (first : ∀ r c, .start r c ∉ before)
    (unstopped : .stop ∉ before ++ after) :
    let new : Watcher := { options, number, site := { table, native, polling, gateOpen } }
    let path := Path.ofText root
    let begun := (new.run before).site
    let w := new.run (before ++ .start path recursive :: after)
    let techniques := w.site.observers.map (·.technique)
    w.starts.head? ≠ some .pending →
    (¬ Watchable begun.table path → w.site.observers = [] ∧ w.site.calls = [] ∧
      ∃ reason, Refuses begun.table path reason ∧ w.starts.head? = some (.failed (.registration path reason))) ∧
    (Watchable begun.table path →
      Selects new.site.behaviour options path (tableAtFailure begun after) techniques ∧
      w.site.calls = Site.attempts new.site.behaviour options path recursive techniques ∧
      (∀ x ∈ w.site.observers, x.started = true ↔ (new.site.behaviour x.technique).fault? = none) ∧
      (w.starts.head? = some .finished ↔ ∃ x, w.site.observers.getLast? = some x ∧ x.started = true) ∧
      (∀ x, w.site.observers.getLast? = some x →
        w.starts.head? = some (answer new.site.behaviour path (tableAtFailure begun after) x.technique)) ∧
      (w.polling = true ↔ .polling ∈ techniques)) := by
  intro new path begun w techniques answered
  have idle : Idle new.site.behaviour options path recursive (new.run before) :=
    idle_of_undisturbed (undisturbed_run rfl (fun _ => first) fun hs => unstopped (List.mem_append_left after hs))
  have faults (t : Technique) (f : Fault) (e : (new.site.behaviour t).fault? = some f) : f.isSystem = true := by
    cases t with
    | native => exact system.2.1.fault e
    | polling => exact system.2.2.fault e
  have later : .stop ∉ after := fun hs => unstopped (List.mem_append_right before hs)
  have split : w = ((new.run before).act (.start path recursive)).run after := List.foldl_append
  constructor
  · intro missing
    have sound : Sound options new := ⟨⟨system.1, system.2.1, system.2.2⟩, rfl, interval⟩
    have unstarted : Unstarted options new := ⟨sound, rfl, rfl, rfl⟩
    have table := (unstarted.run changes first).sound.site.table
    obtain ⟨f, hf⟩ := Option.ne_none_iff_exists'.1 (mt rootFailure_eq_none_iff.1 missing)
    obtain ⟨reason, why, rfl⟩ := rootFailure_registers table (Path.nul_notMem_ofText whole) hf
    have refused : w.site.observers = [] ∧ w.site.calls = [] ∧
        w.starts.head? = some (.failed (.registration path reason)) := by
      rw [split]
      exact idle.refused hf later
    exact ⟨refused.1, refused.2.1, reason, why, refused.2.2⟩
  · intro there
    have chosen := idle.chosen interval faults there later
    rw [← split] at chosen
    rcases chosen with pending | ⟨selects, done⟩ | ⟨-, holding⟩
    · exact absurd pending answered
    · have tried : techniques = _ := done.tried.techniques
      rw [tried]
      exact ⟨selects, done.tried.calls, fun x => done.tried.started, done.last.1, done.last.2, done.polling⟩
    · exact absurd holding.starts answered

/-- The native observer is held, the root is there when it fails, and a polling one takes its place. -/
theorem first_start_selects_polling_behind_gate :
    let options : Options := { pattern := ⟨"*", [.atom .star], rfl⟩ }
    let table : FileTable := ⟨[("w", .present 16877 true)]⟩
    let native : Behaviour := { gated := true, startFault := some (.os (.coded 24 (some "too many") none)) }
    let new : Watcher := { options, site := { table, native } }
    let w := new.run ([] ++ .start (.ofText "w") false :: [.release])
    w.starts.head? = some .finished ∧ w.site.observers.map (·.technique) = [.native, .polling] ∧
      w.site.calls = Site.attempts new.site.behaviour options (.ofText "w") false
        (w.site.observers.map (·.technique)) :=
  ⟨by decide +kernel, by decide +kernel,
    ((first_start_selects _ 0 _ _ {} false "w" false [] [.release] (Binary64.isSome_ofNat (interval_lt_of_default rfl))
      (by decide)
      ⟨by decide, ⟨by decide, by decide, by decide, by decide⟩, ⟨by decide, by decide, by decide, by decide⟩⟩
      (by simp) (by simp) (by simp) (by decide +kernel)).2 ⟨rfl, rfl⟩).2.1⟩

end Watcher
end DirWatch

import DirWatch.Proofs.Watcher.Surroundings
import DirWatch.Proofs.Watcher.Undisturbed

/-!
# What escapes from the first start

The file system and the observers may fail with errors of the system at any time (`Site.OnlySystem`). The first start
takes these errors in: it ends as a failed registration of its root.

- **One way out** is left: when a native observer has failed, the root is asked about again, and an error of that
  question is not taken in (`first_start_registers`, `second_question_escapes`).
- Bringing observers up keeps what a start may end with (`Registering`), one function after the other.
-/

namespace DirWatch

namespace Watcher

/-! ## What the first start may end with -/

/-- How the first start on a root may stand: it is pending, it finished, it failed as a registration of the root, or it
failed with the error that asking about the root gives, and polling was not tried. -/
def Registers (root : Path) (w : Watcher) (status : StartStatus) : Prop :=
  status = .pending ∨ status = .finished ∨ (∃ reason, status = .failed (.registration root reason)) ∨
    ∃ e, status = .failed (.os e) ∧ w.options.poll = false ∧ w.polling = false ∧
      w.site.table.exists? root.text = .error (.os e)

/-- What every watcher has whose surroundings fail with errors of the system only. -/
structure Sound (options : Options) (w : Watcher) : Prop where
  site : w.site.OnlySystem
  given : w.options = options
  interval : options.pollInterval?.isSome = true

/-- The first start on a root is under way, and no observer waits. -/
structure Ready (options : Options) (w : Watcher) : Prop where
  sound : Sound options w
  starts : w.starts.head? = some .pending
  waiting : w.waiting = none

/-- The first start on a root was made. An observer that waits makes it pending, and a native one is the first. -/
structure Registering (options : Options) (root : Path) (w : Watcher) : Prop where
  sound : Sound options w
  waiting : ∀ x, w.waiting = some x → w.starts.head? = some .pending ∧ x.root = root ∧
    (x.technique = .native → w.options.poll = false ∧ w.polling = false)
  first : ∃ status, w.starts.head? = some status ∧ Registers root w status

variable {options : Options} {root : Path} {w v : Watcher}

theorem Ready.endStart (h : Ready options w) {status : StartStatus} (hs : Registers root w status) :
    Registering options root (w.endStart status) where
  sound := ⟨h.sound.site, h.sound.given, h.sound.interval⟩
  waiting x hx := by
    have none : w.waiting = some x := hx
    rw [h.waiting] at none
    cases none
  first := ⟨status, head_set h.starts status, hs⟩

theorem Ready.onSite (h : Ready options w) {site : Site} (hs : site.OnlySystem) : Ready options { w with site } :=
  ⟨⟨hs, h.sound.given, h.sound.interval⟩, h.starts, h.waiting⟩

theorem Ready.publish (h : Ready options w) (i : Nat) : Registering options root (w.publish i) := by
  have finished (w : Watcher) : Registers root w .finished := Or.inr (Or.inl rfl)
  unfold Watcher.publish
  split
  · have stopped : Ready options { w with site := w.site.shutDown i } := h.onSite (h.sound.site.same rfl rfl rfl)
    exact stopped.endStart (finished _)
  · have used : Ready options { w with current := some i } :=
      ⟨⟨h.sound.site, h.sound.given, h.sound.interval⟩, h.starts, h.waiting⟩
    exact used.endStart (finished _)

theorem registers_registration (w : Watcher) (reason : Text) :
    Registers root w (.failed (.registration root reason)) := Or.inr (Or.inr (Or.inl ⟨reason, rfl⟩))

/-- An observer that waits keeps the first start pending. -/
theorem Ready.wait (h : Ready options w) {x : Waiting} (root_eq : x.root = root)
    (native : x.technique = .native → w.options.poll = false ∧ w.polling = false) :
    Registering options root { w with waiting := some x } where
  sound := ⟨h.sound.site, h.sound.given, h.sound.interval⟩
  waiting y hy := by
    obtain rfl : x = y := Option.some.inj hy
    exact ⟨h.starts, root_eq, native⟩
  first := ⟨.pending, h.starts, Or.inl rfl⟩

theorem Ready.concludePolling (h : Ready options w) (i : Nat) (recursive : Bool) {outcome : Launch}
    (ho : ∀ f, outcome = .failed f → f.isSystem = true) :
    Registering options root (w.concludePolling i root recursive outcome) := by
  cases outcome with
  | up => exact h.publish i
  | waiting => exact h.wait rfl fun native => by cases native
  | failed f =>
    cases f with
    | broken message => cases ho _ rfl
    | os e =>
      have dropped : Ready options { w with site := w.site.unscheduleAll i } := h.onSite (h.sound.site.same rfl rfl rfl)
      exact dropped.endStart (registers_registration _ _)

theorem Ready.startPolling (h : Ready options w) (recursive : Bool) :
    Registering options root (w.startPolling root recursive) := by
  obtain ⟨interval, hi⟩ := Option.isSome_iff_exists.1 h.sound.interval
  rw [← h.sound.given] at hi
  unfold Watcher.startPolling
  rw [hi]
  have created : (w.site.create .polling w.number (some interval)).OnlySystem := h.sound.site.same rfl rfl rfl
  have launched := created.launch .polling w.site.observers.length root recursive
  have ready : Ready options { w with
      site := ((w.site.create .polling w.number (some interval)).launch .polling w.site.observers.length root
        recursive).1
      polling := true } := ⟨⟨launched.1, h.sound.given, h.sound.interval⟩, h.starts, h.waiting⟩
  exact ready.concludePolling _ recursive launched.2

/-- **After a native observer** the root is asked about again, and an error of that question goes through. -/
theorem Ready.concludeNative (h : Ready options w) (whole : .char '\x00' ∉ root.text) (poll : w.options.poll = false)
    (polling : w.polling = false) (i : Nat) (recursive : Bool) {outcome : Launch}
    (ho : ∀ f, outcome = .failed f → f.isSystem = true) :
    Registering options root (w.concludeNative i root recursive outcome) := by
  cases outcome with
  | up => exact h.publish i
  | waiting => exact h.wait rfl fun _ => ⟨poll, polling⟩
  | failed f =>
    cases f with
    | broken message => cases ho _ rfl
    | os e =>
      have dropped : Ready options { w with site := w.site.unscheduleAll i } := h.onSite (h.sound.site.same rfl rfl rfl)
      unfold Watcher.concludeNative
      dsimp only
      split
      · rename_i g asked
        obtain ⟨error, rfl⟩ := dropped.sound.site.table.exists_error whole asked
        exact dropped.endStart (Or.inr (Or.inr (Or.inr ⟨error, rfl, poll, polling, asked⟩)))
      · exact dropped.endStart (registers_registration _ _)
      · exact dropped.startPolling recursive

/-- The reasons for which a root is refused before there is an observer. -/
inductive Refuses (t : FileTable) (root : Path) : Text → Prop
  | absent (missing : t.exists? root.text = .ok false) : Refuses t root "no such file or directory"
  | unknown {e : OsError} (asked : t.exists? root.text = .error (.os e)) : Refuses t root e.reason
  | unreadable (there : t.exists? root.text = .ok true) (closed : t.readable? root.text = .ok false) :
      Refuses t root "permission denied"

/-- Before anything is started the questions about the root are taken in. -/
theorem rootFailure_registers {t : FileTable} (h : t.OnlySystem) (whole : .char '\x00' ∉ root.text) {f : Failure}
    (e : rootFailure? t root = some f) : ∃ reason, Refuses t root reason ∧ f = .registration root reason := by
  obtain ⟨answer, readable⟩ := h.readable whole
  unfold rootFailure? at e
  split at e
  · rename_i asked
    cases e
    exact ⟨_, .unknown asked, rfl⟩
  · rename_i g other asked
    obtain ⟨error, rfl⟩ := h.exists_error whole asked
    exact absurd rfl (other error)
  · rename_i missing
    cases e
    exact ⟨_, .absent missing, rfl⟩
  · rename_i there
    rw [readable] at e
    cases answer with
    | false =>
      cases e
      exact ⟨_, .unreadable there readable, rfl⟩
    | true => cases e

/-- **The first start.** -/
theorem Sound.start (h : Sound options w) (whole : .char '\x00' ∉ root.text) (starts : w.starts = [])
    (waiting : w.waiting = none) (polling : w.polling = false) (recursive : Bool) :
    Registering options root (w.start root recursive) := by
  have opened : Ready options { w with starts := [.pending] } := ⟨⟨h.site, h.given, h.interval⟩, rfl, waiting⟩
  unfold Watcher.start
  rw [if_pos (by simp [starts])]
  dsimp only
  split
  · rename_i f e
    obtain ⟨reason, -, rfl⟩ := rootFailure_registers h.site.table whole e
    exact opened.endStart (registers_registration _ _)
  · split
    · exact opened.startPolling recursive
    · rename_i poll
      have created : (w.site.create .native w.number none).OnlySystem := h.site.same rfl rfl rfl
      have launched := created.launch .native w.site.observers.length root recursive
      exact (opened.onSite launched.1).concludeNative whole (by simpa using poll) polling _ recursive launched.2

theorem Registering.passGate (h : Registering options root w) (whole : .char '\x00' ∉ root.text) {x : Waiting}
    (hx : w.waiting = some x) : Registering options root (w.passGate x) := by
  obtain ⟨pending, rfl, native⟩ := h.waiting x hx
  have started := h.sound.site.start x.technique x.observer
  have ready : Ready options { w with site := (w.site.start x.technique x.observer).1, waiting := none } :=
    ⟨⟨started.1, h.sound.given, h.sound.interval⟩, pending, rfl⟩
  unfold Watcher.passGate
  dsimp only
  split
  · rename_i technique
    obtain ⟨poll, polling⟩ := native technique
    exact ready.concludeNative whole poll polling _ _ started.2
  · exact ready.concludePolling _ _ started.2

/-! ## Calls and moves -/

/-- What leaves the first start and an observer that waits as they are. -/
structure Unmoved (w v : Watcher) : Prop where
  site : w.site.OnlySystem → v.site.OnlySystem
  options : v.options = w.options
  polling : v.polling = w.polling
  waiting : v.waiting = w.waiting
  starts : v.starts.head? = w.starts.head?

theorem Unmoved.trans {u : Watcher} (h : Unmoved w v) (k : Unmoved v u) : Unmoved w u :=
  ⟨k.site ∘ h.site, k.options.trans h.options, k.polling.trans h.polling, k.waiting.trans h.waiting,
    k.starts.trans h.starts⟩

theorem Undisturbed.unmoved (k : Undisturbed w v) (table : w.site.table.OnlySystem → v.site.table.OnlySystem) :
    Unmoved w v where
  site h := by
    have native : v.site.native = w.site.native := congrFun k.behaviour .native
    have polling : v.site.polling = w.site.polling := congrFun k.behaviour .polling
    exact ⟨table h.table, native ▸ h.native, polling ▸ h.polling⟩
  options := k.options
  polling := k.polling
  waiting := k.waiting
  starts := k.starts

/-- A call, unless it is the first start. -/
theorem unmoved_call {a : Action} (changes : ∀ c, a = .change c → c.OnlySystem)
    (later : w.starts = [] → ∀ r b, a ≠ .start r b) : Unmoved w (w.call a) := by
  by_cases stop : a = .stop
  · subst stop
    refine ⟨fun h => ?_, rfl, rfl, rfl, rfl⟩
    show w.stop.site.OnlySystem
    unfold Watcher.stop
    cases w.current with
    | none => exact h
    | some i => exact h.same rfl rfl rfl
  · obtain ⟨k, table, -⟩ := undisturbed_call later stop
    refine k.unmoved fun h => ?_
    rw [table]
    cases a with
    | change c => exact h.apply (changes c rfl)
    | _ => exact h

/-- A move, unless it is that of an observer that waits. -/
theorem unmoved_step (e : w.step = some v) :
    (Unmoved w v ∧ v.site.table = w.site.table) ∨ ∃ x, w.waiting = some x ∧ v = w.passGate x := by
  obtain ⟨k, table, -⟩ | ⟨-, passed⟩ := undisturbed_step e
  · exact Or.inl ⟨k.unmoved fun h => table ▸ h, table⟩
  · exact Or.inr passed

/-- An action, unless it is the first start, where no observer waits. -/
theorem unmoved_act (waiting : w.waiting = none) {a : Action} (changes : ∀ c, a = .change c → c.OnlySystem)
    (later : w.starts = [] → ∀ r b, a ≠ .start r b) : Unmoved w (w.act a) := by
  refine settle_induction (P := Unmoved w) (fun u v h e => ?_) _ _ (unmoved_call changes later)
  obtain ⟨k, -⟩ | ⟨x, hx, -⟩ := unmoved_step e
  · exact h.trans k
  · rw [h.waiting, waiting] at hx
    cases hx

theorem Sound.unmoved (h : Sound options w) (k : Unmoved w v) : Sound options v :=
  ⟨k.site h.site, k.options.trans h.given, h.interval⟩

/-- A watcher that was not started. -/
structure Unstarted (options : Options) (w : Watcher) : Prop where
  sound : Sound options w
  starts : w.starts = []
  waiting : w.waiting = none
  polling : w.polling = false

theorem Unstarted.unmoved (h : Unstarted options w) (k : Unmoved w v) : Unstarted options v where
  sound := h.sound.unmoved k
  starts := List.head?_eq_none_iff.1 (k.starts.trans (by rw [h.starts]; rfl))
  waiting := k.waiting.trans h.waiting
  polling := k.polling.trans h.polling

theorem Unstarted.run (h : Unstarted options w) {actions : List Action}
    (changes : ∀ c, .change c ∈ actions → c.OnlySystem) (unstarted : ∀ r b, .start r b ∉ actions) :
    Unstarted options (w.run actions) := by
  induction actions generalizing w with
  | nil => exact h
  | cons a rest ih =>
    have k : Unmoved w (w.act a) :=
      unmoved_act h.waiting (fun c e => changes c (e ▸ List.mem_cons_self))
        fun _ r b e => unstarted r b (e ▸ List.mem_cons_self)
    exact ih (h.unmoved k) (fun c hc => changes c (List.mem_cons_of_mem a hc))
      fun r b hs => unstarted r b (List.mem_cons_of_mem a hs)

theorem Registering.unmoved (h : Registering options root w) (k : Unmoved w v)
    (first : w.starts.head? = some .pending ∨ v.site.table = w.site.table) : Registering options root v where
  sound := h.sound.unmoved k
  waiting x hx := by
    rw [k.starts, k.options, k.polling]
    exact h.waiting x (k.waiting ▸ hx)
  first := by
    obtain ⟨status, head, registers⟩ := h.first
    refine ⟨status, k.starts.trans head, ?_⟩
    rcases first with pending | table
    · rw [pending] at head
      exact Or.inl (Option.some.inj head).symm
    · unfold Registers
      rw [k.options, k.polling, table]
      exact registers

/-- **One move** leaves a first start that may stand as it does. -/
theorem Registering.step (h : Registering options root w) (whole : .char '\x00' ∉ root.text) (e : w.step = some v) :
    Registering options root v := by
  obtain ⟨k, table⟩ | ⟨x, hx, rfl⟩ := unmoved_step e
  · exact h.unmoved k (Or.inr table)
  · exact h.passGate whole hx

/-- A first start that has its answer keeps it. -/
theorem head_run_of_answered (waiting : w.waiting = none) {status : StartStatus} (head : w.starts.head? = some status)
    {actions : List Action} (changes : ∀ c, .change c ∈ actions → c.OnlySystem) :
    (w.run actions).starts.head? = some status := by
  induction actions generalizing w with
  | nil => exact head
  | cons a rest ih =>
    have k : Unmoved w (w.act a) :=
      unmoved_act waiting (fun c e => changes c (e ▸ List.mem_cons_self)) fun none => by rw [none] at head; cases head
    exact ih (k.waiting.trans waiting) (k.starts.trans head) fun c hc => changes c (List.mem_cons_of_mem a hc)

/-- **After the first start** a history goes on to the standstill at which it ended, and its answer stays. -/
theorem Registering.run (h : Registering options root w) (whole : .char '\x00' ∉ root.text) {actions : List Action}
    (changes : ∀ c, .change c ∈ actions → c.OnlySystem) :
    ∃ done rest, actions = done ++ rest ∧ (w.run actions).starts.head? = (w.run done).starts.head? ∧
      Registering options root (w.run done) := by
  induction actions generalizing w with
  | nil => exact ⟨[], [], rfl, rfl, h⟩
  | cons a rest ih =>
    obtain ⟨status, head, -⟩ := h.first
    by_cases pending : w.starts.head? = some .pending
    · have k : Unmoved w (w.call a) :=
        unmoved_call (fun c e => changes c (e ▸ List.mem_cons_self)) fun none => by rw [none] at head; cases head
      have acted : Registering options root (w.act a) :=
        settle_induction (fun _ _ h e => h.step whole e) _ _ (h.unmoved k (Or.inl pending))
      obtain ⟨done, rest, rfl, same, registering⟩ := ih acted fun c hc => changes c (List.mem_cons_of_mem a hc)
      exact ⟨a :: done, rest, rfl, same, registering⟩
    · have waiting : w.waiting = none := by
        cases e : w.waiting with
        | none => rfl
        | some x => exact absurd (h.waiting x e).1 pending
      exact ⟨[], a :: rest, rfl, (head_run_of_answered waiting head changes).trans head.symm, h⟩

/-! ## The first start -/

/-- A first start that is pending at a standstill is held at the gate. -/
theorem Life.held_of_pending (h : Life w) (rest : w.step = none) (pending : w.starts.head? = some .pending) :
    w.waiting.isSome = true ∧ w.site.gateOpen = false := by
  have waiting : w.waiting.isSome = true := by
    cases h with
    | fresh starts => rw [starts] at pending; cases pending
    | held _ _ waiting => rw [waiting]; rfl
    | inUse starts => rw [starts] at pending; cases pending
    | ended starts => rw [starts] at pending; cases pending
    | failed starts => rw [starts] at pending; cases pending
  refine ⟨waiting, ?_⟩
  obtain ⟨x, hx⟩ := Option.isSome_iff_exists.1 waiting
  have closed := (still_of_step_eq_none rest).2.1
  cases gate : w.site.gateOpen with
  | false => rfl
  | true =>
    rw [passGate?, gate, hx] at closed
    cases closed

/-- **What the first start ends with** where the file system and the observers fail with errors of the system only, at
any time: unless an observer is held at the gate for good, it finishes or fails as a registration of its root. The only
other way out is the error of asking about the root again, once a native observer has failed and before polling is
tried. -/
theorem first_start_registers (options : Options) (number : Nat) (table : FileTable) (native polling : Behaviour)
    (gateOpen : Bool) (root : Text) (recursive : Bool) (before after : List Action)
    (interval : options.interval.getD defaultInterval < Nat.pow 2 1023) (whole : .char '\x00' ∉ root)
    (system : table.OnlySystem ∧ native.OnlySystem ∧ polling.OnlySystem)
    (changes : ∀ c, .change c ∈ before ++ after → c.OnlySystem) (first : ∀ r b, .start r b ∉ before) :
    let new : Watcher := { options, number, site := { table, native, polling, gateOpen } }
    let start : Action := .start (.ofText root) recursive
    let w := new.run (before ++ start :: after)
    (w.starts.head? = some .pending ∧ w.waiting.isSome = true ∧ w.site.gateOpen = false) ∨
      w.starts.head? = some .finished ∨
      (∃ reason, w.starts.head? = some (.failed (.registration (.ofText root) reason))) ∨
      ∃ e done rest, after = done ++ rest ∧ w.starts.head? = some (.failed (.os e)) ∧ options.poll = false ∧
        let ended := new.run (before ++ start :: done)
        ended.starts.head? = some (.failed (.os e)) ∧ ended.polling = false ∧
          ended.site.table.exists? (Path.ofText root).text = .error (.os e) := by
  intro new start w
  have whole := Path.nul_notMem_ofText whole
  have unstarted : Unstarted options (new.run before) := by
    have sound : Sound options new := ⟨⟨system.1, system.2.1, system.2.2⟩, rfl, Binary64.isSome_ofNat interval⟩
    have new : Unstarted options new := ⟨sound, rfl, rfl, rfl⟩
    exact new.run (fun c hc => changes c (List.mem_append_left after hc)) first
  have started : Registering options (.ofText root) ((new.run before).act start) := by
    have called := unstarted.sound.start whole unstarted.starts unstarted.waiting unstarted.polling recursive
    exact settle_induction (fun _ _ h e => h.step whole e) _ _ called
  have run_split (later : List Action) : new.run (before ++ start :: later) = ((new.run before).act start).run later :=
    List.foldl_append
  obtain ⟨done, rest, split, same, registering⟩ :=
    started.run whole fun c hc => changes c (List.mem_append_right before hc)
  obtain ⟨status, head, registers⟩ := registering.first
  have final : w.starts.head? = some status := by
    show (new.run (before ++ start :: after)).starts.head? = some status
    rw [run_split, same, head]
  rcases registers with rfl | rfl | ⟨reason, rfl⟩ | ⟨e, rfl, poll, polling, asked⟩
  · have orderly : Orderly w :=
      run_induction (fun _ a h => h.call a) (fun _ _ h e => h.step e)
        (Orderly.new options number table native polling gateOpen) _
    exact Or.inl ⟨final, orderly.life.held_of_pending (step_run (by simp) new) final⟩
  · exact Or.inr (Or.inl final)
  · exact Or.inr (Or.inr (Or.inl ⟨reason, final⟩))
  · refine Or.inr (Or.inr (Or.inr ⟨e, done, rest, split, final, ?_, ?_⟩))
    · rw [← registering.sound.given]
      exact poll
    · show (new.run (before ++ start :: done)).starts.head? = _ ∧ (new.run (before ++ start :: done)).polling = _ ∧ _
      rw [run_split]
      exact ⟨head, polling, asked⟩

/-- The interval that options have when none is given is no large one. -/
theorem interval_lt_of_default {o : Options} (h : o.interval = some defaultInterval) :
    o.interval.getD defaultInterval < Nat.pow 2 1023 := by
  rw [h]
  generalize half : 1023 = k
  have bound : 2 ^ 5 ≤ 2 ^ k := Nat.pow_le_pow_right (by decide) (by omega)
  exact Nat.lt_of_lt_of_le (by decide) bound

/-- The native observer has no watches left, and polling takes its place; a stop came before. -/
theorem first_start_registers_out_of_watches :
    let options : Options := { pattern := ⟨"*", [.atom .star], rfl⟩ }
    let table : FileTable := ⟨[("w", .present 16877 true)]⟩
    let native : Behaviour := { scheduleFault := some (.os (.coded 28 (some "limit") none)) }
    let new : Watcher := { options, site := { table, native } }
    let w := new.run ([.stop] ++ .start (.ofText "w") false :: [.wait])
    w.starts.head? = some .finished ∧
      ((w.starts.head? = some .pending ∧ w.waiting.isSome = true ∧ w.site.gateOpen = false) ∨
        w.starts.head? = some .finished ∨
        (∃ reason, w.starts.head? = some (.failed (.registration (.ofText "w") reason))) ∨
        ∃ e done rest, [Action.wait] = done ++ rest ∧ w.starts.head? = some (.failed (.os e)) ∧ options.poll = false ∧
          let ended := new.run ([.stop] ++ .start (.ofText "w") false :: done)
          ended.starts.head? = some (.failed (.os e)) ∧ ended.polling = false ∧
            ended.site.table.exists? (Path.ofText "w").text = .error (.os e)) :=
  ⟨by decide +kernel,
    first_start_registers _ 0 _ _ {} false "w" false [.stop] [.wait] (interval_lt_of_default rfl) (by decide)
      ⟨by decide, ⟨by decide, by decide, by decide, by decide⟩, ⟨by decide, by decide, by decide, by decide⟩⟩
      (by simp) (by simp)⟩

/-- The native observer fails, and by then the root gives an error when it is asked about: that error comes out bare. -/
theorem second_question_escapes :
    let options : Options := { pattern := ⟨"*", [.atom .star], rfl⟩ }
    let table : FileTable := ⟨[("w", .present 16877 true)]⟩
    let unasked : OsError := .coded 5 (some "Input/output error") none
    let native : Behaviour := {
      scheduleChange := [("w", some (.faulty (.os unasked)))]
      scheduleFault := some (.os (.coded 24 (some "too many") none)) }
    let w := Watcher.run { options, site := { table, native } } [.start (.ofText "w") false]
    w.starts = [.failed (.os unasked)] := by decide

end Watcher
end DirWatch

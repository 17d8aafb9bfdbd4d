import DirWatch.Proofs.Watcher.Channel
import DirWatch.Session.Standstill

/-!
# The flow of events through a session

A session hears of events through the receives of its channel, one at a time. So the receives of the channel are those
of the events that were handled and at most one more, which says what the run waits for (`Reading`); and what was
counted and handed to the scheduler is what filtering and routing make of the handled events (`Log`).

- **Order**: the handled events are the first messages that the channel accepted.
- **Nothing is left**: at a standstill of a session that runs, every accepted message is a handled event, and no sender
  waits.
- **Calls and counts**: the scheduler is handed one call for each event that passes the filter and has a handler, in
  order, and the counts say so.
-/

namespace DirWatch

namespace Session

open Channel (Fair Push)

/-! ## What a session read -/

/-- The receives of the events that were handled. -/
def taken (s : Session) : List (Receipt Message) := s.handled.map fun r => .item (.event r.1)

/-- The first run is under way, and it is the only one. -/
def UnderWay (s : Session) : Prop := ∃ later, s.runs = .pending :: later ∧ .pending ∉ later

/-- What the run waits for, and what that says about the receives. -/
inductive Reading (s : Session) : Prop
  /-- The session was not run. -/
  | fresh (opened : s.opened = false) (stage : s.stage = .idle) (handled : s.handled = [])
      (receives : s.watcher.channel.receives = []) (runs : .pending ∉ s.runs)
      (unused : s.phase = .created → s.runs = [])
  /-- The watcher starts. -/
  | starting (opened : s.opened = true) (stage : s.stage = .starting) (phase : s.phase = .created)
      (handled : s.handled = []) (receives : s.watcher.channel.receives = []) (runs : s.UnderWay)
  /-- The run waits for the receive behind those of the handled events. -/
  | receiving {r : Receipt Message} (opened : s.opened = true) (stage : s.stage = .receiving s.handled.length)
      (receives : s.watcher.channel.receives = s.taken ++ [r]) (kept : r ≠ .withdrawn)
      (told : s.watcher.channel.closed = true → r ≠ .pending) (runs : s.UnderWay)
  /-- The run has ended. -/
  | ended (opened : s.opened = true) (stage : s.stage = .idle) (receives : s.taken <+: s.watcher.channel.receives)
      (runs : .pending ∉ s.runs)

theorem pending_notMem_taken (s : Session) : .pending ∉ s.taken := by
  simp [taken]

theorem length_taken (s : Session) : s.taken.length = s.handled.length := List.length_map ..

/-- The receive behind those of the handled events. -/
theorem getElem?_handled {s : Session} {r : Receipt Message} (h : s.watcher.channel.receives = s.taken ++ [r]) :
    s.watcher.channel.receives[s.handled.length]? = some r := by
  rw [h, ← length_taken, List.getElem?_concat_length]

/-- The handled events were the first to be received. -/
theorem Reading.taken_prefix {s : Session} (h : Reading s) : s.taken <+: s.watcher.channel.receives := by
  cases h with
  | fresh _ _ handled => simp [taken, handled]
  | starting _ _ _ handled => simp [taken, handled]
  | receiving _ _ receives => exact ⟨_, receives.symm⟩
  | ended _ _ receives => exact receives

/-- What the watcher does to the channel leaves the run where it is. -/
theorem Reading.push {s : Session} (h : Reading s) {w : Watcher} (p : Push s.watcher.channel w.channel) :
    Reading { s with watcher := w } := by
  cases h with
  | fresh opened stage handled receives runs unused =>
    exact .fresh opened stage handled (p.receives_eq_nil receives) runs unused
  | starting opened stage phase handled receives runs =>
    exact .starting opened stage phase handled (p.receives_eq_nil receives) runs
  | receiving opened stage receives kept told runs =>
    obtain ⟨r, hr, kept, told⟩ := p.last_receive receives s.pending_notMem_taken kept told
    exact .receiving opened stage hr kept told runs
  | ended opened stage receives runs =>
    exact .ended opened stage (p.prefix_receives receives s.pending_notMem_taken) runs

/-- Waiting for the first message, or for the next one. -/
theorem Reading.await {s : Session} (opened : s.opened = true) (receives : s.watcher.channel.receives = s.taken)
    (runs : s.UnderWay) : Reading s.await := by
  refine .receiving opened ?_ (congrArg (· ++ _) receives) ?_ (fun closed => ?_) runs
  · show Stage.receiving s.watcher.channel.receives.length = _
    rw [receives, length_taken]
    rfl
  · split <;> simp
  · rw [if_pos (show s.watcher.channel.closed = true from closed)]
    simp

/-- The run ends, whatever it has read. -/
theorem Reading.finish {s : Session} (opened : s.opened = true) (receives : s.taken <+: s.watcher.channel.receives)
    (runs : s.UnderWay) {status : RunStatus} (final : status ≠ .pending) : Reading (s.finish status) := by
  refine .ended opened rfl ?_ ?_
  · exact (Push.close s.watcher.channel).prefix_receives receives s.pending_notMem_taken
  · obtain ⟨later, runs, spent⟩ := runs
    show .pending ∉ s.runs.set 0 status
    rw [runs]
    simpa using ⟨fun e => final e.symm, spent⟩

/-! ## What a session counts and hands over -/

/-- The call for an event that is handled with a file table. -/
def callFor (o : Options) (g : Registry Text) (r : Event × FileTable) : Option Dispatch :=
  match Filter.paths o r.2 r.1 with
  | .ok (p :: ps) => g.route r.1.kind (p :: ps)
  | _ => none

/-- Whether no path of an event is kept when it is handled with a file table. -/
def isDropped (o : Options) (r : Event × FileTable) : Bool :=
  match Filter.paths o r.2 r.1 with
  | .ok [] => true
  | _ => false

/-- What a session counted and handed over, from what it handled. A call that the scheduler refused ended the run. -/
structure Log (new s : Session) : Prop where
  options : s.options = new.options
  registry : s.registry = new.registry
  refusal : s.refusal = new.refusal
  received : s.stats.received = s.handled.length
  dropped : s.stats.dropped = (s.handled.filter (isDropped new.options)).length
  dispatched : s.stats.dispatched = s.spawned.length
  calls : s.handled.filterMap (callFor new.options new.registry) = s.spawned ∨
    s.stage = .idle ∧ new.refusal ≠ none ∧
      ∃ d, s.handled.filterMap (callFor new.options new.registry) = s.spawned ++ [d]

/-- A session that handles nothing more keeps its log; a run starts before anything is handled. -/
theorem Log.same {new s t : Session} (h : Log new s) (options : t.options = s.options)
    (registry : t.registry = s.registry) (refusal : t.refusal = s.refusal) (stats : t.stats = s.stats)
    (handled : t.handled = s.handled) (spawned : t.spawned = s.spawned)
    (stage : s.stage = .idle → t.stage = .idle ∨ s.handled = []) : Log new t where
  options := options.trans h.options
  registry := registry.trans h.registry
  refusal := refusal.trans h.refusal
  received := by rw [stats, handled, h.received]
  dropped := by rw [stats, handled, h.dropped]
  dispatched := by rw [stats, spawned, h.dispatched]
  calls := by
    rw [handled, spawned]
    rcases h.calls with e | ⟨idle, refused, d, e⟩
    · exact Or.inl e
    · rcases stage idle with idle | nothing
      · exact Or.inr ⟨idle, refused, d, e⟩
      · simp [nothing] at e

/-- What comes of filtering an event and handing the call for it over. -/
theorem handle_cases {s : Session} {o : Options} {g : Registry Text} (ho : s.options = o) (hg : s.registry = g)
    (e : Event) :
    (∃ f, s.handle e = .error f ∧ isDropped o (e, s.watcher.site.table) = false ∧
      (callFor o g (e, s.watcher.site.table) = none ∨ s.refusal ≠ none)) ∨
    (s.handle e = .ok { s with stats := { s.stats with dropped := s.stats.dropped + 1 } } ∧
      isDropped o (e, s.watcher.site.table) = true ∧ callFor o g (e, s.watcher.site.table) = none) ∨
    (s.handle e = .ok s ∧ isDropped o (e, s.watcher.site.table) = false ∧
      callFor o g (e, s.watcher.site.table) = none) ∨
    ∃ d, s.handle e = .ok { s with
        spawned := s.spawned ++ [d]
        stats := { s.stats with dispatched := s.stats.dispatched + 1 } } ∧
      isDropped o (e, s.watcher.site.table) = false ∧ callFor o g (e, s.watcher.site.table) = some d := by
  subst ho hg
  unfold handle isDropped callFor dispatch
  cases Filter.paths s.options s.watcher.site.table e with
  | error f => exact Or.inl ⟨f, rfl, rfl, Or.inl rfl⟩
  | ok paths =>
    cases paths with
    | nil => exact Or.inr (Or.inl ⟨rfl, rfl, rfl⟩)
    | cons p ps =>
      dsimp only
      cases s.registry.route e.kind (p :: ps) with
      | none => exact Or.inr (Or.inr (Or.inl ⟨rfl, rfl, rfl⟩))
      | some d =>
        cases hr : s.refusal with
        | some message => exact Or.inl ⟨_, rfl, rfl, Or.inr (by simp)⟩
        | none => exact Or.inr (Or.inr (Or.inr ⟨d, rfl, rfl, rfl⟩))

/-- The session that has taken note of an event. -/
def note (s : Session) (e : Event) : Session :=
  { s with
    stats := { s.stats with received := s.stats.received + 1 }
    handled := s.handled ++ [(e, s.watcher.site.table)] }

theorem takeEvent_eq (s : Session) (e : Event) : s.takeEvent e =
    match (s.note e).handle e with
    | .error f => (s.note e).finish (.failed f)
    | .ok t => t.await := rfl

/-- Handling an event keeps the log. -/
theorem Log.takeEvent {new s : Session} (h : Log new s) (busy : s.stage ≠ .idle) (e : Event) :
    Log new (s.takeEvent e) := by
  have calls : s.handled.filterMap (callFor new.options new.registry) = s.spawned :=
    h.calls.resolve_right fun k => busy k.1
  have received : (s.note e).stats.received = (s.note e).handled.length := by simp [note, h.received]
  have noted : (s.note e).handled = s.handled ++ [(e, (s.note e).watcher.site.table)] := rfl
  rw [takeEvent_eq]
  obtain ⟨f, hf, kept, hc⟩ | ⟨ht, dropped, hc⟩ | ⟨ht, kept, hc⟩ | ⟨d, ht, kept, hc⟩ :=
    handle_cases (s := s.note e) (o := new.options) (g := new.registry) h.options h.registry e
  · rw [hf]
    refine ⟨h.options, h.registry, h.refusal, received, ?_, h.dispatched, ?_⟩
    · show s.stats.dropped = ((s.note e).handled.filter _).length
      simp [noted, kept, h.dropped]
    · show (s.note e).handled.filterMap _ = s.spawned ∨ _
      rcases hc with hc | refused
      · exact Or.inl (by simp [noted, hc, calls])
      · have refused : new.refusal ≠ none := h.refusal ▸ refused
        cases hd : callFor new.options new.registry (e, (s.note e).watcher.site.table) with
        | none => exact Or.inl (by simp [noted, hd, calls])
        | some d =>
          refine Or.inr ⟨rfl, refused, d, ?_⟩
          show (s.note e).handled.filterMap _ = s.spawned ++ [d]
          simp [noted, hd, calls]
  · rw [ht]
    refine ⟨h.options, h.registry, h.refusal, received, ?_, h.dispatched, Or.inl ?_⟩
    · show s.stats.dropped + 1 = ((s.note e).handled.filter _).length
      simp [noted, dropped, h.dropped]
    · show (s.note e).handled.filterMap _ = s.spawned
      simp [noted, hc, calls]
  · rw [ht]
    refine ⟨h.options, h.registry, h.refusal, received, ?_, h.dispatched, Or.inl ?_⟩
    · show s.stats.dropped = ((s.note e).handled.filter _).length
      simp [noted, kept, h.dropped]
    · show (s.note e).handled.filterMap _ = s.spawned
      simp [noted, hc, calls]
  · rw [ht]
    refine ⟨h.options, h.registry, h.refusal, received, ?_, ?_, Or.inl ?_⟩
    · show s.stats.dropped = ((s.note e).handled.filter _).length
      simp [noted, kept, h.dropped]
    · show s.stats.dispatched + 1 = (s.spawned ++ [d]).length
      simp [h.dispatched]
    · show (s.note e).handled.filterMap _ = s.spawned ++ [d]
      simp [noted, hc, calls]

/-! ## The flow of events -/

/-- What every history keeps of a new session. -/
structure Flow (new s : Session) : Prop where
  fair : Fair s.watcher.channel
  numbered : s.watcher.Numbered
  reading : Reading s
  log : Log new s

variable {new s : Session}

/-- What the watcher does to the channel keeps the flow. -/
theorem Flow.push (h : Flow new s) {w : Watcher} (p : Push s.watcher.channel w.channel) (numbered : w.Numbered)
    (options : w.options = s.watcher.options) : Flow new { s with watcher := w } :=
  ⟨h.fair.push p, numbered, h.reading.push p,
    h.log.same options rfl rfl rfl rfl rfl Or.inl⟩

theorem Flow.finish (fair : Fair s.watcher.channel) (numbered : s.watcher.Numbered) (opened : s.opened = true)
    (receives : s.taken <+: s.watcher.channel.receives) (runs : s.UnderWay) {status : RunStatus}
    (final : status ≠ .pending) (log : Log new (s.finish status)) : Flow new (s.finish status) :=
  ⟨fair.close, numbered.push (.close _) rfl, .finish opened receives runs final, log⟩

theorem Flow.await (fair : Fair s.watcher.channel) (numbered : s.watcher.Numbered) (opened : s.opened = true)
    (receives : s.watcher.channel.receives = s.taken) (runs : s.UnderWay) (log : Log new s.await) :
    Flow new s.await :=
  ⟨fair.receive, numbered, .await opened receives runs, log⟩

/-- Handling an event changes nothing but the counts and the calls. -/
theorem handle_frame {s t : Session} {e : Event} (h : s.handle e = .ok t) :
    t.watcher = s.watcher ∧ t.handled = s.handled ∧ t.opened = s.opened ∧ t.runs = s.runs := by
  obtain ⟨f, hf, _⟩ | ⟨ht, _⟩ | ⟨ht, _⟩ | ⟨d, ht, _⟩ := handle_cases (s := s) rfl rfl e
  · rw [h] at hf
    cases hf
  · cases h.symm.trans ht
    exact ⟨rfl, rfl, rfl, rfl⟩
  · cases h.symm.trans ht
    exact ⟨rfl, rfl, rfl, rfl⟩
  · cases h.symm.trans ht
    exact ⟨rfl, rfl, rfl, rfl⟩

/-- Taking the message that the run waited for keeps the flow. -/
theorem Flow.takeMessage (h : Flow new s) (opened : s.opened = true) (busy : s.stage ≠ .idle) {m : Message}
    (receives : s.watcher.channel.receives = s.taken ++ [.item m]) (runs : s.UnderWay) :
    Flow new (s.takeMessage m) := by
  cases m with
  | failure message =>
    refine Flow.finish (s := { s with phase := .errored }) h.fair h.numbered opened ⟨_, receives.symm⟩ runs (by simp) ?_
    exact h.log.same rfl rfl rfl rfl rfl rfl fun _ => Or.inl rfl
  | event e =>
    have log := h.log.takeEvent busy e
    have taken : (s.note e).taken = s.watcher.channel.receives := by simp [Session.taken, note, receives]
    show Flow new (s.takeEvent e)
    rw [takeEvent_eq] at log ⊢
    cases ht : (s.note e).handle e with
    | error f =>
      rw [ht] at log
      exact Flow.finish (s := s.note e) h.fair h.numbered opened (taken ▸ List.prefix_refl _) runs (by simp) log
    | ok t =>
      rw [ht] at log
      -- The event joins the handled ones, so the receives are again those of the handled events.
      obtain ⟨hw, hh, ho, hr⟩ := handle_frame ht
      refine .await ?_ ?_ (ho.trans opened) ?_ ?_ log
      · rw [hw]; exact h.fair
      · rw [hw]; exact h.numbered
      · rw [hw, Session.taken, hh]; exact taken.symm
      · obtain ⟨later, runs, spent⟩ := runs
        exact ⟨later, hr.trans runs, spent⟩

/-- The run that goes on keeps the flow. -/
theorem Flow.react {t : Session} (h : Flow new s) (e : s.react? = some t) : Flow new t := by
  unfold react? at e
  cases h.reading with
  | fresh _ stage => rw [stage] at e; cases e
  | ended _ stage => rw [stage] at e; cases e
  | starting opened stage phase handled receives runs =>
    have taken : s.taken = [] := by simp [Session.taken, handled]
    rw [stage] at e
    simp only [reactToStart?] at e
    split at e
    · cases e
      refine .await h.fair h.numbered opened (receives.trans taken.symm) runs ?_
      exact h.log.same rfl rfl rfl rfl rfl rfl fun idle => Or.inr handled
    · cases e
      refine .finish h.fair h.numbered opened (by simp [taken]) runs (by simp) ?_
      exact h.log.same rfl rfl rfl rfl rfl rfl fun _ => Or.inl rfl
    · cases e
  | @receiving r opened stage receives kept told runs =>
    have current := getElem?_handled receives
    have busy : s.stage ≠ .idle := by simp [stage]
    rw [stage] at e
    simp only [reactToReceive?, current] at e
    cases r with
    | item m =>
      cases e
      exact h.takeMessage opened busy receives runs
    | ended =>
      cases e
      have read : s.taken <+: s.watcher.channel.receives := ⟨_, receives.symm⟩
      refine Flow.finish (s := { s with phase := .closed }) h.fair h.numbered opened read runs (by simp) ?_
      exact h.log.same rfl rfl rfl rfl rfl rfl fun _ => Or.inl rfl
    | pending => cases e
    | withdrawn => cases e

/-- What a session does on its own: its run goes on, or else its watcher moves. -/
theorem step_cases {s t : Session} (h : s.step = some t) :
    s.react? = some t ∨ ∃ w, s.watcher.step = some w ∧ t = { s with watcher := w } := by
  unfold Session.step at h
  split at h
  · rename_i u hr
    cases h
    exact Or.inl hr
  · obtain ⟨w, hw, rfl⟩ := Option.map_eq_some_iff.1 h
    exact Or.inr ⟨w, hw, rfl⟩

/-- At a standstill of a session its run waits and its watcher stands still. -/
theorem still_of_step_eq_none {s : Session} (rest : s.step = none) : s.react? = none ∧ s.watcher.step = none := by
  unfold Session.step at rest
  split at rest
  · cases rest
  · exact ⟨‹_›, Option.map_eq_none_iff.1 rest⟩

/-- **Every move of a session keeps the flow.** -/
theorem Flow.step {t : Session} (h : Flow new s) (e : s.step = some t) : Flow new t := by
  obtain hr | ⟨w, hw, rfl⟩ := step_cases e
  · exact h.react hr
  · exact h.push (Watcher.push_step hw) (h.numbered.step hw) (Watcher.options_step hw)

/-! ## Calls -/

/-- A further run fails at once. -/
theorem Flow.rerun (h : Flow new s) (spent : s.phase = .created → s.opened = true) (f : Failure) :
    Flow new { s with runs := s.runs ++ [.failed f] } := by
  refine ⟨h.fair, h.numbered, ?_, h.log.same rfl rfl rfl rfl rfl rfl Or.inl⟩
  have more {runs : List RunStatus} (h : .pending ∉ runs) : .pending ∉ runs ++ [RunStatus.failed f] := by simpa using h
  cases h.reading with
  | fresh opened stage handled receives runs =>
    refine .fresh opened stage handled receives (more runs) fun phase => ?_
    rw [spent phase] at opened
    cases opened
  | starting opened stage phase handled receives runs =>
    obtain ⟨later, runs, spent⟩ := runs
    exact .starting opened stage phase handled receives ⟨later ++ [.failed f], by simp [runs], more spent⟩
  | receiving opened stage receives kept told runs =>
    obtain ⟨later, runs, spent⟩ := runs
    exact .receiving opened stage receives kept told ⟨later ++ [.failed f], by simp [runs], more spent⟩
  | ended opened stage receives runs => exact .ended opened stage receives (more runs)

theorem Flow.run (h : Flow new s) : Flow new s.run := by
  unfold Session.run
  split
  · rename_i phase
    exact h.rerun (fun created => absurd created phase) _
  rename_i phase
  have phase : s.phase = .created := by simpa using phase
  split
  · rename_i opened
    exact h.rerun (fun _ => opened) _
  rename_i unopened
  cases h.reading with
  | fresh _ stage handled receives _ unused =>
    have runs := unused phase
    split
    · refine ⟨h.fair, h.numbered, .ended rfl stage ?_ ?_, h.log.same rfl rfl rfl rfl rfl rfl Or.inl⟩
      · show s.taken <+: _
        simp [taken, handled]
      · simp [runs]
    · have k := Watcher.spared_start s.watcher s.root s.options.recursive
      refine ⟨?_, h.numbered.spared k, ?_, ?_⟩
      · show Fair (s.watcher.start s.root s.options.recursive).channel
        rw [k.channel]
        exact h.fair
      · refine .starting rfl rfl phase handled ?_ ⟨[], by simp [runs], by simp⟩
        show (s.watcher.start s.root s.options.recursive).channel.receives = []
        rw [k.channel]
        exact receives
      · exact h.log.same k.options rfl rfl rfl rfl rfl fun _ => Or.inr handled
  | starting opened => exact absurd opened unopened
  | receiving opened => exact absurd opened unopened
  | ended opened => exact absurd opened unopened

theorem Flow.close (h : Flow new s) : Flow new s.close := by
  unfold Session.close
  split
  · exact h.push (.close _) (h.numbered.push (.close _) rfl) rfl
  rename_i unopened
  split
  · refine ⟨h.fair, h.numbered, ?_, h.log.same rfl rfl rfl rfl rfl rfl Or.inl⟩
    cases h.reading with
    | fresh opened stage handled receives runs => exact .fresh opened stage handled receives runs (by simp)
    | starting opened => exact absurd opened unopened
    | receiving opened => exact absurd opened unopened
    | ended opened => exact absurd opened unopened
  · exact h

/-- Giving a receive up leaves those before it as they are. -/
theorem prefix_withdraw {c : Channel Message} {rs : List (Receipt Message)} (h : rs <+: c.receives) {i : Nat}
    (hi : rs.length ≤ i) : rs <+: (c.withdraw i).receives := by
  unfold Channel.withdraw
  split
  · obtain ⟨rest, e⟩ := h
    refine ⟨rest.set (i - rs.length) .withdrawn, ?_⟩
    show _ = c.receives.set i .withdrawn
    rw [← e, List.set_append_right _ _ hi]
  · exact h

/-- Cancelling the run under way keeps the flow. -/
theorem Flow.abort (h : Flow new s) (pending : .pending ∈ s.runs) :
    Flow new (Session.finish { s.withdraw with phase := .closed } (.failed .cancelled)) := by
  cases h.reading with
  | fresh _ _ _ _ runs => exact absurd pending runs
  | ended _ _ _ runs => exact absurd pending runs
  | starting opened stage phase handled receives runs =>
    have still : s.withdraw = s := by simp [withdraw, stage]
    rw [still]
    refine Flow.finish (s := { s with phase := .closed }) h.fair h.numbered opened ?_ runs (by simp) ?_
    · exact h.reading.taken_prefix
    · exact h.log.same rfl rfl rfl rfl rfl rfl fun _ => Or.inl rfl
  | receiving opened stage receives kept told runs =>
    have gone : s.withdraw = { s with watcher := { s.watcher with
        channel := s.watcher.channel.withdraw s.handled.length } } := by simp [withdraw, stage]
    rw [gone]
    refine Flow.finish (s := { s with
      watcher := { s.watcher with channel := s.watcher.channel.withdraw s.handled.length }
      phase := .closed }) (h.fair.withdraw _) ?_ opened ?_ runs (by simp) ?_
    · intro x hx n hn
      show n < (s.watcher.channel.withdraw s.handled.length).sends.length
      rw [Channel.withdraw]
      split <;> exact h.numbered x hx n hn
    · exact prefix_withdraw h.reading.taken_prefix (Nat.le_of_eq s.length_taken)
    · exact h.log.same rfl rfl rfl rfl rfl rfl fun _ => Or.inl rfl

theorem Flow.cancel (h : Flow new s) : Flow new s.cancel := by
  unfold Session.cancel
  split
  · rename_i last
    exact h.abort (List.mem_of_getLast? (by simpa [isPending] using last))
  · exact h

/-- **Every call keeps the flow.** -/
theorem Flow.call (h : Flow new s) (a : Action) : Flow new (s.call a) := by
  cases a with
  | run => exact h.run
  | close => exact h.close
  | cancel => exact h.cancel
  | send m =>
    unfold Session.call
    dsimp only
    split
    · exact h.push (.submit _ m) (h.numbered.send m) rfl
    · exact h
  | feed notices =>
    show Flow new { s with watcher := s.watcher.call (.feed notices) }
    unfold Watcher.call
    dsimp only
    split
    · exact h
    · exact h.push (.idle _) (h.numbered.feed _ notices) rfl
  | change c => exact h.push (.idle _) (h.numbered.push (.idle _) rfl) rfl
  | kill part =>
    show Flow new { s with watcher := s.watcher.call (.kill part) }
    unfold Watcher.call
    dsimp only
    split
    · exact h
    · exact h.push (.idle _) (h.numbered.push (.idle _) rfl) rfl
  | release => exact h.push (.idle _) (h.numbered.push (.idle _) rfl) rfl
  | wait => exact h

/-! ## Standstills -/

/-- At a standstill of a session its watcher stands still. -/
theorem watcher_still (rest : s.step = none) : s.watcher.step = none := (still_of_step_eq_none rest).2

/-- At a standstill of a session that runs, the channel is open and its last receive is pending. -/
theorem Flow.pending (h : Flow new s) (rest : s.step = none) (phase : s.phase = .running)
    (runs : .pending ∈ s.runs) :
    s.watcher.channel.receives = s.taken ++ [.pending] ∧ s.watcher.channel.closed = false := by
  have idle := (still_of_step_eq_none rest).1
  cases h.reading with
  | fresh _ _ _ _ none => exact absurd runs none
  | ended _ _ _ none => exact absurd runs none
  | starting _ _ created => rw [phase] at created; cases created
  | @receiving r _ stage receives kept told =>
    have current := getElem?_handled receives
    rw [react?, stage] at idle
    simp only [reactToReceive?, current] at idle
    cases r with
    | pending => exact ⟨receives, by simpa using told⟩
    | item m => cases idle
    | ended => cases idle
    | withdrawn => exact absurd rfl kept

/-- **At a standstill of a session that runs nothing is left**: the queue is empty, no send is blocked, and the accepted
messages are the handled events. -/
theorem Flow.still (h : Flow new s) (rest : s.step = none) (phase : s.phase = .running) (runs : .pending ∈ s.runs) :
    s.watcher.channel.queue = [] ∧ (∀ x ∈ s.watcher.channel.sends, x.status ≠ .blocked) ∧
      s.watcher.channel.accepted = s.handled.map (.event ·.1) := by
  obtain ⟨receives, isOpen⟩ := h.pending rest phase runs
  have channel : s.watcher.channel.step = none := (Watcher.still_of_step_eq_none (watcher_still rest)).1
  have queue : s.watcher.channel.queue = [] := Channel.queue_of_pending channel (by simp [receives])
  refine ⟨queue, Channel.unblocked_of_hasRoom channel (Channel.hasRoom_of_empty queue), ?_⟩
  rw [h.fair.whole isOpen, queue, List.append_nil, Channel.obtained, receives]
  simp [taken, Receipt.item?, List.filterMap_map, Function.comp_def]

/-- An event whose paths are all dropped has no call. -/
theorem dropped_add_calls_le (o : Options) (g : Registry Text) (handled : List (Event × FileTable)) :
    (handled.filter (isDropped o)).length + (handled.filterMap (callFor o g)).length ≤ handled.length := by
  induction handled with
  | nil => simp
  | cons r rest ih =>
    have apart : isDropped o r = true → callFor o g r = none := by
      unfold isDropped callFor
      cases Filter.paths o r.2 r.1 with
      | error f => simp
      | ok paths => cases paths <;> simp
    cases hd : isDropped o r with
    | true =>
      simp only [List.filter_cons, hd, if_true, List.filterMap_cons, apart hd, List.length_cons]
      omega
    | false =>
      cases hc : callFor o g r with
      | none =>
        simp only [List.filter_cons, hd, Bool.false_eq_true, if_false, List.filterMap_cons, hc, List.length_cons]
        omega
      | some d =>
        simp only [List.filter_cons, hd, Bool.false_eq_true, if_false, List.filterMap_cons, hc, List.length_cons]
        omega

/-- A new session. -/
theorem Flow.start (root : Path) (registry : Registry Text) (refusal makerFault : Option Text) (options : Options)
    (number : Nat) (site : Site) :
    let new : Session := { root, registry, refusal, makerFault, watcher := { options, number, site } }
    Flow new new where
  fair := Fair.new 1 true
  numbered x hx := by cases hx
  reading := .fresh rfl rfl rfl rfl (by simp) fun _ => rfl
  log := ⟨rfl, rfl, rfl, rfl, rfl, rfl, Or.inl rfl⟩

end Session
end DirWatch

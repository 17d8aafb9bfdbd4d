import DirWatch.Proofs.Settling
import DirWatch.Proofs.Session.Flow

/-!
# Histories in which any run may be cancelled

`Session.cancel` cancels the newest run, and once a session was asked to run again the newest run is not the one under
way. Here any run may be cancelled (`Deed`).

- What a history passes: the session after each deed and after each move on the way to the next standstill (`passed`),
  and what relates each of these sessions to the next one (`isChain_passed`).
- Every deed keeps the flow of events (`Flow.undergo`), so what is handled, called and counted is said of all these
  histories (`event_flow`).
-/

namespace DirWatch

namespace Session

/-! ## Deeds -/

/-- Cancels run `i`, if it is under way. -/
def cancelRun (s : Session) (i : Nat) : Session :=
  if s.runs[i]? = some .pending then finish { s.withdraw with phase := .closed } (.failed .cancelled) else s

/-- A call on a session, a change of its surroundings, or the cancellation of any run. -/
inductive Deed where
  | call (a : Action)
  | cancelRun (i : Nat)

/-- Whether a deed decides if a fresh session is ever run: the first run starts it, and a close before that forbids
it. -/
def Deed.isDecisive : Deed → Bool
  | .call .run => true
  | .call .close => true
  | _ => false

/-- What a deed does at once. -/
def undergo (s : Session) : Deed → Session
  | .call a => s.call a
  | .cancelRun i => s.cancelRun i

/-- The session after a deed, at rest. -/
def deed (s : Session) (d : Deed) : Session := (s.undergo d).rest

/-- The session after deeds, each once it is at rest. -/
def deeds (s : Session) (ds : List Deed) : Session := ds.foldl deed s

/-- Cancelling the newest run. -/
theorem cancel_eq_cancelRun (s : Session) : s.cancel = s.cancelRun (s.runs.length - 1) := by
  unfold cancel cancelRun isPending
  rw [List.getLast?_eq_getElem?]
  simp only [beq_iff_eq]

/-- What all deeds and all moves keep, a history keeps. -/
theorem deeds_induction {P : Session → Prop} (undergo : ∀ s d, P s → P (s.undergo d))
    (step : ∀ s t, P s → s.step = some t → P t) {s : Session} (h : P s) (ds : List Deed) : P (s.deeds ds) :=
  history_induction undergo step ds h

/-- What all moves keep, and all deeds at a standstill, a history from a standstill keeps. -/
theorem deeds_induction_of_still {P : Session → Prop} (undergo : ∀ s d, s.step = none → P s → P (s.undergo d))
    (step : ∀ s t, P s → s.step = some t → P t) {s : Session} (still : s.step = none) (h : P s) (ds : List Deed) :
    P (s.deeds ds) := by
  induction ds generalizing s with
  | nil => exact h
  | cons d rest ih => exact ih (step_rest _) (settle_induction step _ _ (undergo s d still h))

/-- A new session stands still. -/
theorem step_new (root : Path) (registry : Registry Text) (refusal makerFault : Option Text) (options : Options)
    (number : Nat) (site : Site) :
    let new : Session := { root, registry, refusal, makerFault, watcher := { options, number, site } }
    new.step = none := by
  obtain ⟨table, native, polling, gateOpen, observers, calls⟩ := site
  cases gateOpen <;> rfl

/-- After a deed the session moves no further. -/
theorem step_deeds {ds : List Deed} (h : ds ≠ []) (s : Session) : (s.deeds ds).step = none :=
  step_history (fun _ _ => load_step) h s

/-- What stood still before deeds stands still after them. -/
theorem step_deeds_of_still {s : Session} (still : s.step = none) (ds : List Deed) : (s.deeds ds).step = none := by
  by_cases none : ds = []
  · rw [none]
    exact still
  · exact step_deeds none s

/-! ## What a history passes -/

/-- The sessions that a history passes: after each deed, and after each move on the way to the next standstill. -/
def passed (s : Session) : List Deed → List Session
  | [] => []
  | d :: rest => s.undergo d :: (settling step (s.undergo d).load (s.undergo d) ++ (s.deed d).passed rest)

theorem passed_eq_passing (s : Session) (ds : List Deed) : s.passed ds = passing undergo step load s ds := by
  induction ds generalizing s with
  | nil => rfl
  | cons d rest ih => exact congrArg (fun later => s.undergo d :: (_ ++ later)) (ih _)

/-- The last one is the session after the history. -/
theorem getLast?_passed (s : Session) (ds : List Deed) : (s :: s.passed ds).getLast? = some (s.deeds ds) := by
  rw [passed_eq_passing]
  exact getLast?_passing s ds

/-- What relates a session to the one after a deed, and to the one after a move, relates all that a history passes. -/
theorem isChain_passed {P : Session → Prop} {R : Session → Session → Prop} (undergo : ∀ s d, P s → P (s.undergo d))
    (step : ∀ s t, P s → s.step = some t → P t) (deedEdge : ∀ s d, P s → R s (s.undergo d))
    (stepEdge : ∀ s t, P s → s.step = some t → R s t) {s : Session} (h : P s) (ds : List Deed) :
    (s :: s.passed ds).IsChain R := by
  rw [passed_eq_passing]
  exact isChain_passing (Q := P) (fun _ _ => load_step) undergo step (fun _ h _ => h) deedEdge stepEdge h ds

/-- The same from a standstill, where deeds come at a standstill only. -/
theorem isChain_passed_of_still {P : Session → Prop} {R : Session → Session → Prop}
    (undergo : ∀ s d, s.step = none → P s → P (s.undergo d)) (step : ∀ s t, P s → s.step = some t → P t)
    (deedEdge : ∀ s d, s.step = none → P s → R s (s.undergo d)) (stepEdge : ∀ s t, P s → s.step = some t → R s t)
    {s : Session} (still : s.step = none) (h : P s) (ds : List Deed) : (s :: s.passed ds).IsChain R := by
  rw [passed_eq_passing]
  exact isChain_passing (Q := fun s => s.step = none ∧ P s) (fun _ _ => load_step)
    (fun s d h => undergo s d h.1 h.2) step (fun _ h e => ⟨e, h⟩) (fun s d h => deedEdge s d h.1 h.2) stepEdge
    ⟨still, h⟩ ds

/-! ## The flow of events -/

/-- A run that is pending waits for something. -/
theorem Flow.stage_of_pending {new s : Session} (h : Flow new s) (pending : .pending ∈ s.runs) :
    s.stage ≠ .idle ∧ s.UnderWay := by
  cases h.reading with
  | fresh _ _ _ _ none => exact absurd pending none
  | ended _ _ _ none => exact absurd pending none
  | starting _ stage _ _ _ runs => exact ⟨by simp [stage], runs⟩
  | receiving _ stage _ _ _ runs => exact ⟨by simp [stage], runs⟩

/-- **Every deed keeps the flow.** -/
theorem Flow.undergo {new s : Session} (h : Flow new s) (d : Deed) : Flow new (s.undergo d) := by
  cases d with
  | call a => exact h.call a
  | cancelRun i =>
    show Flow new (s.cancelRun i)
    unfold cancelRun
    split
    · rename_i pending
      exact h.abort (List.mem_of_getElem? pending)
    · exact h

/-- **The flow of events.** Whatever happens to a session, the events that it handled are the first messages that it
received and that its channel accepted; while it runs and stands still, they are all that was accepted and no sender
waits. The scheduler was handed the calls for the handled events, in order, of which it may have refused one; and the
counts are those of the handled events, of those without a path that is kept, and of the calls. -/
theorem event_flow (root : Path) (registry : Registry Text) (refusal makerFault : Option Text) (options : Options)
    (number : Nat) (site : Site) (ds : List Deed) :
    let new : Session := { root, registry, refusal, makerFault, watcher := { options, number, site } }
    let s := new.deeds ds
    let c := s.watcher.channel
    let events := s.handled.map Prod.fst
    (events.map (.item <| .event ·) <+: c.receives ∧ events.map .event <+: c.accepted) ∧
    (s.phase = .running → .pending ∈ s.runs →
      c.queue = [] ∧ (∀ x ∈ s.watcher.senders, s.watcher.senderStatus x ≠ .blocked) ∧
        c.accepted = events.map .event) ∧
    (∃ refused, s.handled.filterMap (callFor options registry) = s.spawned ++ refused ∧
      (refusal = none → refused = []) ∧ refused.length ≤ 1) ∧
    s.stats.received = events.length ∧
    s.stats.dropped = (s.handled.filter (isDropped options)).length ∧
    s.stats.dispatched = s.spawned.length ∧
    s.stats.dropped + s.stats.dispatched ≤ s.stats.received := by
  intro new s c events
  have flow : Flow new s :=
    deeds_induction (fun _ d h => h.undergo d) (fun _ _ h e => h.step e)
      (Flow.start root registry refusal makerFault options number site) ds
  have taken : events.map (.item <| .event ·) = s.taken := by simp [events, Session.taken]
  have messages : events.map Message.event = s.handled.map (.event ·.1) := by simp [events]
  have received : events.map (.item <| .event ·) <+: c.receives := taken ▸ flow.reading.taken_prefix
  have calls : ∃ refused, s.handled.filterMap (callFor options registry) = s.spawned ++ refused ∧
      (refusal = none → refused = []) ∧ refused.length ≤ 1 := by
    rcases flow.log.calls with e | ⟨_, refused, d, e⟩
    · exact ⟨[], by rw [List.append_nil]; exact e, fun _ => rfl, by simp⟩
    · exact ⟨[d], e, fun h => absurd h refused, by simp⟩
  refine ⟨⟨received, ?_⟩, fun phase runs => ?_, calls, ?_, flow.log.dropped, flow.log.dispatched, ?_⟩
  · refine List.IsPrefix.trans ?_ flow.fair.obtained_prefix
    have items : (events.map fun e => Receipt.item (Message.event e)).filterMap Receipt.item? =
        events.map Message.event := by
      rw [List.filterMap_map, ← List.filterMap_eq_map]
      rfl
    exact items ▸ received.filterMap Receipt.item?
  · have acted : ds ≠ [] := by
      rintro rfl
      cases runs
    have rest : s.step = none := step_deeds acted new
    obtain ⟨queue, unblocked, all⟩ := flow.still rest phase runs
    exact ⟨queue, Watcher.senderStatus_ne_blocked flow.numbered (watcher_still rest) unblocked, all.trans messages.symm⟩
  · rw [flow.log.received]
    simp [events]
  · -- A refused call counts as neither dropped nor dispatched.
    obtain ⟨refused, e, _⟩ := calls
    have bound := dropped_add_calls_le options registry s.handled
    rw [e, List.length_append] at bound
    rw [flow.log.dropped, flow.log.dispatched, flow.log.received]
    show (s.handled.filter (isDropped options)).length + _ ≤ _
    omega

/-- Two events reach a session: the first one is handed to the handler of additions, the other one is dropped. -/
example :
    let table : FileTable := ⟨[("r", .present 16877 true), ("r/a", .present 33188 true)]⟩
    let options : Options := { pattern := ⟨"r*", [.atom (.exactly (.char 'r')), .atom .star], rfl⟩ }
    let new : Session :=
      { root := .ofText "r", registry := { added := some "h" }, watcher := { options, site := { table } } }
    let s := new.deeds [.call .run, .call (.send (.event (.ofTexts .created ["r/a"] none))),
      .call (.send (.event (.ofTexts .created ["r/b"] none))), .cancelRun 0]
    s.spawned = [⟨.added, "h", ["r/a"]⟩] ∧ s.stats = ⟨2, 1, 1⟩ ∧ s.runs = [.failed .cancelled] := by decide

end Session
end DirWatch

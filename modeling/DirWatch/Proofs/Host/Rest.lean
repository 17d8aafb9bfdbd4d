import DirWatch.Proofs.Host.Acts
import DirWatch.Proofs.Scheduler.Steps
import DirWatch.Proofs.Session.Course
import DirWatch.Session.Standstill

/-!
# A host comes to rest

However the loop turns, each turn lowers what is ahead of it (`load_turn_lt`), so nothing stays ready, and the loop
that runs the job in front is one of those that a host may have (`plays_acts`).

- **Calls** (`Tended`): the calls that were made or will be are those that come of the calls that the sessions handed
  over. At a standstill all of them were made (`Tended.made`).
-/

namespace DirWatch

namespace Session

/-! ## Sessions hand calls over -/

variable {s t : Session}

/-- A call on a session hands nothing over. -/
theorem spawned_call (s : Session) (a : Action) : (s.call a).spawned = s.spawned := (s.undergo_frame (.call a)).2

/-- Handling an event hands at most one call over. -/
theorem spawned_handle {e : Event} (h : s.handle e = .ok t) :
    ∃ calls, s.spawned ++ calls = t.spawned ∧ calls.length ≤ 1 := by
  obtain ⟨f, hf, _⟩ | ⟨ht, _⟩ | ⟨ht, _⟩ | ⟨d, ht, _⟩ := handle_cases (s := s) rfl rfl e
  · rw [h] at hf
    cases hf
  · cases h.symm.trans ht
    exact ⟨[], List.append_nil _, Nat.zero_le _⟩
  · cases h.symm.trans ht
    exact ⟨[], List.append_nil _, Nat.zero_le _⟩
  · cases h.symm.trans ht
    exact ⟨[d], rfl, Nat.le_refl _⟩

/-- A move of a session hands at most one call over. -/
theorem spawned_step (e : s.step = some t) : ∃ calls, s.spawned ++ calls = t.spawned ∧ calls.length ≤ 1 := by
  have none : ∃ calls, s.spawned ++ calls = s.spawned ∧ calls.length ≤ 1 := ⟨[], List.append_nil _, Nat.zero_le _⟩
  obtain hr | ⟨w, _, rfl⟩ := step_cases e
  · cases reaction_of_react hr with
    | @reads event t handled =>
      have grows : ∃ calls, (s.note event).spawned ++ calls = t.spawned ∧ calls.length ≤ 1 := spawned_handle handled
      exact grows
    | starts => exact none
    | unstarted => exact none
    | breaks => exact none
    | fails => exact none
    | closes => exact none
  · exact none

end Session

/-! ## Calls on a loop -/

namespace Scheduler

variable {s : Scheduler}

/-- A call is made in time, whatever is ready before it. -/
theorem due_spawn (s : Scheduler) (h : Handler) (paths : List Text) :
    (s.spawn h paths).due = s.due ++ h.calls paths := by
  simp [due, spawn, push, made, Job.calls]

theorem Steady.spawn (k : s.Steady) (h : Handler) (paths : List Text) : (s.spawn h paths).Steady := by
  refine ⟨k.waits, k.joiners, fun t ht => k.known t ?_, fun t task ht moving => ?_⟩
  · simpa [Scheduler.spawn, push] using ht
  · exact List.mem_append_left _ (k.moving t task ht moving)

theorem openDoor_behind (s : Scheduler) (jobs : List Job) : (s.behind jobs).openDoor = s.openDoor.behind jobs := by
  rw [openDoor_eq, openDoor_eq]
  simp only [behind, List.append_assoc]
  rfl

/-- Opening the door makes no call and leaves none out. -/
theorem due_openDoor (s : Scheduler) : s.openDoor.due = s.due := by
  have opened (k : Task) : (opened k).unmade? = k.unmade? := by
    unfold Scheduler.opened
    split
    · rename_i waits
      unfold waitsAtDoor at waits
      split at waits
      · rename_i state
        simp [Task.unmade?, pastDoor, state]
      · cases waits
    · rfl
  rw [openDoor_eq]
  simp [due, made, List.filterMap_map, opened, Job.calls, List.flatMap_map]

theorem Steady.openDoor (h : s.Steady) : s.openDoor.Steady := by
  rw [openDoor_eq]
  refine ⟨h.waits, fun k hk => ?_, fun t ht => ?_, fun t k hk moving => ?_⟩
  · obtain ⟨k', hk', rfl⟩ := List.mem_map.1 hk
    unfold opened
    split
    · exact h.joiners k' hk'
    · exact h.joiners k' hk'
  · rw [List.length_map]
    rcases List.mem_append.1 ht with ht | ht
    · exact h.known t ht
    · obtain ⟨i, hi, e⟩ := List.mem_map.1 ht
      cases e
      obtain ⟨k, hk, _⟩ := mem_atDoor.1 hi
      exact (List.getElem?_eq_some_iff.1 hk).1
  · rw [List.getElem?_map] at hk
    obtain ⟨k', hk', rfl⟩ := Option.map_eq_some_iff.1 hk
    by_cases there : waitsAtDoor k' = true
    · exact List.mem_append_right _ (List.mem_map_of_mem (mem_atDoor.2 ⟨k', hk', there⟩))
    · rw [opened, if_neg there] at moving
      exact List.mem_append_left _ (h.moving t k' hk' moving)

end Scheduler

namespace Host

variable {h g : Host}

/-! ## Calls of handlers -/

/-- The calls that the sessions handed over. -/
def handed (h : Host) : List Dispatch := h.sessions.flatMap (·.spawned)

/-- The calls that come of a call that is handed over. A handler that is not known does nothing that is seen. -/
def callsOf (kinds : List (Text × Handler.Kind)) (d : Dispatch) : List (Text × List Text) :=
  match kinds.find? (·.1 = d.handler) with
  | some (name, kind) => (⟨name, kind⟩ : Handler).calls d.paths
  | none => []

/-- The loop runs in order, and the calls that were made or will be are those that come of the calls that were handed
over. -/
structure Tended (h : Host) : Prop where
  empty : h.scheduler.ready = []
  steady : h.handlers.Steady
  due : h.handlers.due.Perm (h.handed.flatMap (callsOf h.kinds))

/-- At a standstill all calls were made. -/
theorem Tended.made (tended : h.Tended) (idle : h.ready = []) :
    h.scheduler.made.Perm (h.handed.flatMap (callsOf h.kinds)) := by
  have nothing : h.handlers.ready = [] := by simp [handlers, idle]
  have due := tended.due
  rwa [Scheduler.due_of_ready_eq_nil tended.steady nothing] at due

/-- Calls that are handed over to a scheduler are due. -/
theorem steady_handOver (kinds : List (Text × Handler.Kind)) (calls : List Dispatch) {s : Scheduler}
    (steady : s.Steady) : (calls.foldl (handOver kinds) s).Steady ∧
      (calls.foldl (handOver kinds) s).due = s.due ++ calls.flatMap (callsOf kinds) := by
  induction calls generalizing s with
  | nil => exact ⟨steady, by simp⟩
  | cons d rest ih =>
    have first : (handOver kinds s d).Steady ∧ (handOver kinds s d).due = s.due ++ callsOf kinds d := by
      unfold handOver callsOf
      cases kinds.find? (·.1 = d.handler) with
      | none => exact ⟨steady, (List.append_nil _).symm⟩
      | some entry => exact ⟨steady.spawn _ _, s.due_spawn _ _⟩
    obtain ⟨steady', due⟩ := ih first.1
    refine ⟨steady', ?_⟩
    rw [List.foldl_cons, due, first.2, List.flatMap_cons, List.append_assoc]

/-- A session that hands more calls over adds them to those that were handed over. -/
theorem handed_set {sessions : List Session} {i : Nat} {s t : Session} (hi : sessions[i]? = some s)
    {calls : List Dispatch} (more : s.spawned ++ calls = t.spawned) :
    ((sessions.set i t).flatMap (·.spawned)).Perm (sessions.flatMap (·.spawned) ++ calls) := by
  obtain ⟨inside, here⟩ := List.getElem?_eq_some_iff.1 hi
  obtain ⟨front, back, e, _, changed⟩ := @List.exists_of_set _ _ t _ inside
  rw [here] at e
  rw [changed, e]
  simp only [List.flatMap_append, List.flatMap_cons, ← more, List.append_assoc]
  exact (List.perm_append_comm.append_left _).append_left _

/-- Whatever a session does, the calls that it hands over are due. -/
theorem Tended.move (tended : h.Tended) {i : Nat} {s t : Session} {calls : List Dispatch}
    (hi : h.sessions[i]? = some s) (more : s.spawned ++ calls = t.spawned) : (h.move i s t).Tended := by
  obtain ⟨empty, handlers⟩ := handlers_move tended.empty i more
  obtain ⟨steady, due⟩ := steady_handOver h.kinds calls tended.steady
  refine ⟨empty, handlers ▸ steady, ?_⟩
  rw [handlers, due, handed, sessions_move, kinds_move]
  refine (tended.due.append_right _).trans ?_
  rw [← List.flatMap_append]
  exact (handed_set hi more).symm.flatMap_right _

/-- What neither the loop nor the sessions are part of does not matter. -/
theorem Tended.around (tended : h.Tended) (empty : g.scheduler.ready = []) (handlers : g.handlers = h.handlers)
    (sessions : g.sessions = h.sessions) (kinds : g.kinds = h.kinds) : g.Tended := by
  refine ⟨empty, handlers ▸ tended.steady, ?_⟩
  rw [handlers, handed, sessions, kinds]
  exact tended.due

/-- A host whose sessions have handed nothing over, before its loop is used. -/
theorem Tended.new (unused : h.scheduler = {}) (idle : h.ready = []) (none : h.handed = []) : h.Tended := by
  have fresh : h.handlers = {} := by simp [handlers, unused, idle]
  refine ⟨by rw [unused], ?_, ?_⟩
  · rw [fresh]
    exact ⟨rfl, by simp, by simp, by simp⟩
  · rw [fresh, none]
    exact .refl _

/-- The queue without a job of a session. -/
theorem handlers_popped {front back : List Job} {i : Nat} (queue : h.ready = front ++ .session i :: back) :
    ({ h with ready := front ++ back } : Host).handlers = h.handlers := by
  simp [handlers, queue, List.filterMap_cons]

/-- **Every turn leaves a host tended.** -/
theorem Tended.turn (tended : h.Tended) (t : Turn h g) : g.Tended := by
  cases t with
  | @session front back i queue =>
    have popped : ({ h with ready := front ++ back } : Host).Tended :=
      tended.around tended.empty (handlers_popped queue) rfl rfl
    obtain e | ⟨s, t, hi, moved, e⟩ := advance_cases { h with ready := front ++ back } i
    · rwa [e]
    · obtain ⟨calls, more, _⟩ := Session.spawned_step moved
      rw [e]
      have next := popped.move hi more
      exact next.around next.empty (handlers_push_session ..) rfl rfl
  | @handler front back j queue first =>
    have ran := runNext_handlers tended.empty queue first
    exact ⟨rfl, tended.steady.runNext ran, (Scheduler.due_runNext tended.steady ran).trans tended.due⟩

/-- **Every history leaves a host tended.** -/
theorem kept_tended : Kept Tended where
  around {h g} tended sessions kinds scheduler ready _ := by
    refine tended.around (scheduler ▸ tended.empty) ?_ sessions kinds
    simp only [handlers, scheduler, ready]
  wake tended := tended.around tended.empty (handlers_wake _) rfl rfl
  openDoor {h} tended := by
    have opened : (h.schedule (·.openDoor)).handlers = h.handlers.openDoor :=
      handlers_schedule tended.empty Scheduler.openDoor_behind
    refine ⟨rfl, opened ▸ tended.steady.openDoor, ?_⟩
    rw [opened, Scheduler.due_openDoor]
    exact tended.due
  move_call {h i s} a tended hi := by
    have same : s.spawned ++ [] = ((s.onSite h.site).call a).spawned := by
      rw [Session.spawned_call, List.append_nil]
      rfl
    exact tended.move hi same
  turn := Tended.turn
  addSession {h} path options registry tended := by
    have handed : (h.addSession (.fresh path options registry)).handed = h.handed := by
      simp [Host.handed, Host.addSession, Session.fresh]
    refine ⟨tended.empty, tended.steady, ?_⟩
    rw [handed]
    exact tended.due

/-! ## The loop stands still -/

/-- A call is as much work, whatever tasks there are. -/
theorem work_call (tasks : List Task) (number : Nat) (h : Handler) (paths : List Text) :
    Job.work tasks (.call number h paths) = Job.work [] (.call 0 h []) := by
  obtain ⟨name, kind⟩ := h
  cases kind <;> rfl

/-- What is ahead is what the sessions, their jobs and the scheduler have ahead of them. -/
theorem load_eq (h : Host) : h.load = (total callWork h.kinds + 1) * total Session.load h.sessions +
    (h.ready.countP (·.isSession) + h.handlers.work) := by
  have queue (l : List Job) : total h.jobWork l =
      l.countP (·.isSession) + total (DirWatch.Job.work h.scheduler.tasks) (l.filterMap Job.handler?) := by
    induction l with
    | nil => rfl
    | cons j l ih =>
      cases j <;> simp [ih, jobWork, Job.isSession, List.filterMap_cons] <;> omega
  exact congrArg _ (queue h.ready)

/-- Calls that are handed over take as much work as the handlers that are known. -/
theorem work_handOver_le (kinds : List (Text × Handler.Kind)) (calls : List Dispatch) (s : Scheduler) :
    (calls.foldl (handOver kinds) s).work ≤ s.work + total callWork kinds * calls.length := by
  induction calls generalizing s with
  | nil => simp
  | cons d rest ih =>
    have first : (handOver kinds s d).work ≤ s.work + total callWork kinds := by
      unfold handOver
      cases found : kinds.find? (·.1 = d.handler) with
      | none => exact Nat.le_add_right ..
      | some entry =>
        have known : Job.work [] (.call 0 ⟨entry.1, entry.2⟩ []) ≤ total callWork kinds :=
          le_total callWork (List.mem_of_find?_eq_some found)
        simp only [Scheduler.work, Scheduler.spawn, Scheduler.push, total_append, total_cons, total_nil, work_call]
        omega
    have later := ih (handOver kinds s d)
    rw [List.foldl_cons, List.length_cons, Nat.mul_succ]
    omega

/-- A move of a session adds nothing to what is ahead: the session has less ahead of it, which makes up for the call
that it may hand over. -/
theorem load_move_le (empty : h.scheduler.ready = []) {i : Nat} {s t : Session} (hi : h.sessions[i]? = some s)
    (moved : (s.onSite h.site).step = some t) : ((h.move i s t).push (.session i)).load ≤ h.load := by
  obtain ⟨calls, more, few⟩ := Session.spawned_step moved
  have more : s.spawned ++ calls = t.spawned := more
  have handlers := (handlers_move empty i more).2
  have work := work_handOver_le h.kinds calls h.handlers
  have share := Nat.mul_le_mul_left (total callWork h.kinds) few
  have less : t.load < (s.onSite h.site).load := Session.load_step moved
  have same : (s.onSite h.site).load = s.load := rfl
  have sessions := total_set Session.load hi t
  have product := Nat.mul_le_mul_left (total callWork h.kinds + 1)
    (show total Session.load (h.sessions.set i t) + 1 ≤ total Session.load h.sessions by omega)
  have ready : ((h.move i s t).push (.session i)).ready.countP (·.isSession) =
      h.ready.countP (·.isSession) + 1 := by
    obtain ⟨scheduler, jobs, e⟩ := h.move_frame i s t
    rw [e]
    simp [push, List.countP_append, List.countP_map, Function.comp_def, Job.isSession]
  rw [load_eq, load_eq, handlers_push_session, handlers, ready]
  show (total callWork (h.move i s t).kinds + 1) * total Session.load (h.move i s t).sessions + _ ≤ _
  rw [kinds_move, sessions_move]
  rw [Nat.mul_add] at product
  omega

/-- **Every turn lowers what is ahead.** -/
theorem load_turn_lt (tended : h.Tended) (t : Turn h g) : g.load < h.load := by
  cases t with
  | @handler front back j queue first =>
    have lower := Scheduler.work_runNext_lt tended.steady (runNext_handlers tended.empty queue first)
    have count : (schedule { h with ready := front ++ back } (·.runJob j)).ready.countP (·.isSession) =
        h.ready.countP (·.isSession) := by
      simp [schedule, queue, Job.isSession, List.countP_map, Function.comp_def]
    rw [load_eq, load_eq, count]
    exact Nat.add_lt_add_left (Nat.add_lt_add_left lower _) _
  | @session front back i queue =>
    have popped : ({ h with ready := front ++ back } : Host).load < h.load := by
      have count : h.ready.countP (·.isSession) = (front ++ back).countP (·.isSession) + 1 := by
        simp [queue, Job.isSession]
        omega
      rw [load_eq, load_eq, handlers_popped queue, count]
      dsimp only
      omega
    obtain e | ⟨s, t, hi, moved, e⟩ := advance_cases { h with ready := front ++ back } i
    · rwa [e]
    · rw [e]
      exact Nat.lt_of_le_of_lt (load_move_le (h := { h with ready := front ++ back }) tended.empty hi moved) popped

/-! ## The loop of a host is one of those it may have -/

/-- A host at rest has nothing ready. -/
theorem ready_rest (tended : h.Tended) : h.rest.ready = [] := by
  have still : h.rest.turn? = none :=
    step_settle_of_invariant (P := Tended) (fun _ _ tended e => tended.turn (turn_of_turn e))
      (fun _ _ tended e => load_turn_lt tended (turn_of_turn e)) _ h tended (Nat.le_refl _)
  unfold turn? at still
  split at still
  · rename_i idle
    exact idle
  · cases still

/-- Turns may come first. -/
theorem plays_settle {actions : List Action} {k : Host} (n : Nat) (p : Plays (settle turn? n h) actions k) :
    Plays h actions k := by
  induction n generalizing h with
  | zero => exact p
  | succ n ih =>
    unfold settle at p
    cases e : h.turn? with
    | none =>
      rw [e] at p
      exact p
    | some g =>
      rw [e] at p
      exact .turn (turn_of_turn e) (ih p)

/-- **A host that runs the job in front comes to what it may come to.** -/
theorem plays_acts (tended : h.Tended) (idle : h.ready = []) (actions : List Action) :
    Plays h actions (h.acts actions) := by
  unfold acts
  induction actions generalizing h with
  | nil => exact .rest idle
  | cons a later ih =>
    have awake : (h.call a).wake.Tended := kept_tended.wake (kept_tended.call a tended)
    exact .act idle (plays_settle _ (ih (kept_tended.toLasting.rest awake) (ready_rest awake)))

end Host
end DirWatch

import DirWatch.Host
import DirWatch.Proofs.Scheduler.Effects

/-!
# The event loop of a host

Sessions and handlers share one queue. What is shown of a host holds for loops that are free to let either side go
first (`Turn`): the first job of a session or the first job of the scheduler is run, whatever stands before it. The
loop that always runs the job in front is one of them (`turn_of_turn`).

- **Courses of a host** (`Plays`): whatever a host may come to by its actions, with such turns in between until nothing
  is ready.
- **The side of the handlers** (`handlers`): the scheduler with its jobs, of which a turn runs the first one, or to
  which a session hands a call over.
- **What a host has ahead of it** (`load_turn_lt`): every turn lowers it.
-/

namespace DirWatch

/-- The sum over a list of which one element was changed. -/
theorem total_set {α : Type} (f : α → Nat) {xs : List α} {i : Nat} {x : α} (hi : xs[i]? = some x) (y : α) :
    total f (xs.set i y) + f x = total f xs + f y := by
  induction xs generalizing i with
  | nil => simp at hi
  | cons z xs ih =>
    cases i with
    | zero =>
      obtain rfl : z = x := by simpa using hi
      simp only [List.set_cons_zero, total_cons]
      omega
    | succ i =>
      have later := ih (i := i) (by simpa using hi)
      simp only [List.set_cons_succ, total_cons]
      omega

theorem le_total {α : Type} (f : α → Nat) {xs : List α} {x : α} (hx : x ∈ xs) : f x ≤ total f xs := by
  induction xs with
  | nil => simp at hx
  | cons y xs ih =>
    rw [total_cons]
    rcases List.mem_cons.1 hx with rfl | hx
    · omega
    · have := ih hx
      omega

namespace Host

variable {h g : Host}

/-! ## Turns -/

/-- Whether a job is one of a session. -/
def Job.isSession : Job → Bool
  | .session _ => true
  | .handler _ => false

/-- The job of the scheduler that a job is, if it is one. -/
def Job.handler? : Job → Option DirWatch.Job
  | .session _ => none
  | .handler j => some j

/-- A turn of the loop: a session moves whose job is the first one of a session, or the scheduler runs its first job. -/
inductive Turn (h : Host) : Host → Prop
  | session {front back : List Job} {i : Nat} (queue : h.ready = front ++ .session i :: back)
      (first : ∀ j ∈ front, j.isSession = false) : Turn h (advance { h with ready := front ++ back } i)
  | handler {front back : List Job} {j : DirWatch.Job} (queue : h.ready = front ++ .handler j :: back)
      (first : ∀ j ∈ front, j.isSession = true) : Turn h (schedule { h with ready := front ++ back } (·.runJob j))

/-- The job in front may be run. -/
theorem turn_of_turn (e : h.turn? = some g) : Turn h g := by
  unfold turn? at e
  split at e
  · cases e
  · rename_i j rest queue
    cases e
    have queue : h.ready = [] ++ j :: rest := queue
    cases j with
    | session i => exact .session queue (by simp)
    | handler j => exact .handler queue (by simp)

/-- What a host may come to: it acts when nothing is ready, and else the loop turns. -/
inductive Plays : Host → List Action → Host → Prop
  | rest {h : Host} (idle : h.ready = []) : Plays h [] h
  | turn {h g k : Host} {actions : List Action} (t : Turn h g) (later : Plays g actions k) : Plays h actions k
  | act {h k : Host} {a : Action} {actions : List Action} (idle : h.ready = [])
      (later : Plays (h.call a).wake actions k) : Plays h (a :: actions) k

/-- A host comes to a standstill. -/
theorem Plays.idle {actions : List Action} (p : Plays h actions g) : g.ready = [] := by
  induction p with
  | rest idle => exact idle
  | turn _ _ ih => exact ih
  | act _ _ ih => exact ih

/-- There is no turn when nothing is ready. -/
theorem Turn.busy (t : Turn h g) : h.ready ≠ [] := by
  cases t with
  | session queue => simp [queue]
  | handler queue => simp [queue]

/-- What an action says is all that matters of it. -/
theorem Plays.of_call_eq {a b : Action} {actions : List Action} (p : Plays h (a :: actions) g) (idle : h.ready = [])
    (same : h.call a = h.call b) : Plays h (b :: actions) g := by
  cases p with
  | turn t => exact absurd idle t.busy
  | act _ later =>
    rw [same] at later
    exact .act idle later

/-! ## What a session changes of the host -/

/-- Calls that are handed over change nothing but the scheduler, and make jobs of it ready. -/
theorem foldl_spawn_frame (calls : List Dispatch) (h : Host) : ∃ (scheduler : Scheduler) (jobs : List DirWatch.Job),
    calls.foldl spawn h = { h with scheduler, ready := h.ready ++ jobs.map .handler } := by
  induction calls generalizing h with
  | nil => exact ⟨h.scheduler, [], by simp⟩
  | cons d rest ih =>
    have first : ∃ (scheduler : Scheduler) (jobs : List DirWatch.Job),
        h.spawn d = { h with scheduler, ready := h.ready ++ jobs.map .handler } := by
      unfold spawn
      split
      · exact ⟨_, _, rfl⟩
      · exact ⟨h.scheduler, [], by simp⟩
    obtain ⟨scheduler, jobs, spawned⟩ := first
    obtain ⟨scheduler', jobs', later⟩ := ih (h.spawn d)
    refine ⟨scheduler', jobs ++ jobs', ?_⟩
    rw [List.foldl_cons, later, spawned]
    simp

/-- A session that moves changes itself and the site, and makes jobs of the scheduler ready. -/
theorem move_frame (h : Host) (i : Nat) (s t : Session) : ∃ (scheduler : Scheduler) (jobs : List DirWatch.Job),
    h.move i s t = { h with
      site := t.watcher.site
      sessions := h.sessions.set i t
      scheduler
      ready := h.ready ++ jobs.map .handler } :=
  foldl_spawn_frame _ _

section Move
variable (h : Host) (i : Nat) (s t : Session)

@[simp] theorem sessions_move : (h.move i s t).sessions = h.sessions.set i t := by
  obtain ⟨_, _, e⟩ := h.move_frame i s t
  rw [e]

@[simp] theorem kinds_move : (h.move i s t).kinds = h.kinds := by
  obtain ⟨_, _, e⟩ := h.move_frame i s t
  rw [e]

@[simp] theorem attempts_move : (h.move i s t).attempts = h.attempts := by
  obtain ⟨_, _, e⟩ := h.move_frame i s t
  rw [e]

end Move

/-- Letting a session do something. -/
theorem enter_eq {i : Nat} {s : Session} (hi : h.sessions[i]? = some s) (f : Session → Session) :
    h.enter i f = h.move i s (f (s.onSite h.site)) := by
  unfold enter
  rw [hi]

/-- Where there is no session, nothing is done. -/
theorem enter_eq_self {i : Nat} (hi : h.sessions[i]? = none) (f : Session → Session) : h.enter i f = h := by
  unfold enter
  rw [hi]

/-- What the turn of a session is: nothing, or a move of the session, which is ready again. -/
theorem advance_cases (h : Host) (i : Nat) : h.advance i = h ∨ ∃ s t, h.sessions[i]? = some s ∧
    (s.onSite h.site).step = some t ∧ h.advance i = (h.move i s t).push (.session i) := by
  unfold advance
  cases hi : h.sessions[i]? with
  | none => exact Or.inl rfl
  | some s =>
    dsimp only
    cases e : (s.onSite h.site).step with
    | none => exact Or.inl rfl
    | some t => exact Or.inr ⟨s, t, rfl, e, rfl⟩

/-! ## The side of the handlers -/

/-- The scheduler with its jobs. -/
def handlers (h : Host) : Scheduler := { h.scheduler with ready := h.ready.filterMap Job.handler? }

@[simp] theorem Job.handler_handler (j : DirWatch.Job) : (Job.handler j).handler? = some j := rfl

@[simp] theorem Job.handler_session (i : Nat) : (Job.session i).handler? = none := rfl

/-- What the scheduler does, it does on its side, if it leaves the jobs before its own alone. -/
theorem handlers_schedule (empty : h.scheduler.ready = []) {f : Scheduler → Scheduler}
    (behind : ∀ (s : Scheduler) (jobs : List DirWatch.Job), f (s.behind jobs) = (f s).behind jobs) :
    (h.schedule f).handlers = f h.handlers := by
  have whole : h.handlers = h.scheduler.behind (h.ready.filterMap Job.handler?) := by
    simp [handlers, Scheduler.behind, empty]
  rw [whole, behind]
  simp [handlers, schedule, Scheduler.behind, Function.comp_def]

theorem empty_schedule (h : Host) (f : Scheduler → Scheduler) : (h.schedule f).scheduler.ready = [] := rfl

@[simp] theorem handlers_push_session (h : Host) (i : Nat) : (h.push (.session i)).handlers = h.handlers := by
  simp [handlers, push]

@[simp] theorem handlers_wake (h : Host) : h.wake.handlers = h.handlers := by
  simp [handlers, wake, Function.comp_def]

/-- Hands a call over to a scheduler. -/
def handOver (kinds : List (Text × Handler.Kind)) (s : Scheduler) (d : Dispatch) : Scheduler :=
  match kinds.find? (·.1 = d.handler) with
  | some (name, kind) => s.spawn ⟨name, kind⟩ d.paths
  | none => s

/-- The calls that a session hands over go to the scheduler, in order. -/
theorem handlers_foldl_spawn (calls : List Dispatch) {h : Host} (empty : h.scheduler.ready = []) :
    (calls.foldl spawn h).scheduler.ready = [] ∧ (calls.foldl spawn h).handlers =
      calls.foldl (handOver h.kinds) h.handlers := by
  induction calls generalizing h with
  | nil => exact ⟨empty, rfl⟩
  | cons d rest ih =>
    cases found : h.kinds.find? (·.1 = d.handler) with
    | none =>
      have none : h.spawn d = h := by rw [spawn, found]
      rw [List.foldl_cons, List.foldl_cons, none, handOver, found]
      exact ih empty
    | some entry =>
      have some : h.spawn d = h.schedule (·.spawn ⟨entry.1, entry.2⟩ d.paths) := by rw [spawn, found]
      have handed : (h.schedule (·.spawn ⟨entry.1, entry.2⟩ d.paths)).handlers =
          h.handlers.spawn ⟨entry.1, entry.2⟩ d.paths :=
        handlers_schedule empty fun s jobs => s.spawn_behind jobs _ _
      have given : handOver h.kinds h.handlers d = h.handlers.spawn ⟨entry.1, entry.2⟩ d.paths := by
        rw [handOver, found]
      rw [List.foldl_cons, List.foldl_cons, some, given, ← handed]
      exact ih (h.empty_schedule _)

/-- A session that moves hands its new calls over. -/
theorem handlers_move (empty : h.scheduler.ready = []) (i : Nat) {s t : Session} {calls : List Dispatch}
    (more : s.spawned ++ calls = t.spawned) : (h.move i s t).scheduler.ready = [] ∧
      (h.move i s t).handlers = calls.foldl (handOver h.kinds) h.handlers := by
  have fresh : t.spawned.drop s.spawned.length = calls := by rw [← more, List.drop_left]
  unfold move
  rw [fresh]
  exact handlers_foldl_spawn calls (h := { h with site := t.watcher.site, sessions := h.sessions.set i t }) empty

/-- A turn of the scheduler runs the first job of its own. -/
theorem runNext_handlers {front back : List Job} {j : DirWatch.Job} (empty : h.scheduler.ready = [])
    (queue : h.ready = front ++ .handler j :: back) (first : ∀ j ∈ front, j.isSession = true) :
    h.handlers.runNext? = some (schedule { h with ready := front ++ back } (·.runJob j)).handlers := by
  have mine : front.filterMap Job.handler? = [] := by
    rw [List.filterMap_eq_nil_iff]
    intro k hk
    cases k with
    | session i => rfl
    | handler j' => cases first _ hk
  have ready : h.handlers.ready = j :: back.filterMap Job.handler? := by
    simp [handlers, queue, mine]
  have popped : ({ h with ready := front ++ back } : Host).handlers =
      { h.handlers with ready := back.filterMap Job.handler? } := by
    simp [handlers, mine]
  have ran := handlers_schedule (h := { h with ready := front ++ back }) (f := (·.runJob j)) empty
    fun s jobs => s.runJob_behind jobs j
  rw [ran, popped, Scheduler.runNext?, ready]

end Host
end DirWatch

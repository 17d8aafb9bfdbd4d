import Mathlib.Data.List.Induction
import DirWatch.Proofs.Scheduler.Order

/-!
# Which failures are reported

What a call raises is known from its handler and from the way in which its gate was left (`Call.problem?`). A plain
handler is reported when it raises, and a task when the scheduler lets go of it.

- **Ends of tasks** (`Task.Stands`): where a task stands agrees with what it does and with the way in which its gate
  was left.
- **Reports** (`Told`): the reports are those of the plain handlers that raised something and of the tasks that did and
  that the scheduler let go of.
-/

namespace DirWatch

/-- How a body ends, where its gate is known to be left in some way. -/
def Handler.Body.outcome? (left : Option Gate.Result) : Handler.Body → Option Task.Outcome
  | .raises message => some (.raised (.runtime message))
  | .cancels => some .cancelled
  | .waitsAtGate =>
    match left with
    | some (.released _) => some .returned
    | some (.failed message) => some (.raised (.os message))
    | some .cancelled => some .cancelled
    | none => none
  | _ => some .returned

/-- What a call raises, where its gate is known to be left in some way. -/
def Call.problem? (c : Call) (left : Option Gate.Result) : Option Problem :=
  match c.handler.kind with
  | .raises message => some (.value message)
  | _ =>
    match c.handler.body?.bind (·.outcome? left) with
    | some (.raised p) => some p
    | _ => none

/-- How the gate of a call was left. -/
def Gate.leftOf (left : List (Nat × Gate.Result)) (n : Nat) : Option Gate.Result :=
  left.findSome? fun e => if e.1 = n then some e.2 else none

/-- Where the task stands agrees with its body and with the way in which its gate was left. -/
def Task.Stands (left : Option Gate.Result) (k : Task) : Prop :=
  match k.state with
  | .fresh => left = none
  | .asleep _ => ∃ n, k.body = .sleeps n
  | .waiting => k.body = .waitsAtDoor ∨ k.body = .waitsAtGate ∧ left = none
  | .resumed r => k.body = .waitsAtDoor ∨ k.body = .waitsAtGate ∧ left = some r
  | .bare => k.body = .waitsAtGate ∧ left = none
  | .done o => k.body.outcome? left = some o

/-- A task that raises something makes its call do so. -/
theorem Call.problem_of_body {c : Call} {body : Handler.Body} {left : Option Gate.Result} {p : Problem}
    (leaves : c.handler.body? = some body) (outcome : body.outcome? left = some (.raised p)) :
    c.problem? left = some p := by
  obtain ⟨⟨name, kind⟩, paths⟩ := c
  cases kind with
  | raises message => cases leaves
  | _ => simp [Call.problem?, leaves, outcome]

/-- A call raises something at once, or its task does. -/
theorem Call.problem_cases {c : Call} {left : Option Gate.Result} {p : Problem} (h : c.problem? left = some p) :
    (∃ message, c.handler.kind = .raises message ∧ p = .value message) ∨
      ∃ body, c.handler.body? = some body ∧ body.outcome? left = some (.raised p) := by
  unfold Call.problem? at h
  split at h
  · rename_i message kind
    exact .inl ⟨message, kind, (Option.some.inj h).symm⟩
  · split at h
    · rename_i raised
      cases h
      exact .inr (Option.bind_eq_some_iff.1 raised)
    · cases h

/-- The report of a task that the scheduler let go of. -/
def Task.report? (k : Task) : Option Report := if k.collected then k.raised? else none

/-- The report of a plain handler that raised something. -/
def Call.report? (book : List Call) (n : Nat) : Option Report :=
  match book[n]? with
  | some ⟨⟨name, .raises message⟩, _⟩ => some ⟨n, name, .value message⟩
  | _ => none

namespace Scheduler

open Gate (leftOf)

variable {s s' : Scheduler} {m : Move} {book : List Call} {left : List (Nat × Gate.Result)} {rest : List Job}
  {t : Nat} {k : Task}

/-! ## Ends of tasks -/

/-- **A step** leads a task where it should stand. -/
theorem stands_next {l : Option Gate.Result} (h : k.Stands l) (door : Bool) (moving : k.isMoving = true) :
    Task.Stands l { k with state := (k.next door).2 } := by
  unfold Task.isMoving at moving
  unfold Task.Stands Task.next
  unfold Task.Stands at h
  cases state : k.state with
  | fresh =>
    rw [state] at h
    obtain rfl : l = none := h
    cases body : k.body with
    | sleeps n => cases n <;> simp [Handler.Body.outcome?]
    | waitsAtDoor => cases door <;> simp [Handler.Body.outcome?]
    | _ => simp [Handler.Body.outcome?]
  | asleep n =>
    rw [state] at h
    obtain ⟨i, body⟩ := h
    cases n <;> simp [Handler.Body.outcome?, body]
  | resumed r =>
    rw [state] at h
    obtain body | ⟨body, rfl⟩ := h
    · simp [Handler.Body.outcome?, body]
    · cases r <;> simp [Handler.Body.outcome?, body]
  | _ => simp [state] at moving

/-- **Leaving its gate** leads a task where it should stand. -/
theorem stands_leave (waiting : k.isWaiting = true) (body : k.body = .waitsAtGate) (r : Gate.Result) :
    Task.Stands (some r) { k with state := k.afterGate r } := by
  unfold Task.isWaiting at waiting
  unfold Task.Stands Task.afterGate
  cases state : k.state with
  | waiting => simp [body]
  | bare => cases r <;> simp [Handler.Body.outcome?, body]
  | _ => simp [state] at waiting

/-- The gate of a task that waits there was not left. -/
theorem unleft_of_stands {l : Option Gate.Result} (h : k.Stands l) (waiting : k.isWaiting = true)
    (body : k.body = .waitsAtGate) : l = none := by
  unfold Task.isWaiting at waiting
  unfold Task.Stands at h
  cases state : k.state with
  | waiting => simpa [state, body] using h
  | bare => simpa [state, body] using h
  | _ => simp [state] at waiting

/-- A task that raises something and does not move is done. -/
theorem done_of_stands {l : Option Gate.Result} {p : Problem} (h : k.Stands l) (still : k.isMoving = false)
    (outcome : k.body.outcome? l = some (.raised p)) : k.state = .done (.raised p) := by
  unfold Task.isMoving at still
  unfold Task.Stands at h
  cases state : k.state with
  | waiting =>
    rw [state] at h
    obtain body | ⟨body, rfl⟩ := h
    · simp [body, Handler.Body.outcome?] at outcome
    · simp [body, Handler.Body.outcome?] at outcome
  | bare =>
    rw [state] at h
    simp [h.1, h.2, Handler.Body.outcome?] at outcome
  | done o =>
    rw [state] at h
    cases h.symm.trans outcome
    rfl
  | _ => simp [state] at still

/-- **The opened door** leads a task where it should stand. -/
theorem stands_opened {l : Option Gate.Result} (h : k.Stands l) : (opened k).Stands l := by
  unfold opened
  split
  · rename_i here
    unfold waitsAtDoor at here
    unfold Task.Stands pastDoor
    split at here
    · exact .inl (by simpa using here)
    · cases here
  · exact h

/-! ## Reports -/

/-- What is read off all tasks changes with the task that is changed. -/
theorem filterMap_modify_perm {tasks : List Task} (hk : tasks[t]? = some k) (f : Task → Task)
    (g : Task → Option Report) :
    ((g k).toList ++ (tasks.modify t f).filterMap g).Perm ((g (f k)).toList ++ tasks.filterMap g) := by
  obtain ⟨inside, rfl⟩ := List.getElem?_eq_some_iff.1 hk
  obtain ⟨front, k, back, e, rfl, modified⟩ := List.exists_of_modify f inside
  have here : tasks[front.length] = k := by simp [e]
  rw [here, modified, e, List.perm_iff_count]
  intro r
  simp only [List.filterMap_append, List.filterMap_cons, List.count_append]
  cases g k <;> cases g (f k) <;> simp [List.count_cons] <;> omega

/-- The reports are those of the plain handlers that raised something and of the tasks that did. -/
structure Told (book : List Call) (left : List (Nat × Gate.Result)) (s : Scheduler) : Prop where
  stands : ∀ k ∈ s.tasks, k.Stands (leftOf left k.call)
  known : ∀ e ∈ left, e.1 ∈ s.tasks.map (·.call)
  reports : s.reports.Perm (s.begun.filterMap (Call.report? book) ++ s.tasks.filterMap Task.report?)

theorem leftOf_eq_none {n : Nat} (unknown : ∀ e ∈ left, e.1 ≠ n) : leftOf left n = none := by
  rw [leftOf, List.findSome?_eq_none_iff]
  intro e he
  rw [if_neg (unknown e he)]

/-- Calls are made and tasks are added, which have raised nothing yet. -/
theorem Told.grow (h : s.Told book left) {more : List Task} {calls : List Nat} (tasks : s'.tasks = s.tasks ++ more)
    (begun : s'.begun = s.begun ++ calls) (reports : s'.reports = s.reports ++ calls.filterMap (Call.report? book))
    (fresh : ∀ k ∈ more, k.Stands (leftOf left k.call) ∧ k.report? = none) : s'.Told book left := by
  refine ⟨fun k hk => ?_, fun e he => ?_, ?_⟩
  · rw [tasks] at hk
    exact (List.mem_append.1 hk).elim (h.stands k) fun new => (fresh k new).1
  · rw [tasks, List.map_append]
    exact List.mem_append_left _ (h.known e he)
  · have none : more.filterMap Task.report? = [] := List.filterMap_eq_nil_iff.2 fun k hk => (fresh k hk).2
    rw [tasks, begun, reports, List.filterMap_append, List.filterMap_append, none, List.append_nil]
    have before := h.reports
    rw [List.perm_iff_count] at before ⊢
    intro r
    have before := before r
    simp only [List.count_append] at before ⊢
    omega

/-- **A handler is called**: it raises at once, or its task has not got to a gate yet. -/
theorem Told.call (h : s.Told book left) (filed : s.Filed book) {n : Nat} {handler : Handler} {paths : List Text}
    (front : s.ready = .call n handler paths :: rest) :
    ((s.popped rest).callHandler n handler paths).Told book left := by
  have own : book[n]? = some ⟨handler, paths⟩ := filed.recorded.jobs _ _ _ (by simp [front])
  -- A call that is queued has no task, so that no gate of it was left.
  have unleft (awaited : handler.body?.isSome = true) : leftOf left n = none := by
    refine leftOf_eq_none fun e he same => ?_
    have queued : n ∈ s.queued.filter (Call.awaited book) := by
      simp [queued, front, Job.number?, Call.awaited, own, awaited]
    exact (List.nodup_append.1 filed.nodup_calls).2.2 e.1 (h.known e he) n queued same
  obtain ⟨name, kind⟩ := handler
  have begun : ((s.popped rest).note n name (.called paths)).begun = s.begun ++ [n] := by
    simp [Scheduler.begun, note, popped, LogEntry.begun?]
  have alone : s.tasks = s.tasks ++ [] := (List.append_nil _).symm
  have nobody : ∀ k ∈ ([] : List Task), k.Stands (leftOf left k.call) ∧ k.report? = none := by simp
  cases kind with
  | plain =>
    have silent : [n].filterMap (Call.report? book) = [] := by simp [Call.report?, own]
    exact h.grow alone begun (by rw [silent]; exact (List.append_nil _).symm) nobody
  | raises message =>
    have raised : [n].filterMap (Call.report? book) = [⟨n, name, .value message⟩] := by simp [Call.report?, own]
    exact h.grow alone begun (by rw [raised]; rfl) nobody
  | respawns =>
    have silent : [n].filterMap (Call.report? book) = [] := by simp [Call.report?, own]
    exact h.grow alone begun (by rw [silent]; exact (List.append_nil _).symm) nobody
  | gate =>
    have silent : [n].filterMap (Call.report? book) = [] := by simp [Call.report?, own]
    refine h.grow rfl begun (by rw [silent]; exact (List.append_nil _).symm) fun k hk => ?_
    obtain rfl := List.mem_singleton.1 hk
    exact ⟨⟨rfl, unleft rfl⟩, rfl⟩
  | task body =>
    refine h.grow rfl (List.append_nil _).symm (List.append_nil _).symm fun k hk => ?_
    obtain rfl := List.mem_singleton.1 hk
    exact ⟨unleft rfl, rfl⟩

/-- What is read off all tasks where one is changed in nothing that counts. -/
theorem filterMap_modify_of_same {tasks : List Task} (hk : tasks[t]? = some k) {f : Task → Task}
    {g : Task → Option Report} (same : g (f k) = g k) : ((tasks.modify t f).filterMap g).Perm (tasks.filterMap g) := by
  have perm := filterMap_modify_perm hk f g
  rw [same] at perm
  exact (List.perm_append_left_iff _).1 perm

/-- A task that was not done has nothing to report, whatever state it comes into. -/
theorem report_of_undone (h : s.Sound) (hk : s.tasks[t]? = some k) (undone : k.isDone = false) (state : Task.State) :
    Task.report? { k with state } = k.report? := by
  have kept : k.collected = false := by
    cases collected : k.collected with
    | false => rfl
    | true => simp [h.counted.collected k (List.mem_of_getElem? hk) collected] at undone
  simp [Task.report?, kept]

/-- A coroutine is not reported when it begins. -/
theorem report_of_unbegun (h : s.Recorded book) (hk : s.tasks[t]? = some k) :
    k.unbegun?.toList.filterMap (Call.report? book) = [] := by
  obtain ⟨⟨name, kind⟩, recorded, _, _, fresh⟩ := h.tasks k (List.mem_of_getElem? hk)
  unfold Task.unbegun?
  split
  · rename_i state
    cases kind <;> simp_all [Handler.isCoroutine, Call.report?]
  · rfl

theorem report_opened (k : Task) : (opened k).report? = k.report? := by
  unfold opened
  split
  · rename_i here
    unfold waitsAtDoor at here
    unfold Task.report? Task.raised? pastDoor
    split at here
    · rename_i state
      simp [state]
    · cases here
  · rfl

theorem leftOf_concat (left : List (Nat × Gate.Result)) (n i : Nat) (r : Gate.Result) :
    leftOf (left ++ [(n, r)]) i = (leftOf left i).or (if n = i then some r else none) := by
  rw [leftOf, List.findSome?_append]
  by_cases here : n = i <;> simp [leftOf, here]

/-- **A gate is left**, and its task stands where it should. -/
theorem Told.leave (h : s.Told book left) (filed : s.Filed book) {g : Nat} {gate : Gate}
    (hk : s.tasks[gate.task]? = some k) (waiting : k.isWaiting = true) (body : k.body = .waitsAtGate)
    (r : Gate.Result) : (s.leave g gate k r).Told book (left ++ [(k.call, r)]) := by
  have there := List.mem_of_getElem? hk
  have calls : (s.leave g gate k r).tasks.map (·.call) = s.tasks.map (·.call) :=
    calls_modify s.tasks gate.task _ (by intro; rfl)
  refine ⟨fun k' hk' => ?_, fun e he => ?_, ?_⟩
  · obtain ⟨i, hi⟩ := List.mem_iff_getElem?.1 hk'
    obtain ⟨k', old, rfl⟩ := getElem?_modify_eq_some hi
    by_cases same : gate.task = i
    · subst same
      obtain rfl := Option.some.inj (hk.symm.trans old)
      rw [if_pos rfl]
      have unleft : leftOf left k.call = none := unleft_of_stands (h.stands k there) waiting body
      show Task.Stands (leftOf _ k.call) _
      rw [leftOf_concat, unleft, if_pos rfl]
      exact stands_leave waiting body r
    · rw [if_neg same]
      have other : k.call ≠ k'.call := filed.call_ne hk old same
      rw [leftOf_concat, if_neg other, Option.or_none]
      exact h.stands k' (List.mem_of_getElem? old)
  · rw [calls]
    rcases List.mem_append.1 he with old | new
    · exact h.known e old
    · obtain rfl := List.mem_singleton.1 new
      exact List.mem_map_of_mem there
  · refine h.reports.trans (List.Perm.append_left _ ?_)
    exact (filterMap_modify_of_same hk (report_of_undone filed.sound hk (still_of_isWaiting waiting).2 _)).symm

/-- **Every move keeps account of failures.** -/
theorem Told.after (h : s.Told book left) (filed : s.Filed book) (c : Change s m s') :
    s'.Told book (left ++ s.leaves m) := by
  cases c with
  | spawned handler paths =>
    have leaves : s.leaves (.spawn handler paths) = [] := rfl
    rw [leaves, List.append_nil]
    exact ⟨h.stands, h.known, h.reports⟩
  | called front =>
    have leaves : s.leaves .next = [] := rfl
    rw [leaves, List.append_nil]
    exact h.call filed front
  | @stepped t k rest front hk moving =>
    have leaves : s.leaves .next = [] := rfl
    have calls : ((s.popped rest).step t k).tasks.map (·.call) = s.tasks.map (·.call) :=
      calls_modify s.tasks t _ (by intro; rfl)
    rw [leaves, List.append_nil]
    refine ⟨?_, fun e he => calls ▸ h.known e he, ?_⟩
    · exact forall_mem_modify (P := fun k => k.Stands (leftOf left k.call)) h.stands hk
        (stands_next (h.stands k (List.mem_of_getElem? hk)) _ moving)
    · rw [begun_step _ t moving, List.filterMap_append]
      have u := report_of_unbegun filed.recorded hk
      rw [u, List.append_nil]
      refine h.reports.trans (List.Perm.append_left _ ?_)
      exact (filterMap_modify_of_same hk (report_of_undone filed.sound hk (undone_of_isMoving moving).1 _)).symm
  | @collected t k rest front hk spent =>
    have leaves : s.leaves .next = [] := rfl
    have calls : ((s.popped rest).letGo t k).tasks.map (·.call) = s.tasks.map (·.call) :=
      calls_modify s.tasks t _ (by intro; rfl)
    rw [leaves, List.append_nil]
    refine ⟨?_, fun e he => calls ▸ h.known e he, ?_⟩
    · exact forall_mem_modify (P := fun k => k.Stands (leftOf left k.call)) h.stands hk
        (h.stands k (List.mem_of_getElem? hk))
    · have kept : k.collected = false := by
        unfold Task.isSpent at spent
        simp_all
      have changed := filterMap_modify_perm hk (fun k => { k with collected := true }) Task.report?
      have unreported : k.report? = none := by simp [Task.report?, kept]
      have reported : Task.report? { k with collected := true } = k.raised? := rfl
      rw [unreported, reported, Option.toList_none, List.nil_append] at changed
      show (s.reports ++ k.raised?.toList).Perm
        (s.begun.filterMap _ ++ (s.tasks.modify t fun k => { k with collected := true }).filterMap _)
      have before := h.reports
      rw [List.perm_iff_count] at before changed ⊢
      intro r
      have before := before r
      have changed := changed r
      simp only [List.count_append] at before changed ⊢
      omega
  | @left g gate k r hg unleft hk waiting body =>
    have leaves : s.leaves (.complete g r) = [(k.call, r)] := by simp [Scheduler.leaves, hg, unleft, hk]
    rw [leaves]
    exact h.leave filed hk waiting body r
  | opened =>
    have leaves : s.leaves .openDoor = [] := rfl
    rw [leaves, List.append_nil, openDoor_eq]
    refine ⟨fun k hk => ?_, fun e he => ?_, ?_⟩
    · obtain ⟨k', hk', rfl⟩ := List.mem_map.1 hk
      rw [call_opened]
      exact stands_opened (h.stands k' hk')
    · simpa [Function.comp_def, call_opened] using h.known e he
    · have tasks : (s.tasks.map opened).filterMap Task.report? = s.tasks.filterMap Task.report? := by
        rw [List.filterMap_map]
        exact congrArg (s.tasks.filterMap ·) (funext report_opened)
      show s.reports.Perm (_ ++ (s.tasks.map opened).filterMap Task.report?)
      rw [tasks]
      exact h.reports
  | alone same spawns leaves =>
    rw [leaves, List.append_nil]
    refine ⟨?_, ?_, ?_⟩
    · exact forall_mem_of_alone_eq same (P := fun k => k.Stands (leftOf left k.call)) (fun _ => .rfl) h.stands
    · have calls : s'.tasks.map (·.call) = s.tasks.map (·.call) :=
        apply_tasks_of_alone_eq same (g := (·.map (·.call))) fun tasks => by simp [Function.comp_def, Task.alone]
      rw [calls]
      exact h.known
    · have tasks : s'.tasks.filterMap Task.report? = s.tasks.filterMap Task.report? :=
        apply_tasks_of_alone_eq same (g := (·.filterMap Task.report?)) fun tasks => by
          rw [List.filterMap_map]
          rfl
      have begun : s'.begun = s.begun := congrArg (·.begun) same
      have reports : s'.reports = s.reports := congrArg (·.reports) same
      rw [tasks, begun, reports]
      exact h.reports

/-! ## Histories -/

theorem Told.new (book : List Call) : Told book [] {} :=
  ⟨fun _ there => (nomatch there), fun _ there => (nomatch there), List.Perm.refl _⟩

/-- **Every history keeps account of failures.** -/
theorem told_run (before after : List Move) :
    (run {} before).Told (calls {} (before ++ after)) (Scheduler.left {} before) := by
  induction before using List.reverseRecOn generalizing after with
  | nil => exact .new _
  | append_singleton before m ih =>
    have told := ih ([m] ++ after)
    have filed := (filed_run before ([m] ++ after)).1
    rw [← List.append_assoc] at told filed
    have left : Scheduler.left {} (before ++ [m]) = Scheduler.left {} before ++ (run {} before).leaves m :=
      (gather_append leaves before [m]).trans (congrArg _ (List.append_nil _))
    rw [left, run_append]
    exact told.after filed (filed.sound.change m)

/-- A plain handler that raises leaves no task behind. -/
theorem awaited_of_report {n : Nat} {r : Report} (h : Call.report? book n = some r) : Call.awaited book n = false := by
  unfold Call.report? at h
  split at h
  · rename_i recorded
    simp [Call.awaited, recorded, Handler.body?]
  · cases h

theorem call_of_report {n : Nat} {r : Report} (h : Call.report? book n = some r) : r.call = n := by
  unfold Call.report? at h
  split at h
  · cases h
    rfl
  · cases h

theorem call_of_task_report {r : Report} (h : k.report? = some r) : r.call = k.call := by
  unfold Task.report? Task.raised? at h
  split at h
  · split at h
    · cases h
      rfl
    · cases h
  · cases h

/-- Reports come in the order of what they are about. -/
theorem sublist_of_reports {α : Type} {g : α → Option Report} {f : α → Nat} (same : ∀ a r, g a = some r → r.call = f a)
    (l : List α) : ((l.filterMap g).map (·.call)).Sublist (l.map f) := by
  induction l with
  | nil => exact .slnil
  | cons a rest ih =>
    rw [List.filterMap_cons, List.map_cons]
    cases report : g a with
    | none => exact ih.cons _
    | some r =>
      rw [List.map_cons, same a r report]
      exact ih.cons_cons _

/-- **No call is reported twice.** -/
theorem Told.nodup (h : s.Told book left) (filed : s.Filed book) : (s.reports.map (·.call)).Nodup := by
  have calls : ((s.begun.filterMap (Call.report? book)).map (·.call)).Nodup := by
    refine List.Nodup.sublist (sublist_of_reports (f := id) (fun _ _ => call_of_report) s.begun) ?_
    rw [List.map_id]
    exact filed.nodup_begun
  have tasks : ((s.tasks.filterMap Task.report?).map (·.call)).Nodup :=
    List.Nodup.sublist (sublist_of_reports (f := (·.call)) (fun _ _ => call_of_task_report) s.tasks)
      (List.nodup_append.1 filed.nodup_calls).1
  rw [(h.reports.map _).nodup_iff, List.map_append, List.nodup_append]
  refine ⟨calls, tasks, fun a ha b hb same => ?_⟩
  -- A plain handler leaves no task behind.
  obtain ⟨r, hr, rfl⟩ := List.mem_map.1 ha
  obtain ⟨n, -, report⟩ := List.mem_filterMap.1 hr
  obtain ⟨r', hr', rfl⟩ := List.mem_map.1 hb
  obtain ⟨k, hk, report'⟩ := List.mem_filterMap.1 hr'
  have awaited := filed.awaited_of_mem hk
  rw [← call_of_task_report report', ← same, call_of_report report, awaited_of_report report] at awaited
  cases awaited

/-- **What is reported was raised.** -/
theorem Told.sound (h : s.Told book left) (filed : s.Filed book) {r : Report} (there : r ∈ s.reports) :
    ∃ c, book[r.call]? = some c ∧ c.handler.name = r.handler ∧ c.problem? (leftOf left r.call) = some r.problem := by
  rcases List.mem_append.1 (h.reports.mem_iff.1 there) with plain | task
  · obtain ⟨n, begun, report⟩ := List.mem_filterMap.1 plain
    unfold Call.report? at report
    split at report
    · rename_i recorded
      cases report
      exact ⟨_, recorded, rfl, rfl⟩
    · cases report
  · obtain ⟨k, hk, report⟩ := List.mem_filterMap.1 task
    obtain ⟨⟨name, kind⟩, recorded, named, body, _⟩ := filed.recorded.tasks k hk
    have stands := h.stands k hk
    unfold Task.report? Task.raised? at report
    split at report
    · split at report
      · rename_i p state
        cases report
        rw [Task.Stands, state] at stands
        exact ⟨_, recorded, named, Call.problem_of_body body stands⟩
      · cases report
    · cases report

/-- **What was raised is reported**, as soon as nothing is ready. -/
theorem Told.complete (h : s.Told book left) (filed : s.Filed book) (idle : s.ready = []) {n : Nat} {c : Call}
    {p : Problem} (spawned : n < s.spawned) (recorded : book[n]? = some c)
    (raised : c.problem? (leftOf left n) = some p) : ⟨n, c.handler.name, p⟩ ∈ s.reports := by
  refine h.reports.mem_iff.2 ?_
  obtain ⟨message, kind, rfl⟩ | ⟨body, leaves, outcome⟩ := Call.problem_cases raised
  · refine List.mem_append_left _ (List.mem_filterMap.2 ⟨n, ?_, ?_⟩)
    · exact (filed.begun_of_idle idle).mem_iff.2 (List.mem_range.2 spawned)
    · obtain ⟨⟨name, _⟩, paths⟩ := c
      obtain rfl := kind
      simp [Call.report?, recorded]
  · have awaited : Call.awaited book n = true := by simp [Call.awaited, recorded, leaves]
    have there : n ∈ s.tasks.map (·.call) := by
      rw [filed.tasks_of_idle idle]
      exact List.mem_filter.2 ⟨List.mem_range.2 spawned, awaited⟩
    obtain ⟨k, hk, rfl⟩ := List.mem_map.1 there
    obtain ⟨still, collected⟩ := filed.sound.still idle hk
    obtain ⟨handler, recorded', named, body', _⟩ := filed.recorded.tasks k hk
    obtain rfl : c = ⟨handler, k.paths⟩ := Option.some.inj (recorded.symm.trans recorded')
    obtain rfl : body = k.body := Option.some.inj (leaves.symm.trans body')
    have done := done_of_stands (h.stands k hk) still outcome
    refine List.mem_append_right _ (List.mem_filterMap.2 ⟨k, hk, ?_⟩)
    rw [Task.report?, if_pos (collected (by simp [Task.isDone, done])), Task.raised?, done, named]

end Scheduler
end DirWatch

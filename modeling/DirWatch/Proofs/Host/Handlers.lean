import DirWatch.Proofs.Host.Alone
import DirWatch.Proofs.Host.Rest

/-!
# Handlers cannot influence a watch

On the loop jobs of handlers stand before and between those of sessions. A host without handlers takes the same way: a
turn of the scheduler is nothing to it, and a turn of a session is its next turn (`turn_silenced`). As its loop has no
choice (`Runs.unique`), whatever a host may come to, its sessions and the site come to one state, whichever side goes
first and however the handlers behave (`silenced_eq_of_plays`).

This, what the session comes to by itself (`exists_deeds_of_plays`) and the calls that were made (`Tended`) are joined in
`handlers_cannot_influence`.
-/

namespace DirWatch
namespace Host

variable {h g : Host}

/-! ## Hosts without handlers -/

/-- The host with no handlers and with a scheduler that was never used. -/
def silenced (h : Host) : Host := { h with kinds := [], scheduler := {}, ready := h.ready.filter (·.isSession) }

/-- What an action says to a host without handlers. -/
def Action.unheard : Action → Action
  | .openDoor => .wait
  | a => a

section Views
variable (h : Host)

@[simp] theorem sessions_silenced : h.silenced.sessions = h.sessions := rfl

@[simp] theorem site_silenced : h.silenced.site = h.site := rfl

@[simp] theorem runs_silenced : h.silenced.runs = h.runs := rfl

@[simp] theorem hasChannel_silenced : h.silenced.hasChannel = h.hasChannel := rfl

@[simp] theorem newestRun_silenced : h.silenced.newestRun? = h.newestRun? := rfl

@[simp] theorem newestObserver_silenced : h.silenced.newestObserver? = h.newestObserver? := rfl

end Views

/-- Without handlers no call goes to the scheduler. -/
theorem foldl_spawn_of_kinds_eq_nil (none : h.kinds = []) (calls : List Dispatch) : calls.foldl spawn h = h := by
  induction calls with
  | nil => rfl
  | cons d rest ih =>
    have nothing : h.spawn d = h := by simp [spawn, none]
    rw [List.foldl_cons, nothing, ih]

theorem silenced_schedule (h : Host) (f : Scheduler → Scheduler) : (h.schedule f).silenced = h.silenced := by
  simp [silenced, schedule, Job.isSession]

/-- A session moves as it does without handlers. -/
theorem silenced_move (h : Host) (i : Nat) (s t : Session) : (h.move i s t).silenced = h.silenced.move i s t := by
  have alone : h.silenced.move i s t = { h.silenced with
      site := t.watcher.site
      sessions := h.sessions.set i t } := foldl_spawn_of_kinds_eq_nil (by rfl) _
  obtain ⟨scheduler, jobs, e⟩ := h.move_frame i s t
  rw [alone, e]
  simp [silenced, Job.isSession]

theorem silenced_enter (h : Host) (i : Nat) (f : Session → Session) :
    (h.enter i f).silenced = h.silenced.enter i f := by
  unfold enter
  rw [sessions_silenced]
  cases h.sessions[i]? with
  | none => rfl
  | some s => exact silenced_move ..

theorem silenced_push (h : Host) (i : Nat) : (h.push (.session i)).silenced = h.silenced.push (.session i) := by
  simp [silenced, push, Job.isSession]

theorem silenced_wake (h : Host) : h.wake.silenced = h.silenced.wake := by
  simp [silenced, wake, Job.isSession]

theorem silenced_advance (h : Host) (i : Nat) : (h.advance i).silenced = h.silenced.advance i := by
  unfold advance
  rw [sessions_silenced, site_silenced]
  cases h.sessions[i]? with
  | none => rfl
  | some s =>
    dsimp only
    cases (s.onSite h.site).step with
    | none => rfl
    | some t => exact (silenced_push ..).trans (congrArg (·.push (.session i)) (silenced_move ..))

/-- **A turn without handlers** is the turn of a session, or no turn at all. -/
theorem turn_silenced (t : Turn h g) : g.silenced = h.silenced ∨ h.silenced.turn? = some g.silenced := by
  cases t with
  | @handler front back j queue first =>
    refine Or.inl ((silenced_schedule _ _).trans ?_)
    simp [silenced, queue, Job.isSession]
  | @session front back i queue first =>
    refine Or.inr ?_
    have others : front.filter (·.isSession) = [] := List.filter_eq_nil_iff.2 fun j hj => by simp [first j hj]
    have ready : h.silenced.ready = .session i :: back.filter (·.isSession) := by
      rw [silenced, queue, List.filter_append, others]
      rfl
    have popped : ({ h with ready := front ++ back } : Host).silenced =
        { h.silenced with ready := back.filter (·.isSession) } := by
      simp [silenced, others]
    rw [silenced_advance, popped, turn?, ready]
    rfl

/-! ## Actions without handlers -/

theorem silenced_runSession (h : Host) (i : Nat) : (h.runSession i).silenced = h.silenced.runSession i := by
  have entered := h.silenced_enter i (·.call .run)
  unfold runSession
  rw [sessions_silenced, ← entered]
  cases h.sessions[i]? <;> rfl

theorem silenced_addSender (h : Host) (i : Nat) (a : Session.Action) :
    (h.addSender i a).silenced = h.silenced.addSender i a := by
  have entered := h.silenced_enter i (·.call a)
  unfold addSender
  rw [sessions_silenced, ← entered]
  cases h.sessions[i]? <;> rfl

/-- **What an action says does not hang on the handlers.** -/
theorem silenced_call (h : Host) (a : Action) : (h.call a).silenced = h.silenced.call a.unheard := by
  cases a with
  | watch root options handlers =>
    dsimp only [call, Action.unheard]
    cases Session.ofValues? root options handlers with
    | error e => rfl
    | ok s => exact silenced_runSession (h.addSession s) h.sessions.length
  | run => exact silenced_runSession ..
  | close => exact silenced_enter ..
  | cancel =>
    dsimp only [call, Action.unheard]
    rw [newestRun_silenced]
    cases h.newestRun? with
    | none => rfl
    | some i => exact silenced_enter ..
  | send m =>
    dsimp only [call, Action.unheard]
    rw [hasChannel_silenced]
    split
    · exact silenced_addSender ..
    · rfl
  | feed notices =>
    dsimp only [call, Action.unheard]
    rw [newestObserver_silenced]
    cases h.newestObserver? with
    | none => rfl
    | some p => exact silenced_addSender ..
  | change c => rfl
  | kill part =>
    dsimp only [call, Action.unheard]
    rw [newestObserver_silenced]
    cases h.newestObserver? with
    | none => rfl
    | some p => rfl
  | release => rfl
  | openDoor => exact silenced_schedule ..
  | wait => rfl

/-! ## One course -/

/-- What a host comes to whose loop runs the job in front. -/
inductive Runs : Host → List Action → Host → Prop
  | rest {h : Host} (idle : h.ready = []) : Runs h [] h
  | turn {h g k : Host} {actions : List Action} (e : h.turn? = some g) (later : Runs g actions k) : Runs h actions k
  | act {h k : Host} {a : Action} {actions : List Action} (idle : h.ready = [])
      (later : Runs (h.call a).wake actions k) : Runs h (a :: actions) k

/-- With nothing ready there is no turn. -/
theorem turn_of_idle (idle : h.ready = []) : h.turn? = none := by
  rw [turn?, idle]

/-- The loop that runs the job in front has no choice. -/
theorem Runs.unique {actions : List Action} {k k' : Host} (r : Runs h actions k) (r' : Runs h actions k') : k = k' := by
  induction r with
  | rest idle =>
    cases r' with
    | rest => rfl
    | turn e => cases (turn_of_idle idle).symm.trans e
  | turn e _ ih =>
    cases r' with
    | rest idle => cases (turn_of_idle idle).symm.trans e
    | turn e' later' =>
      obtain rfl := Option.some.inj (e.symm.trans e')
      exact ih later'
    | act idle => cases (turn_of_idle idle).symm.trans e
  | act idle _ ih =>
    cases r' with
    | turn e => cases (turn_of_idle idle).symm.trans e
    | act _ later' => exact ih later'

/-- **A host does the same without its handlers**, whichever side goes first. -/
theorem Plays.silenced {actions : List Action} (p : Plays h actions g) :
    Runs h.silenced (actions.map Action.unheard) g.silenced := by
  have quiet {h : Host} (idle : h.ready = []) : h.silenced.ready = [] := by simp [Host.silenced, idle]
  induction p with
  | rest idle => exact .rest (quiet idle)
  | turn t _ ih =>
    obtain same | next := turn_silenced t
    · rwa [← same]
    · exact .turn next ih
  | @act h k a actions idle _ ih =>
    rw [silenced_wake, silenced_call] at ih
    exact .act (quiet idle) ih

/-- Hosts that differ in their handlers alone come to states that differ in nothing else. -/
theorem silenced_eq_of_plays {h' g' : Host} {actions : List Action} (same : h.silenced = h'.silenced)
    (p : Plays h actions g) (p' : Plays h' actions g') : g.silenced = g'.silenced := by
  have run := p.silenced
  rw [same] at run
  exact run.unique p'.silenced

/-! ## Two hosts -/

/-- A handler that is known and spawns no other is called once. -/
def CalledOnce (kinds : List (Text × Handler.Kind)) (d : Dispatch) : Prop :=
  ∃ kind, kinds.find? (·.1 = d.handler) = some (d.handler, kind) ∧ kind ≠ .respawns

theorem callsOf_of_calledOnce {kinds : List (Text × Handler.Kind)} {d : Dispatch} (once : CalledOnce kinds d) :
    callsOf kinds d = [(d.handler, d.paths)] := by
  obtain ⟨kind, found, alone⟩ := once
  rw [callsOf, found]
  cases kind with
  | respawns => exact absurd rfl alone
  | _ => rfl

/-- **Handlers cannot influence a watch.** Two hosts make the same session on the same site and act in the same way, but
their handlers behave as `kinds` and as `kinds'` say. Their sessions, their handlers and the tasks that these leave
behind share one loop, which comes to a standstill after every action, and may let either side go first at every turn.
Whatever the two come to, they agree on the sessions with all that is in them, which are also the calls that they handed
over, on the site, on how runs and senders stand, and on what every action is answered. Unless a further watch is asked
for, the session is where it comes to by itself when it is told what the actions say, or nothing where one of them is
not heard. And whatever becomes of the sessions, no job of the handlers is left, and the calls that were made are, each
as often, those that come of the calls that were handed over: these calls themselves, as far as handlers are known and
spawn no others. -/
theorem handlers_cannot_influence (site : Site) (root : Path) (registry : Registry Text) (makerFault : Option Text)
    (options : Options) (kinds kinds' : List (Text × Handler.Kind)) (actions : List Action) :
    let fresh : Session := { root, registry, makerFault, watcher := { options } }
    let start (kinds : List (Text × Handler.Kind)) : Host := ({ site, kinds } : Host).addSession fresh
    Plays (start kinds) actions ((start kinds).acts actions) ∧
    ∀ g g', Plays (start kinds) actions g → Plays (start kinds') actions g' →
      (g.sessions = g'.sessions ∧ g.site = g'.site ∧ g.runs = g'.runs ∧ g.senderStatuses = g'.senderStatuses ∧
        ∀ a, g.reply? a = g'.reply? a) ∧
      ((∀ a ∈ actions, a.asks = false) → ∃ told : List Session.Action,
        told.Forall₂ (fun b a => b = a.inSession ∨ b = .wait) actions ∧
        ∃ s, g.sessions = [s] ∧ s.onSite g.site = (fresh.onSite site).deeds (told.map .call)) ∧
      g.ready = [] ∧ g.scheduler.made.Perm (g.handed.flatMap (callsOf kinds)) ∧
      ((∀ d ∈ g.handed, CalledOnce kinds d) →
        g.scheduler.made.Perm (g.handed.map fun d => (d.handler, d.paths))) := by
  intro fresh start
  have tended : (start kinds).Tended := .new rfl rfl rfl
  refine ⟨plays_acts tended rfl actions, fun g g' p p' => ?_⟩
  have same : g.silenced = g'.silenced := silenced_eq_of_plays (by rfl) p p'
  have agree {α : Type} (view : Host → α) : view g.silenced = view g'.silenced := congrArg view same
  have made : g.scheduler.made.Perm (g.handed.flatMap (callsOf kinds)) := by
    have kept : g.kinds = kinds := (kept_kinds kinds).plays p rfl
    exact kept ▸ (kept_tended.plays p tended).made p.idle
  refine ⟨⟨agree (·.sessions), agree (·.site), agree (·.runs), agree (·.senderStatuses), fun a => ?_⟩, fun others => ?_,
    p.idle, made, fun once => ?_⟩
  · have replies (h : Host) : h.silenced.reply? a = h.reply? a := by cases a <;> rfl
    rw [← replies g, ← replies g']
    exact agree (·.reply? a)
  · exact exists_deeds_of_plays site root registry none makerFault options kinds actions others g p
  · rw [List.map_eq_flatMap, ← List.flatMap_congr fun d hd => callsOf_of_calledOnce (once d hd)]
    exact made

/-- A handler that raises and one that stays at the door see the same watch, and each is called once although the watch
is closed. -/
theorem handlers_cannot_influence_of_raising :
    let options : Options := { pattern := ⟨"*", [.atom .star], rfl⟩ }
    let registry : Registry Text := { added := some "added" }
    let site : Site := { table := ⟨[("w", .present 0o040755 true), ("w/a", .present 0o100644 true)]⟩ }
    let start (kinds : List (Text × Handler.Kind)) : Host :=
      ({ site, kinds } : Host).addSession { root := .ofText "w", registry, watcher := { options } }
    let actions : List Action := [.run, .feed [{ type := .created, source := "w/a", isDirectory := false }], .close]
    let g := (start [("added", .raises "no")]).acts actions
    let g' := (start [("added", .task .waitsAtDoor)]).acts actions
    g.sessions = g'.sessions ∧ g.runs = [.returned] ∧ g.handed = [⟨.added, "added", ["w/a"]⟩] ∧
      g.scheduler.made = [(("added", ["w/a"]) : Text × List Text)] ∧ g'.scheduler.made = g.scheduler.made := by
  intro options registry site start actions g g'
  obtain ⟨p, agree⟩ := handlers_cannot_influence site (.ofText "w") registry none options
    [("added", .raises "no")] [("added", .task .waitsAtDoor)] actions
  obtain ⟨p', agree'⟩ := handlers_cannot_influence site (.ofText "w") registry none options
    [("added", .task .waitsAtDoor)] [("added", .raises "no")] actions
  obtain ⟨⟨sessions, _⟩, _, _, _, made⟩ := agree g g' p p'
  obtain ⟨_, _, _, _, made'⟩ := agree' g' g p' p
  have calls : g.handed = [⟨.added, "added", ["w/a"]⟩] := by decide +kernel
  have calls' : g'.handed = g.handed := by rw [handed, handed, sessions]
  have once (kind : Handler.Kind) (alone : kind ≠ .respawns) : ∀ d ∈ g.handed, CalledOnce [("added", kind)] d := by
    intro d hd
    rw [calls] at hd
    obtain rfl := List.mem_singleton.1 hd
    exact ⟨kind, rfl, alone⟩
  rw [calls'] at made'
  have made := made (once _ (by decide))
  have made' := made' (once _ (by decide))
  rw [calls] at made made'
  have here := List.perm_singleton.1 made
  exact ⟨sessions, by decide +kernel, calls, here, (List.perm_singleton.1 made').trans here.symm⟩

end Host
end DirWatch

import DirWatch.Proofs.Settling
import DirWatch.Proofs.Channel.Order
import DirWatch.Proofs.Watcher.Echoes
import DirWatch.Proofs.Watcher.Lifecycle

/-!
# What handlers hear and send

A handler hears in some of the moves of a watcher (`hearing?`). Nothing else changes what it remembers (`unheard_call`,
`hears_step`), so along a history its memory is that of what it heard (`echo_of_isChain`).

- **What reaches the channel** from a handler is what it hears but for the echoes, in order and once each, whatever
  becomes of the sends (`handed_eq_forwarded`).
-/

namespace DirWatch

/-! ## The handlers of a site -/

namespace Site

/-- What the handler of observer `i` remembers. -/
def echo (s : Site) (i : Nat) : Echo := (s.observers[i]?.map (·.echo)).getD {}

/-- A site later on: no observer is gone, and no handler heard anything. -/
structure Unheard (s t : Site) : Prop where
  echo : t.echo = s.echo
  length : s.observers.length ≤ t.observers.length

theorem Unheard.refl (s : Site) : s.Unheard s := ⟨rfl, Nat.le_refl _⟩

theorem Unheard.trans {s t u : Site} (h : s.Unheard t) (k : t.Unheard u) : s.Unheard u :=
  ⟨k.echo.trans h.echo, Nat.le_trans h.length k.length⟩

/-- Handlers belong to observers. -/
theorem Unheard.same {s t u : Site} (h : s.Unheard t) (e : u.observers = t.observers) : s.Unheard u :=
  ⟨by rw [← h.echo]; exact funext fun i => by rw [Site.echo, e, Site.echo], by rw [e]; exact h.length⟩

theorem echo_update (s : Site) (i : Nat) (f : Observer → Observer) (j : Nat) :
    (s.update i f).echo j = (s.observers[j]?.map fun o => if i = j then (f o).echo else o.echo).getD {} := by
  unfold echo update
  rw [List.getElem?_modify]
  cases s.observers[j]? with
  | none => rfl
  | some o =>
    simp only [Option.map_eq_map, Option.map_some]
    split <;> rfl

theorem unheard_update (s : Site) (i : Nat) (f : Observer → Observer) (h : ∀ o, (f o).echo = o.echo) :
    s.Unheard (s.update i f) := by
  refine ⟨funext fun j => ?_, by simp [update]⟩
  rw [echo_update]
  simp only [h, ite_self]
  rfl

theorem unheard_create (s : Site) (t : Technique) (owner : Nat) (interval : Option Nat) :
    s.Unheard (s.create t owner interval) := by
  refine ⟨funext fun j => ?_, by simp [create, record]⟩
  show (((s.observers ++ [({ technique := t, owner } : Observer)])[j]?).map (·.echo)).getD {} = s.echo j
  unfold echo
  rcases Nat.lt_trichotomy j s.observers.length with lt | rfl | gt
  · rw [List.getElem?_append_left lt]
  · simp
  · rw [List.getElem?_eq_none (by rw [List.length_append]; exact gt), List.getElem?_eq_none (Nat.le_of_lt gt)]

theorem unheard_schedule (s : Site) (t : Technique) (i : Nat) (root : Path) (recursive : Bool) :
    s.Unheard (s.schedule t i root recursive).1 := by
  unfold schedule
  dsimp only
  split
  · exact (Unheard.refl s).same rfl
  · exact (unheard_update s i (fun o => { o with listening := true, emitting := true }) fun _ => rfl).same rfl

theorem unheard_start (s : Site) (t : Technique) (i : Nat) : s.Unheard (s.start t i).1 := by
  unfold start
  dsimp only
  split
  · exact (Unheard.refl s).same rfl
  · exact (unheard_update s i (fun o => { o with started := true }) fun _ => rfl).same rfl

theorem unheard_launch (s : Site) (t : Technique) (i : Nat) (root : Path) (recursive : Bool) :
    s.Unheard (s.launch t i root recursive).1 := by
  have scheduled := unheard_schedule s t i root recursive
  unfold launch
  split
  · rename_i e
    rwa [e] at scheduled
  · rename_i u e
    rw [e] at scheduled
    refine scheduled.trans ?_
    unfold startAtGate
    split
    · exact (Unheard.refl u).same rfl
    · have recorded : u.Unheard (u.record i .start) := (Unheard.refl u).same rfl
      exact recorded.trans (unheard_start (u.record i .start) t i)

theorem unheard_unscheduleAll (s : Site) (i : Nat) : s.Unheard (s.unscheduleAll i) :=
  (unheard_update s i (fun o => { o with emitting := false }) fun _ => rfl).same rfl

theorem unheard_shutDown (s : Site) (i : Nat) : s.Unheard (s.shutDown i) := (unheard_unscheduleAll s i).same rfl

theorem unheard_kill (s : Site) (i : Nat) (part : Observer.Part) : s.Unheard (s.kill i part) := by
  cases part with
  | observer => exact unheard_update s i (fun o => { o with dead := true }) fun _ => rfl
  | emitter => exact unheard_update s i (fun o => { o with emitterDead := true }) fun _ => rfl

/-- What hearing a notice does to the handlers, and whether the notice is dropped. -/
theorem hear_spec {s : Site} {i : Nat} (h : i < s.observers.length) (n : Notice) :
    (∀ j, (s.hear i n).1.echo j = if i = j then ((s.echo i).hear n).1 else s.echo j) ∧
      (s.hear i n).2 = ((s.echo i).hear n).2 ∧ (s.hear i n).1.observers.length = s.observers.length := by
  have found := List.getElem?_eq_getElem h
  unfold hear
  rw [found]
  refine ⟨fun j => ?_, by simp [echo, found], by simp [update]⟩
  rw [echo_update]
  split
  · rename_i e
    subst e
    simp [echo, found]
  · rfl

/-- The newest observer is one of the site. -/
theorem lt_of_newest {s : Site} {i : Nat} (h : s.newest? = some i) : i < s.observers.length := by
  unfold newest? at h
  obtain ⟨⟨o, j⟩, last, rfl⟩ := Option.map_eq_some_iff.1 h
  have listed := (List.mem_filter.1 (List.mem_of_getLast? last)).1
  exact (List.mem_zipIdx' listed).1

end Site

namespace Watcher

open Channel (Push)

/-! ## What starting lets handlers hear -/

variable {s : Site} {w : Watcher}

theorem unheard_publish (h : s.Unheard w.site) (i : Nat) : s.Unheard (w.publish i).site := by
  unfold publish
  split
  · exact h.trans (Site.unheard_shutDown w.site i)
  · exact h

theorem unheard_giveUp (h : s.Unheard w.site) (i : Nat) (root : Path) (e : OsError) :
    s.Unheard (w.giveUp i root e).site := h.trans (Site.unheard_unscheduleAll w.site i)

theorem unheard_concludePolling (h : s.Unheard w.site) (i : Nat) (root : Path) (recursive : Bool) (outcome : Launch) :
    s.Unheard (w.concludePolling i root recursive outcome).site := by
  unfold concludePolling
  split
  · exact unheard_publish h i
  · exact h
  · exact h
  · exact unheard_giveUp h i root _

theorem unheard_startPolling (h : s.Unheard w.site) (root : Path) (recursive : Bool) :
    s.Unheard (w.startPolling root recursive).site := by
  unfold startPolling
  split
  · exact h
  · refine unheard_concludePolling ?_ _ root recursive _
    exact h.trans ((Site.unheard_create ..).trans (Site.unheard_launch ..))

theorem unheard_concludeNative (h : s.Unheard w.site) (i : Nat) (root : Path) (recursive : Bool) (outcome : Launch) :
    s.Unheard (w.concludeNative i root recursive outcome).site := by
  unfold concludeNative
  split
  · exact unheard_publish h i
  · exact h
  · exact h
  · have dropped := h.trans (Site.unheard_unscheduleAll w.site i)
    dsimp only
    split
    · exact dropped
    · exact dropped
    · refine unheard_startPolling ?_ root recursive
      exact dropped

/-- Starting lets no handler hear anything. -/
theorem unheard_start (w : Watcher) (root : Path) (recursive : Bool) :
    w.site.Unheard (w.start root recursive).site := by
  unfold start
  split
  · dsimp only
    split
    · exact .refl _
    · split
      · refine unheard_startPolling ?_ root recursive
        exact .refl _
      · refine unheard_concludeNative ?_ _ root recursive _
        exact (Site.unheard_create ..).trans (Site.unheard_launch ..)
  · exact .refl _

theorem unheard_passGate (w : Watcher) (waiting : Waiting) : w.site.Unheard (w.passGate waiting).site := by
  have started := Site.unheard_start w.site waiting.technique waiting.observer
  unfold passGate
  dsimp only
  split
  · refine unheard_concludeNative ?_ _ _ _ _
    exact started
  · refine unheard_concludePolling ?_ _ _ _ _
    exact started

/-! ## Hearings -/

end Watcher

namespace Sender

/-- The observer whose handler a sender feeds. -/
def observer? : Sender → Option Nat
  | .single _ => none
  | .feed i _ _ _ => some i

/-- The handler that a sender lets hear next, by its observer, and what; a sender that waits lets none hear. -/
def next? (c : Channel Message) : Sender → Option (Nat × Notice)
  | .feed i _ send (n :: _) => if Watcher.isFree c send then some (i, n) else none
  | _ => none

theorem next_eq_none {c : Channel Message} {x : Sender} (h : ∀ i total send n ns, x ≠ .feed i total send (n :: ns)) :
    x.next? c = none := by
  cases x with
  | single => rfl
  | feed i total send notices =>
    cases notices with
    | nil => rfl
    | cons n ns => exact absurd rfl (h i total send n ns)

end Sender

namespace Watcher

open Channel (Push)

variable {w v : Watcher}

/-- The handler that hears in the next move of a watcher, by its observer, and what it hears, if a handler does. -/
def hearing? (w : Watcher) : Option (Nat × Notice) :=
  if w.channel.step.isNone && w.passGate?.isNone then w.senders.findSome? (·.next? w.channel) else none

theorem findSome_next_eq_none {site : Site} {c : Channel Message} {ss : List Sender} (h : hearNext? site c ss = none) :
    ss.findSome? (·.next? c) = none := by
  fun_induction hearNext? site c ss with
  | case1 => rfl
  | case2 => cases h
  | case3 => cases h
  | case4 i total send n ns others blocked ih =>
    rw [List.findSome?_cons, Sender.next?, if_neg blocked]
    exact ih (Option.map_eq_none_iff.1 h)
  | case5 x others other ih =>
    rw [List.findSome?_cons, Sender.next_eq_none other]
    exact ih (Option.map_eq_none_iff.1 h)

/-- **A handler that hears** what its sender hands over drops it or sends it, converted; the senders feed on. -/
theorem findSome_next_of_hearNext {site : Site} {c : Channel Message} {ss : List Sender}
    {r : Site × Channel Message × List Sender} (h : hearNext? site c ss = some r) :
    ∃ i n, ss.findSome? (·.next? c) = some (i, n) ∧ some i ∈ ss.map Sender.observer? ∧ r.1 = (site.hear i n).1 ∧
      r.2.1 = (if (site.hear i n).2 then c else c.submit (.event n.toEvent)) ∧
      r.2.2.map Sender.observer? = ss.map Sender.observer? := by
  fun_induction hearNext? site c ss generalizing r with
  | case1 => cases h
  | case2 i total send n ns others free site' heard =>
    cases h
    have next : (Sender.feed i total send (n :: ns)).next? c = some (i, n) := if_pos free
    exact ⟨i, n, by rw [List.findSome?_cons, next], by simp [Sender.observer?], by rw [heard], by rw [heard]; rfl, rfl⟩
  | case3 i total send n ns others free site' heard =>
    cases h
    have next : (Sender.feed i total send (n :: ns)).next? c = some (i, n) := if_pos free
    exact ⟨i, n, by rw [List.findSome?_cons, next], by simp [Sender.observer?], by rw [heard], by rw [heard]; rfl, rfl⟩
  | case4 i total send n ns others blocked ih =>
    obtain ⟨q, hq, rfl⟩ := Option.map_eq_some_iff.1 h
    obtain ⟨j, m, next, fed, site, channel, senders⟩ := ih hq
    have waits : (Sender.feed i total send (n :: ns)).next? c = none := if_neg blocked
    exact ⟨j, m, by rw [List.findSome?_cons, waits, next], List.mem_cons_of_mem _ fed, site, channel,
      congrArg (_ :: ·) senders⟩
  | case5 x others other ih =>
    obtain ⟨q, hq, rfl⟩ := Option.map_eq_some_iff.1 h
    obtain ⟨j, m, next, fed, site, channel, senders⟩ := ih hq
    exact ⟨j, m, by rw [List.findSome?_cons, Sender.next_eq_none other, next], List.mem_cons_of_mem _ fed, site,
      channel, congrArg (_ :: ·) senders⟩

/-- Senders feed handlers of observers that there are. -/
def Fed (w : Watcher) : Prop := ∀ i, some i ∈ w.senders.map Sender.observer? → i < w.site.observers.length

/-- What one state of a watcher says of the next: a handler hears, which drops what is an echo to it and sends the rest,
or the handlers stay as they are. -/
def Hears (w v : Watcher) : Prop :=
  match w.hearing? with
  | none => v.site.echo = w.site.echo
  | some (i, n) => (∀ j, v.site.echo j = if i = j then ((w.site.echo i).hear n).1 else w.site.echo j) ∧
      v.channel = if ((w.site.echo i).hear n).2 then w.channel else w.channel.submit (.event n.toEvent)

theorem hears_of_none (none : w.hearing? = none) (echo : v.site.echo = w.site.echo) : Hears w v := by
  unfold Hears
  rw [none]
  exact echo

theorem hearing_of_still (rest : w.step = none) : w.hearing? = none := by
  have silent := (still_of_step_eq_none rest).2.2.1
  unfold hearing?
  split
  · exact findSome_next_eq_none (Option.map_eq_none_iff.1 silent)
  · rfl

/-- **One move**: a handler hears, or all stay as they are. -/
theorem hears_step (fed : Fed w) (h : w.step = some v) : Hears w v ∧ Fed v := by
  unfold step at h
  cases hc : w.channel.step with
  | some channel =>
    rw [hc] at h
    cases h
    exact ⟨hears_of_none (by simp [hearing?, hc]) rfl, fed⟩
  | none =>
    cases hg : w.passGate? with
    | some u =>
      rw [hc, hg] at h
      cases h
      have none : w.hearing? = none := by simp [hearing?, hg]
      unfold passGate? at hg
      split at hg
      · obtain ⟨x, -, rfl⟩ := Option.map_eq_some_iff.1 hg
        have unheard := unheard_passGate w x
        refine ⟨hears_of_none none unheard.echo, fun i hi => ?_⟩
        rw [(spared_passGate w x).senders] at hi
        exact Nat.lt_of_lt_of_le (fed i hi) unheard.length
      · cases hg
    | none =>
      have hearing : w.hearing? = w.senders.findSome? (·.next? w.channel) := by simp [hearing?, hc, hg]
      cases hh : w.hear? with
      | some u =>
        rw [hc, hg, hh] at h
        cases h
        obtain ⟨r, hr, rfl⟩ := Option.map_eq_some_iff.1 hh
        obtain ⟨i, n, next, listed, site, channel, senders⟩ := findSome_next_of_hearNext hr
        obtain ⟨echo, dropped, length⟩ := Site.hear_spec (fed i listed) n
        refine ⟨?_, fun j hj => ?_⟩
        · unfold Hears
          rw [hearing, next]
          exact ⟨fun j => by rw [site, echo], by rw [channel, dropped]⟩
        · rw [senders] at hj
          rw [site, length]
          exact fed j hj
      | none =>
        have none : w.hearing? = none := by
          rw [hearing]
          exact findSome_next_eq_none (Option.map_eq_none_iff.1 hh)
        rw [hc, hg, hh] at h
        have report : w.report? = some v := h
        unfold report? at report
        split at report
        · obtain ⟨part, -, rfl⟩ := Option.map_eq_some_iff.1 report
          exact ⟨hears_of_none none rfl, fed⟩
        · cases report

/-- No call lets a handler hear anything. -/
theorem unheard_call (w : Watcher) (a : Action) : w.site.Unheard (w.call a).site := by
  cases a with
  | start root recursive => exact unheard_start w root recursive
  | stop =>
    show w.site.Unheard w.stop.site
    unfold Watcher.stop
    cases w.current with
    | none => exact .refl _
    | some i => exact Site.unheard_shutDown w.site i
  | feed notices =>
    unfold call
    dsimp only
    split <;> exact .refl _
  | change c => exact (Site.Unheard.refl _).same rfl
  | kill part =>
    unfold call
    dsimp only
    split
    · exact .refl _
    · exact Site.unheard_kill ..
  | release => exact (Site.Unheard.refl _).same rfl
  | _ => exact .refl _

/-- A call may add a sender, which feeds the newest observer. -/
theorem Fed.call (fed : Fed w) (a : Action) : Fed (w.call a) := by
  have unheard := unheard_call w a
  suffices listed : ∀ i, some i ∈ (w.call a).senders.map Sender.observer? →
      some i ∈ w.senders.map Sender.observer? ∨ w.site.newest? = some i by
    intro i hi
    refine Nat.lt_of_lt_of_le ?_ unheard.length
    rcases listed i hi with old | newest
    · exact fed i old
    · exact Site.lt_of_newest newest
  intro i hi
  cases a with
  | start root recursive =>
    rw [Watcher.call, (spared_start w root recursive).senders] at hi
    exact Or.inl hi
  | send m =>
    simp only [Watcher.call, Watcher.send, List.map_append, List.mem_append] at hi
    exact hi.imp id fun added => by simp [Sender.observer?] at added
  | feed notices =>
    unfold Watcher.call at hi
    dsimp only at hi
    split at hi
    · exact Or.inl hi
    · rename_i j newest
      simp only [Watcher.feed, List.map_append, List.mem_append] at hi
      refine hi.imp id fun added => ?_
      obtain rfl : i = j := by simpa [Sender.observer?] using added
      exact newest
  | kill part =>
    unfold Watcher.call at hi
    dsimp only at hi
    split at hi <;> exact Or.inl hi
  | _ => exact Or.inl hi

/-! ## Histories -/

/-- The states that a history passes. -/
def passed (w : Watcher) (actions : List Action) : List Watcher := passing call step load w actions

theorem getLast?_passed (w : Watcher) (actions : List Action) :
    (w :: w.passed actions).getLast? = some (w.run actions) := getLast?_passing w actions

/-- What the handler of observer `i` hears in the moves of some states. -/
def heard (i : Nat) (states : List Watcher) : List Notice :=
  states.filterMap fun w => w.hearing?.bind fun h => if h.1 = i then some h.2 else none

/-- What is sent on the way through some states by the moves in which the handler of observer `i` hears. -/
def handed (i : Nat) : List Watcher → List Message
  | w :: v :: rest =>
    (if w.hearing?.map (·.1) = some i then v.channel.submitted.drop w.channel.submitted.length else []) ++
      handed i (v :: rest)
  | _ => []

variable {i : Nat} {n : Notice} {past : List Notice}

theorem heard_append (front back : List Watcher) : heard i (front ++ back) = heard i front ++ heard i back :=
  List.filterMap_append

theorem heard_of_hearing (h : w.hearing? = some (i, n)) : heard i [w] = [n] := by simp [heard, h]

theorem heard_of_other (h : w.hearing?.map (·.1) ≠ some i) : heard i [w] = [] := by
  unfold heard
  cases e : w.hearing? with
  | none => simp [e]
  | some x =>
    rw [e] at h
    have other : x.1 ≠ i := fun same => h (congrArg some same)
    simp [e, other]

/-- The memory goes on with what is heard. -/
theorem Hears.echo (edge : Hears w v) (echo : w.site.echo i = Echo.after past) :
    v.site.echo i = Echo.after (past ++ heard i [w]) := by
  unfold Hears at edge
  by_cases own : w.hearing?.map (·.1) = some i
  · obtain ⟨⟨j, n⟩, hearing, rfl⟩ := Option.map_eq_some_iff.1 own
    rw [hearing] at edge
    rw [heard_of_hearing hearing, Echo.after_concat, ← echo]
    exact (edge.1 j).trans (if_pos rfl)
  · rw [heard_of_other own, List.append_nil, ← echo]
    cases hearing : w.hearing? with
    | none =>
      rw [hearing] at edge
      exact congrFun edge i
    | some x =>
      rw [hearing] at edge own
      exact (edge.1 i).trans (if_neg fun same => own (congrArg some same))

theorem submitted_submit (c : Channel Message) (m : Message) : (c.submit m).submitted = c.submitted ++ [m] :=
  Channel.submitted_call c (.submit m)

/-- **A move in which a handler hears a notice** sends it converted, unless it is an echo. -/
theorem Hears.sent (edge : Hears w v) (hearing : w.hearing? = some (i, n)) (echo : w.site.echo i = Echo.after past) :
    v.channel.submitted = w.channel.submitted ++ if n.IsEcho past then [] else [.event n.toEvent] := by
  unfold Hears at edge
  rw [hearing] at edge
  obtain ⟨-, sent⟩ := edge
  rw [echo] at sent
  by_cases isEcho : n.IsEcho past
  · rw [if_pos (Echo.dropped_after_iff.2 isEcho)] at sent
    rw [sent, if_pos isEcho, List.append_nil]
  · rw [if_neg fun dropped => isEcho (Echo.dropped_after_iff.1 dropped)] at sent
    rw [sent, if_neg isEcho, submitted_submit]

/-- The memory in any state that is passed. -/
theorem echo_of_isChain {before after : List Watcher} (chain : (before ++ w :: after).IsChain Hears)
    (first : ∀ u ∈ (before ++ w :: after).head?, u.site.echo i = Echo.after []) :
    w.site.echo i = Echo.after (heard i before) := by
  induction before using List.reverseRecOn generalizing w after with
  | nil => exact first w rfl
  | append_singleton before u ih =>
    rw [List.append_assoc, List.singleton_append] at chain first
    have edge : Hears u w := (List.isChain_cons_cons.1 chain.right_of_append).1
    rw [heard_append]
    exact edge.echo (ih chain first)

/-- **What a handler sends of what it hears**: all but the echoes. -/
theorem handed_of_isChain {ws : List Watcher} (chain : (w :: ws).IsChain Hears)
    (silent : ∀ u ∈ (w :: ws).getLast?, u.hearing? = none) (echo : w.site.echo i = Echo.after past) :
    handed i (w :: ws) = (Notice.forwarded past (heard i (w :: ws))).map fun n => .event n.toEvent := by
  induction ws generalizing w past with
  | nil =>
    have none : w.hearing? = none := silent w rfl
    simp [handed, heard, none, Notice.forwarded]
  | cons v rest ih =>
    obtain ⟨edge, chain⟩ := List.isChain_cons_cons.1 chain
    rw [List.getLast?_cons_cons] at silent
    have later := ih chain silent (edge.echo echo)
    have heard_first : heard i (w :: v :: rest) = heard i [w] ++ heard i (v :: rest) := heard_append [w] (v :: rest)
    rw [handed, later, heard_first]
    by_cases own : w.hearing?.map (·.1) = some i
    · obtain ⟨⟨j, n⟩, hearing, rfl⟩ := Option.map_eq_some_iff.1 own
      rw [if_pos own, heard_of_hearing hearing, List.singleton_append, Notice.forwarded, List.map_append,
        edge.sent hearing echo, List.drop_left]
      split <;> rfl
    · rw [if_neg own, heard_of_other own, List.append_nil, List.nil_append, List.nil_append]

/-- **Echoes of touched directories.** Whatever happens to a new watcher, and whatever becomes of its sends, a handler
sends what it hears but for the echoes, converted, in order and once each: when it hears a notice, it sends that unless
it is an echo by what was heard before. So it drops the modification of a directory just when the directory was touched
since its last modification, or ever if there was none; how often it was touched does not matter. -/
theorem handed_eq_forwarded (options : Options) (number : Nat) (channel : Channel Message) (table : FileTable)
    (native polling : Behaviour) (gateOpen : Bool) (actions : List Action) (i : Nat) :
    let new : Watcher := { options, number, channel, site := { table, native, polling, gateOpen } }
    let states := new :: new.passed actions
    (handed i states = (Notice.forwarded [] (heard i states)).map fun n => .event n.toEvent) ∧
      ∀ before w v after n, states = before ++ w :: v :: after → w.hearing? = some (i, n) →
        (v.channel.submitted =
          w.channel.submitted ++ if n.IsEcho (heard i before) then [] else [.event n.toEvent]) ∧
        ∀ front between : List Notice, heard i before = front ++ between → n.Modifies n.source →
          (∀ m ∈ front.getLast?, m.Modifies n.source) → (∀ m ∈ between, ¬m.Modifies n.source) →
            (v.channel.submitted = w.channel.submitted ↔ ∃ m ∈ between, m.Touches n.source) := by
  intro new states
  have chain : states.IsChain Hears :=
    isChain_passing (Q := fun w => Fed w ∧ w.hearing? = none) (fun _ _ => load_step) (fun _ a h => h.1.call a)
      (fun _ _ fed e => (hears_step fed e).2) (fun _ fed rest => ⟨fed, hearing_of_still rest⟩)
      (fun w a h => hears_of_none h.2 (unheard_call w a).echo) (fun _ _ fed e => (hears_step fed e).1)
      ⟨fun i hi => by simp [new] at hi, by simp [hearing?, new]⟩ actions
  have silent : ∀ u ∈ states.getLast?, u.hearing? = none := by
    intro u hu
    obtain rfl : new.run actions = u := by
      rw [getLast?_passed] at hu
      exact Option.some.inj hu
    by_cases none : actions = []
    · rw [none]
      simp [run, hearing?, new]
    · exact hearing_of_still (step_run none new)
  refine ⟨handed_of_isChain chain silent rfl, fun before w v after n e hearing => ?_⟩
  have echo : w.site.echo i = Echo.after (heard i before) := by
    refine echo_of_isChain (e ▸ chain) fun u hu => ?_
    rw [← e] at hu
    cases hu
    rfl
  rw [e] at chain
  have edge : Hears w v := (List.isChain_cons_cons.1 chain.right_of_append).1
  have sent := edge.sent hearing echo
  refine ⟨sent, fun front between past modifies last since => ?_⟩
  have touched := Notice.isEcho_since_iff last since
  rw [and_iff_right modifies, ← past] at touched
  rw [sent, ← touched]
  by_cases isEcho : n.IsEcho (heard i before)
  · simp [isEcho]
  · simp [isEcho]

/-- Two touches of a directory make one echo. -/
example :
    let options : Options := { pattern := ⟨"*", [.atom .star], rfl⟩ }
    let site : Site := { table := ⟨[("w", .present 16877 true)]⟩ }
    let created : Notice := { type := .created, source := "w/a" }
    let closed : Notice := { type := .closed, source := "w/a" }
    let modified : Notice := { type := .modified, source := "w", isDirectory := true }
    let w := Watcher.run { options, site, channel := { capacity := 0 } }
      [.start (.ofText "w") false, .feed [created, closed, modified, modified]]
    w.channel.submitted = [.event created.toEvent, .event closed.toEvent, .event modified.toEvent] := by decide

end Watcher
end DirWatch

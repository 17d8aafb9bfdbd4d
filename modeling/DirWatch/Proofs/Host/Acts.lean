import DirWatch.Proofs.Host.Loop
import DirWatch.Proofs.Options.Building

/-!
# Histories of hosts

Whatever a host does, it adds a session, makes a call on one of its sessions, opens the door for its handlers, wakes its
sessions, lets the loop turn, or changes something around them. What all of these keep, every history keeps
(`Kept.acts`, `Kept.plays`); what all but the first keep lasts as long as no further watch is asked for
(`Lasting.acts`). Properties of the sessions alone are kept when their calls and their moves keep them
(`Kept.of_sessions`).

- **Reading the values of a watch**: the root, the options and the handlers make a session, in this order
  (`Session.ofValues_eq`).
-/

namespace DirWatch

/-! ## Sessions that are asked for -/

namespace Session

/-- The root that a host value gives. -/
def rootOf? : Value → Except Failure Path
  | .text t => .ok (Path.ofText t)
  | .path p => .ok p
  | v => .error (.config (.rootNotText v.typeName))

/-- The session for a watch that is about to be run. -/
def fresh (root : Path) (options : Options) (registry : Registry Text) : Session :=
  { root, registry, watcher := { options } }

/-- A session for a watch needs its root, its options and its handlers, in this order. -/
theorem ofValues_eq (root options handlers : Value) : ofValues? root options handlers =
    rootOf? root >>= fun path => Options.ofValue? options >>= fun options =>
      Registry.ofValue? handlers >>= fun registry => .ok (fresh path options registry) := by
  cases root <;> rfl

/-- The session for a watch is fresh. -/
theorem fresh_of_ofValues {root options handlers : Value} {s : Session} (h : ofValues? root options handlers = .ok s) :
    ∃ path options registry, s = fresh path options registry := by
  rw [ofValues_eq] at h
  obtain ⟨path, _, h⟩ := exists_of_bind_eq_ok h
  obtain ⟨options, _, h⟩ := exists_of_bind_eq_ok h
  obtain ⟨registry, _, h⟩ := exists_of_bind_eq_ok h
  cases h
  exact ⟨path, options, registry, rfl⟩

end Session

namespace Host

/-! ## What every history keeps -/

/-- Does what actions say, in order. -/
def acts (h : Host) (actions : List Action) : Host := actions.foldl act h

/-- Whether an action asks for a watch. -/
def Action.asks : Action → Bool
  | .watch _ _ _ => true
  | _ => false

/-- What keeps a property of hosts that ask for no further watch. -/
structure Lasting (P : Host → Prop) : Prop where
  /-- The site, the senders and new attempts do not matter. -/
  around : ∀ {h g : Host}, P h → g.sessions = h.sessions → g.kinds = h.kinds → g.scheduler = h.scheduler →
    g.ready = h.ready → h.attempts <+: g.attempts → P g
  wake : ∀ {h : Host}, P h → P h.wake
  openDoor : ∀ {h : Host}, P h → P (h.schedule (·.openDoor))
  move_call : ∀ {h : Host} {i : Nat} {s : Session} (a : Session.Action), P h → h.sessions[i]? = some s →
    P (h.move i s ((s.onSite h.site).call a))
  turn : ∀ {h g : Host}, P h → Turn h g → P g

/-- What keeps a property of hosts. -/
structure Kept (P : Host → Prop) : Prop extends Lasting P where
  addSession : ∀ {h : Host} (root : Path) (options : Options) (registry : Registry Text), P h →
    P (h.addSession (.fresh root options registry))

namespace Lasting

variable {P : Host → Prop} {h : Host}

theorem enter_call (k : Lasting P) (i : Nat) (a : Session.Action) (holds : P h) : P (h.enter i (·.call a)) := by
  cases hi : h.sessions[i]? with
  | none => rwa [enter_eq_self hi]
  | some s =>
    rw [enter_eq hi]
    exact k.move_call a holds hi

theorem runSession (k : Lasting P) (i : Nat) (holds : P h) : P (h.runSession i) := by
  unfold Host.runSession
  cases hi : h.sessions[i]? with
  | none => exact holds
  | some s =>
    refine k.around (k.enter_call i .run holds) rfl rfl rfl rfl ?_
    rw [enter_eq hi, attempts_move]
    exact List.prefix_append ..

theorem addSender (k : Lasting P) (i : Nat) (a : Session.Action) (holds : P h) : P (h.addSender i a) := by
  unfold Host.addSender
  split
  · exact holds
  · exact k.around (k.enter_call i a holds) rfl rfl rfl rfl (List.prefix_refl _)

/-- What an action says keeps the property, unless it asks for a watch. -/
theorem call (k : Lasting P) {a : Action} (other : a.asks = false) (holds : P h) : P (h.call a) := by
  cases a with
  | watch root options handlers => cases other
  | run => exact k.runSession _ holds
  | close => exact k.enter_call _ .close holds
  | cancel =>
    dsimp only [Host.call]
    split
    · exact holds
    · exact k.enter_call _ .cancel holds
  | send m =>
    dsimp only [Host.call]
    split
    · exact k.addSender _ _ holds
    · exact holds
  | feed notices =>
    dsimp only [Host.call]
    split
    · exact holds
    · exact k.addSender _ _ holds
  | change c => exact k.around holds rfl rfl rfl rfl (List.prefix_refl _)
  | kill part =>
    dsimp only [Host.call]
    split
    · exact holds
    · exact k.around holds rfl rfl rfl rfl (List.prefix_refl _)
  | release => exact k.around holds rfl rfl rfl rfl (List.prefix_refl _)
  | openDoor => exact k.openDoor holds
  | wait => exact holds

/-- Coming to rest keeps the property. -/
theorem rest (k : Lasting P) (holds : P h) : P h.rest :=
  settle_induction (fun _ _ holds e => k.turn holds (turn_of_turn e)) _ _ holds

/-- **What lasts holds after every history that asks for no further watch.** -/
theorem acts (k : Lasting P) (holds : P h) {actions : List Action} (others : ∀ a ∈ actions, a.asks = false) :
    P (h.acts actions) := by
  unfold Host.acts
  induction actions generalizing h with
  | nil => exact holds
  | cons a later ih =>
    exact ih (k.rest (k.wake (k.call (others a List.mem_cons_self) holds)))
      fun b hb => others b (List.mem_cons_of_mem a hb)

end Lasting

namespace Kept

variable {P : Host → Prop} {h g : Host}

/-- What an action says keeps the property. -/
theorem call (k : Kept P) (a : Action) (holds : P h) : P (h.call a) := by
  cases asked : a.asks with
  | false => exact k.toLasting.call asked holds
  | true =>
    cases a with
    | watch root options handlers =>
      dsimp only [Host.call]
      cases made : Session.ofValues? root options handlers with
      | error e => exact k.around holds rfl rfl rfl rfl (List.prefix_append ..)
      | ok s =>
        obtain ⟨path, options, registry, rfl⟩ := Session.fresh_of_ofValues made
        exact k.toLasting.runSession _ (k.addSession path options registry holds)
    | _ => cases asked

/-- **What is kept holds after every history.** -/
theorem acts (k : Kept P) (holds : P h) (actions : List Action) : P (h.acts actions) := by
  unfold Host.acts
  induction actions generalizing h with
  | nil => exact holds
  | cons a later ih => exact ih (k.toLasting.rest (k.wake (k.call a holds)))

/-- **What is kept holds however the loop turns.** -/
theorem plays (k : Kept P) {actions : List Action} (p : Plays h actions g) (holds : P h) : P g := by
  induction p with
  | rest _ => exact holds
  | turn t _ ih => exact ih (k.turn holds t)
  | act _ _ ih => exact ih (k.wake (k.call _ holds))

/-- What holds of hosts by their sessions is kept when calls and moves of sessions keep it. -/
theorem of_sessions
    (same : ∀ {h g : Host}, P h → g.sessions = h.sessions → g.kinds = h.kinds → h.attempts <+: g.attempts → P g)
    (move_call : ∀ {h : Host} {i : Nat} {s : Session} (a : Session.Action), P h → h.sessions[i]? = some s →
      P (h.move i s ((s.onSite h.site).call a)))
    (move_step : ∀ {h : Host} {i : Nat} {s t : Session}, P h → h.sessions[i]? = some s →
      (s.onSite h.site).step = some t → P (h.move i s t))
    (addSession : ∀ {h : Host} (root : Path) (options : Options) (registry : Registry Text), P h →
      P (h.addSession (.fresh root options registry))) : Kept P where
  around holds sessions kinds _ _ attempts := same holds sessions kinds attempts
  wake holds := same holds rfl rfl (List.prefix_refl _)
  openDoor holds := same holds rfl rfl (List.prefix_refl _)
  move_call := move_call
  addSession := addSession
  turn {h g} holds t := by
    cases t with
    | handler => exact same holds rfl rfl (List.prefix_refl _)
    | @session front back i =>
      have holds : P { h with ready := front ++ back } := same holds rfl rfl (List.prefix_refl _)
      obtain e | ⟨s, t, hi, moved, e⟩ := advance_cases { h with ready := front ++ back } i
      · rwa [e]
      · rw [e]
        exact same (move_step holds hi moved) rfl rfl (List.prefix_refl _)

end Kept

/-- How handlers behave never changes. -/
theorem kept_kinds (kinds : List (Text × Handler.Kind)) : Kept (·.kinds = kinds) :=
  .of_sessions (fun holds _ same _ => same.trans holds) (fun _ holds _ => (kinds_move ..).trans holds)
    (fun holds _ _ => (kinds_move ..).trans holds) fun _ _ _ holds => holds

end Host
end DirWatch

import DirWatch.Proofs.Host.Acts
import DirWatch.Proofs.Session.Deeds

/-!
# A session on a loop

The histories of a session are those of a session by itself, which moves after each deed until it comes to rest. On the
loop of a host, jobs of handlers stand before and between its moves. Still, at every standstill, the session of a host
that runs no other is where its deeds lead it by itself (`exists_deeds_of_plays`), so what is shown of deeds is shown of
sessions on such loops.

- **A turn** does not change where the session comes to rest (`Alone.turn`).
- **An action** says something to the session, which is a deed, or nothing (`Alone.act`).
-/

namespace DirWatch

/-- Where every step lowers a load, any number of steps from the load on leads to the same state. -/
theorem settle_eq_of_load_le {σ : Type} {step : σ → Option σ} {load : σ → Nat}
    (lower : ∀ s t, step s = some t → load t < load s) {n m : Nat} {s : σ} (hn : load s ≤ n) (hm : load s ≤ m) :
    settle step n s = settle step m s := by
  induction n generalizing m s with
  | zero =>
    have still : step s = none := step_settle lower 0 s hn
    rw [settle_of_step_eq_none still, settle_of_step_eq_none still]
  | succ n ih =>
    cases e : step s with
    | none => rw [settle_of_step_eq_none e, settle_of_step_eq_none e]
    | some t =>
      have less := lower s t e
      cases m with
      | zero => omega
      | succ m =>
        rw [settle, settle, e]
        exact ih (by omega) (by omega)

namespace Session

variable {s t : Session}

/-- A session that moves comes to rest where it did before. -/
theorem rest_of_step (e : s.step = some t) : t.rest = s.rest := by
  have less : t.load < s.load := load_step e
  obtain ⟨n, load⟩ : ∃ n, s.load = n + 1 := Nat.exists_eq_succ_of_ne_zero (by omega)
  have onward : s.rest = settle step n t := by rw [rest, load, settle, e]
  rw [onward]
  exact settle_eq_of_load_le (fun _ _ => load_step) (Nat.le_refl _) (by omega)

theorem rest_of_still (still : s.step = none) : s.rest = s := settle_of_step_eq_none still _

end Session

namespace Host

variable {h g : Host} {s t u : Session}

/-- What an action says to a session. -/
def Action.inSession : Action → Session.Action
  | .run => .run
  | .close => .close
  | .cancel => .cancel
  | .send m => .send m
  | .feed notices => .feed notices
  | .change c => .change c
  | .kill part => .kill part
  | .release => .release
  | .watch _ _ _ | .openDoor | .wait => .wait

/-- A host runs one session, which comes to rest in a state. As long as the session can move, its job is ready. -/
def Alone (h : Host) (s : Session) : Prop :=
  ∃ u, h.sessions = [u] ∧ (u.onSite h.site).rest = s ∧ (.session 0 ∉ h.ready → (u.onSite h.site).step = none)

/-- What is not of the session does not matter, as long as its job stays ready. -/
theorem Alone.around (alone : Alone h s) (sessions : g.sessions = h.sessions) (site : g.site = h.site)
    (ready : .session 0 ∈ h.ready → .session 0 ∈ g.ready) : Alone g s := by
  obtain ⟨u, single, rest, still⟩ := alone
  refine ⟨u, sessions.trans single, site ▸ rest, fun none => ?_⟩
  rw [site]
  exact still fun job => none (ready job)

/-- At a standstill the session is where it comes to rest. -/
theorem Alone.eq_of_idle (alone : Alone h s) (idle : h.ready = []) :
    ∃ u, h.sessions = [u] ∧ u.onSite h.site = s ∧ s.step = none := by
  obtain ⟨u, single, rest, still⟩ := alone
  have still : (u.onSite h.site).step = none := still (by simp [idle])
  rw [Session.rest_of_still still] at rest
  exact ⟨u, single, rest, rest ▸ still⟩

/-- Whatever the session does, it does on the site of the host. -/
theorem onSite_move (single : h.sessions = [u]) (t : Session) :
    (h.move 0 u t).sessions = [t] ∧ t.onSite (h.move 0 u t).site = t := by
  obtain ⟨scheduler, jobs, e⟩ := h.move_frame 0 u t
  rw [e, single]
  exact ⟨rfl, rfl⟩

/-- **A turn** does not change where the session comes to rest. -/
theorem Alone.turn (alone : Alone h s) (t : Turn h g) : Alone g s := by
  cases t with
  | @handler front back j queue =>
    refine alone.around rfl rfl fun job => ?_
    rw [queue] at job
    exact List.mem_append_left _ (by simpa using job)
  | @session front back i queue =>
    obtain ⟨u, single, rest, still⟩ := alone
    by_cases own : i = 0
    · subst own
      have here : h.sessions[0]? = some u := by rw [single, List.getElem?_cons_zero]
      cases next : (u.onSite h.site).step with
      | none =>
        have same : advance { h with ready := front ++ back } 0 = { h with ready := front ++ back } := by
          simp only [advance, here, next]
        rw [same]
        exact ⟨u, single, rest, fun _ => next⟩
      | some t =>
        have moved : advance { h with ready := front ++ back } 0 =
            (move { h with ready := front ++ back } 0 u t).push (.session 0) := by
          simp only [advance, here, next]
        obtain ⟨sessions, site⟩ := onSite_move (h := { h with ready := front ++ back }) single t
        rw [moved]
        refine ⟨t, sessions, ?_, fun none => absurd (List.mem_append_right _ List.mem_cons_self) none⟩
        have settled : t.rest = s := (Session.rest_of_step next).trans rest
        exact (congrArg Session.rest site).trans settled
    · have absent : h.sessions[i]? = none := by
        rw [single]
        exact List.getElem?_eq_none (Nat.one_le_iff_ne_zero.2 own)
      have same : advance { h with ready := front ++ back } i = { h with ready := front ++ back } := by
        simp only [advance, absent]
      rw [same]
      refine Alone.around ⟨u, single, rest, still⟩ rfl rfl fun job => ?_
      rw [queue] at job
      simpa [Ne.symm own] using job

/-! ## Deeds -/

/-- Once the sessions are woken, the job of the session is ready. -/
theorem Alone.of_wake (single : h.sessions = [t]) (here : t.onSite h.site = s) : Alone h.wake s.rest :=
  ⟨t, single, congrArg Session.rest here, fun none => absurd (by simp [wake, single]) none⟩

/-- A run that is asked for is noted. -/
theorem runSession_frame (h : Host) (i : Nat) : (h.runSession i).sessions = (h.enter i (·.call .run)).sessions ∧
    (h.runSession i).site = (h.enter i (·.call .run)).site := by
  unfold runSession
  cases here : h.sessions[i]? with
  | none => simp [enter_eq_self here]
  | some s => exact ⟨rfl, rfl⟩

/-- So is a sender. -/
theorem addSender_frame (h : Host) (i : Nat) (b : Session.Action) :
    (h.addSender i b).sessions = (h.enter i (·.call b)).sessions ∧
      (h.addSender i b).site = (h.enter i (·.call b)).site := by
  unfold addSender
  cases here : h.sessions[i]? with
  | none => simp [enter_eq_self here]
  | some s => exact ⟨rfl, rfl⟩

/-- The session of a host, once woken, comes to rest where the deed leads that says something, or nothing. -/
def Heeds (g : Host) (s : Session) (b : Session.Action) : Prop :=
  ∃ b', (b' = b ∨ b' = .wait) ∧ Alone g.wake (s.deed (.call b'))

/-- Nothing is said to a session that is left as it is. -/
theorem heeds_of_same (single : h.sessions = [u]) (same : g.sessions = h.sessions ∧ g.site = h.site)
    (b : Session.Action) : Heeds g (u.onSite h.site) b :=
  ⟨.wait, .inr rfl, .of_wake (same.1.trans single) (congrArg u.onSite same.2)⟩

/-- What a session is called to do is said to it, if it is the one that is called. -/
theorem heeds_of_enter (single : h.sessions = [u]) {i : Nat} {b : Session.Action}
    (same : g.sessions = (h.enter i (·.call b)).sessions ∧ g.site = (h.enter i (·.call b)).site) :
    Heeds g (u.onSite h.site) b := by
  cases here : h.sessions[i]? with
  | none =>
    rw [enter_eq_self here] at same
    exact heeds_of_same single same b
  | some v =>
    obtain ⟨rfl, rfl⟩ : i = 0 ∧ u = v := by
      rw [single] at here
      cases i <;> simp_all
    rw [enter_eq here] at same
    obtain ⟨inside, place⟩ := onSite_move single ((u.onSite h.site).call b)
    exact ⟨b, .inl rfl, .of_wake (same.1.trans inside) (same.2 ▸ place)⟩

/-- **An action** says something to the session, or nothing. -/
theorem Alone.act (alone : Alone h s) (idle : h.ready = []) {a : Action} (other : a.asks = false) :
    Heeds (h.call a) s a.inSession := by
  obtain ⟨u, single, rfl, still⟩ := alone.eq_of_idle idle
  cases a with
  | watch => cases other
  | run => exact heeds_of_enter single (h.runSession_frame _)
  | close => exact heeds_of_enter single ⟨rfl, rfl⟩
  | cancel =>
    dsimp only [call]
    cases h.newestRun? with
    | none => exact heeds_of_same single ⟨rfl, rfl⟩ .cancel
    | some i => exact heeds_of_enter single ⟨rfl, rfl⟩
  | send m =>
    dsimp only [call]
    split
    · exact heeds_of_enter single (h.addSender_frame _ _)
    · rename_i unopened
      have unopened : ¬ (u.onSite h.site).opened = true := by
        rw [hasChannel, newest?, single] at unopened
        exact unopened
      have lost : (u.onSite h.site).call (.send m) = u.onSite h.site := if_neg unopened
      exact ⟨.send m, .inl rfl, .of_wake single lost.symm⟩
  | feed notices =>
    dsimp only [call]
    cases h.newestObserver? with
    | none => exact heeds_of_same single ⟨rfl, rfl⟩ (.feed notices)
    | some place => exact heeds_of_enter single (h.addSender_frame _ _)
  | change c => exact ⟨.change c, .inl rfl, .of_wake single rfl⟩
  | kill part =>
    dsimp only [call]
    cases found : h.newestObserver? with
    | none => exact heeds_of_same single ⟨rfl, rfl⟩ (.kill part)
    | some place =>
      obtain ⟨observer, newest, found⟩ := Option.bind_eq_some_iff.1 found
      obtain ⟨owner, _, found⟩ := Option.bind_eq_some_iff.1 found
      cases found
      have killed : (u.onSite h.site).call (.kill part) = u.onSite (h.site.kill observer part) := by
        simp only [Session.call, Session.onSite, Session.onWatcher, Watcher.call, newest]
      exact ⟨.kill part, .inl rfl, .of_wake single killed.symm⟩
  | release => exact ⟨.release, .inl rfl, .of_wake single rfl⟩
  | openDoor => exact heeds_of_same (g := h.schedule (·.openDoor)) single ⟨rfl, rfl⟩ .wait
  | wait => exact heeds_of_same single ⟨rfl, rfl⟩ .wait

/-- Wherever a host comes to that runs one session, the session is where deeds lead that come of the actions. -/
theorem Alone.plays {actions : List Action} (p : Plays h actions g) (others : ∀ a ∈ actions, a.asks = false)
    (alone : Alone h s) : ∃ told : List Session.Action,
      told.Forall₂ (fun b a => b = a.inSession ∨ b = .wait) actions ∧ Alone g (s.deeds (told.map .call)) := by
  induction p generalizing s with
  | rest _ => exact ⟨[], .nil, alone⟩
  | turn t _ ih => exact ih others (alone.turn t)
  | @act h g a actions idle _ ih =>
    obtain ⟨b, heard, next⟩ := alone.act idle (others a List.mem_cons_self)
    obtain ⟨told, agree, last⟩ := ih (fun c hc => others c (List.mem_cons_of_mem a hc)) next
    exact ⟨b :: told, .cons heard agree, last⟩

/-- **A session on a loop is where its deeds lead it by itself.** Let a host run one session and no other, with handlers
that behave in any way, and let its loop let either side go first at every turn. Wherever the host comes to by its
actions, each of them is a deed of the session: what the action says to it, or nothing, as when there is no run to cancel
or no observer of the session to hear a notice. -/
theorem exists_deeds_of_plays (site : Site) (root : Path) (registry : Registry Text) (refusal makerFault : Option Text)
    (options : Options) (kinds : List (Text × Handler.Kind)) (actions : List Action)
    (others : ∀ a ∈ actions, a.asks = false) (g : Host) :
    let fresh : Session := { root, registry, refusal, makerFault, watcher := { options } }
    Plays (({ site, kinds } : Host).addSession fresh) actions g →
    ∃ told : List Session.Action, told.Forall₂ (fun b a => b = a.inSession ∨ b = .wait) actions ∧
      ∃ s, g.sessions = [s] ∧ s.onSite g.site = (fresh.onSite site).deeds (told.map .call) := by
  intro fresh p
  have still : (fresh.onSite site).step = none := Session.step_new root registry refusal makerFault options 0 site
  have alone : Alone (({ site, kinds } : Host).addSession fresh) (fresh.onSite site) :=
    ⟨fresh, rfl, Session.rest_of_still still, fun _ => still⟩
  obtain ⟨told, agree, last⟩ := alone.plays p others
  obtain ⟨s, single, here, -⟩ := last.eq_of_idle p.idle
  exact ⟨told, agree, s, single, here⟩

end Host
end DirWatch

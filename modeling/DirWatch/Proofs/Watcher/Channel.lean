import DirWatch.Proofs.Channel.Push
import DirWatch.Watcher.Standstill

/-!
# What a watcher does to its channel

- A watcher only pushes (`push_step`), and starting leaves the channel alone (`spared_start`).
- What a watcher does on its own is one of four things (`step_cases`).
- Each sender knows a send of the channel (`Numbered`), so at a standstill without blocked sends no sender waits
  (`senderStatus_ne_blocked`).
-/

namespace DirWatch

namespace Watcher

open Channel (Push)

/-! ## Starting -/

/-- What starting leaves alone: of the calls to start, at most the first one changes, and later ones fail. -/
structure Spared (w v : Watcher) : Prop where
  options : v.options = w.options
  stopping : v.stopping = w.stopping
  channel : v.channel = w.channel
  senders : v.senders = w.senders
  later : ∀ s ∈ v.starts.tail, s ∈ w.starts.tail ∨ s = .failed .watcherReused

theorem spared_endStart {w v : Watcher} (h : Spared w v) (status : StartStatus) : Spared w (v.endStart status) := by
  refine ⟨h.options, h.stopping, h.channel, h.senders, fun s hs => h.later s ?_⟩
  cases e : v.starts with
  | nil => simp [endStart, e] at hs
  | cons first later => simpa [endStart, e] using hs

theorem spared_publish {w v : Watcher} (h : Spared w v) (i : Nat) : Spared w (v.publish i) := by
  unfold publish
  split
  · refine spared_endStart ?_ _
    exact ⟨h.options, h.stopping, h.channel, h.senders, h.later⟩
  · refine spared_endStart ?_ _
    exact ⟨h.options, h.stopping, h.channel, h.senders, h.later⟩

theorem spared_giveUp {w v : Watcher} (h : Spared w v) (i : Nat) (root : Path) (e : OsError) :
    Spared w (v.giveUp i root e) := by
  refine spared_endStart ?_ _
  exact ⟨h.options, h.stopping, h.channel, h.senders, h.later⟩

theorem spared_concludePolling {w v : Watcher} (h : Spared w v) (i : Nat) (root : Path) (recursive : Bool)
    (outcome : Launch) : Spared w (v.concludePolling i root recursive outcome) := by
  unfold concludePolling
  split
  · exact spared_publish h i
  · exact ⟨h.options, h.stopping, h.channel, h.senders, h.later⟩
  · exact spared_endStart h _
  · exact spared_giveUp h i root _

theorem spared_startPolling {w v : Watcher} (h : Spared w v) (root : Path) (recursive : Bool) :
    Spared w (v.startPolling root recursive) := by
  unfold startPolling
  split
  · exact spared_endStart h _
  · refine spared_concludePolling ?_ _ root recursive _
    exact ⟨h.options, h.stopping, h.channel, h.senders, h.later⟩

theorem spared_concludeNative {w v : Watcher} (h : Spared w v) (i : Nat) (root : Path) (recursive : Bool)
    (outcome : Launch) : Spared w (v.concludeNative i root recursive outcome) := by
  unfold concludeNative
  split
  · exact spared_publish h i
  · exact ⟨h.options, h.stopping, h.channel, h.senders, h.later⟩
  · exact spared_endStart h _
  · have hv : Spared w { v with site := v.site.unscheduleAll i } :=
      ⟨h.options, h.stopping, h.channel, h.senders, h.later⟩
    dsimp only
    split
    · exact spared_endStart hv _
    · exact spared_endStart hv _
    · exact spared_startPolling hv root recursive

theorem spared_start (w : Watcher) (root : Path) (recursive : Bool) : Spared w (w.start root recursive) := by
  unfold start
  split
  · have h : Spared w { w with starts := [.pending] } := ⟨rfl, rfl, rfl, rfl, by simp⟩
    dsimp only
    split
    · exact spared_endStart h _
    · split
      · exact spared_startPolling h root recursive
      · refine spared_concludeNative ?_ _ root recursive _
        exact ⟨rfl, rfl, rfl, rfl, by simp⟩
  · refine ⟨rfl, rfl, rfl, rfl, fun s hs => ?_⟩
    cases e : w.starts with
    | nil => simp [e] at hs
    | cons first later => simpa [e] using hs

theorem spared_passGate (w : Watcher) (waiting : Waiting) : Spared w (w.passGate waiting) := by
  unfold passGate
  dsimp only
  split
  · refine spared_concludeNative ?_ _ _ _ _
    exact ⟨rfl, rfl, rfl, rfl, fun _ => Or.inl⟩
  · refine spared_concludePolling ?_ _ _ _ _
    exact ⟨rfl, rfl, rfl, rfl, fun _ => Or.inl⟩

/-! ## What a watcher does on its own -/

/-- A sender goes on with its next notice, and its handler drops it or sends it. -/
theorem exists_of_hearNext {site : Site} {c : Channel Message} {ss : List Sender}
    {r : Site × Channel Message × List Sender} (h : hearNext? site c ss = some r) :
    ∃ front i total send n ns back, ss = front ++ .feed i total send (n :: ns) :: back ∧
      (r = ((site.hear i n).1, c, front ++ .feed i total send ns :: back) ∨
        r = ((site.hear i n).1, c.submit (.event n.toEvent),
          front ++ .feed i total (some c.sends.length) ns :: back)) := by
  fun_induction hearNext? site c ss generalizing r with
  | case1 => cases h
  | case2 i total send n ns others hfree site' hear =>
    cases h
    exact ⟨[], i, total, send, n, ns, others, rfl, Or.inl (by rw [hear]; rfl)⟩
  | case3 i total send n ns others hfree site' hear =>
    cases h
    exact ⟨[], i, total, send, n, ns, others, rfl, Or.inr (by rw [hear]; rfl)⟩
  | case4 i total send n ns others hfree ih =>
    obtain ⟨q, hq, rfl⟩ := Option.map_eq_some_iff.1 h
    obtain ⟨front, j, t, s, m, ms, back, rfl, hr⟩ := ih hq
    refine ⟨.feed i total send (n :: ns) :: front, j, t, s, m, ms, back, rfl, ?_⟩
    rcases hr with rfl | rfl
    · exact Or.inl rfl
    · exact Or.inr rfl
  | case5 x others _ ih =>
    obtain ⟨q, hq, rfl⟩ := Option.map_eq_some_iff.1 h
    obtain ⟨front, j, t, s, m, ms, back, rfl, hr⟩ := ih hq
    refine ⟨x :: front, j, t, s, m, ms, back, rfl, ?_⟩
    rcases hr with rfl | rfl
    · exact Or.inl rfl
    · exact Or.inr rfl

/-- No sender goes on only when those with notices left wait for their sends. -/
theorem hearNext_eq_none {site : Site} {c : Channel Message} {ss : List Sender} (h : hearNext? site c ss = none)
    {i total : Nat} {send : Option Nat} {n : Notice} {ns : List Notice} (hm : .feed i total send (n :: ns) ∈ ss) :
    isFree c send = false := by
  fun_induction hearNext? site c ss with
  | case1 => cases hm
  | case2 => cases h
  | case3 => cases h
  | case4 j t s m ms others hfree ih =>
    rcases List.mem_cons.1 hm with e | hm
    · cases e
      simpa using hfree
    · exact ih (Option.map_eq_none_iff.1 h) hm
  | case5 x others hx ih =>
    rcases List.mem_cons.1 hm with e | hm
    · exact absurd e.symm (by simpa using fun e => hx _ _ _ _ _ e)
    · exact ih (Option.map_eq_none_iff.1 h) hm

/-- What a watcher does on its own. -/
theorem step_moves {w v : Watcher} (h : w.step = some v) :
    (∃ channel, w.channel.step = some channel ∧ v = { w with channel }) ∨
      (w.site.gateOpen = true ∧ ∃ waiting, w.waiting = some waiting ∧ v = w.passGate waiting) ∨
      (∃ r, hearNext? w.site w.channel w.senders = some r ∧
        v = { w with site := r.1, channel := r.2.1, senders := r.2.2 }) ∨
      ∃ part, v = { w with reported := true, channel := w.channel.submit (.failure (deathMessage part)) } := by
  unfold step at h
  split at h
  · rename_i channel hc
    cases h
    exact Or.inl ⟨channel, hc, rfl⟩
  · split at h
    · rename_i u hg
      cases h
      unfold passGate? at hg
      split at hg
      · rename_i gate
        obtain ⟨waiting, hw, rfl⟩ := Option.map_eq_some_iff.1 hg
        exact Or.inr (Or.inl ⟨gate, waiting, hw, rfl⟩)
      · cases hg
    · split at h
      · rename_i u hh
        cases h
        obtain ⟨r, hr, rfl⟩ := Option.map_eq_some_iff.1 hh
        exact Or.inr (Or.inr (Or.inl ⟨r, hr, rfl⟩))
      · unfold report? at h
        split at h
        · obtain ⟨part, -, rfl⟩ := Option.map_eq_some_iff.1 h
          exact Or.inr (Or.inr (Or.inr ⟨part, rfl⟩))
        · cases h

/-- The same without the gate. -/
theorem step_cases {w v : Watcher} (h : w.step = some v) :
    (∃ channel, w.channel.step = some channel ∧ v = { w with channel }) ∨
      (∃ waiting, w.waiting = some waiting ∧ v = w.passGate waiting) ∨
      (∃ r, hearNext? w.site w.channel w.senders = some r ∧
        v = { w with site := r.1, channel := r.2.1, senders := r.2.2 }) ∨
      ∃ part, v = { w with reported := true, channel := w.channel.submit (.failure (deathMessage part)) } :=
  (step_moves h).imp_right (Or.imp_left And.right)

/-- **A watcher only pushes.** -/
theorem push_step {w v : Watcher} (h : w.step = some v) : Push w.channel v.channel := by
  obtain ⟨channel, hc, rfl⟩ | ⟨waiting, _, rfl⟩ | ⟨r, hr, rfl⟩ | ⟨part, rfl⟩ := step_cases h
  · exact .step hc
  · rw [(spared_passGate w waiting).channel]
    exact .idle _
  · obtain ⟨front, i, total, send, n, ns, back, _, rfl | rfl⟩ := exists_of_hearNext hr
    · exact .idle _
    · exact .submit _ _
  · exact .submit _ _

/-- What a watcher does on its own leaves its options alone. -/
theorem options_step {w v : Watcher} (h : w.step = some v) : v.options = w.options := by
  obtain ⟨channel, _, rfl⟩ | ⟨x, _, rfl⟩ | ⟨r, _, rfl⟩ | ⟨part, rfl⟩ := step_cases h
  · rfl
  · exact (spared_passGate w x).options
  · rfl
  · rfl

/-- A watcher at a standstill has none of its moves left. -/
theorem still_of_step_eq_none {w : Watcher} (rest : w.step = none) :
    w.channel.step = none ∧ w.passGate? = none ∧ w.hear? = none ∧ w.report? = none := by
  unfold step at rest
  split at rest
  · cases rest
  · split at rest
    · cases rest
    · split at rest
      · cases rest
      · exact ⟨‹_›, ‹_›, ‹_›, rest⟩

/-! ## Senders -/

end Watcher

/-- The send that a sender waits for, by its number. -/
def Sender.send? : Sender → Option Nat
  | .single send => some send
  | .feed _ _ send _ => send

namespace Watcher

open Channel (Push)

/-- The sends that senders wait for are sends of the channel. -/
def Numbered (w : Watcher) : Prop := ∀ x ∈ w.senders, ∀ n, x.send? = some n → n < w.channel.sends.length

/-- Pushing keeps senders numbered. -/
theorem Numbered.push {w v : Watcher} (h : Numbered w) (p : Push w.channel v.channel) (hs : v.senders = w.senders) :
    Numbered v := fun x hx n hn => Nat.lt_of_lt_of_le (h x (hs ▸ hx) n hn) p.length_sends_le

theorem Numbered.spared {w v : Watcher} (h : Numbered w) (k : Spared w v) : Numbered v := by
  intro x hx n hn
  rw [k.channel]
  exact h x (k.senders ▸ hx) n hn

theorem Numbered.send {w : Watcher} (h : Numbered w) (m : Message) : Numbered (w.send m) := by
  intro x hx n hn
  rcases List.mem_append.1 hx with hx | hx
  · exact Nat.lt_of_lt_of_le (h x hx n hn) (Push.submit w.channel m).length_sends_le
  · obtain rfl := List.mem_singleton.1 hx
    cases hn
    simp [Watcher.send, Channel.submit]

theorem Numbered.feed {w : Watcher} (h : Numbered w) (i : Nat) (notices : List Notice) :
    Numbered (w.feed i notices) := by
  intro x hx n hn
  rcases List.mem_append.1 hx with hx | hx
  · exact h x hx n hn
  · obtain rfl := List.mem_singleton.1 hx
    cases hn

theorem Numbered.step {w v : Watcher} (h : Numbered w) (e : w.step = some v) : Numbered v := by
  obtain ⟨channel, hc, rfl⟩ | ⟨waiting, _, rfl⟩ | ⟨r, hr, rfl⟩ | ⟨part, rfl⟩ := step_cases e
  · exact h.push (.step hc) rfl
  · exact h.spared (spared_passGate w waiting)
  · obtain ⟨front, i, total, send, n, ns, back, hs, rfl | rfl⟩ := exists_of_hearNext hr
    · intro x hx m hm
      simp only [List.mem_append, List.mem_cons] at hx
      rcases hx with hx | rfl | hx
      · exact h x (by simp [hs, hx]) m hm
      · exact h (.feed i total send (n :: ns)) (by simp [hs]) m hm
      · exact h x (by simp [hs, hx]) m hm
    · have more := (Push.submit w.channel (.event n.toEvent)).length_sends_le
      intro x hx m hm
      simp only [List.mem_append, List.mem_cons] at hx
      rcases hx with hx | rfl | hx
      · exact Nat.lt_of_lt_of_le (h x (by simp [hs, hx]) m hm) more
      · cases hm
        simp [Channel.submit]
      · exact Nat.lt_of_lt_of_le (h x (by simp [hs, hx]) m hm) more
  · exact h.push (.submit _ _) rfl

/-- A send of a channel that tells nothing any more is told, if it is not blocked. -/
theorem isFree_of_not_blocked {c : Channel Message} (hc : c.confirm? = none)
    (hb : ∀ s ∈ c.sends, s.status ≠ .blocked) {n : Nat} (hn : n < c.sends.length) : isFree c (some n) = true := by
  have hm : c.sends[n] ∈ c.sends := List.getElem_mem hn
  have entered : c.sends[n].status ≠ .entered := by
    intro e
    unfold Channel.confirm? at hc
    rw [if_pos (List.any_eq_true.2 ⟨_, hm, by simp [e]⟩)] at hc
    cases hc
  have blocked := hb _ hm
  simp only [isFree, sendResult?, List.getElem?_eq_getElem hn, Option.bind_some]
  cases e : c.sends[n].status with
  | blocked => exact absurd e blocked
  | entered => exact absurd e entered
  | _ => rfl

/-- **At a standstill without blocked sends no sender waits.** -/
theorem senderStatus_ne_blocked {w : Watcher} (h : Numbered w) (rest : w.step = none)
    (hb : ∀ s ∈ w.channel.sends, s.status ≠ .blocked) : ∀ x ∈ w.senders, w.senderStatus x ≠ .blocked := by
  obtain ⟨hc, _, hh, _⟩ := still_of_step_eq_none rest
  have told := (Channel.still_of_step_eq_none hc).2.1
  intro x hx
  cases x with
  | single send =>
    have free := isFree_of_not_blocked told hb (h _ hx send rfl)
    obtain ⟨accepted, ha⟩ := Option.isSome_iff_exists.1 free
    simp [senderStatus, ha]
  | feed i total send notices =>
    have free : isFree w.channel send = true := by
      cases send with
      | none => rfl
      | some n => exact isFree_of_not_blocked told hb (h _ hx n rfl)
    cases notices with
    | nil => simp [senderStatus, free]
    | cons n ns =>
      have := hearNext_eq_none (Option.map_eq_none_iff.1 hh) hx
      rw [free] at this
      cases this

end Watcher
end DirWatch

import DirWatch.Channel

/-!
# The moves of a channel and what all of them keep

Whatever calls a channel gets and however it moves on its own, it changes by one of seven moves (`Move`). Each keeps a
fair channel fair (`Fair.move`):

- the sends whose items got in come first, those still outside behind them, so senders get in in order of arrival;
- no receive with an item stands behind a pending one, so receives are answered in order of issue;
- what got in is what was obtained and then what is queued; once the channel is closed nothing is queued, and what was
  obtained is a prefix of what got in.
-/

namespace DirWatch

/-- Whether the item of a send got into the queue. -/
def SendStatus.isIn : SendStatus → Bool
  | .blocked => false
  | .entered => true
  | .sent => true
  | .refused => false
  | .recalled => true

/-- The item that a receive obtained. -/
def Receipt.item? {α : Type} : Receipt α → Option α
  | .item a => some a
  | _ => none

namespace Channel
variable {α : Type}

/-! ## Views of a channel -/

/-- The items that receives obtained, in order of issue. -/
def obtained (c : Channel α) : List α := c.receives.filterMap Receipt.item?

/-- The items that got in, in order of arrival. -/
def accepted (c : Channel α) : List α := (c.sends.filter (·.status.isIn)).map (·.item)

/-- The items of blocked senders, in order of arrival. -/
def held (c : Channel α) : List α := (c.sends.filter (·.status = .blocked)).map (·.item)

/-- The items of all sends, in order of arrival. -/
def submitted (c : Channel α) : List α := c.sends.map (·.item)

/-- The status of a send whose item is not in. -/
def outside (c : Channel α) : SendStatus := if c.closed || !c.reachable then .refused else .blocked

/-! ## Moves -/

/-- One move of a channel: a call, or a move on its own. -/
inductive Move : Channel α → Channel α → Prop
  | submit (c : Channel α) (a : α) : Move c (c.submit a)
  | receive (c : Channel α) : Move c c.receive
  | withdraw (c : Channel α) (i : Nat) : Move c (c.withdraw i)
  | close (c : Channel α) : Move c c.close
  | deliver {c : Channel α} {a : α} {queue : List α} {receives : List (Receipt α)} (hq : c.queue = a :: queue)
      (hr : fillFirst? (.item a) c.receives = some receives) : Move c { c with queue, receives }
  | confirm (c : Channel α) : Move c { c with sends := c.sends.map confirmSend }
  | enter {c : Channel α} {a : α} {sends : List (Send α)} (hroom : c.hasRoom = true)
      (hs : enterFirst? c.sends = some (a, sends)) : Move c { c with queue := c.queue ++ [a], sends }

/-- What a channel does on its own: it delivers the first item, tells senders, or admits the first blocked one. -/
theorem step_cases {c d : Channel α} (h : c.step = some d) :
    (∃ a queue receives, c.queue = a :: queue ∧ fillFirst? (.item a) c.receives = some receives ∧
      d = { c with queue, receives }) ∨
    d = { c with sends := c.sends.map confirmSend } ∨
    ∃ a sends, c.hasRoom = true ∧ enterFirst? c.sends = some (a, sends) ∧
      d = { c with queue := c.queue ++ [a], sends } := by
  unfold step at h
  split at h
  · rename_i e he
    cases h
    unfold deliver? at he
    split at he
    · cases he
    · rename_i a queue hq
      obtain ⟨receives, hr, rfl⟩ := Option.map_eq_some_iff.1 he
      exact Or.inl ⟨a, queue, receives, hq, hr, rfl⟩
  · split at h
    · rename_i e he
      cases h
      unfold confirm? at he
      split at he
      · cases he
        exact Or.inr (Or.inl rfl)
      · cases he
    · unfold admit? at h
      split at h
      · rename_i hroom
        obtain ⟨⟨a, sends⟩, hs, rfl⟩ := Option.map_eq_some_iff.1 h
        exact Or.inr (Or.inr ⟨a, sends, hroom, hs, rfl⟩)
      · cases h

/-- What a channel does on its own is a move. -/
theorem Move.of_step {c d : Channel α} (h : c.step = some d) : Move c d := by
  obtain ⟨a, queue, receives, hq, hr, rfl⟩ | rfl | ⟨a, sends, hroom, hs, rfl⟩ := step_cases h
  · exact .deliver hq hr
  · exact .confirm c
  · exact .enter hroom hs

/-! ## The first pending receive -/

/-- No receive with an item stands behind a pending one. -/
def ItemsFirst (rs : List (Receipt α)) : Prop :=
  ∃ front back, rs = front ++ back ∧ .pending ∉ front ∧ ∀ r ∈ back, r.item? = none

/-- A new receive has no item. -/
theorem ItemsFirst.concat {rs : List (Receipt α)} (h : ItemsFirst rs) {r : Receipt α} (hr : r.item? = none) :
    ItemsFirst (rs ++ [r]) := by
  obtain ⟨front, back, rfl, hf, hb⟩ := h
  refine ⟨front, back ++ [r], List.append_assoc .., hf, fun s hs => ?_⟩
  rcases List.mem_append.1 hs with hs | hs
  · exact hb s hs
  · rw [List.mem_singleton.1 hs, hr]

/-- A receive that is withdrawn has no item and is not pending. -/
theorem ItemsFirst.set_withdrawn {rs : List (Receipt α)} (h : ItemsFirst rs) (i : Nat) :
    ItemsFirst (rs.set i .withdrawn) := by
  obtain ⟨front, back, rfl, hf, hb⟩ := h
  rw [List.set_append]
  split
  · refine ⟨front.set i .withdrawn, back, rfl, fun hp => ?_, hb⟩
    rcases List.mem_or_eq_of_mem_set hp with hp | hp
    · exact hf hp
    · cases hp
  · refine ⟨front, back.set (i - front.length) .withdrawn, rfl, hf, fun s hs => ?_⟩
    rcases List.mem_or_eq_of_mem_set hs with hs | rfl
    · exact hb s hs
    · rfl

/-- Behind the first pending receive no receive has an item. -/
theorem ItemsFirst.behind {front back : List (Receipt α)} (h : ItemsFirst (front ++ .pending :: back))
    (hf : .pending ∉ front) : ∀ r ∈ back, r.item? = none := by
  obtain ⟨front', back', e, hf', hb⟩ := h
  rcases List.append_eq_append_iff.1 e with ⟨mid, rfl, hm⟩ | ⟨mid, rfl, rfl⟩
  · cases mid with
    | nil =>
      simp only [List.nil_append] at hm
      exact fun r hr => hb r (by simp [← hm, hr])
    | cons r mid =>
      cases hm
      exact absurd (by simp) hf'
  · exact fun r hr => hb r (by simp [hr])

/-- An answer for the first pending receive. -/
theorem ItemsFirst.fill {front back : List (Receipt α)} (h : ItemsFirst (front ++ .pending :: back))
    (hf : .pending ∉ front) {r : Receipt α} (hr : r ≠ .pending) : ItemsFirst (front ++ r :: back) :=
  ⟨front ++ [r], back, by simp, by simpa [hf] using fun e => hr e.symm, h.behind hf⟩

/-- The answer goes to the first pending receive. -/
theorem exists_of_fillFirst {r : Receipt α} {rs rs' : List (Receipt α)} (h : fillFirst? r rs = some rs') :
    ∃ front back, rs = front ++ .pending :: back ∧ .pending ∉ front ∧ rs' = front ++ r :: back := by
  fun_induction fillFirst? r rs generalizing rs' with
  | case1 => cases h
  | case2 rest => cases h; exact ⟨[], rest, rfl, by simp, rfl⟩
  | case3 s rest hs ih =>
    obtain ⟨rest', hrest, rfl⟩ := Option.map_eq_some_iff.1 h
    obtain ⟨front, back, rfl, hfront, rfl⟩ := ih hrest
    exact ⟨s :: front, back, rfl, by simpa [hfront] using fun e => hs e.symm, rfl⟩

/-- An answer is lost only when no receive is pending. -/
theorem fillFirst_eq_none {r : Receipt α} {rs : List (Receipt α)} (h : fillFirst? r rs = none) : .pending ∉ rs := by
  fun_induction fillFirst? r rs with
  | case1 => simp
  | case2 rest => cases h
  | case3 s rest hs ih => simpa [ih (Option.map_eq_none_iff.1 h)] using fun e => hs e.symm

/-- The sender that gets in is the first that is blocked. -/
theorem exists_of_enterFirst {ss ss' : List (Send α)} {a : α} (h : enterFirst? ss = some (a, ss')) :
    ∃ front s back, ss = front ++ s :: back ∧ (∀ t ∈ front, t.status ≠ .blocked) ∧ s.status = .blocked ∧
      a = s.item ∧ ss' = front ++ { s with status := .entered } :: back := by
  fun_induction enterFirst? ss generalizing ss' with
  | case1 => cases h
  | case2 s rest hs =>
    cases h
    exact ⟨[], s, rest, rfl, by simp, hs, rfl, rfl⟩
  | case3 s rest hs ih =>
    obtain ⟨⟨b, rest'⟩, hrest, e⟩ := Option.map_eq_some_iff.1 h
    cases e
    obtain ⟨front, t, back, rfl, hfront, ht, rfl, rfl⟩ := ih hrest
    exact ⟨s :: front, t, back, rfl, by simpa [hs] using hfront, ht, rfl, rfl⟩

/-- No sender gets in only when none is blocked. -/
theorem enterFirst_eq_none {ss : List (Send α)} (h : enterFirst? ss = none) : ∀ s ∈ ss, s.status ≠ .blocked := by
  fun_induction enterFirst? ss with
  | case1 => simp
  | case2 s rest hs => cases h
  | case3 s rest hs ih => simpa [hs] using ih (Option.map_eq_none_iff.1 h)

/-! ## Fair channels -/

/-- What all moves of a channel keep. -/
structure Fair (c : Channel α) : Prop where
  receives : ItemsFirst c.receives
  sends : ∃ front back, c.sends = front ++ back ∧ (∀ s ∈ front, s.status.isIn = true) ∧
    ∀ s ∈ back, s.status = c.outside
  whole : c.closed = false → c.accepted = c.obtained ++ c.queue
  lost : c.closed = true → c.queue = [] ∧ c.obtained <+: c.accepted
  unended : c.closed = false → .ended ∉ c.receives

/-- A new channel is fair. -/
theorem Fair.new (capacity : Int) (reachable : Bool) : Fair ({ capacity, reachable } : Channel α) where
  receives := ⟨[], [], rfl, by simp, by simp⟩
  sends := ⟨[], [], rfl, by simp, by simp⟩
  whole _ := rfl
  lost h := by cases h
  unended _ := by simp

/-- What was obtained is a prefix of what got in. -/
theorem Fair.obtained_prefix {c : Channel α} (h : Fair c) : c.obtained <+: c.accepted := by
  cases hclosed : c.closed with
  | false => rw [h.whole hclosed]; exact List.prefix_append ..
  | true => exact (h.lost hclosed).2

/-- The items that got in are those of the front sends. -/
theorem accepted_of_sends {c : Channel α} {front back : List (Send α)} (h : c.sends = front ++ back)
    (hf : ∀ s ∈ front, s.status.isIn = true) (hb : ∀ s ∈ back, s.status = c.outside) :
    c.accepted = front.map (·.item) := by
  have out : c.outside.isIn = false := by unfold outside; split <;> rfl
  rw [accepted, h, List.filter_append, List.filter_eq_self.2 hf, List.filter_eq_nil_iff.2, List.append_nil]
  intro s hs
  rw [hb s hs, out]
  simp

/-- The first blocked sender is the first one that is not in. -/
theorem sends_of_enterFirst {c : Channel α} {front back ss : List (Send α)} {a : α} (h : c.sends = front ++ back)
    (hf : ∀ s ∈ front, s.status.isIn = true) (hb : ∀ s ∈ back, s.status = c.outside)
    (he : enterFirst? c.sends = some (a, ss)) : ∃ s rest, back = s :: rest ∧ c.outside = .blocked ∧ a = s.item ∧
      ss = front ++ { s with status := .entered } :: rest := by
  obtain ⟨front', s, back', e, hf', hs, rfl, rfl⟩ := exists_of_enterFirst he
  rw [h] at e
  rcases List.append_eq_append_iff.1 e with ⟨mid, rfl, rfl⟩ | ⟨mid, rfl, hm⟩
  · have out : c.outside = .blocked := by rw [← hb s (by simp), hs]
    cases mid with
    | nil => exact ⟨s, back', rfl, out, rfl, by simp⟩
    | cons t mid => exact absurd (by rw [hb t (by simp), out]) (hf' t (by simp))
  · cases mid with
    | nil =>
      simp only [List.nil_append] at hm
      subst hm
      exact ⟨s, back', rfl, by rw [← hb s (by simp), hs], rfl, by simp⟩
    | cons t mid =>
      cases hm
      have := hf s (by simp)
      rw [hs] at this
      cases this

/-- Items after the first pending receive is answered. -/
theorem filterMap_fill {front back : List (Receipt α)} (hb : ∀ r ∈ back, r.item? = none) (r : Receipt α) :
    (front ++ r :: back).filterMap Receipt.item? =
      (front ++ .pending :: back).filterMap Receipt.item? ++ r.item?.toList := by
  have hb : back.filterMap Receipt.item? = [] := List.filterMap_eq_nil_iff.2 hb
  simp only [List.filterMap_append, List.filterMap_cons, hb]
  cases r <;> simp [Receipt.item?]

/-- Items after a pending receive is withdrawn. -/
theorem filterMap_set_withdrawn {rs : List (Receipt α)} {i : Nat} (h : rs[i]? = some .pending) :
    (rs.set i .withdrawn).filterMap Receipt.item? = rs.filterMap Receipt.item? := by
  induction rs generalizing i with
  | nil => rfl
  | cons r rs ih =>
    cases i with
    | zero =>
      obtain rfl : r = .pending := by simpa using h
      rfl
    | succ i => simp only [List.set_cons_succ, List.filterMap_cons, ih (by simpa using h)]

theorem endSend_item (s : Send α) : (endSend s).item = s.item := by
  obtain ⟨a, status⟩ := s
  cases status <;> rfl

theorem endSend_isIn (s : Send α) : (endSend s).status.isIn = s.status.isIn := by
  obtain ⟨a, status⟩ := s
  cases status <;> rfl

theorem confirmSend_item (s : Send α) : (confirmSend s).item = s.item := by
  unfold confirmSend
  split <;> rfl

theorem confirmSend_isIn (s : Send α) : (confirmSend s).status.isIn = s.status.isIn := by
  obtain ⟨a, status⟩ := s
  cases status <;> rfl

/-- A send whose item is not in is refused by closing. -/
theorem endSend_status {s : Send α} {c : Channel α} (h : s.status = c.outside) : (endSend s).status = .refused := by
  unfold outside at h
  split at h <;> simp [endSend, h]

/-- A send whose item is not in is told nothing. -/
theorem confirmSend_status {s : Send α} {c : Channel α} (h : s.status = c.outside) :
    (confirmSend s).status = c.outside := by
  have : s.status ≠ .entered := by
    rw [h]
    unfold outside
    split <;> simp
  rw [confirmSend, if_neg this, h]

theorem Fair.submit {c : Channel α} (h : Fair c) (a : α) : Fair (c.submit a) := by
  obtain ⟨hr, ⟨front, back, hs, hf, hb⟩, hw, hc, hu⟩ := h
  have hs' : (c.submit a).sends = front ++ (back ++ [⟨a, c.outside⟩]) := by simp [Channel.submit, hs, outside]
  have hb' : ∀ s ∈ back ++ [⟨a, c.outside⟩], s.status = (c.submit a).outside := by
    intro s h
    rcases List.mem_append.1 h with h | h
    · exact hb s h
    · rw [List.mem_singleton.1 h]; rfl
  have hin' : (c.submit a).accepted = c.accepted := by rw [accepted_of_sends hs' hf hb', accepted_of_sends hs hf hb]
  exact ⟨hr, ⟨front, _, hs', hf, hb'⟩, hin' ▸ hw, hin' ▸ hc, hu⟩

theorem Fair.receive {c : Channel α} (h : Fair c) : Fair c.receive := by
  obtain ⟨hr, hs, hw, hc, hu⟩ := h
  have hn : (if c.closed = true then Receipt.ended else .pending : Receipt α).item? = none := by split <;> rfl
  have ho' : c.receive.obtained = c.obtained := by simp [Channel.obtained, Channel.receive, hn]
  refine ⟨hr.concat hn, hs, ho' ▸ hw, ho' ▸ hc, fun h => ?_⟩
  have hclosed : c.closed = false := h
  simpa [Channel.receive, hclosed] using hu h

theorem Fair.withdraw {c : Channel α} (h : Fair c) (i : Nat) : Fair (c.withdraw i) := by
  unfold Channel.withdraw
  split
  · rename_i hi
    obtain ⟨hr, hs, hw, hc, hu⟩ := h
    have ho' : Channel.obtained { c with receives := c.receives.set i .withdrawn } = c.obtained :=
      filterMap_set_withdrawn hi
    refine ⟨hr.set_withdrawn i, hs, ho' ▸ hw, ho' ▸ hc, fun h he => ?_⟩
    rcases List.mem_or_eq_of_mem_set he with he | he
    · exact hu h he
    · cases he
  · exact h

theorem Fair.close {c : Channel α} (h : Fair c) : Fair c.close := by
  unfold Channel.close
  split
  · exact h
  rename_i hclosed
  have hopen : c.closed = false := by simpa using hclosed
  obtain ⟨hr, ⟨front, back, hs, hf, hb⟩, hw, -, -⟩ := h
  have told : ItemsFirst ((fillFirst? .ended c.receives).getD c.receives) ∧
      ((fillFirst? .ended c.receives).getD c.receives).filterMap Receipt.item? = c.obtained := by
    cases hfill : fillFirst? .ended c.receives with
    | none => exact ⟨hr, rfl⟩
    | some rs =>
      obtain ⟨pre, post, e, hpre, rfl⟩ := exists_of_fillFirst hfill
      rw [e] at hr
      refine ⟨hr.fill hpre (by simp), ?_⟩
      rw [Option.getD_some, filterMap_fill (hr.behind hpre), ← e]
      simp [Receipt.item?, Channel.obtained]
  have hs' : c.sends.map endSend = front.map endSend ++ back.map endSend := by rw [hs, List.map_append]
  have hf' : ∀ s ∈ front.map endSend, s.status.isIn = true := by
    intro s h
    obtain ⟨t, ht, rfl⟩ := List.mem_map.1 h
    rw [endSend_isIn, hf t ht]
  have hb' : ∀ s ∈ back.map endSend, s.status = .refused := by
    intro s h
    obtain ⟨t, ht, rfl⟩ := List.mem_map.1 h
    exact endSend_status (hb t ht)
  refine ⟨told.1, ⟨_, _, hs', hf', hb'⟩, fun h => (by cases h), fun _ => ⟨rfl, ?_⟩, fun h => (by cases h)⟩
  have items : (Send.item ∘ endSend : Send α → α) = Send.item := funext endSend_item
  rw [accepted_of_sends (c := { c with closed := true, queue := [], sends := _, receives := _ }) hs' hf' hb',
    List.map_map, items, ← accepted_of_sends hs hf hb, Channel.obtained, told.2, hw hopen]
  exact List.prefix_append ..

theorem Fair.deliver {c : Channel α} (h : Fair c) {a : α} {queue : List α} {receives : List (Receipt α)}
    (hq : c.queue = a :: queue) (hfill : fillFirst? (.item a) c.receives = some receives) :
    Fair { c with queue, receives } := by
  obtain ⟨hr, hs, hw, hc, hu⟩ := h
  obtain ⟨pre, post, e, hpre, rfl⟩ := exists_of_fillFirst hfill
  rw [e] at hr
  have hopen : c.closed = false := by
    cases h : c.closed with
    | false => rfl
    | true => rw [(hc h).1] at hq; cases hq
  have ho' : (pre ++ .item a :: post).filterMap Receipt.item? = c.obtained ++ [a] := by
    rw [filterMap_fill (hr.behind hpre), ← e]; rfl
  refine ⟨hr.fill hpre (by simp), hs, fun _ => ?_, fun h => ?_, fun h he => hu h ?_⟩
  · show c.accepted = List.filterMap _ _ ++ queue
    rw [ho', hw hopen, hq]; simp
  · rw [show c.closed = true from h] at hopen; cases hopen
  · rw [e]
    simpa using he

theorem Fair.confirm {c : Channel α} (h : Fair c) : Fair { c with sends := c.sends.map confirmSend } := by
  obtain ⟨hr, ⟨front, back, hs, hf, hb⟩, hw, hc, hu⟩ := h
  have hs' : c.sends.map confirmSend = front.map confirmSend ++ back.map confirmSend := by rw [hs, List.map_append]
  have hf' : ∀ s ∈ front.map confirmSend, s.status.isIn = true := by
    intro s h
    obtain ⟨t, ht, rfl⟩ := List.mem_map.1 h
    rw [confirmSend_isIn, hf t ht]
  have hb' : ∀ s ∈ back.map confirmSend, s.status = c.outside := by
    intro s h
    obtain ⟨t, ht, rfl⟩ := List.mem_map.1 h
    exact confirmSend_status (hb t ht)
  have hin' : accepted { c with sends := c.sends.map confirmSend } = c.accepted := by
    have items : (Send.item ∘ confirmSend : Send α → α) = Send.item := funext confirmSend_item
    rw [accepted_of_sends (c := { c with sends := _ }) hs' hf' hb', List.map_map, items, accepted_of_sends hs hf hb]
  exact ⟨hr, ⟨_, _, hs', hf', hb'⟩, hin' ▸ hw, hin' ▸ hc, hu⟩

theorem Fair.enter {c : Channel α} (h : Fair c) {a : α} {sends : List (Send α)}
    (henter : enterFirst? c.sends = some (a, sends)) : Fair { c with queue := c.queue ++ [a], sends } := by
  obtain ⟨hr, ⟨front, back, hs, hf, hb⟩, hw, hc, hu⟩ := h
  obtain ⟨s, rest, rfl, out, rfl, rfl⟩ := sends_of_enterFirst hs hf hb henter
  have hopen : c.closed = false := by
    cases h : c.closed with
    | false => rfl
    | true => simp [outside, h] at out
  have hf' : ∀ t ∈ front ++ [{ s with status := .entered }], t.status.isIn = true := by
    intro t h
    rcases List.mem_append.1 h with h | h
    · exact hf t h
    · rw [List.mem_singleton.1 h]; rfl
  have hb' : ∀ t ∈ rest, t.status = c.outside := fun t ht => hb t (List.mem_cons_of_mem _ ht)
  have hs' : front ++ { s with status := .entered } :: rest = (front ++ [{ s with status := .entered }]) ++ rest := by
    simp
  have hin' : accepted { c with
      queue := c.queue ++ [s.item]
      sends := front ++ { s with status := .entered } :: rest } = c.accepted ++ [s.item] := by
    rw [accepted_of_sends (c := { c with queue := _, sends := _ }) hs' hf' hb', accepted_of_sends hs hf hb]; simp
  refine ⟨hr, ⟨_, _, hs', hf', hb'⟩, fun _ => ?_, fun h => ?_, hu⟩
  · rw [hin', hw hopen, List.append_assoc]; rfl
  · rw [show c.closed = true from h] at hopen; cases hopen

/-- **Every move keeps a fair channel fair.** -/
theorem Fair.move {c d : Channel α} (h : Fair c) (m : Move c d) : Fair d := by
  cases m with
  | submit a => exact h.submit a
  | receive => exact h.receive
  | withdraw i => exact h.withdraw i
  | close => exact h.close
  | deliver hq hr => exact h.deliver hq hr
  | confirm => exact h.confirm
  | enter _ hs => exact h.enter hs

end Channel
end DirWatch

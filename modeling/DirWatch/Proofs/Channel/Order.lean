import DirWatch.Proofs.Channel.Moves

/-!
# Items are delivered in order, and none is lost or doubled

The deliveries of a history are the receives that obtain their items, with the items, in the order in which they obtain
them (`deliveries`). They are read off move by move, by what each move adds to the receives (`answered`).

- Deliveries go by the order of issue: they are the receives with items, from the first to the last (`answers_run`).
- **No loss, no duplication**: before the channel is closed, what was delivered, then what is queued, then what blocked
  senders hold is what was submitted; the receives that were not withdrawn are answered in order of issue; closing ends
  all deliveries (`deliveries_in_order`).
-/

namespace DirWatch

/-- Whether a receive was not withdrawn. -/
def Receipt.isKept {α : Type} : Receipt α → Bool
  | .withdrawn => false
  | _ => true

namespace Channel
variable {α : Type}

/-! ## Deliveries -/

/-- The item of a call that submits one. -/
def Action.item? : Action α → Option α
  | .submit a => some a
  | _ => none

/-- A call, before the channel moves on. -/
def call (c : Channel α) : Action α → Channel α
  | .submit a => c.submit a
  | .receive => c.receive
  | .withdraw i => c.withdraw i
  | .close => c.close

/-- The receives that have items, numbered from `i` on. -/
def answersFrom : Nat → List (Receipt α) → List (Nat × α)
  | _, [] => []
  | i, .item a :: rest => (i, a) :: answersFrom (i + 1) rest
  | i, _ :: rest => answersFrom (i + 1) rest

/-- The receives that have items, in order of issue. -/
def answers (c : Channel α) : List (Nat × α) := answersFrom 0 c.receives

/-- Whether receive `i` has its item. -/
def isAnswered (c : Channel α) (i : Nat) : Bool := ((c.receives[i]?).bind Receipt.item?).isSome

/-- The receives that have items in `d` and had none in `c`. -/
def answered (c d : Channel α) : List (Nat × α) := d.answers.filter fun r => !c.isAnswered r.1

/-- The deliveries of at most `n` moves of a channel on its own. -/
def restDeliveries : Nat → Channel α → List (Nat × α)
  | 0, _ => []
  | n + 1, c =>
    match c.step with
    | none => []
    | some d => answered c d ++ restDeliveries n d

/-- The deliveries of a history. -/
def deliveries : Channel α → List (Action α) → List (Nat × α)
  | _, [] => []
  | c, a :: rest => answered c (c.call a) ++ restDeliveries (c.call a).load (c.call a) ++ deliveries (c.act a) rest

theorem act_eq (c : Channel α) (a : Action α) : c.act a = (c.call a).rest := by cases a <;> rfl

/-- A call is a move. -/
theorem Move.of_call (c : Channel α) (a : Action α) : Move c (c.call a) := by
  cases a with
  | submit a => exact .submit c a
  | receive => exact .receive c
  | withdraw i => exact .withdraw c i
  | close => exact .close c

/-! ## What a history keeps -/

/-- What all moves keep, a history keeps. -/
theorem run_induction {P : Channel α → Prop} (keep : ∀ c d, P c → Move c d → P d) {c : Channel α} (h : P c)
    (actions : List (Action α)) : P (c.run actions) := by
  have same : act = fun (c : Channel α) a => (c.call a).rest := funext fun c => funext (act_eq c)
  rw [run, same]
  exact history_induction (fun c a h => keep _ _ h (.of_call c a)) (fun c d h e => keep c d h (.of_step e)) actions h

theorem Fair.run {c : Channel α} (h : Fair c) (actions : List (Action α)) : Fair (c.run actions) :=
  run_induction (fun _ _ => Fair.move) h actions

/-! ## Deliveries go by the order of issue -/

theorem answersFrom_append (xs ys : List (Receipt α)) : ∀ i : Nat,
    answersFrom i (xs ++ ys) = answersFrom i xs ++ answersFrom (i + xs.length) ys := by
  induction xs with
  | nil => intro i; rfl
  | cons x xs ih =>
    intro i
    have hi : i + 1 + xs.length = i + (x :: xs).length := by simp only [List.length_cons]; omega
    cases x <;> simp only [List.cons_append, answersFrom, ih, hi]

theorem answersFrom_cons_of_none {r : Receipt α} (h : r.item? = none) (rs : List (Receipt α)) (i : Nat) :
    answersFrom i (r :: rs) = answersFrom (i + 1) rs := by
  cases r with
  | item a => cases h
  | _ => rfl

theorem answersFrom_eq_nil {rs : List (Receipt α)} (h : ∀ r ∈ rs, r.item? = none) : ∀ i : Nat,
    answersFrom i rs = [] := by
  induction rs with
  | nil => intro i; rfl
  | cons r rs ih =>
    intro i
    rw [answersFrom_cons_of_none (h r List.mem_cons_self), ih fun s hs => h s (List.mem_cons_of_mem _ hs)]

/-- A receive without an item may change into another one without. -/
theorem answersFrom_replace {front back : List (Receipt α)} {r s : Receipt α} (hr : r.item? = none)
    (hs : s.item? = none) (i : Nat) : answersFrom i (front ++ r :: back) = answersFrom i (front ++ s :: back) := by
  rw [answersFrom_append, answersFrom_append, answersFrom_cons_of_none hr, answersFrom_cons_of_none hs]

theorem mem_answersFrom {rs : List (Receipt α)} {p : Nat × α} : ∀ {i : Nat}, p ∈ answersFrom i rs →
    i ≤ p.1 ∧ rs[p.1 - i]? = some (.item p.2) := by
  induction rs with
  | nil => intro i h; cases h
  | cons r rs ih =>
    intro i h
    have later (h : p ∈ answersFrom (i + 1) rs) : i ≤ p.1 ∧ (r :: rs)[p.1 - i]? = some (.item p.2) := by
      obtain ⟨hi, hp⟩ := ih h
      refine ⟨by omega, ?_⟩
      rw [show p.1 - i = p.1 - (i + 1) + 1 by omega, List.getElem?_cons_succ, hp]
    cases r with
    | item a =>
      rcases List.mem_cons.1 h with rfl | h
      · simp
      · exact later h
    | pending => exact later h
    | ended => exact later h
    | withdrawn => exact later h

theorem pairwise_answersFrom (rs : List (Receipt α)) : ∀ i : Nat, (answersFrom i rs).Pairwise (·.1 < ·.1) := by
  induction rs with
  | nil => intro i; exact .nil
  | cons r rs ih =>
    intro i
    cases r with
    | item a => exact .cons (fun p hp => (mem_answersFrom hp).1) (ih _)
    | pending => exact ih _
    | ended => exact ih _
    | withdrawn => exact ih _

theorem map_answersFrom (rs : List (Receipt α)) : ∀ i : Nat,
    (answersFrom i rs).map Prod.snd = rs.filterMap Receipt.item? := by
  induction rs with
  | nil => intro i; rfl
  | cons r rs ih =>
    intro i
    cases r <;> simp only [answersFrom, List.map_cons, ih] <;> rfl

/-- The receives with items have the items that were obtained. -/
theorem map_answers (c : Channel α) : c.answers.map Prod.snd = c.obtained := map_answersFrom _ 0

/-- A receive that has its item is answered. -/
theorem isAnswered_of_mem {c : Channel α} {p : Nat × α} (h : p ∈ c.answers) : c.isAnswered p.1 = true := by
  obtain ⟨_, hp⟩ := mem_answersFrom h
  simp only [Nat.sub_zero] at hp
  simp [isAnswered, hp, Receipt.item?]

/-- What a move adds to the answers stands behind them. -/
theorem answered_of_append {c d : Channel α} {new : List (Nat × α)} (h : d.answers = c.answers ++ new)
    (hn : ∀ p ∈ new, c.isAnswered p.1 = false) : d.answers = c.answers ++ answered c d := by
  have old : c.answers.filter (fun p => !c.isAnswered p.1) = [] := by
    rw [List.filter_eq_nil_iff]
    intro p hp
    simp [isAnswered_of_mem hp]
  have kept : new.filter (fun p => !c.isAnswered p.1) = new := by
    rw [List.filter_eq_self]
    intro p hp
    simp [hn p hp]
  rw [answered, h, List.filter_append, old, kept, List.nil_append]

theorem answersFrom_set_withdrawn {rs : List (Receipt α)} : ∀ {i j : Nat}, rs[i]? = some .pending →
    answersFrom j (rs.set i .withdrawn) = answersFrom j rs := by
  induction rs with
  | nil => intro i j _; rfl
  | cons r rs ih =>
    intro i j h
    cases i with
    | zero =>
      obtain rfl : r = .pending := by simpa using h
      rfl
    | succ i =>
      have ih := fun j => @ih i j (by simpa using h)
      cases r <;> simp only [List.set_cons_succ, answersFrom, ih]

theorem answers_close (c : Channel α) : c.close.answers = c.answers := by
  unfold close
  split
  · rfl
  · cases hfill : fillFirst? .ended c.receives with
    | none => rfl
    | some rs =>
      obtain ⟨front, back, e, _, rfl⟩ := exists_of_fillFirst hfill
      rw [answers, answers, e]
      exact answersFrom_replace rfl rfl 0

/-- A move that answers a receive is a delivery. -/
theorem answers_eq_or_deliver {c d : Channel α} (m : Move c d) : d.answers = c.answers ∨
    ∃ a queue front back, c.queue = a :: queue ∧ c.receives = front ++ .pending :: back ∧ .pending ∉ front ∧
      d.receives = front ++ .item a :: back := by
  cases m with
  | submit a => exact Or.inl rfl
  | receive =>
    refine Or.inl ?_
    have hn : (if c.closed = true then Receipt.ended else .pending : Receipt α).item? = none := by split <;> rfl
    rw [answers, receive, answersFrom_append, answersFrom_cons_of_none hn, answersFrom, List.append_nil]
    rfl
  | withdraw i =>
    unfold withdraw
    split
    · rename_i hi
      exact Or.inl (answersFrom_set_withdrawn hi)
    · exact Or.inl rfl
  | close => exact Or.inl (answers_close c)
  | deliver hq hfill =>
    obtain ⟨front, back, e, hf, he⟩ := exists_of_fillFirst hfill
    exact Or.inr ⟨_, _, front, back, hq, e, hf, he⟩
  | confirm => exact Or.inl rfl
  | enter _ _ => exact Or.inl rfl

/-- A closed channel delivers nothing. -/
theorem answers_of_closed {c d : Channel α} (h : Fair c) (hc : c.closed = true) (m : Move c d) :
    d.answers = c.answers := by
  rcases answers_eq_or_deliver m with e | ⟨a, queue, _, _, hq, _⟩
  · exact e
  · rw [(h.lost hc).1] at hq
    cases hq

/-- **A move answers the receive that comes next.** -/
theorem answers_move {c d : Channel α} (h : Fair c) (m : Move c d) : d.answers = c.answers ++ answered c d := by
  rcases answers_eq_or_deliver m with e | ⟨a, queue, front, back, hq, hc, hf, hd⟩
  · exact answered_of_append (show d.answers = c.answers ++ [] by rw [e, List.append_nil]) (by simp)
  · have hr := h.receives
    rw [hc] at hr
    have nothing := answersFrom_eq_nil (hr.behind hf)
    have added : d.answers = c.answers ++ [(front.length, a)] := by
      rw [answers, answers, hc, hd, answersFrom_append, answersFrom_append, answersFrom, nothing,
        answersFrom_cons_of_none rfl, nothing, List.append_nil, Nat.zero_add]
    refine answered_of_append added fun p hp => ?_
    rw [List.mem_singleton.1 hp, isAnswered, hc]
    simp [Receipt.item?]

theorem answers_settle (n : Nat) : ∀ {c : Channel α}, Fair c →
    (settle step n c).answers = c.answers ++ restDeliveries n c := by
  induction n with
  | zero => intro c _; simp [settle, restDeliveries]
  | succ n ih =>
    intro c h
    rw [settle, restDeliveries]
    cases e : c.step with
    | none => simp
    | some d =>
      have m := Move.of_step e
      show (settle step n d).answers = c.answers ++ (answered c d ++ restDeliveries n d)
      rw [ih (h.move m), answers_move h m, List.append_assoc]

theorem Fair.act {c : Channel α} (h : Fair c) (a : Action α) : Fair (c.act a) := h.run [a]

/-- **Deliveries go by the order of issue**: they are what is added to the receives with items, from first to last. -/
theorem answers_run {c : Channel α} (h : Fair c) (actions : List (Action α)) :
    (c.run actions).answers = c.answers ++ c.deliveries actions := by
  induction actions generalizing c with
  | nil => simp [run, deliveries]
  | cons a rest ih =>
    have m := Move.of_call c a
    show ((c.act a).run rest).answers = _
    rw [ih (h.act a), act_eq, Channel.rest, answers_settle _ (h.move m), answers_move h m, deliveries]
    simp [act_eq, Channel.rest]

/-! ## What a channel leaves alone -/

/-- What a channel leaves alone when it moves on its own. -/
structure Alike (c d : Channel α) : Prop where
  capacity : d.capacity = c.capacity
  reachable : d.reachable = c.reachable
  closed : d.closed = c.closed
  submitted : d.submitted = c.submitted

theorem Alike.of_step {c d : Channel α} (h : c.step = some d) : Alike c d := by
  obtain ⟨a, queue, receives, _, _, rfl⟩ | rfl | ⟨a, sends, _, hs, rfl⟩ := step_cases h
  · exact ⟨rfl, rfl, rfl, rfl⟩
  · refine ⟨rfl, rfl, rfl, ?_⟩
    rw [Channel.submitted, List.map_map]
    exact List.map_congr_left fun s _ => confirmSend_item s
  · obtain ⟨front, s, back, e, _, _, _, rfl⟩ := exists_of_enterFirst hs
    exact ⟨rfl, rfl, rfl, by simp [Channel.submitted, e]⟩

theorem Alike.rest (c : Channel α) : Alike c c.rest := by
  refine settle_induction (P := Alike c) (fun d e h hs => ?_) _ _ ⟨rfl, rfl, rfl, rfl⟩
  have k := Alike.of_step hs
  exact ⟨k.capacity.trans h.capacity, k.reachable.trans h.reachable, k.closed.trans h.closed,
    k.submitted.trans h.submitted⟩

theorem submitted_call (c : Channel α) (a : Action α) : (c.call a).submitted = c.submitted ++ a.item?.toList := by
  cases a with
  | submit a => simp [call, submit, submitted, Action.item?]
  | receive => simp [call, receive, submitted, Action.item?]
  | withdraw i =>
    rw [call, withdraw]
    split <;> simp [submitted, Action.item?]
  | close =>
    rw [call, close]
    split
    · simp [Action.item?]
    · simp [submitted, Action.item?, Function.comp_def, endSend_item]

/-- What is submitted is what the history submits. -/
theorem submitted_run (c : Channel α) (actions : List (Action α)) :
    (c.run actions).submitted = c.submitted ++ actions.filterMap Action.item? := by
  induction actions generalizing c with
  | nil => simp [run]
  | cons a rest ih =>
    show ((c.act a).run rest).submitted = _
    rw [ih, act_eq, (Alike.rest _).submitted, submitted_call, List.append_assoc]
    cases a <;> rfl

theorem reachable_run (c : Channel α) (actions : List (Action α)) : (c.run actions).reachable = c.reachable := by
  induction actions generalizing c with
  | nil => rfl
  | cons a rest ih =>
    show ((c.act a).run rest).reachable = _
    rw [ih, act_eq, (Alike.rest _).reachable]
    cases a with
    | withdraw i => rw [call, withdraw]; split <;> rfl
    | close => rw [call, close]; split <;> rfl
    | _ => rfl

/-- A channel is open until it is closed. -/
theorem closed_run {c : Channel α} (h : c.closed = false) {actions : List (Action α)} (ha : .close ∉ actions) :
    (c.run actions).closed = false := by
  induction actions generalizing c with
  | nil => exact h
  | cons a rest ih =>
    obtain ⟨hne, hrest⟩ : Action.close ≠ a ∧ Action.close ∉ rest := by simpa using ha
    refine ih ?_ hrest
    rw [act_eq, (Alike.rest _).closed, ← h]
    cases a with
    | withdraw i => rw [call, withdraw]; split <;> rfl
    | close => exact absurd rfl hne
    | _ => rfl

/-! ## Before the channel is closed -/

/-- What is submitted to an open channel got in or is held. -/
theorem Fair.submitted_eq {c : Channel α} (h : Fair c) (ho : c.outside = .blocked) :
    c.submitted = c.accepted ++ c.held := by
  obtain ⟨front, back, hs, hf, hb⟩ := h.sends
  have hfront : front.filter (·.status = .blocked) = [] := by
    rw [List.filter_eq_nil_iff]
    intro s h e
    have := hf s h
    rw [of_decide_eq_true e] at this
    cases this
  have hback : back.filter (·.status = .blocked) = back := by
    rw [List.filter_eq_self]
    intro s h
    rw [hb s h, ho]
    rfl
  rw [accepted_of_sends hs hf hb, submitted, held, hs, List.filter_append, hfront, hback, List.map_append,
    List.nil_append]

/-- Of the receives of an open channel that were not withdrawn, the first have items and the others are pending. -/
theorem Fair.kept_receives {c : Channel α} (h : Fair c) (ho : c.closed = false) :
    ∃ n, c.receives.filter Receipt.isKept = c.obtained.map .item ++ List.replicate n .pending := by
  obtain ⟨front, back, e, hf, hb⟩ := h.receives
  have hu := h.unended ho
  rw [e] at hu
  have hback : ∀ r ∈ back.filter Receipt.isKept, r = .pending := by
    intro r hr
    obtain ⟨hr, hk⟩ := List.mem_filter.1 hr
    cases r with
    | pending => rfl
    | item a => cases hb _ hr
    | ended => exact absurd (List.mem_append_right _ hr) hu
    | withdrawn => cases hk
  have hfront : ∀ rs : List (Receipt α), .pending ∉ rs → .ended ∉ rs →
      rs.filter Receipt.isKept = (rs.filterMap Receipt.item?).map .item := by
    intro rs
    induction rs with
    | nil => intro _ _; rfl
    | cons r rs ih =>
      intro hp he
      have ih := ih (fun h => hp (List.mem_cons_of_mem _ h)) (fun h => he (List.mem_cons_of_mem _ h))
      cases r with
      | pending => exact absurd List.mem_cons_self hp
      | ended => exact absurd List.mem_cons_self he
      | item a => exact congrArg (.item a :: ·) ih
      | withdrawn => exact ih
  have nothing : back.filterMap Receipt.item? = [] := List.filterMap_eq_nil_iff.2 hb
  refine ⟨(back.filter Receipt.isKept).length, ?_⟩
  rw [obtained, e, List.filter_append, List.filterMap_append, nothing, List.append_nil,
    hfront front hf fun h => hu (List.mem_append_left _ h), ← List.eq_replicate_of_mem hback]

/-! ## After the channel is closed -/

theorem closed_of_move {c d : Channel α} (h : c.closed = true) (m : Move c d) : d.closed = true := by
  cases m with
  | withdraw i => rw [withdraw]; split <;> exact h
  | close => rw [close, if_pos h]; exact h
  | _ => exact h

theorem answered_eq_nil {c d : Channel α} (h : d.answers = c.answers) : answered c d = [] := by
  have := answered_of_append (show d.answers = c.answers ++ [] by rw [h, List.append_nil]) (by simp)
  rw [h] at this
  exact List.self_eq_append_right.1 this

/-- A closed channel delivers nothing on its own. -/
theorem restDeliveries_of_closed (n : Nat) : ∀ {c : Channel α}, Fair c → c.closed = true → restDeliveries n c = [] := by
  induction n with
  | zero => intro c _ _; rfl
  | succ n ih =>
    intro c h hc
    rw [restDeliveries]
    cases e : c.step with
    | none => rfl
    | some d =>
      have m := Move.of_step e
      show answered c d ++ restDeliveries n d = []
      rw [answered_eq_nil (answers_of_closed h hc m), ih (h.move m) (closed_of_move hc m), List.append_nil]

/-- **A closed channel delivers nothing any more.** -/
theorem deliveries_of_closed {c : Channel α} (h : Fair c) (hc : c.closed = true) (actions : List (Action α)) :
    c.deliveries actions = [] := by
  induction actions generalizing c with
  | nil => rfl
  | cons a rest ih =>
    have m := Move.of_call c a
    have hm := closed_of_move hc m
    have hact : (c.act a).closed = true := by rw [act_eq, (Alike.rest _).closed, hm]
    rw [deliveries, answered_eq_nil (answers_of_closed h hc m), restDeliveries_of_closed _ (h.move m) hm,
      ih (h.act a) hact]
    rfl

theorem deliveries_append (c : Channel α) (before after : List (Action α)) :
    c.deliveries (before ++ after) = c.deliveries before ++ (c.run before).deliveries after := by
  induction before generalizing c with
  | nil => rfl
  | cons a rest ih =>
    show _ ++ (c.act a).deliveries (rest ++ after) = (_ ++ (c.act a).deliveries rest) ++ _
    rw [ih]
    simp only [List.append_assoc]
    rfl

/-- Closing delivers nothing. -/
theorem deliveries_close {c : Channel α} (h : Fair c) (after : List (Action α)) :
    c.deliveries (.close :: after) = [] := by
  have hc : c.close.closed = true := by
    unfold close
    split
    · assumption
    · rfl
  have hrest : (c.act .close).closed = true := by rw [act_eq, (Alike.rest _).closed]; exact hc
  have hfair := h.move (.close c)
  show answered c c.close ++ restDeliveries c.close.load c.close ++ (c.act .close).deliveries after = []
  rw [answered_eq_nil (answers_close c), restDeliveries_of_closed _ hfair hc, deliveries_of_closed (h.act _) hrest]
  rfl

/-! ## Order -/

/-- **Items are delivered in order, none is lost and none is doubled**: while a channel is open, what was delivered,
what is queued and what blocked senders hold is what was submitted. The receives that were not withdrawn are answered in
the order in which they were issued. From closing on nothing is delivered. -/
theorem deliveries_in_order (capacity : Int) (before after : List (Action α)) (h : .close ∉ before) :
    let start : Channel α := { capacity }
    let delivered := start.deliveries before
    let c := start.run before
    delivered.map Prod.snd ++ c.queue ++ c.held = before.filterMap Action.item? ∧
      (∃ n, c.receives.filter Receipt.isKept = delivered.map (.item ·.2) ++ List.replicate n .pending) ∧
      (∀ r ∈ delivered, c.receives[r.1]? = some (.item r.2)) ∧
      delivered.Pairwise (·.1 < ·.1) ∧
      start.deliveries (before ++ .close :: after) = delivered ∧
      delivered.map Prod.snd <+: (before ++ .close :: after).filterMap Action.item? := by
  intro start delivered c
  have fair : Fair c := (Fair.new capacity true).run before
  have isOpen : c.closed = false := closed_run rfl h
  have isReachable : c.reachable = true := reachable_run start before
  have blocked : c.outside = .blocked := by simp [outside, isOpen, isReachable]
  have log : c.answers = delivered := answers_run (Fair.new capacity true) before
  have items : delivered.map Prod.snd = c.obtained := by rw [← log, map_answers]
  have whole : delivered.map Prod.snd ++ c.queue ++ c.held = before.filterMap Action.item? := by
    rw [items, ← fair.whole isOpen, ← fair.submitted_eq blocked]
    exact submitted_run start before
  obtain ⟨n, kept⟩ := fair.kept_receives isOpen
  refine ⟨whole, ⟨n, ?_⟩, fun r hr => ?_, ?_, ?_, ?_⟩
  · rw [kept, ← items, List.map_map]
    rfl
  · rw [← log] at hr
    exact (mem_answersFrom hr).2
  · rw [← log]
    exact pairwise_answersFrom c.receives 0
  · rw [deliveries_append, deliveries_close fair, List.append_nil]
  · rw [List.filterMap_append, ← whole, List.append_assoc, List.append_assoc]
    exact List.prefix_append ..

/-- Senders that wait, a receive that is withdrawn and items that closing drops. -/
theorem deliveries_in_order_of_waiting :
    let start : Channel Nat := { capacity := 1 }
    let before : List (Action Nat) := [.receive, .receive, .withdraw 0, .submit 7, .submit 8, .submit 9, .submit 10]
    .close ∉ before ∧ start.deliveries (before ++ .close :: [.receive, .submit 11]) = start.deliveries before ∧
      start.deliveries before = [(1, 7)] ∧ (start.run before).queue = [8] ∧ (start.run before).held = [9, 10] := by
  intro start before
  have h : .close ∉ before := by decide
  obtain ⟨_, _, _, _, final, _⟩ := deliveries_in_order 1 before [.receive, .submit 11] h
  exact ⟨h, final, by decide, by decide, by decide⟩

end Channel
end DirWatch

import DirWatch.Standstill

/-!
# Bounded channels

A channel hands items from senders to receivers in order. It holds at most `capacity` items, or any number when the
capacity is not positive; a sender that finds it full waits. Senders and receivers are numbered in order of arrival and
served in that order.

Between the calls of senders and receivers the channel moves on its own (`Channel.step`): an item goes to the first
pending receiver, senders whose item got in are told so, and the first blocked sender gets in when there is room. The
order of the three matters to whoever reacts to an item in between: an item reaches its receiver before its sender is
told, so a receiver that closes the channel at once turns the sender's answer into a refusal.

* **Close** (`Channel.close`): blocked senders are refused, queued items are dropped and one pending receiver is told.
* **Standstill** (`Channel.step_rest`): after `Channel.rest` the channel moves no further.
-/

namespace DirWatch

/-- How a send stands. -/
inductive SendStatus where
  /-- The sender waits for room. -/
  | blocked
  /-- The item got in and the sender is not told yet. -/
  | entered
  /-- The item got in and the sender is told. -/
  | sent
  /-- The channel was closed before the item got in. -/
  | refused
  /-- The item got in, and the channel was closed before the sender was told. -/
  | recalled
  deriving DecidableEq, Repr

/-- What the sender is told, once it is told. -/
def SendStatus.result? : SendStatus → Option Bool
  | .blocked => none
  | .entered => none
  | .sent => some true
  | .refused => some false
  | .recalled => some false

/-- An item with the status of its send. -/
structure Send (α : Type) where
  item : α
  status : SendStatus
  deriving DecidableEq, Repr

/-- How a receive stands. -/
inductive Receipt (α : Type) where
  | pending
  | item (a : α)
  | ended
  | withdrawn
  deriving DecidableEq, Repr

/-- A channel, with all sends and receives so far. -/
structure Channel (α : Type) where
  capacity : Int := 1
  /-- Whether senders can reach the receivers' side at all. -/
  reachable : Bool := true
  closed : Bool := false
  queue : List α := []
  sends : List (Send α) := []
  receives : List (Receipt α) := []
  deriving DecidableEq, Repr

namespace Channel
variable {α : Type}

/-! ## Calls -/

/-- A new sender arrives with an item. -/
def submit (c : Channel α) (item : α) : Channel α :=
  let status := if c.closed || !c.reachable then SendStatus.refused else .blocked
  { c with sends := c.sends ++ [⟨item, status⟩] }

/-- A new receiver arrives. -/
def receive (c : Channel α) : Channel α :=
  { c with receives := c.receives ++ [if c.closed then .ended else .pending] }

/-- Receiver `i` no longer waits. -/
def withdraw (c : Channel α) (i : Nat) : Channel α :=
  match c.receives[i]? with
  | some .pending => { c with receives := c.receives.set i .withdrawn }
  | _ => c

/-- What closing makes of a send. -/
def endSend (s : Send α) : Send α :=
  match s.status with
  | .blocked => { s with status := .refused }
  | .entered => { s with status := .recalled }
  | _ => s

/-- Gives the first pending receiver its answer, if one is pending. -/
def fillFirst? (r : Receipt α) : List (Receipt α) → Option (List (Receipt α))
  | [] => none
  | .pending :: rest => some (r :: rest)
  | s :: rest => (fillFirst? r rest).map (s :: ·)

/-- Closes the channel. Of the pending receivers only the first is told. -/
def close (c : Channel α) : Channel α :=
  if c.closed then c
  else
    { c with
      closed := true
      queue := []
      sends := c.sends.map endSend
      receives := (fillFirst? .ended c.receives).getD c.receives }

/-! ## Steps -/

/-- Whether another item fits. -/
def hasRoom (c : Channel α) : Bool := c.capacity ≤ 0 || (c.queue.length : Int) < c.capacity

/-- Hands the oldest item to the first pending receiver. -/
def deliver? (c : Channel α) : Option (Channel α) :=
  match c.queue with
  | [] => none
  | a :: rest => (fillFirst? (.item a) c.receives).map fun rs => { c with queue := rest, receives := rs }

/-- Tells one sender that its item got in. -/
def confirmSend (s : Send α) : Send α := if s.status = .entered then { s with status := .sent } else s

/-- Tells all senders whose item got in. -/
def confirm? (c : Channel α) : Option (Channel α) :=
  if c.sends.any (·.status = .entered) then some { c with sends := c.sends.map confirmSend } else none

/-- The item of the first blocked sender, and the sends once it is in. -/
def enterFirst? : List (Send α) → Option (α × List (Send α))
  | [] => none
  | s :: rest =>
    if s.status = .blocked then some (s.item, { s with status := .entered } :: rest)
    else (enterFirst? rest).map fun r => (r.1, s :: r.2)

/-- Lets the first blocked sender in when there is room. -/
def admit? (c : Channel α) : Option (Channel α) :=
  if c.hasRoom then
    (enterFirst? c.sends).map fun r => { c with queue := c.queue ++ [r.1], sends := r.2 }
  else none

/-- The next move of the channel on its own. -/
def step (c : Channel α) : Option (Channel α) :=
  match c.deliver? with
  | some d => some d
  | none =>
    match c.confirm? with
    | some d => some d
    | none => c.admit?

/-! ## Standstill -/

/-- How many moves a send has ahead of it, at most. -/
def sendLoad (s : Send α) : Nat :=
  match s.status with
  | .blocked => 3
  | .entered => 1
  | _ => 0

/-- A bound on the moves that the channel has ahead of it. -/
def load (c : Channel α) : Nat := total sendLoad c.sends + c.queue.length

/-- The channel once it moves no further. -/
def rest (c : Channel α) : Channel α := settle step c.load c

/-- Telling a sender adds no moves. -/
theorem sendLoad_confirmSend_le (s : Send α) : sendLoad (confirmSend s) ≤ sendLoad s := by
  obtain ⟨item, status⟩ := s
  cases status <;> simp [confirmSend, sendLoad]

/-- Telling senders adds no moves. -/
theorem total_confirmSend_le (ss : List (Send α)) : total sendLoad (ss.map confirmSend) ≤ total sendLoad ss := by
  induction ss with
  | nil => simp
  | cons s rest ih =>
    have := sendLoad_confirmSend_le s
    simp only [List.map_cons, total_cons]
    omega

/-- Telling a sender whose item got in takes one move. -/
theorem total_confirmSend_lt {ss : List (Send α)} (h : ∃ s ∈ ss, s.status = .entered) :
    total sendLoad (ss.map confirmSend) < total sendLoad ss := by
  induction ss with
  | nil => simp at h
  | cons s rest ih =>
    have hs := sendLoad_confirmSend_le s
    have hr := total_confirmSend_le rest
    simp only [List.map_cons, total_cons]
    by_cases e : s.status = .entered
    · have : sendLoad (confirmSend s) < sendLoad s := by simp [confirmSend, sendLoad, e]
      omega
    · have := ih (by simpa [e] using h)
      omega

/-- A sender that gets in takes two moves from the sends. -/
theorem total_enterFirst {ss : List (Send α)} {r : α × List (Send α)} (h : enterFirst? ss = some r) :
    total sendLoad r.2 + 2 = total sendLoad ss := by
  induction ss generalizing r with
  | nil => simp [enterFirst?] at h
  | cons s rest ih =>
    unfold enterFirst? at h
    split at h
    · rename_i hs
      cases h
      simp [sendLoad, hs]
      omega
    · obtain ⟨q, hq, rfl⟩ := Option.map_eq_some_iff.1 h
      have := ih hq
      simp only [total_cons]
      omega

/-- Every move lowers the load. -/
theorem load_step {c d : Channel α} (h : c.step = some d) : d.load < c.load := by
  unfold step at h
  split at h
  · rename_i e hd
    cases h
    unfold deliver? at hd
    split at hd
    · cases hd
    · rename_i a rest hq
      obtain ⟨rs, -, rfl⟩ := Option.map_eq_some_iff.1 hd
      simp [load, hq]
  · split at h
    · rename_i e hc
      cases h
      unfold confirm? at hc
      split at hc
      · rename_i hany
        cases hc
        have := total_confirmSend_lt (by simpa using hany : ∃ s ∈ c.sends, s.status = .entered)
        simp only [load]
        omega
      · cases hc
    · unfold admit? at h
      split at h
      · obtain ⟨r, hr, rfl⟩ := Option.map_eq_some_iff.1 h
        have := total_enterFirst hr
        simp only [load, List.length_append, List.length_singleton]
        omega
      · cases h

/-- A channel at rest moves no further. -/
theorem step_rest (c : Channel α) : c.rest.step = none :=
  step_settle (fun _ _ => load_step) c.load c (Nat.le_refl _)

/-! ## Histories -/

/-- A call on a channel. -/
inductive Action (α : Type) where
  | submit (item : α)
  | receive
  | withdraw (i : Nat)
  | close
  deriving DecidableEq, Repr

/-- Makes a call and lets the channel come to rest. -/
def act (c : Channel α) : Action α → Channel α
  | .submit item => (c.submit item).rest
  | .receive => c.receive.rest
  | .withdraw i => (c.withdraw i).rest
  | .close => c.close.rest

/-- Makes calls in order, each once the channel is at rest. -/
def run (c : Channel α) (actions : List (Action α)) : Channel α := actions.foldl act c

end Channel
end DirWatch

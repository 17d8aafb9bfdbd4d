import DirWatch.Event

/-!
# Messages to a session

What the notifier's side puts into the channel of a session: events, and at the end of its life the failure that ended
it.
-/

namespace DirWatch

/-- A message of the notifier's side: an event, or the wording of its failure. -/
inductive Message where
  | event (e : Event)
  | failure (message : Text)
  deriving DecidableEq, Repr

end DirWatch

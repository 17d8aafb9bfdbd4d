import DirWatch.Failure
import DirWatch.Number.Binary64

/-!
# Watch options

The options of one watch: the pattern a path must match, whether directories below the root are watched too, which
types of path are reported, and how the polling notifier is used. Options always hold a compiled pattern.

* **Poll interval** (`Options.pollInterval?`): the double nearest to the interval, which a large interval does not have.
-/

namespace DirWatch

/-- The seconds between two scans when none are given. -/
def defaultInterval : Nat := 30

/-- The options of a watch. An `interval` of `none` was given as such and stands for the default. -/
structure Options where
  pattern : Pattern
  recursive : Bool := false
  watchFiles : Bool := true
  watchDirectories : Bool := true
  interval : Option Nat := some defaultInterval
  poll : Bool := false
  deriving DecidableEq

namespace Options

/-- The seconds between two scans of the polling notifier, as a double. -/
def pollInterval? (o : Options) : Option Nat := Binary64.ofNat? (o.interval.getD defaultInterval)

end Options
end DirWatch

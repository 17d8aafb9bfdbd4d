import DirWatch.Main
import DirWatch.Session.Standstill
import DirWatch.System.Errno
import DirWatch.Proofs.Glob.Language
import DirWatch.Proofs.Glob.Faults
import DirWatch.Proofs.Glob.Refusal
import DirWatch.Proofs.Options.Acceptance
import DirWatch.Proofs.Session.Flow
import DirWatch.Proofs.Watcher.Lifecycle
import DirWatch.Proofs.Channel.Closing
import DirWatch.Proofs.Channel.Blocking
import DirWatch.Proofs.Watcher.Failures
import DirWatch.Proofs.Session.Deeds
import DirWatch.Proofs.Session.Course
import DirWatch.Proofs.Session.Teardown
import DirWatch.Proofs.Session.Lifecycle
import DirWatch.Proofs.Session.Unhandled
import DirWatch.Proofs.Watcher.Supervision
import DirWatch.Proofs.Watcher.Hearings
import DirWatch.Proofs.Watcher.Registration
import DirWatch.Proofs.Watcher.Selection
import DirWatch.Proofs.Session.Fence
import DirWatch.Proofs.Host.Handlers
import DirWatch.Proofs.Command.Output
import DirWatch.Proofs.Watcher.Echoes
import DirWatch.Proofs.Filter.Kept
import DirWatch.Proofs.Scheduler.Handling
import DirWatch.Proofs.Scheduler.Waiting
import DirWatch.Proofs.Watcher.Interval
import DirWatch.Proofs.Text.Lossy
import DirWatch.Proofs.Number.Rounding
import DirWatch.Proofs.Path.Canonical

import DirWatch.Text.Quoted

/-!
# Errors of the operating system

An error carries nothing, a bare message, or an error number with its wording. The number decides the kind of the
error, and two kinds mean that a path is absent.

* **Reason** (`OsError.reason`): the wording, or failing that the whole message.
* **Absence** (`OsError.meansAbsent`).
-/

namespace DirWatch

/-- An error of a system call. -/
inductive OsError where
  | bare
  | message (text : Text)
  | coded (number : Int) (wording : Option Text) (file : Option Text)
  deriving DecidableEq, Repr

/-- The kinds of error that are told apart by number. -/
inductive OsError.Kind where
  | notFound
  | notADirectory
  | permission
  | exists
  | isADirectory
  | interrupted
  | noChild
  | brokenPipe
  | timedOut
  | wouldBlock
  | noProcess
  | connectionAborted
  | connectionRefused
  | connectionReset
  | other
  deriving DecidableEq, Repr

namespace OsError

/-- The kind that goes with an error number. -/
def Kind.ofNumber (n : Int) : Kind :=
  if n = 2 then .notFound
  else if n = 20 then .notADirectory
  else if n = 1 ∨ n = 13 then .permission
  else if n = 17 then .exists
  else if n = 21 then .isADirectory
  else if n = 4 then .interrupted
  else if n = 10 then .noChild
  else if n = 32 ∨ n = 108 then .brokenPipe
  else if n = 110 then .timedOut
  else if n = 11 ∨ n = 114 ∨ n = 115 then .wouldBlock
  else if n = 3 then .noProcess
  else if n = 103 then .connectionAborted
  else if n = 111 then .connectionRefused
  else if n = 104 then .connectionReset
  else .other

/-- The kind of an error; one without a number is of no special kind. -/
def kind : OsError → Kind
  | .coded number _ _ => .ofNumber number
  | _ => .other

/-- Whether an error says that there is nothing at a path. -/
def meansAbsent (e : OsError) : Bool := e.kind = .notFound || e.kind = .notADirectory

/-- The wording that goes with the error number. -/
def wording : OsError → Option Text
  | .coded _ wording _ => wording
  | _ => none

/-- The whole message. -/
def text : OsError → Text
  | .bare => []
  | .message t => t
  | .coded number wording file =>
    "[Errno " ++ Text.ofInt number ++ "] " ++ wording.getD "None" ++
      match file with
      | some f => ": " ++ f.quoted
      | none => []

/-- The reason to give for a failure: the wording if there is one, else the whole message. -/
def reason (e : OsError) : Text :=
  match e.wording with
  | some (s :: rest) => s :: rest
  | _ => e.text

end OsError

/-- What a call to the surroundings may fail with: a system error, or a fault of the caller's own machinery. -/
inductive Fault where
  | os (e : OsError)
  | broken (message : Text)
  deriving DecidableEq, Repr

end DirWatch

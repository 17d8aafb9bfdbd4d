import DirWatch.Command.Run
import DirWatch.Proofs.Command.Toolkit
import DirWatch.Proofs.Host.Ended
import DirWatch.Proofs.Host.Handlers
import DirWatch.Proofs.Text.Codes

/-!
# The command line agrees with a host

A command and a host that asks for the same watch have the same session (`WatchRequest.AskedBy.ofValues`), so they see
the same of whatever happens. The command stops when its watch ends, and how it ended stays so for the host
(`ending_proceed`). Hence the status of the command and what it tells say how the watch of the host stands
(`outcome_agrees_with_watch`).

The toolkit has its own say in two places. It refuses a path that may not be read, before there is a watch, and it takes
the codes out of a line that is not for a terminal (`told_as_it_is`).
-/

namespace DirWatch
namespace Command

/-! ## What a request asks for -/

/-- The options that a request asks for, or what is wrong with its pattern. -/
def WatchRequest.options? (r : WatchRequest) : Except ConfigError Options :=
  if r.pattern = [] then .error .emptyPattern
  else
    match Pattern.ofText? r.pattern with
    | .error e => .error (.badPattern r.pattern e)
    | .ok pattern => .ok {
        pattern
        recursive := r.recursive
        watchFiles := r.files
        watchDirectories := r.directories
        interval := some r.interval
        poll := r.poll }

/-- The registry of the handlers that print. -/
def printing : Registry Text where
  added := some Category.added.key
  read := some Category.read.key
  removed := some Category.removed.key
  changed := some Category.changed.key

/-- The values with which a host asks for the watch of a request. -/
structure WatchRequest.AskedBy (r : WatchRequest) (root options handlers : Value) : Prop where
  root : Session.rootOf? root = .ok r.root
  options : Options.ofValue? options = r.options?.mapError .config
  handlers : Registry.ofValue? handlers = .ok printing

/-- The handlers that the command gives are those that print. -/
theorem ofValue_handlerEntries : Registry.ofValue? (.ofPairs handlerEntries) = .ok printing := rfl

/-- The options that the command gives are those that it was asked for. -/
theorem ofValue_optionEntries {r : WatchRequest} (pos : 0 < r.interval) :
    Options.ofValue? (.ofPairs r.optionEntries) = r.options?.mapError .config := by
  have entries : Value.ofPairs r.optionEntries = .mapping r.optionEntries := rfl
  have given : Given.ofEntries? {} r.optionEntries = .ok {
      pattern := some (.text r.pattern)
      recursive := some (.bool r.recursive)
      watchFiles := some (.bool r.files)
      watchDirectories := some (.bool r.directories)
      interval := some (.int r.interval)
      poll := some (.bool r.poll) } := rfl
  have interval : Options.interval? (some (.int r.interval)) = .ok (some r.interval) :=
    if_neg (by omega : ¬ (r.interval : Int) ≤ 0)
  rw [entries]
  show (Given.ofEntries? {} r.optionEntries >>= fun g => (Options.ofGiven? g).mapError .config) = _
  rw [given]
  refine congrArg (Except.mapError Failure.config) ?_
  unfold WatchRequest.options? Options.ofGiven?
  cases text : r.pattern with
  | nil => rfl
  | cons c rest =>
    rw [interval]
    rfl

/-- The values that the command gives ask for the watch. The root may be given as its text as well. -/
theorem WatchRequest.askedBy_entries {r : WatchRequest} (pos : 0 < r.interval) {root : Value}
    (path : Session.rootOf? root = .ok r.root) :
    r.AskedBy root (.ofPairs r.optionEntries) (.ofPairs handlerEntries) :=
  ⟨path, ofValue_optionEntries pos, ofValue_handlerEntries⟩

/-! ## The same watch -/

variable {r : WatchRequest} {root options handlers : Value}

/-- The session for a request, whoever asks for it. -/
theorem WatchRequest.AskedBy.ofValues (asked : r.AskedBy root options handlers) :
    Session.ofValues? root options handlers =
      r.options?.mapError .config >>= fun options => .ok (Session.fresh r.root options printing) := by
  rw [Session.ofValues_eq, asked.root, asked.options, asked.handlers]
  rfl

/-- A host that asks for the watch of a request does so as the command does. -/
theorem call_watch_eq (pos : 0 < r.interval) (asked : r.AskedBy root options handlers) (h : Host) :
    h.call (.watch root options handlers) =
      h.call (.watch (.path r.root) (.ofPairs r.optionEntries) (.ofPairs handlerEntries)) := by
  dsimp only [Host.call]
  rw [asked.ofValues, (WatchRequest.askedBy_entries pos rfl).ofValues]

/-- The host of a command asks for the watch of its request and goes on. -/
theorem plays_begin (r : WatchRequest) (site : Site) (actions : List Host.Action) :
    Host.Plays { site, kinds := Category.all.map fun c => (c.key, .plain) }
      (.watch (.path r.root) (.ofPairs r.optionEntries) (.ofPairs handlerEntries) :: actions)
      ((r.begin site).acts actions) := by
  have plays := Host.plays_acts (h := { site, kinds := Category.all.map fun c => (c.key, .plain) }) (.new rfl rfl rfl)
    rfl (.watch (.path r.root) (.ofPairs r.optionEntries) (.ofPairs handlerEntries) :: actions)
  rwa [Host.acts, List.foldl_cons] at plays

/-- **A host that asks for the watch of a request comes to what the command comes to**, but for its handlers. -/
theorem silenced_eq_of_begin (pos : 0 < r.interval) (asked : r.AskedBy root options handlers) {site : Site}
    {kinds : List (Text × Handler.Kind)} {actions : List Host.Action} {h : Host}
    (plays : Host.Plays { site, kinds } (.watch root options handlers :: actions) h) :
    h.silenced = ((r.begin site).acts actions).silenced :=
  Host.silenced_eq_of_plays (by rfl) (plays.of_call_eq rfl (call_watch_eq pos asked _))
    (plays_begin r site actions)

/-! ## The end of a watch -/

/-- How a run ended, if it did. -/
def endOf? : RunStatus → Option Ending
  | .pending => none
  | .returned => some .returned
  | .failed .cancelled => some .cancelled
  | .failed f => some (.failed f)

theorem ending_eq (h : Host) : ending? h = h.runs.head?.bind endOf? := by
  unfold ending?
  cases h.runs.head? with
  | none => rfl
  | some status =>
    cases status with
    | pending => rfl
    | returned => rfl
    | failed f => cases f <;> rfl

/-- A watch that has ended stays so. -/
theorem ending_acts {h : Host} (flow : h.Flowing) {e : Ending} (ended : ending? h = some e)
    (actions : List Host.Action) : ending? (h.acts actions) = some e := by
  rw [ending_eq, List.head?_eq_getElem?] at ended ⊢
  obtain ⟨status, first, ended⟩ := Option.bind_eq_some_iff.1 ended
  have final : status ≠ .pending := by
    rintro rfl
    cases ended
  have since := (Host.kept_since h).acts (.refl flow) actions
  rw [since.ends 0 status first final]
  exact ended

/-- **Stopping at the end of a watch loses nothing of how it ends.** -/
theorem ending_proceed {h : Host} (flow : h.Flowing) (actions : List Host.Action) :
    ending? (proceed h actions) = ending? (h.acts actions) := by
  induction actions generalizing h with
  | nil => rfl
  | cons a rest ih =>
    unfold proceed
    cases ended : ending? h with
    | none => exact ih (Host.flowing_act flow)
    | some e => exact ended.trans (ending_acts flow ended (a :: rest)).symm

/-! ## What a command leaves behind -/

/-- What a command line leaves behind on a site when actions come: nothing yet while its watch goes on. -/
def Toolkit.outcome? (k : Toolkit) (terminals : Terminals) (env : Environment) (words : List Text) (site : Site)
    (actions : List Host.Action) : Option Outcome :=
  match k.read site.table env words with
  | .error e => some e.outcome
  | .ok .version => some { status := 0, output := versionLine }
  | .ok (.watch r) =>
    let h := proceed (r.begin site) actions
    (ending? h).map (k.outcome terminals (k.printed terminals.output h.scheduler.log))

/-- What is left of a text on a stream: its codes are for terminals. -/
def visible (terminal : Bool) (t : Text) : Text := if terminal then t else t.withoutCodes

theorem visible_eq_self_iff (terminal : Bool) (t : Text) : visible terminal t = t ↔ terminal = true ∨ ¬ t.HasCode := by
  cases terminal with
  | true => simp [visible]
  | false => simp [visible, Text.withoutCodes_eq_self_iff]

theorem Toolkit.Documented.echo_eq {k : Toolkit} (documented : k.Documented) (terminal : Bool) (line : Text) :
    k.echo terminal line = visible terminal line ++ [.newline] := by
  cases terminal with
  | true => exact documented.echo_terminal line
  | false => exact documented.echo_other line

/-- **A failure is told as it is** on a terminal, and elsewhere if there is no code in it. -/
theorem told_as_it_is (terminal : Bool) (f : Failure) :
    visible terminal (errorLine f) = errorLine f ↔ terminal = true ∨ ¬ f.message.HasCode := by
  have parts : (errorLine f).withoutCodes = "❌ Error: " ++ f.message.withoutCodes :=
    Text.withoutCodes_append_cons (c := .char ' ') (by decide) "❌ Error:" f.message
  rw [← visible_eq_self_iff]
  cases terminal with
  | true => simp [visible]
  | false =>
    rw [visible, visible, if_neg Bool.false_ne_true, if_neg Bool.false_ne_true, parts, errorLine]
    simp

section Left
variable (k : Toolkit) (terminals : Terminals) (output : Text)

/-- What a run leaves behind that stands so, with what was printed. -/
def leftOf? (status : RunStatus) : Option Outcome := (endOf? status).map (k.outcome terminals output)

/-- A failure is told or left to the surroundings. -/
theorem leftOf_failed {f : Failure} (other : f ≠ .cancelled) : leftOf? k terminals output (.failed f) = some (
    if f.isWatchFailure then { status := 1, output, errors := k.echo terminals.errors (errorLine f) }
    else { status := 1, output, unhandled := some f }) := by
  cases f with
  | cancelled => exact absurd rfl other
  | _ => rfl

/-- A failure of the watch is told in one line, and nothing else is. -/
theorem leftOf_told_iff (status : RunStatus) (line : Text) :
    (∃ f, status = .failed f ∧ f.isWatchFailure = true ∧ k.echo terminals.errors (errorLine f) = line) ↔
      ∃ printed, leftOf? k terminals output status = some { status := 1, output := printed, errors := line } := by
  constructor
  · rintro ⟨f, rfl, own, rfl⟩
    have other : f ≠ .cancelled := by
      rintro rfl
      cases own
    exact ⟨output, by rw [leftOf_failed k terminals output other, if_pos own]⟩
  · rintro ⟨printed, left⟩
    cases status with
    | pending => cases left
    | returned => cases left
    | failed f =>
      by_cases cancelled : f = .cancelled
      · subst cancelled
        cases left
      · rw [leftOf_failed k terminals output cancelled] at left
        have left := Option.some.inj left
        split at left
        · rename_i own
          exact ⟨f, rfl, own, congrArg Outcome.errors left⟩
        · cases congrArg Outcome.unhandled left

/-- All is well when the run returned or was cancelled. -/
theorem leftOf_well_iff (status : RunStatus) :
    (∃ left, leftOf? k terminals output status = some left ∧ left.status = 0) ↔
      status = .returned ∨ status = .failed .cancelled := by
  constructor
  · rintro ⟨left, e, well⟩
    cases status with
    | pending => cases e
    | returned => exact Or.inl rfl
    | failed f =>
      by_cases cancelled : f = .cancelled
      · exact Or.inr (congrArg _ cancelled)
      · rw [leftOf_failed k terminals output cancelled] at e
        cases e
        split at well <;> cases well
  · rintro (rfl | rfl)
    · exact ⟨_, rfl, rfl⟩
    · exact ⟨_, rfl, rfl⟩

/-- Nothing is left behind while the run goes on. -/
theorem leftOf_eq_none_iff (status : RunStatus) : leftOf? k terminals output status = none ↔ status = .pending := by
  constructor
  · intro e
    cases status with
    | pending => rfl
    | returned => cases e
    | failed f =>
      by_cases cancelled : f = .cancelled
      · subst cancelled
        cases e
      · rw [leftOf_failed k terminals output cancelled] at e
        cases e
  · rintro rfl
    rfl

end Left

/-- Asking for a watch is an attempt at a run, whatever comes of it. -/
theorem attempts_act_watch (h : Host) (root options handlers : Value) :
    (h.act (.watch root options handlers)).attempts ≠ [] := by
  refine Host.kept_attempts.rest (Host.kept_attempts.wake ?_)
  dsimp only [Host.call]
  cases Session.ofValues? root options handlers with
  | error e => simp
  | ok s => simp [Host.runSession, Host.addSession]

/-- What a command leaves behind is what the run of a host leaves behind that asked for the same watch. -/
theorem outcome_eq {k : Toolkit} (terminals : Terminals) {env : Environment} {words : List Text} {site : Site}
    (read : k.read site.table env words = .ok (.watch r)) (pos : 0 < r.interval)
    (asked : r.AskedBy root options handlers) {kinds : List (Text × Handler.Kind)} {actions : List Host.Action}
    {h : Host} (plays : Host.Plays { site, kinds } (.watch root options handlers :: actions) h) :
    ∃ output status, h.runs.head? = some status ∧
      k.outcome? terminals env words site actions = leftOf? k terminals output status := by
  have runs : h.runs = ((r.begin site).acts actions).runs := by
    rw [← Host.runs_silenced, silenced_eq_of_begin pos asked plays, Host.runs_silenced]
  have flow : (r.begin site).Flowing := Host.flowing_act fun s hs => by cases hs
  have ending : ending? (proceed (r.begin site) actions) = h.runs.head?.bind endOf? := by
    rw [ending_proceed flow, ending_eq, runs]
  have attempts : ((r.begin site).acts actions).attempts ≠ [] :=
    Host.kept_attempts.acts (attempts_act_watch _ _ _ _) actions
  obtain ⟨status, first⟩ : ∃ status, h.runs.head? = some status := by
    obtain ⟨attempt, later, e⟩ := List.exists_cons_of_ne_nil attempts
    exact ⟨_, by rw [runs, Host.runs_eq, e, List.map_cons, List.head?_cons]⟩
  refine ⟨k.printed terminals.output (proceed (r.begin site) actions).scheduler.log, status, first, ?_⟩
  rw [Toolkit.outcome?, read]
  dsimp only
  rw [ending, first, Option.bind_some]
  rfl

/-- **The command line agrees with a host.** Let a toolkit do as it says, and read words as a request for a watch where
no file is in its way. Let a host ask for the same watch: with the root of the request, with options that read as the
request's and with handlers for all categories, such as the command gives itself (`WatchRequest.askedBy_entries`),
however these handlers behave and whichever side its loop lets go first. Let the same happen to both on one site.

If something is in the way at a path of the request, such as a root that may not be read (`Toolkit.bars`), the command
ends with status 2, and there is no watch. Else the watch of the host has failed with a failure of its own exactly when
the command has ended with status 1 and has told this failure, once and nothing else, on its stream for errors; it has
returned or was cancelled exactly when the command has ended well; and it goes on exactly while the command does. A
terminal shows the failure as it is told, and any other stream shows it without the codes in it. -/
theorem outcome_agrees_with_watch (k : Toolkit) (documented : k.Documented) (terminals : Terminals) (env : Environment)
    (words : List Text) (r : WatchRequest) (valid : k.read {} env words = .ok (.watch r))
    (root options handlers : Value) (asked : r.AskedBy root options handlers) (site : Site)
    (kinds : List (Text × Handler.Kind)) (actions : List Host.Action) (h : Host)
    (plays : Host.Plays { site, kinds } (.watch root options handlers :: actions) h) :
    let left? := k.outcome? terminals env words site actions
    (k.bars site.table r = true → ∃ left, left? = some left ∧ left.status = 2 ∧ left.output = []) ∧
    (k.bars site.table r = false →
      (∀ line, (∃ f, h.runs.head? = some (.failed f) ∧ f.isWatchFailure = true ∧
          visible terminals.errors (errorLine f) ++ [.newline] = line) ↔
        ∃ output, left? = some { status := 1, output, errors := line }) ∧
      ((∃ left, left? = some left ∧ left.status = 0) ↔
        h.runs.head? = some .returned ∨ h.runs.head? = some (.failed .cancelled)) ∧
      (left? = none ↔ h.runs.head? = some .pending)) ∧
    ∀ f, visible terminals.errors (errorLine f) = errorLine f ↔ terminals.errors = true ∨ ¬ f.message.HasCode := by
  intro left?
  refine ⟨fun barred => ?_, fun unbarred => ?_, told_as_it_is terminals.errors⟩
  · obtain ⟨e, refused⟩ := documented.barred valid barred
    refine ⟨Refusal.outcome (.usage e), ?_, rfl, rfl⟩
    show k.outcome? terminals env words site actions = _
    rw [Toolkit.outcome?, refused]
  · obtain ⟨output, status, first, left⟩ :=
      outcome_eq terminals (documented.unbarred valid unbarred) (documented.interval_pos valid) asked plays
    have left : left? = leftOf? k terminals output status := left
    simp only [first, left, Option.some.injEq, ← documented.echo_eq]
    exact ⟨leftOf_told_iff k terminals output status, leftOf_well_iff k terminals output status,
      leftOf_eq_none_iff k terminals output status⟩

/-- The emitter of an observer dies: the watch of the host fails, and the command tells it. -/
theorem outcome_agrees_when_emitter_dies :
    let r : WatchRequest := { rootText := "src", recursive := true }
    let site : Site := { table := ⟨[("src", .present 0o040755 true)]⟩ }
    let message : Text := "File watcher failed: event emitter stopped (the watched path may have been removed)"
    let watch : Host.Action := .watch (.text "src") (.ofPairs r.optionEntries) (.ofPairs handlerEntries)
    let h := ({ site } : Host).acts [watch, .kill .emitter]
    Toolkit.standard.Documented ∧ Toolkit.standard.read {} [] ["watch", "-r", "src"] = .ok (.watch r) ∧
    Toolkit.standard.bars site.table r = false ∧
    r.AskedBy (.text "src") (.ofPairs r.optionEntries) (.ofPairs handlerEntries) ∧
    Host.Plays { site } [watch, .kill .emitter] h ∧ h.runs.head? = some (.failed (.notifier message)) ∧
    ∃ output, Toolkit.standard.outcome? {} [] ["watch", "-r", "src"] site [.kill .emitter] =
      some { status := 1, output, errors := "❌ Error: " ++ message ++ "\n" } := by
  intro r site message watch h
  have documented := Toolkit.standard_documented
  have valid : Toolkit.standard.read {} [] ["watch", "-r", "src"] = .ok (.watch r) := rfl
  have unbarred : Toolkit.standard.bars site.table r = false := by decide
  have asked : r.AskedBy (.text "src") (.ofPairs r.optionEntries) (.ofPairs handlerEntries) :=
    WatchRequest.askedBy_entries (by decide) rfl
  have plays : Host.Plays { site } [watch, .kill .emitter] h := Host.plays_acts (.new rfl rfl rfl) rfl _
  have died : h.runs.head? = some (.failed (.notifier message)) := by decide +kernel
  have agrees := outcome_agrees_with_watch .standard documented {} [] ["watch", "-r", "src"] r valid _ _ _ asked site []
    [.kill .emitter] h plays
  refine ⟨documented, valid, unbarred, asked, plays, died, ?_⟩
  exact ((agrees.2.1 unbarred).1 _).1 ⟨_, died, rfl, by decide +kernel⟩

/-- Two failures that the command does not tell as the watch has them: of a pattern with a code in it, on a stream that
is no terminal, and of a root that may not be read. -/
theorem failures_told_otherwise :
    let directory (readable : Bool) : FileTable := ⟨[("w", .present 0o040755 readable)]⟩
    let ended (r : WatchRequest) (table : FileTable) : Option RunStatus :=
      (({ site := { table } } : Host).act
        (.watch (.text "w") (.ofPairs r.optionEntries) (.ofPairs handlerEntries))).runs.head?
    let left (words : List Text) (table : FileTable) := Toolkit.standard.outcome? {} [] words { table } []
    let unclosed : Failure := .config (.badPattern "[\x1b[ma" (.unclosedClass 0))
    (ended { rootText := "w", pattern := "[\x1b[ma" } (directory true) = some (.failed unclosed) ∧
      errorLine unclosed = "❌ Error: Invalid glob pattern '[\x1b[ma': unclosed character class at position 0" ∧
      left ["watch", "w", "-p", "[\x1b[ma"] (directory true) = some {
        status := 1
        errors := "❌ Error: Invalid glob pattern '[a': unclosed character class at position 0\n" }) ∧
    ended { rootText := "w" } (directory false) = some (.failed (.registration (.ofText "w") "permission denied")) ∧
      left ["watch", "w"] (directory false) = some { status := 2 } := by
  decide +kernel

end Command
end DirWatch

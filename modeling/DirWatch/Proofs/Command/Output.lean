import DirWatch.Proofs.Command.Agreement

/-!
# What a command prints

The handlers of a command are plain functions, and they print. The loop calls them in the order in which the session
handed the calls over, whatever the session does in between, and at a standstill all of them were made. So the output is
the lines of these calls, in order (`Printing`).

A stream that is no terminal shows a line without the codes in it, which are those of the names, since no code goes
across what stands between names (`visible_outputLine`). A newline in a name is printed as it stands. Hence the output
has as many lines more than there were calls as there are newlines in the names, and it reads as the lines of the calls
exactly when no name holds a newline or a code that is taken out (`output_of_calls`).
-/

namespace DirWatch

/-! ## Lines of texts -/

/-- The lines of a text; what stands behind the last newline is no line. -/
def Text.lines (t : Text) : List Text := (t.splitOn .newline).dropLast

namespace Text

/-- A text has one piece more than newlines. -/
theorem length_splitOn (t : Text) : (t.splitOn .newline).length = t.count .newline + 1 := by
  rw [List.splitOn_eq_splitOnP]
  induction t with
  | nil => rfl
  | cons c t ih =>
    rw [List.splitOnP_cons_eq_if_modifyHead, List.count_cons]
    split
    · rw [List.length_cons, ih]
    · rw [List.length_modifyHead, ih, Nat.add_zero]

/-- A text has a line for each newline. -/
theorem length_lines (t : Text) : t.lines.length = t.count .newline := by
  rw [lines, List.length_dropLast, length_splitOn, Nat.add_sub_cancel]

/-- The pieces in front of a newline are lines. -/
theorem lines_append (t rest : Text) : lines (t ++ .newline :: rest) = t.splitOn .newline ++ lines rest := by
  simp only [lines, List.splitOn_eq_splitOnP]
  rw [List.splitOnP_append_cons t rest (p := (· == .newline)) (beq_self_eq_true Symbol.newline)]
  exact List.dropLast_append_of_ne_nil (List.splitOnP_ne_nil _ _)

section Written
variable {α : Type} (f : α → Text) (l : List α)

theorem count_written :
    (l.flatMap fun a => f a ++ [.newline]).count .newline = l.length + (l.flatMap f).count .newline := by
  induction l with
  | nil => rfl
  | cons a l ih =>
    have one : [Symbol.newline].count .newline = 1 := rfl
    simp only [List.flatMap_cons, List.count_append, List.length_cons, ih, one]
    omega

theorem lines_written : lines (l.flatMap fun a => f a ++ [.newline]) = l.flatMap fun a => (f a).splitOn .newline := by
  induction l with
  | nil => rfl
  | cons a l ih => rw [List.flatMap_cons, List.append_assoc, List.singleton_append, lines_append, ih, List.flatMap_cons]

/-- **Texts that are written with a newline behind each are read back** exactly when no newline stands in them. -/
theorem lines_written_eq_map_iff :
    lines (l.flatMap fun a => f a ++ [.newline]) = l.map f ↔ Symbol.newline ∉ l.flatMap f := by
  constructor
  · intro same
    have length := congrArg List.length same
    rw [length_lines, count_written, List.length_map] at length
    exact List.count_eq_zero.1 (by omega)
  · intro whole
    rw [lines_written, List.map_eq_flatMap]
    refine List.flatMap_congr fun a ha => ?_
    rw [List.splitOn_eq_splitOnP]
    refine List.splitOnP_eq_singleton fun c hc => ?_
    exact beq_eq_false_iff_ne.2 fun e => whole (List.mem_flatMap.2 ⟨a, ha, e ▸ hc⟩)

end Written

end Text

/-! ## Calls of plain functions -/

namespace Scheduler

variable {s s' : Scheduler} {calls : List Dispatch}

/-- A scheduler of plain functions: those in the log were called, those that are ready will be, in order. -/
structure Plain (s : Scheduler) (calls : List Dispatch) : Prop where
  tasks : s.tasks = []
  inOrder : ∃ done waiting, calls = done ++ waiting ∧
    s.log.Forall₂ (fun e d => e.handler = d.handler ∧ e.deed = .called d.paths) done ∧
    s.ready.Forall₂ (fun j d => ∃ number, j = .call number ⟨d.handler, .plain⟩ d.paths) waiting

/-- A call that is handed over waits behind the rest. -/
theorem Plain.spawn (p : s.Plain calls) (d : Dispatch) :
    (s.spawn ⟨d.handler, .plain⟩ d.paths).Plain (calls ++ [d]) := by
  obtain ⟨done, waiting, rfl, made, ready⟩ := p.inOrder
  exact ⟨p.tasks, done, waiting ++ [d], List.append_assoc .., made, List.rel_append ready (.cons ⟨_, rfl⟩ .nil)⟩

/-- The first call is made. -/
theorem Plain.runNext (p : s.Plain calls) (e : s.runNext? = some s') : s'.Plain calls := by
  obtain ⟨done, waiting, rfl, made, ready⟩ := p.inOrder
  unfold runNext? at e
  cases queue : s.ready with
  | nil =>
    rw [queue] at e
    cases e
  | cons j rest =>
    rw [queue] at e ready
    cases e
    cases ready with
    | @cons _ d _ later first ready =>
      obtain ⟨number, rfl⟩ := first
      exact ⟨p.tasks, done ++ [d], later, by simp, List.rel_append made (.cons ⟨rfl, rfl⟩ .nil), ready⟩

/-- Opening the door makes no difference. -/
theorem Plain.openDoor (p : s.Plain calls) : s.openDoor.Plain calls := by
  have alone : s.openDoor = { s with doorOpen := true } := by
    rw [openDoor_eq]
    simp [atDoor, p.tasks]
  exact alone ▸ ⟨p.tasks, p.inOrder⟩

/-- Once nothing is ready, the lines of the calls were printed. -/
theorem Plain.printed (p : s.Plain calls) (idle : s.ready = []) (k : Command.Toolkit) (terminal : Bool) :
    k.printed terminal s.log = calls.flatMap fun d => k.echo terminal (Command.outputLine d.handler d.paths) := by
  obtain ⟨done, waiting, rfl, made, ready⟩ := p.inOrder
  rw [idle] at ready
  cases ready
  rw [List.append_nil]
  generalize s.log = log at made
  clear p
  induction made with
  | nil => rfl
  | cons first _ ih =>
    rw [List.flatMap_cons, ← ih, Command.Toolkit.printed, List.flatMap_cons, first.1, first.2]
    rfl

end Scheduler

namespace Command

open Session (Flow)

/-! ## Lines of calls -/

/-- The line for a call. -/
def lineOf (d : Dispatch) : Text := outputLine d.category.key d.paths

/-- **What is left of a line** is the line of what is left of the names. -/
theorem visible_outputLine (terminal : Bool) (c : Category) (paths : List Text) :
    visible terminal (outputLine c.key paths) = outputLine c.key (paths.map (visible terminal)) := by
  cases terminal with
  | true =>
    have same : paths.map (visible true) = paths := List.map_id' paths
    rw [same]
    rfl
  | false =>
    have key : c.key.withoutCodes = c.key := by cases c <;> decide
    have blank := Text.withoutCodes_append_cons (c := .char ' ') (by decide) [] (Text.join ", " paths)
    have colon := Text.withoutCodes_append_cons (c := .char ':') (by decide) c.key (" " ++ Text.join ", " paths)
    rw [key] at colon
    show (c.key ++ ": " ++ Text.join ", " paths).withoutCodes = c.key ++ ": " ++ Text.join ", " _
    rw [List.append_assoc, List.append_assoc]
    refine colon.trans (congrArg (fun l => c.key ++ Symbol.char ':' :: l) (blank.trans ?_))
    rw [Text.withoutCodes_join]
    rfl

theorem count_visible (terminal : Bool) (t : Text) : (visible terminal t).count .newline = t.count .newline := by
  cases terminal with
  | true => rfl
  | false => exact Text.count_withoutCodes (by decide) t

/-- A line has the newlines of the names. -/
theorem count_lineOf (d : Dispatch) : (lineOf d).count .newline = d.paths.flatten.count .newline := by
  have key : d.category.key.count .newline = 0 := by cases d.category <;> decide
  have colon : (": " : Text).count .newline = 0 := by decide
  rw [lineOf, outputLine, List.count_append, List.count_append, key, colon, Text.count_join (by decide), Nat.zero_add]

/-- So do lines without their codes. -/
theorem count_flatMap_visible (terminal : Bool) (calls : List Dispatch) :
    (calls.flatMap fun d => visible terminal (lineOf d)).count .newline =
      (calls.flatMap (·.paths)).flatten.count .newline := by
  induction calls with
  | nil => rfl
  | cons d calls ih => rw [List.flatMap_cons, List.flatMap_cons, List.flatten_append, List.count_append,
      List.count_append, count_visible, count_lineOf, ih]

/-- **Printed lines read as the lines of calls** exactly when no name holds a newline or a code that is taken out. -/
theorem lines_eq_map_lineOf_iff (terminal : Bool) (calls : List Dispatch) :
    Text.lines (calls.flatMap fun d => visible terminal (lineOf d) ++ [.newline]) = calls.map lineOf ↔
      ∀ name ∈ calls.flatMap (·.paths), .newline ∉ name ∧ (terminal = true ∨ ¬ name.HasCode) := by
  have whole : .newline ∉ calls.flatMap (fun d => visible terminal (lineOf d)) ↔
      ∀ name ∈ calls.flatMap (·.paths), .newline ∉ name := by
    rw [← List.count_eq_zero, count_flatMap_visible, List.count_eq_zero, List.mem_flatten]
    simp
  have lines := Text.lines_written_eq_map_iff (fun d => visible terminal (lineOf d)) calls
  constructor
  · intro same
    have none : .newline ∉ calls.flatMap fun d => visible terminal (lineOf d) := by
      have length := congrArg List.length same
      rw [Text.length_lines, Text.count_written, List.length_map] at length
      exact List.count_eq_zero.1 (by omega)
    have kept := (lines.2 none).symm.trans same
    intro name hn
    refine ⟨whole.1 none name hn, ?_⟩
    obtain ⟨d, hd, hn⟩ := List.mem_flatMap.1 hn
    have line : visible terminal (lineOf d) = lineOf d := List.map_inj_left.1 kept d hd
    refine ((visible_eq_self_iff terminal _).1 line).imp_right fun none has => none ?_
    exact has.of_infix ((Text.infix_join hn).trans (List.suffix_append ..).isInfix)
  · intro good
    rw [lines.2 (whole.2 fun name hn => (good name hn).1)]
    refine List.map_congr_left fun d hd => ?_
    rw [lineOf, visible_outputLine]
    refine congrArg _ ((List.map_congr_left fun name hn => ?_).trans (List.map_id _))
    exact (visible_eq_self_iff terminal name).2 (good name (List.mem_flatMap.2 ⟨d, hd, hn⟩)).2

/-! ## The calls of a command -/

/-- The handlers of a command. -/
def printers : List (Text × Handler.Kind) := Category.all.map fun c => (c.key, .plain)

theorem find_printers (c : Category) : printers.find? (·.1 = c.key) = some (c.key, .plain) := by
  cases c <;> rfl

/-- Calls of the handlers of a command are handed over in order. -/
theorem plain_handOver (calls : List Dispatch) (named : ∀ d ∈ calls, d.handler = d.category.key) {s : Scheduler}
    {before : List Dispatch} (plain : s.Plain before) :
    (calls.foldl (Host.handOver printers) s).Plain (before ++ calls) := by
  induction calls generalizing s before with
  | nil => exact (List.append_nil before).symm ▸ plain
  | cons d rest ih =>
    have known : printers.find? (·.1 = d.handler) = some (d.handler, .plain) := by
      rw [named d List.mem_cons_self]
      exact find_printers _
    have first : Host.handOver printers s d = s.spawn ⟨d.handler, .plain⟩ d.paths := by rw [Host.handOver, known]
    have next : before ++ d :: rest = before ++ [d] ++ rest := by simp
    rw [List.foldl_cons, first, next]
    exact ih (fun e he => named e (List.mem_cons_of_mem d he)) (plain.spawn d)

/-! ## The output -/

/-- The calls of a session with the handlers of a command are calls of these. -/
theorem handler_of_flow {new s : Session} (flow : Flow new s) (registry : s.registry = printing) :
    ∀ d ∈ s.spawned, d.handler = d.category.key := by
  have routed {r : Event × FileTable} {d : Dispatch}
      (call : Session.callFor new.options new.registry r = some d) : d.handler = d.category.key := by
    rw [← flow.log.registry, registry, Session.callFor] at call
    split at call
    · unfold Registry.route at call
      cases kind : r.1.kind <;> rw [kind] at call <;> cases call <;> rfl
    · cases call
  have all : ∀ d ∈ s.handled.filterMap (Session.callFor new.options new.registry), d.handler = d.category.key := by
    intro d hd
    obtain ⟨r, _, call⟩ := List.mem_filterMap.1 hd
    exact routed call
  intro d hd
  rcases flow.log.calls with e | ⟨_, _, refused, e⟩
  · exact all d (e ▸ hd)
  · exact all d (e ▸ List.mem_append_left _ hd)

/-- What the host of a command keeps: it runs one session at most, with the handlers that print, and its loop calls them
in the order in which the session handed the calls over. -/
structure Printing (h : Host) : Prop where
  kinds : h.kinds = printers
  empty : h.scheduler.ready = []
  plain : h.handlers.Plain h.handed
  flow : h.Flowing
  alone : ∀ s ∈ h.sessions, h.sessions = [s] ∧ s.registry = printing

namespace Printing

variable {h g : Host}

/-- What neither the loop nor the sessions are part of does not matter. -/
theorem around (p : Printing h) (empty : g.scheduler.ready = []) (handlers : g.handlers = h.handlers)
    (sessions : g.sessions = h.sessions) (kinds : g.kinds = h.kinds) : Printing g := by
  refine ⟨kinds.trans p.kinds, empty, ?_, fun s hs => p.flow s (sessions ▸ hs), sessions ▸ p.alone⟩
  rw [handlers, Host.handed, sessions]
  exact p.plain

/-- Whatever the session does, its calls are handed over in order. -/
theorem move (p : Printing h) {i : Nat} {s t : Session} {calls : List Dispatch} (hi : h.sessions[i]? = some s)
    (more : s.spawned ++ calls = t.spawned)
    (keeps : ∀ {new : Session}, Flow new (s.onSite h.site) → Flow new t) : Printing (h.move i s t) := by
  obtain ⟨single, registry⟩ := p.alone s (List.mem_of_getElem? hi)
  have here : h.sessions.set i t = [t] := by
    obtain rfl : i = 0 := by
      have inside := (List.getElem?_eq_some_iff.1 hi).1
      rw [single, List.length_singleton] at inside
      omega
    rw [single]
    rfl
  obtain ⟨new, flow⟩ := p.flow s (List.mem_of_getElem? hi)
  have before := flow.onSite h.site
  have after := keeps before
  have kept : t.registry = printing := (after.log.registry.trans before.log.registry.symm).trans registry
  obtain ⟨empty, handlers⟩ := Host.handlers_move p.empty i more
  have handed : h.handed = s.spawned := by rw [Host.handed, single, List.flatMap_singleton]
  have handed' : (h.move i s t).handed = h.handed ++ calls := by
    rw [Host.handed, Host.sessions_move, here, List.flatMap_singleton, handed, more]
  refine ⟨(Host.kinds_move ..).trans p.kinds, empty, ?_, fun u hu => ?_, fun u hu => ?_⟩
  · rw [handlers, handed', p.kinds]
    exact plain_handOver calls (fun d hd => handler_of_flow after kept d (more ▸ List.mem_append_right _ hd)) p.plain
  · rw [Host.sessions_move, here] at hu
    exact ⟨new, List.mem_singleton.1 hu ▸ after⟩
  · rw [Host.sessions_move, here] at hu ⊢
    obtain rfl := List.mem_singleton.1 hu
    exact ⟨rfl, kept⟩

/-- A turn of the loop makes the first call, or lets the session move. -/
theorem turn (p : Printing h) (t : Host.Turn h g) : Printing g := by
  cases t with
  | @session front back i queue =>
    have popped : Printing { h with ready := front ++ back } :=
      p.around p.empty (Host.handlers_popped queue) rfl rfl
    obtain e | ⟨s, t, hi, moved, e⟩ := Host.advance_cases { h with ready := front ++ back } i
    · rwa [e]
    · obtain ⟨calls, more, _⟩ := Session.spawned_step moved
      have next := popped.move hi more fun flow => flow.step moved
      rw [e]
      exact next.around next.empty (Host.handlers_push_session ..) rfl rfl
  | @handler front back j queue first =>
    exact ⟨p.kinds, rfl, p.plain.runNext (Host.runNext_handlers p.empty queue first), p.flow, p.alone⟩

/-- **The output is kept** however the loop turns, until a further watch is asked for. -/
theorem lasting : Host.Lasting Printing where
  around {h g} p sessions kinds scheduler ready _ := by
    refine p.around (scheduler ▸ p.empty) ?_ sessions kinds
    simp only [Host.handlers, scheduler, ready]
  wake p := p.around p.empty (Host.handlers_wake _) rfl rfl
  openDoor {h} p := by
    have opened : (h.schedule (·.openDoor)).handlers = h.handlers.openDoor :=
      Host.handlers_schedule p.empty Scheduler.openDoor_behind
    exact ⟨p.kinds, rfl, opened ▸ p.plain.openDoor, p.flow, p.alone⟩
  move_call {h i s} a p hi := by
    have same : s.spawned ++ [] = ((s.onSite h.site).call a).spawned := by
      rw [Session.spawned_call, List.append_nil]
      rfl
    exact p.move hi same fun flow => flow.call a
  turn := turn

/-- A host without sessions that has the handlers of a command. -/
theorem new (site : Site) (attempts : List (Except Failure (Nat × Nat))) :
    Printing { site, kinds := printers, attempts } :=
  ⟨rfl, rfl, ⟨rfl, [], [], rfl, .nil, .nil⟩, by simp [Host.Flowing], by simp⟩

/-- The session of a command. -/
theorem addSession (site : Site) (root : Path) (options : Options) :
    Printing (({ site, kinds := printers } : Host).addSession (.fresh root options printing)) := by
  refine ⟨rfl, rfl, ⟨rfl, [], [], rfl, .nil, .nil⟩, fun s hs => ?_, fun s hs => ?_⟩
  · rw [List.mem_singleton.1 hs]
    exact ⟨_, Flow.start root printing none none options 0 {}⟩
  · rw [List.mem_singleton.1 hs]
    exact ⟨rfl, rfl⟩

/-- The watch of a command begins so. -/
theorem begin (r : WatchRequest) (site : Site) : Printing (r.begin site) := by
  refine lasting.rest (lasting.wake ?_)
  dsimp only [Host.call]
  cases made : Session.ofValues? (.path r.root) (.ofPairs r.optionEntries) (.ofPairs handlerEntries) with
  | error e => exact .new site [.error e]
  | ok s =>
    rw [Session.ofValues_eq, ofValue_handlerEntries] at made
    obtain ⟨path, _, made⟩ := exists_of_bind_eq_ok made
    obtain ⟨options, _, made⟩ := exists_of_bind_eq_ok made
    obtain rfl : Session.fresh path options printing = s := Except.ok.inj made
    exact lasting.runSession _ (.addSession site path options)

end Printing

/-- A command takes its actions up to the end of its watch. -/
theorem proceed_eq_acts (h : Host) (actions : List Host.Action) :
    ∃ n, proceed h actions = h.acts (actions.take n) := by
  induction actions generalizing h with
  | nil => exact ⟨0, rfl⟩
  | cons a rest ih =>
    unfold proceed
    split
    · exact ⟨0, rfl⟩
    · obtain ⟨n, e⟩ := ih (h.act a)
      exact ⟨n + 1, e⟩

/-- The host of a command stands still. -/
theorem ready_proceed (r : WatchRequest) (site : Site) (actions : List Host.Action) :
    (proceed (r.begin site) actions).ready = [] := by
  obtain ⟨n, e⟩ := proceed_eq_acts (r.begin site) actions
  rw [e]
  exact (plays_begin r site (actions.take n)).idle

/-- What is left behind has the output. -/
theorem output_of_outcome {k : Toolkit} {terminals : Terminals} {env : Environment} {words : List Text}
    {r : WatchRequest} {site : Site} (read : k.read site.table env words = .ok (.watch r))
    {actions : List Host.Action} {left : Outcome} (ended : k.outcome? terminals env words site actions = some left) :
    left.output = k.printed terminals.output (proceed (r.begin site) actions).scheduler.log := by
  rw [Toolkit.outcome?, read] at ended
  obtain ⟨ending, _, rfl⟩ := Option.map_eq_some_iff.1 ended
  cases ending with
  | failed f =>
    unfold Toolkit.outcome
    dsimp only
    split <;> rfl
  | _ => rfl

/-- **What a command prints.** Let a toolkit do as it says, and read words as a request for a watch, and let anything
happen to it, further watches apart, for which a command has no words. The output, which the outcome shows once the
watch has ended, is made of the lines of the calls that were dispatched, in order, with a newline behind each: the key
of the category, a colon and the names that were delivered, joined by commas, and without their codes unless the stream
is a terminal. So there are as many lines more than calls as newlines in the names, and the lines are those of the calls
exactly when no name holds a newline, and none a code that is taken out. -/
theorem output_of_calls (k : Toolkit) (documented : k.Documented) (terminals : Terminals) (env : Environment)
    (words : List Text) (r : WatchRequest) (site : Site) (read : k.read site.table env words = .ok (.watch r))
    (actions : List Host.Action) (others : ∀ a ∈ actions, a.asks = false) :
    let h := proceed (r.begin site) actions
    let output := k.printed terminals.output h.scheduler.log
    let names : List Text := h.handed.flatMap (·.paths)
    (∀ left, k.outcome? terminals env words site actions = some left → left.output = output) ∧
    (output = h.handed.flatMap fun d =>
      outputLine d.category.key (d.paths.map (visible terminals.output)) ++ [.newline]) ∧
    (h.sessions.length ≤ 1 ∧ h.handed.length = total (·.stats.dispatched) h.sessions) ∧
    output.lines.length = h.handed.length + names.flatten.count .newline ∧
    (output.lines = h.handed.map lineOf ↔
      ∀ name ∈ names, .newline ∉ name ∧ (terminals.output = true ∨ ¬ name.HasCode)) := by
  intro h output names
  have printing : Printing h := by
    obtain ⟨n, e⟩ := proceed_eq_acts (r.begin site) actions
    show Printing (proceed (r.begin site) actions)
    rw [e]
    exact Printing.lasting.acts (.begin r site) fun a ha => others a (List.mem_of_mem_take ha)
  have idle : h.ready = [] := ready_proceed r site actions
  have nothing : h.handlers.ready = [] := by simp [Host.handlers, idle]
  have named : ∀ d ∈ h.handed, d.handler = d.category.key := by
    intro d hd
    obtain ⟨s, hs, hd⟩ := List.mem_flatMap.1 hd
    obtain ⟨new, flow⟩ := printing.flow s hs
    exact handler_of_flow flow (printing.alone s hs).2 d hd
  have written : output = h.handed.flatMap fun d => visible terminals.output (lineOf d) ++ [.newline] := by
    refine (printing.plain.printed nothing k terminals.output).trans (List.flatMap_congr fun d hd => ?_)
    rw [documented.echo_eq, named d hd]
    rfl
  have newlines := count_flatMap_visible terminals.output h.handed
  refine ⟨fun left ended => output_of_outcome read ended, ?_, ?_, ?_, ?_⟩
  · simp only [← visible_outputLine]
    exact written
  · cases sessions : h.sessions with
    | nil => simp [Host.handed, sessions]
    | cons s later =>
      have mem : s ∈ h.sessions := by simp [sessions]
      obtain rfl : later = [] := by simpa [sessions] using (printing.alone s mem).1
      obtain ⟨new, flow⟩ := printing.flow s mem
      simp [Host.handed, sessions, flow.log.dispatched]
  · rw [Text.length_lines, written, Text.count_written, newlines]
  · rw [written]
    exact lines_eq_map_lineOf_iff terminals.output h.handed

/-- A file is added, and its line is printed. -/
theorem output_of_calls_of_addition :
    let terminals : Terminals := {}
    let r : WatchRequest := { rootText := "w" }
    let site : Site := { table := ⟨[("w", .present 0o040755 true), ("w/a", .present 0o100644 true)]⟩ }
    let actions : List Host.Action := [.feed [{ type := .created, source := "w/a", isDirectory := false }]]
    let h := proceed (r.begin site) actions
    Toolkit.standard.Documented ∧ Toolkit.standard.read site.table [] ["watch", "w"] = .ok (.watch r) ∧
      (∀ a ∈ actions, a.asks = false) ∧ h.handed = [⟨.added, "added", ["w/a"]⟩] ∧
      (Toolkit.standard.printed terminals.output h.scheduler.log).lines = (["added: w/a"] : List Text) := by
  intro terminals r site actions h
  have documented := Toolkit.standard_documented
  have read : Toolkit.standard.read site.table [] ["watch", "w"] = .ok (.watch r) := by decide +kernel
  have others : ∀ a ∈ actions, a.asks = false := by simp [actions, Host.Action.asks]
  have handed : h.handed = [⟨.added, "added", ["w/a"]⟩] := by decide +kernel
  obtain ⟨_, _, _, _, lines⟩ := output_of_calls .standard documented terminals [] ["watch", "w"] r site read
    actions others
  have plain : ∀ name ∈ h.handed.flatMap (·.paths), .newline ∉ name ∧ (terminals.output = true ∨ ¬ name.HasCode) := by
    have name : h.handed.flatMap (·.paths) = ["w/a"] := by
      rw [handed]
      rfl
    rw [name]
    intro t ht
    obtain rfl := List.mem_singleton.1 ht
    exact ⟨by decide, .inr ((Text.withoutCodes_eq_self_iff _).1 (by decide))⟩
  refine ⟨documented, read, others, handed, ?_⟩
  rw [lines.2 plain, handed]
  rfl

/-- One call prints two lines when a newline stands in the name of the file: the second one reads as that of another
file. -/
theorem newline_forges_line :
    let r : WatchRequest := { rootText := "w" }
    let site : Site := { table := ⟨[("w", .present 0o040755 true), ("w/a\nadded: w/b", .present 0o100644 true)]⟩ }
    let actions : List Host.Action :=
      [.feed [{ type := .created, source := "w/a\nadded: w/b", isDirectory := false }], .close]
    let h := proceed (r.begin site) actions
    let output := Toolkit.standard.printed false h.scheduler.log
    Toolkit.standard.read site.table [] ["watch", "w"] = .ok (.watch r) ∧
      Toolkit.standard.outcome? {} [] ["watch", "w"] site actions = some { status := 0, output } ∧
      h.sessions.map (·.stats.dispatched) = [1] ∧ output.lines = (["added: w/a", "added: w/b"] : List Text) := by
  decide +kernel

end Command
end DirWatch

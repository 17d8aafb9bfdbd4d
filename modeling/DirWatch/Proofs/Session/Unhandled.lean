import DirWatch.Proofs.Session.Lifecycle

/-!
# Events that cannot be handled

An event cannot be handled when a path of it cannot even be asked about, or when the scheduler refuses the call for it
(`breakage?`). A system error is not such a failure: the notifier's hint stands in for the answer.

- **Which failure** (`handle_eq_error_iff`): the first path that cannot be asked about decides, and the scheduler comes
  last.
- **What is left** (`phase_of_ended_run`): a run that took messages and has ended leaves its session closed or failed,
  unless its last event could not be handled. Then the session says for good that it runs.
- So a finished session may be left in the phase of running (`finished_session_running`).
-/

namespace DirWatch

/-! ## Paths that cannot be asked about -/

/-- What asking about a path fails with beyond the errors of the system: a path with a NUL character is never looked up,
and the host's own machinery may break. -/
def FileTable.breakage? (t : FileTable) (path : Text) : Option Failure :=
  if path.contains (.char '\x00') then some .nullByte
  else
    match t.lookup? path with
    | some (.faulty (.broken message)) => some (.broken message)
    | _ => none

namespace Filter

variable {o : Options} {table : FileTable} {hint : Option Bool} {f : Failure}

theorem typeOf_eq_error_iff {path : Path} :
    typeOf table hint path = .error f ↔ table.breakage? path.text = some f := by
  unfold typeOf FileTable.probe FileTable.status FileTable.breakage?
  by_cases nul : path.text.contains (.char '\x00') = true
  · rw [if_pos nul, if_pos nul]
    simp
  · rw [if_neg nul, if_neg nul]
    cases table.lookup? path.text with
    | none => simp [OsError.meansAbsent, OsError.kind, OsError.Kind.ofNumber]
    | some entry =>
      cases entry with
      | present mode readable => simp
      | faulty fault =>
        cases fault with
        | broken message => simp [Failure.ofFault]
        | os e =>
          -- Absence is an answer of its own, and any other system error leaves the answer to the hint.
          by_cases absent : e.meansAbsent = true
          · simp [Failure.ofFault, absent]
          · simp [Failure.ofFault, absent]

theorem keeps_eq_error_iff {path : Path} :
    keeps o table hint path = .error f ↔ table.breakage? path.text = some f := by
  rw [← @typeOf_eq_error_iff table hint f path]
  unfold keeps
  cases typeOf table hint path with
  | error g => simp [bind, Except.bind]
  | ok type => cases type <;> simp [bind, Except.bind, pure, Except.pure]

/-- The first path that cannot be asked about decides. -/
theorem keep_eq_error_iff {paths : List Path} :
    keep o table hint paths = .error f ↔ paths.findSome? (fun p => table.breakage? p.text) = some f := by
  induction paths with
  | nil => simp [keep]
  | cons p rest ih =>
    rw [List.findSome?_cons]
    unfold keep
    cases hb : table.breakage? p.text with
    | some g =>
      rw [keeps_eq_error_iff.2 hb]
      simp [bind, Except.bind]
    | none =>
      have asked : ∃ kept, keeps o table hint p = .ok kept := by
        cases hk : keeps o table hint p with
        | ok kept => exact ⟨kept, rfl⟩
        | error g =>
          rw [keeps_eq_error_iff.1 hk] at hb
          cases hb
      obtain ⟨kept, hk⟩ := asked
      rw [hk]
      dsimp only
      rw [← ih]
      cases keep o table hint rest <;> simp [bind, Except.bind, pure, Except.pure]

end Filter

namespace Session

/-! ## Events that cannot be handled -/

/-- Why an event cannot be handled with a file table, if so. -/
def breakage? (o : Options) (g : Registry Text) (refusal : Option Text) (r : Event × FileTable) : Option Failure :=
  match r.1.paths.findSome? fun p => r.2.breakage? p.text with
  | some f => some f
  | none => (callFor o g r).bind fun _ => refusal.map .broken

/-- **Handling fails exactly for this reason.** -/
theorem handle_eq_error_iff {s : Session} {e : Event} {f : Failure} : s.handle e = .error f ↔
    breakage? s.options s.registry s.refusal (e, s.watcher.site.table) = some f := by
  unfold handle breakage? callFor dispatch
  dsimp only
  cases hp : Filter.paths s.options s.watcher.site.table e with
  | error g =>
    rw [Filter.keep_eq_error_iff.1 hp]
    simp
  | ok paths =>
    have asked : e.paths.findSome? (fun p => s.watcher.site.table.breakage? p.text) = none := by
      rw [Option.eq_none_iff_forall_ne_some]
      intro g hg
      rw [Filter.paths, Filter.keep_eq_error_iff.2 hg] at hp
      cases hp
    rw [asked]
    cases paths with
    | nil => simp
    | cons p ps =>
      dsimp only
      cases s.registry.route e.kind (p :: ps) with
      | none => simp
      | some d => cases s.refusal <;> simp

/-! ## What handling leaves of a session -/

variable {new s : Session}

/-- How a session stands to what it handled. -/
inductive Upheld (new s : Session) : Prop
  /-- Every event could be handled, and a session that says that it runs does. -/
  | sound (handled : ∀ r ∈ s.handled, breakage? new.options new.registry new.refusal r = none)
      (busy : s.phase = .running → s.stage ≠ .idle)
  /-- The last event could not be handled, and the run ended with that failure. -/
  | broken {front : List (Event × FileTable)} {r : Event × FileTable} {f : Failure} (handled : s.handled = front ++ [r])
      (before : ∀ q ∈ front, breakage? new.options new.registry new.refusal q = none)
      (last : breakage? new.options new.registry new.refusal r = some f) (phase : s.phase = .running)
      (stage : s.stage = .idle) (runs : s.runs.head? = some (.failed f))

/-- What handles nothing, goes to no running phase that is idle, and lets a run that has ended be, changes nothing. -/
theorem Upheld.same {t : Session} (h : Upheld new s) (handled : t.handled = s.handled)
    (phase : t.phase = s.phase) (stage : t.stage = s.stage)
    (runs : s.runs.head? ≠ none → t.runs.head? = s.runs.head?) : Upheld new t := by
  cases h with
  | sound all busy => exact .sound (by rwa [handled]) (by rwa [phase, stage])
  | broken last before r running idle failed =>
    exact .broken (handled.trans last) before r (phase.trans running) (stage.trans idle)
      ((runs (by simp [failed])).trans failed)

/-- As long as the run goes on every event could be handled. -/
theorem Upheld.handled (h : Upheld new s) (busy : s.phase = .running → s.stage ≠ .idle) :
    ∀ r ∈ s.handled, breakage? new.options new.registry new.refusal r = none := by
  cases h with
  | sound all _ => exact all
  | broken _ _ _ running idle => exact absurd idle (busy running)

/-- A run that goes on takes its session out of the phase of running unless it fails to handle an event. -/
theorem Upheld.takeMessage (h : Upheld new s) (log : Log new s) (phase : s.phase = .running)
    (busy : s.stage ≠ .idle) (runs : s.runs.head? = some .pending) (m : Message) : Upheld new (s.takeMessage m) := by
  have sound := h.handled fun _ => busy
  cases m with
  | failure message => exact .sound sound (by simp [Session.takeMessage, finish, endRun])
  | event e =>
    show Upheld new (s.takeEvent e)
    have noted : (s.note e).handled = s.handled ++ [(e, s.watcher.site.table)] := rfl
    have reason (f : Failure) : (s.note e).handle e = .error f ↔
        breakage? new.options new.registry new.refusal (e, s.watcher.site.table) = some f := by
      rw [handle_eq_error_iff, ← log.options, ← log.registry, ← log.refusal]
      rfl
    rw [takeEvent_eq]
    cases handled : (s.note e).handle e with
    | error f =>
      exact .broken noted sound ((reason f).1 handled) phase rfl (Watcher.head_set runs (.failed f))
    | ok t =>
      have kept := (handle_frame handled).2.1.trans noted
      refine .sound (fun r hr => ?_) (fun _ => by simp [Session.await])
      have hr : r ∈ s.handled ++ [(e, s.watcher.site.table)] := kept ▸ hr
      rcases List.mem_append.1 hr with hr | hr
      · exact sound r hr
      · rw [List.mem_singleton.1 hr, Option.eq_none_iff_forall_ne_some]
        intro f broken
        rw [(reason f).2 broken] at handled
        cases handled

/-- Every move keeps account of what was handled. -/
theorem Upheld.step {t : Session} (h : Upheld new s) (story : Story new s) (e : s.step = some t) : Upheld new t := by
  obtain hr | ⟨w, _, rfl⟩ := step_cases e
  · unfold react? at hr
    split at hr
    · cases hr
    · rename_i starting
      have sound := h.handled fun _ => by simp [starting]
      unfold reactToStart? at hr
      split at hr
      · cases hr
        exact .sound sound fun _ => by simp [Session.await]
      · cases hr
        refine .sound sound fun running => ?_
        -- A watcher that could not be started leaves the session in the phase that it was in.
        cases story.course with
        | starting _ _ _ created => exact absurd (created.symm.trans running) (by simp)
        | fresh _ _ idle => rw [starting] at idle; cases idle
        | shut _ _ idle => rw [starting] at idle; cases idle
        | unmade _ _ idle => rw [starting] at idle; cases idle
        | running _ _ receiving => rw [starting] at receiving; cases receiving
        | ended _ _ idle => rw [starting] at idle; cases idle
      · cases hr
    · rename_i i receiving
      have busy : s.stage ≠ .idle := by simp [receiving]
      unfold reactToReceive? at hr
      split at hr
      · cases hr
        cases story.course with
        | running _ _ _ phase _ runs => exact h.takeMessage story.flow.log phase busy runs _
        | fresh _ _ idle => exact absurd idle busy
        | shut _ _ idle => exact absurd idle busy
        | unmade _ _ idle => exact absurd idle busy
        | starting _ _ starting => rw [receiving] at starting; cases starting
        | ended _ _ idle => exact absurd idle busy
      · cases hr
        exact .sound (h.handled fun _ => busy) (by simp [finish, endRun])
      · cases hr
  · exact h.same rfl rfl rfl fun _ => rfl

/-- Every deed keeps account of what was handled. -/
theorem Upheld.undergo (h : Upheld new s) (story : Story new s) (d : Deed) : Upheld new (s.undergo d) := by
  obtain rfl | rfl | ⟨_, ⟨i, e⟩ | ⟨w, e, _⟩⟩ := s.undergo_cases d
  · show Upheld new s.run
    have more (f : Failure) : Upheld new { s with runs := s.runs ++ [.failed f] } :=
      h.same rfl rfl rfl fun some => List.head?_append_of_ne_nil _ fun none => some (by simp [none])
    by_cases used : s.Used
    · rw [run_of_used used]
      exact more _
    · obtain ⟨_, _, _, unopened, created⟩ := story.course.of_unused used
      have sound := h.handled fun running => absurd (created.symm.trans running) (by simp)
      unfold Session.run
      rw [if_neg (not_not_intro created), if_neg (by simp [unopened])]
      split
      · exact .sound sound fun running => absurd (created.symm.trans running) (by simp)
      · exact .sound sound (by simp)
  · show Upheld new s.close
    unfold Session.close
    split
    · exact h.same rfl rfl rfl fun _ => rfl
    · split
      · rename_i created
        exact .sound (h.handled fun running => absurd (created.symm.trans running) (by simp)) (by simp)
      · exact h
  · rw [e, cancelRun]
    split
    · rename_i under
      obtain ⟨busy, _⟩ := story.flow.stage_of_pending (List.mem_of_getElem? under)
      obtain ⟨channel, gone, _⟩ := s.withdraw_eq
      rw [gone]
      exact .sound (h.handled fun _ => busy) (by simp [finish, endRun])
    · exact h
  · rw [e]
    exact h.same rfl rfl rfl fun _ => rfl

/-! ## Runs that have ended -/

/-- No history leads back to the first phase. -/
theorem ne_created_of_entered (start : Story new new) {ds : List Deed}
    (entered : ∃ t ∈ new.passed ds, t.phase ≠ .created) : (new.deeds ds).phase ≠ .created := by
  obtain ⟨t, ht, past⟩ := entered
  have along : (new :: new.passed ds).IsChain fun t u => t.phase.Leads u.phase :=
    isChain_passed (P := Story new) (fun _ d h => h.undergo d) (fun _ _ h e => h.step e)
      (fun _ d h => (h.course.undergo h.flow d).2) (fun _ _ h e => (h.course.step h.flow h.orderly e).2) start ds
  obtain ⟨front, back, split⟩ := List.append_of_mem (List.mem_cons_of_mem new ht)
  have last := getLast?_passed new ds
  rw [split] at along last
  have behind : ∀ u ∈ t :: back, u.phase ≠ .created :=
    along.right_of_append.induction (fun u => u.phase ≠ .created) _ (fun _ _ leads past => leads.ne_created past)
      fun _ => past
  rw [List.getLast?_append_of_ne_nil _ (List.cons_ne_nil _ _)] at last
  exact behind _ (List.mem_of_getLast? last)

/-- **What a run that has ended leaves.** Once a session has run and its run has ended, for whatever reason, it is
closed or failed and could handle every event; or its last event could not be handled, the run ended with that failure,
and the session says for good that it runs. -/
theorem phase_of_ended_run (root : Path) (registry : Registry Text) (refusal makerFault : Option Text)
    (options : Options) (number : Nat) (table : FileTable) (native polling : Behaviour) (gateOpen : Bool)
    (ds : List Deed) :
    let new : Session := { root, registry, refusal, makerFault, watcher :=
      { options, number, site := { table, native, polling, gateOpen } } }
    let s := new.deeds ds
    let failure := breakage? options registry refusal
    (∃ t ∈ new.passed ds, t.phase = .running) → s.runs.head? ≠ some .pending →
      ((s.phase = .closed ∨ s.phase = .errored) ∧ ∀ r ∈ s.handled, failure r = none) ∨
      ∃ front r f, s.handled = front ++ [r] ∧ (∀ q ∈ front, failure q = none) ∧ failure r = some f ∧
        s.runs.head? = some (.failed f) ∧ ∀ more, (s.deeds more).phase = .running := by
  intro new s failure entered ended
  have start : Story new new :=
    Story.start root registry refusal makerFault options number table native polling gateOpen
  have told : Story new s ∧ Upheld new s :=
    deeds_induction (P := fun s => Story new s ∧ Upheld new s) (fun _ d h => ⟨h.1.undergo d, h.2.undergo h.1 d⟩)
      (fun _ _ h e => ⟨h.1.step e, h.2.step h.1 e⟩) ⟨start, .sound (by simp [new]) (by simp [new])⟩ ds
  obtain ⟨story, upheld⟩ := told
  have past : s.phase ≠ .created :=
    ne_created_of_entered start (entered.imp fun _ h => ⟨h.1, by simp [h.2]⟩)
  cases upheld with
  | sound handled busy =>
    refine Or.inl ⟨?_, handled⟩
    cases story.course with
    | fresh _ _ _ created => exact absurd created past
    | shut _ _ _ closed => exact Or.inl closed
    | unmade _ _ _ created => exact absurd created past
    | starting _ _ _ created => exact absurd created past
    | running _ _ _ _ _ runs => exact absurd runs ended
    | ended _ _ idle =>
      cases phase : s.phase with
      | created => exact absurd phase past
      | running => exact absurd idle (busy phase)
      | closed => exact Or.inl rfl
      | errored => exact Or.inr rfl
  | @broken front r f handled before last phase idle runs =>
    refine Or.inr ⟨front, r, f, handled, before, last, runs, fun more => ?_⟩
    have acted : ds ≠ [] := by
      rintro rfl
      obtain ⟨_, none, _⟩ := entered
      cases none
    have made : s.made = true := by
      cases story.course with
      | fresh _ _ _ created => exact absurd created past
      | shut _ _ _ closed => exact absurd (closed.symm.trans phase) (by simp)
      | unmade _ _ _ created => exact absurd created past
      | starting _ made => exact made
      | running _ made => exact made
      | ended _ made => exact made
    exact ((story.spent (step_deeds acted new) made ended).deeds more).phase.trans phase

/-- A path with a NUL character ends the run, and the session says for good that it runs. -/
theorem phase_of_ended_run_at_nul :
    let options : Options := { pattern := ⟨"*", [.atom .star], rfl⟩ }
    let table : FileTable := ⟨[("r", .present 16877 true)]⟩
    let new : Session := { root := .ofText "r", registry := {}, watcher := { options, site := { table } } }
    let ds : List Deed := [.call .run, .call (.send (.event (.ofTexts .created [[.char 'r', .char '\x00']] none)))]
    let s := new.deeds ds
    ((∃ t ∈ new.passed ds, t.phase = .running) ∧ s.runs.head? ≠ some .pending) ∧
      s.runs = [.failed .nullByte] ∧ ∀ more, (s.deeds more).phase = .running := by
  intro options table new ds s
  have entered : ∃ t ∈ new.passed ds, t.phase = .running := by decide
  have ended : s.runs.head? ≠ some .pending := by decide
  have running : ¬ ((s.phase = .closed ∨ s.phase = .errored) ∧
      ∀ r ∈ s.handled, breakage? options {} none r = none) := by decide
  obtain ⟨_, _, _, _, _, _, _, stays⟩ :=
    (phase_of_ended_run (.ofText "r") {} none none options 0 table {} {} false ds entered ended).resolve_left running
  exact ⟨⟨entered, ended⟩, by decide, stays⟩

/-- **A finished session may say that it runs**: not every session that has run and whose run has ended is closed or
failed. -/
theorem finished_session_running : ¬ ∀ (root : Path) (registry : Registry Text) (options : Options)
    (table : FileTable) (ds : List Deed),
    let new : Session := { root, registry, watcher := { options, site := { table } } }
    (∃ t ∈ new.passed ds, t.phase = .running) → (new.deeds ds).runs.head? ≠ some .pending →
      (new.deeds ds).phase = .closed ∨ (new.deeds ds).phase = .errored := by
  intro all
  let options : Options := { pattern := ⟨"*", [.atom .star], rfl⟩ }
  let table : FileTable := ⟨[("r", .present 16877 true)]⟩
  let ds : List Deed := [.call .run, .call (.send (.event (.ofTexts .created [[.char 'r', .char '\x00']] none)))]
  exact absurd (all (.ofText "r") {} options table ds (by decide) (by decide)) (by decide)

end Session
end DirWatch

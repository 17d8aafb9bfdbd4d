import DirWatch.Command.Toolkit
import DirWatch.Proofs.Options.Building

/-!
# The toolkit of the program

The toolkit that the program runs on does as toolkits say of themselves (`Toolkit.standard_documented`).

- **What is there at the paths** changes what words ask for in one way only: something that may not be read makes them
  a matter of usage (`WatchRequest.reading`), and nothing else is read (`WatchRequest.spec_of_ofList`).
- **The words behind the command** are those that ask for the watch (`Request.exists_of_ofWords`).
-/

namespace DirWatch.Command

/-! ## Intervals -/

/-- The seconds of a text are one at least. -/
theorem seconds_pos {t : Text} {n : Nat} (h : seconds? t = .ok n) : 0 < n := by
  unfold seconds? at h
  split at h
  · split at h
    · cases h
      omega
    · cases h
  · cases h

/-- So are those of a request, whether they are given or not. -/
theorem interval_pos_of_read {value : Option Text} {interval : Option Nat}
    (h : WatchRequest.read? seconds? value = .ok interval) : 0 < interval.getD defaultInterval := by
  cases value with
  | none =>
    cases h
    decide
  | some t =>
    obtain ⟨n, seconds, h⟩ := exists_of_map_eq_ok h
    cases h
    exact seconds_pos seconds

/-! ## Paths -/

section Paths

variable {table : FileTable} {t u : Text}

/-- A path that was read is that of nothing barred. -/
theorem unbarred_of_pathText (h : pathText? table t = .ok u) : u = t ∧ isBarred table u = false := by
  unfold pathText? at h
  split at h
  · cases h
  · split at h
    · cases h
    · rename_i unbarred
      cases h
      exact ⟨rfl, by simpa using unbarred⟩

/-- What may be read is a matter of usage. -/
theorem pathText_of_empty (h : pathText? {} t = .ok u) (table : FileTable) : pathText? table t = .ok u ∨
    isBarred table u = true ∧ ∃ e, pathText? table t = .error (.usage e) := by
  obtain ⟨rfl, -⟩ := unbarred_of_pathText h
  unfold pathText? at h ⊢
  split at h
  · cases h
  · rename_i plain
    rw [if_neg plain]
    cases barred : isBarred table u with
    | false => exact .inl rfl
    | true => exact .inr ⟨rfl, _, rfl⟩

end Paths

/-! ## Settings -/

/-- A search through a list has found something when one member is found whatever was found before, and no other member
undoes that. -/
theorem isSome_foldl {α β : Type} {f : Option β → α → Option β} {l : List α} {a : α} (mem : a ∈ l)
    (finds : ∀ found, (f found a).isSome = true) (keeps : ∀ found b, found.isSome = true → (f found b).isSome = true)
    (found : Option β) : (l.foldl f found).isSome = true := by
  obtain ⟨front, back, rfl⟩ := List.append_of_mem mem
  rw [List.foldl_append, List.foldl_cons]
  exact List.foldlRecOn back f (finds _) fun found some b _ => keeps found b some

/-- A parameter that was given has a value. -/
theorem Arguments.exists_value {a : Arguments} {p : Parameter} {value : Text}
    (given : .parameter p value ∈ a.settings) : ∃ t, a.value? p = some t := by
  refine Option.isSome_iff_exists.1 (isSome_foldl given (fun found => ?_) (fun found s some => ?_) none)
  · simp
  · cases s with
    | switch => exact some
    | parameter q value =>
      dsimp only
      split
      · rfl
      · exact some

section Reading

variable {table : FileTable} {env : Environment} {a : Arguments} {t : Text} {words : List Text} {r : WatchRequest}

/-- Of the parameters only one is a path. -/
theorem check_of_empty {p : Parameter} (h : p.check {} t = .ok ()) (table : FileTable) : p.check table t = .ok () ∨
    p = .logFile ∧ isBarred table t = true ∧ ∃ e, p.check table t = .error (.usage e) := by
  cases p with
  | logFile =>
    obtain ⟨u, read, -⟩ := exists_of_map_eq_ok h
    obtain ⟨rfl, -⟩ := unbarred_of_pathText read
    obtain read | ⟨barred, e, refused⟩ := pathText_of_empty read table
    · exact .inl (by rw [Parameter.check, read]; rfl)
    · exact .inr ⟨rfl, barred, e, by rw [Parameter.check, refused]; rfl⟩
  | _ => exact .inl h

namespace WatchRequest

/-- The values of the command line are as good as without files, but for the path. -/
theorem checkSettings_of_empty {settings : List Setting} (h : checkSettings {} a settings = .ok ())
    (table : FileTable) : checkSettings table a settings = .ok () ∨
      (∃ value, .parameter .logFile value ∈ settings ∧
        isBarred table ((a.value? .logFile).getD value) = true) ∧
        ∃ e, checkSettings table a settings = .error (.usage e) := by
  induction settings with
  | nil => exact .inl rfl
  | cons s rest ih =>
    cases s with
    | switch s =>
      obtain good | ⟨⟨value, given, barred⟩, refused⟩ := ih h
      · exact .inl good
      · exact .inr ⟨⟨value, List.mem_cons_of_mem _ given, barred⟩, refused⟩
    | parameter p value =>
      obtain ⟨_, first, h⟩ := exists_of_bind_eq_ok h
      obtain good | ⟨rfl, barred, e, refused⟩ := check_of_empty first table
      · have next : checkSettings table a (.parameter p value :: rest) = checkSettings table a rest := by
          rw [checkSettings, good]
          rfl
        obtain good | ⟨⟨value, given, barred⟩, refused⟩ := ih h
        · exact .inl (next.trans good)
        · exact .inr ⟨⟨value, List.mem_cons_of_mem _ given, barred⟩, next ▸ refused⟩
      · refine .inr ⟨⟨value, List.mem_cons_self, barred⟩, e, ?_⟩
        rw [checkSettings, refused]
        rfl

/-- A value that is read as a path is one of nothing barred. -/
theorem unbarred_of_read {value u : Option Text} (h : read? (pathText? table) value = .ok u) :
    u = value ∧ u.any (isBarred table) = false := by
  cases value with
  | none =>
    cases h
    exact ⟨rfl, rfl⟩
  | some t =>
    obtain ⟨v, read, h⟩ := exists_of_map_eq_ok h
    cases h
    obtain ⟨rfl, unbarred⟩ := unbarred_of_pathText read
    exact ⟨rfl, unbarred⟩

theorem read_of_empty {value u : Option Text} (h : read? (pathText? {}) value = .ok u) (table : FileTable) :
    read? (pathText? table) value = .ok u ∨ u.any (isBarred table) = true ∧
      ∃ e, read? (pathText? table) value = .error (.usage e) := by
  cases value with
  | none =>
    cases h
    exact .inl rfl
  | some t =>
    obtain ⟨v, read, h⟩ := exists_of_map_eq_ok h
    cases h
    obtain read | ⟨barred, e, refused⟩ := pathText_of_empty read table
    · exact .inl (by rw [read?, read]; rfl)
    · exact .inr ⟨barred, e, by rw [read?, refused]; rfl⟩

/-- **A watch is asked for** with paths of nothing barred, and with seconds. -/
theorem spec_of_ofList (h : ofList? table env words = .ok r) :
    Toolkit.standard.bars table r = false ∧ 0 < r.interval := by
  unfold ofList? at h
  obtain ⟨a, _, h⟩ := exists_of_bind_eq_ok h
  obtain ⟨_, _, h⟩ := exists_of_bind_eq_ok h
  dsimp only at h
  split at h
  · cases h
  obtain ⟨root, readRoot, h⟩ := exists_of_bind_eq_ok h
  obtain ⟨interval, seconds, h⟩ := exists_of_bind_eq_ok h
  obtain ⟨logLevel, _, h⟩ := exists_of_bind_eq_ok h
  obtain ⟨logFile, readFile, h⟩ := exists_of_bind_eq_ok h
  obtain ⟨_, _, h⟩ := exists_of_bind_eq_ok h
  split at h
  · cases h
    refine ⟨?_, interval_pos_of_read seconds⟩
    rw [Toolkit.bars, (unbarred_of_pathText readRoot).2, Bool.false_or]
    exact (unbarred_of_read readFile).2
  · cases h

/-- **What is there at the paths** does not matter, unless something may not be read. -/
theorem reading (h : ofList? {} env words = .ok r) (table : FileTable) : ofList? table env words = .ok r ∨
    Toolkit.standard.bars table r = true ∧ ∃ e, ofList? table env words = .error (.usage e) := by
  unfold ofList? at h ⊢
  obtain ⟨a, args, h⟩ := exists_of_bind_eq_ok h
  obtain ⟨_, settings, h⟩ := exists_of_bind_eq_ok h
  dsimp only at h
  split at h
  · cases h
  rename_i t later positionals
  obtain ⟨root, readRoot, h⟩ := exists_of_bind_eq_ok h
  obtain ⟨interval, seconds, h⟩ := exists_of_bind_eq_ok h
  obtain ⟨logLevel, level, h⟩ := exists_of_bind_eq_ok h
  obtain ⟨logFile, readFile, h⟩ := exists_of_bind_eq_ok h
  obtain ⟨_, format, h⟩ := exists_of_bind_eq_ok h
  split at h
  · rename_i alone
    obtain rfl := Except.ok.inj h
    obtain good | ⟨⟨value, given, barred⟩, e, refused⟩ := checkSettings_of_empty settings table
    · obtain good' | ⟨barred, e, refused⟩ := pathText_of_empty readRoot table
      · obtain good'' | ⟨barred, e, refused⟩ := read_of_empty readFile table
        · refine .inl ?_
          simp only [args, good, positionals, good', seconds, level, good'', format, bind, Except.bind, pure,
            Except.pure]
          rw [positionals] at alone
          rw [alone]
        · refine .inr ⟨by simp [Toolkit.bars, Toolkit.standard, barred], e, ?_⟩
          simp only [args, good, positionals, good', seconds, level, refused, bind, Except.bind]
      · refine .inr ⟨by simp [Toolkit.bars, barred], e, ?_⟩
        simp only [args, good, positionals, refused, bind, Except.bind]
    · obtain ⟨u, last⟩ := Arguments.exists_value given
      have file : logFile = some u := by rw [(unbarred_of_read readFile).1, value?, last]
      rw [last] at barred
      have barred : isBarred table u = true := barred
      refine .inr ⟨by simp [Toolkit.bars, Toolkit.standard, file, barred], e, ?_⟩
      simp only [args, refused, bind, Except.bind]
  · cases h

end WatchRequest

namespace Request

theorem exists_of_ofCommand {version : Bool} (h : ofCommand? table env version words = .ok (.watch r)) :
    ∃ rest, WatchRequest.ofList? table env rest = .ok r ∧ ∀ table,
      ofCommand? table env version words = (WatchRequest.ofList? table env rest).map .watch := by
  unfold ofCommand? at h ⊢
  split at h
  · split at h <;> cases h
  · rename_i rest
    split at h
    · cases h
    · rename_i unasked
      split at h
      · rename_i watches
        obtain ⟨r', read, e⟩ := exists_of_map_eq_ok h
        cases e
        exact ⟨rest, read, fun table => by rw [if_neg unasked, if_pos watches]⟩
      · cases h

/-- **A watch is asked for by the words behind the command**, whatever files there are. -/
theorem exists_of_ofWords {version : Bool} (h : ofWords? table env version words = .ok (.watch r)) :
    ∃ rest, WatchRequest.ofList? table env rest = .ok r ∧ ∀ table,
      ofWords? table env version words = (WatchRequest.ofList? table env rest).map .watch := by
  induction words generalizing version with
  | nil => exact exists_of_ofCommand h
  | cons t rest ih =>
    unfold ofWords? at h ⊢
    split at h
    · rename_i asked
      simp only [if_pos asked]
      exact ih h
    · rename_i other
      simp only [if_neg other]
      split at h
      · exact exists_of_ofCommand h
      · cases h
      · exact exists_of_ofCommand h

end Request

end Reading

/-- **The toolkit of the program does as toolkits say of themselves.** -/
theorem Toolkit.standard_documented : standard.Documented where
  interval_pos h := by
    obtain ⟨rest, read, -⟩ := Request.exists_of_ofWords h
    exact (WatchRequest.spec_of_ofList read).2
  unbarred {table env words r} h unbarred := by
    obtain ⟨rest, read, words⟩ := Request.exists_of_ofWords h
    obtain read | ⟨barred, -⟩ := WatchRequest.reading read table
    · exact (words table).trans (by rw [read]; rfl)
    · cases unbarred.symm.trans barred
  barred {table env words r} h barred := by
    obtain ⟨rest, read, words⟩ := Request.exists_of_ofWords h
    obtain read | ⟨-, e, refused⟩ := WatchRequest.reading read table
    · cases (WatchRequest.spec_of_ofList read).1.symm.trans barred
    · exact ⟨e, (words table).trans (by rw [refused]; rfl)⟩
  echo_terminal _ := rfl
  echo_other _ := rfl

end DirWatch.Command

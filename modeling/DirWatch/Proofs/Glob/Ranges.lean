import DirWatch.Proofs.Glob.Rendering

/-!
# Ranges of classes in wrong order

The ranges of a class are said by its members alone (`CharClass.ListsRange`).

- **The first range in wrong order** is found among the written members, at the offset at which it is written
  (`found_firstBadRange`).
- **A class is read** as it is written: what is escaped moves the positions and leaves the pairs alone
  (`rangeOf_find`), so the fault of a class is its first range in wrong order (`scanFrom_class`).
-/

namespace DirWatch

/-! ## Pairs -/

/-- A member that no dash makes the front of a range. -/
theorem ClassItem.pairUp_single {α : Type} {isDash : α → Bool} {x : α} {rest : List α}
    (h : ∀ d y later, rest = d :: y :: later → isDash d = false) :
    pairUp isDash (x :: rest) = .one x :: pairUp isDash rest := by
  rcases rest with _ | ⟨d, _ | ⟨y, later⟩⟩
  · rfl
  · rfl
  · rw [pairUp, if_neg (Bool.eq_false_iff.1 (h d y later rfl))]

/-- Members are nothing, begin with a range, or begin with a single member. -/
theorem ClassItem.pairs_induction {α : Type} (isDash : α → Bool) {motive : List α → Prop} (nil : motive [])
    (range : ∀ x d y rest, isDash d = true → motive rest → motive (x :: d :: y :: rest))
    (single : ∀ x rest, (∀ d y later, rest = d :: y :: later → isDash d = false) → motive rest → motive (x :: rest))
    (ms : List α) : motive ms := by
  induction ms using pairUp.induct isDash with
  | case1 x d y rest hd ih => exact range x d y rest hd ih
  | case2 x d y rest hd ih =>
    refine single x (d :: y :: rest) (fun d' y' later e => ?_) ih
    rw [← (List.cons.inj e).1]
    exact Bool.eq_false_iff.2 hd
  | case3 x rest hrest ih => exact single x rest (fun d y later e => absurd e (hrest d y later)) ih
  | case4 => exact nil

/-! ## Ranges of a class -/

namespace CharClass

/-- Members list the range from `low` to `high` behind the members `front`. What is left of the members when a range or
a single member is taken from their front is read in the same way. -/
inductive ListsRange : Text → Text → Symbol → Symbol → Prop
  | here (low high : Symbol) (rest : Text) : ListsRange (low :: dash :: high :: rest) [] low high
  | afterRange {x y low high : Symbol} {rest front : Text} (h : ListsRange rest front low high) :
      ListsRange (x :: dash :: y :: rest) (x :: dash :: y :: front) low high
  | afterSingle {x low high : Symbol} {rest front : Text} (hr : ¬ BeginsRange (x :: rest))
      (h : ListsRange rest front low high) : ListsRange (x :: rest) (x :: front) low high

/-- All ranges that members list are in order. -/
def Ascending (members : Text) : Prop :=
  ∀ front low high, ListsRange members front low high → low.code ≤ high.code

/-- The first range in wrong order that members list. -/
structure FirstDescent (members front : Text) (low high : Symbol) : Prop where
  listed : ListsRange members front low high
  descends : high.code < low.code
  first : ∀ front' low' high', ListsRange members front' low' high' → high'.code < low'.code →
    front.length ≤ front'.length

theorem FirstDescent.not_ascending {members front : Text} {low high : Symbol}
    (h : FirstDescent members front low high) : ¬ Ascending members := fun ascending =>
  absurd (ascending _ _ _ h.listed) (Nat.not_le.2 h.descends)

theorem FirstDescent.here {low high : Symbol} (h : high.code < low.code) (rest : Text) :
    FirstDescent (low :: dash :: high :: rest) [] low high :=
  ⟨.here low high rest, h, fun _ _ _ _ _ => Nat.zero_le _⟩

/-- Behind a range in order. -/
theorem ascending_afterRange {x y : Symbol} {rest : Text} (h : x.code ≤ y.code) (hr : Ascending rest) :
    Ascending (x :: dash :: y :: rest) := by
  intro front low high listed
  cases listed with
  | here => exact h
  | afterRange listed => exact hr _ _ _ listed
  | afterSingle single _ => exact absurd ⟨x, y, rest, rfl⟩ single

theorem FirstDescent.afterRange {x y low high : Symbol} {rest front : Text} (h : x.code ≤ y.code)
    (hr : FirstDescent rest front low high) :
    FirstDescent (x :: dash :: y :: rest) (x :: dash :: y :: front) low high where
  listed := .afterRange hr.listed
  descends := hr.descends
  first front' low' high' listed descends := by
    cases listed with
    | here => exact absurd h (Nat.not_le.2 descends)
    | afterRange listed =>
      have := hr.first _ _ _ listed descends
      simp only [List.length_cons]
      omega
    | afterSingle single _ => exact absurd ⟨x, y, rest, rfl⟩ single

/-- Behind a single member. -/
theorem ascending_afterSingle {x : Symbol} {rest : Text} (hx : ¬ BeginsRange (x :: rest)) (hr : Ascending rest) :
    Ascending (x :: rest) := by
  intro front low high listed
  cases listed with
  | here => exact absurd ⟨_, _, _, rfl⟩ hx
  | afterRange => exact absurd ⟨_, _, _, rfl⟩ hx
  | afterSingle _ listed => exact hr _ _ _ listed

theorem FirstDescent.afterSingle {x low high : Symbol} {rest front : Text} (hx : ¬ BeginsRange (x :: rest))
    (hr : FirstDescent rest front low high) : FirstDescent (x :: rest) (x :: front) low high where
  listed := .afterSingle hx hr.listed
  descends := hr.descends
  first front' low' high' listed descends := by
    cases listed with
    | here => exact absurd ⟨_, _, _, rfl⟩ hx
    | afterRange => exact absurd ⟨_, _, _, rfl⟩ hx
    | afterSingle _ listed => exact Nat.succ_le_succ (hr.first _ _ _ listed descends)

/-! ## The range that is found -/

/-- The first range in wrong order of written members that start `offset` symbols in, if there is one. -/
inductive Found (offset : Nat) (ms : List Member) : Option BadRange → Prop
  | none (h : Ascending (ms.map Member.symbol)) : Found offset ms none
  | some (front back : List Member) (x d y : Member) (hm : ms = front ++ x :: d :: y :: back) (hd : d.symbol = dash)
      (h : FirstDescent (ms.map Member.symbol) (front.map Member.symbol) x.symbol y.symbol) :
      Found offset ms (some ⟨x.written, y.written, offset + (front.flatMap Member.written).length⟩)

/-- Behind members that hold no range in wrong order the search goes on. -/
theorem Found.behind {offset : Nat} {ms : List Member} {r : Option BadRange} (taken : List Member)
    (h : Found (offset + (taken.flatMap Member.written).length) ms r)
    (ascending : Ascending (ms.map Member.symbol) → Ascending ((taken ++ ms).map Member.symbol))
    (descent : ∀ {front low high}, FirstDescent (ms.map Member.symbol) front low high →
      FirstDescent ((taken ++ ms).map Member.symbol) (taken.map Member.symbol ++ front) low high) :
    Found offset (taken ++ ms) r := by
  cases h with
  | none h => exact .none (ascending h)
  | some front back x d y hm hd h =>
    have first :
        FirstDescent ((taken ++ ms).map Member.symbol) ((taken ++ front).map Member.symbol) x.symbol y.symbol := by
      have descent := descent h
      rwa [← List.map_append] at descent
    have found : Found offset (taken ++ ms) _ :=
      .some (taken ++ front) back x d y (by rw [hm, List.append_assoc]) hd first
    rwa [List.flatMap_append, List.length_append, ← Nat.add_assoc] at found

/-- Whether a written member is a dash. -/
def Member.isDash (m : Member) : Bool := m.symbol = dash

/-- **The search finds the first range in wrong order**, at the place where it is written. -/
theorem found_firstBadRange {ms : List Member} (dashes : ∀ m ∈ ms, m.symbol = dash → m.written = [dash]) :
    ∀ offset : Nat, Found offset ms (firstBadRange offset (ClassItem.pairUp Member.isDash ms)) := by
  induction ms using ClassItem.pairs_induction Member.isDash with
  | nil =>
    intro offset
    refine .none fun front low high listed => ?_
    cases listed
  | range x d y rest hd ih =>
    intro offset
    have isDash : d.symbol = dash := by simpa [Member.isDash] using hd
    have written : d.written = [dash] := dashes d (by simp) isDash
    rw [ClassItem.pairUp, if_pos hd, firstBadRange]
    split
    · rename_i descends
      have first : FirstDescent ((x :: d :: y :: rest).map Member.symbol) [] x.symbol y.symbol := by
        simp only [List.map_cons, isDash]
        exact .here descends _
      exact .some [] rest x d y rfl isDash first
    · rename_i ordered
      have ordered : x.symbol.code ≤ y.symbol.code := Nat.not_lt.1 ordered
      have width : offset + x.written.length + 1 + y.written.length =
          offset + ([x, d, y].flatMap Member.written).length := by
        simp only [List.flatMap_cons, List.flatMap_nil, written, List.length_append, List.length_cons, List.length_nil]
        omega
      rw [width]
      refine (ih (fun m hm => dashes m (by simp [hm])) _).behind [x, d, y] (fun h => ?_) (fun h => ?_)
      · simpa [isDash] using ascending_afterRange ordered h
      · simpa [isDash] using h.afterRange ordered
  | single x rest hr ih =>
    intro offset
    have single : ¬ BeginsRange (x.symbol :: rest.map Member.symbol) := by
      rintro ⟨low, high, later, e⟩
      rcases rest with _ | ⟨d, _ | ⟨y, behind⟩⟩
      · cases (List.cons.inj e).2
      · cases (List.cons.inj (List.cons.inj e).2).2
      · have isDash : d.symbol = dash := (List.cons.inj (List.cons.inj e).2).1
        simpa [Member.isDash, isDash] using hr d y behind rfl
    have width : offset + x.written.length = offset + ([x].flatMap Member.written).length := by simp
    rw [ClassItem.pairUp_single hr, firstBadRange, width]
    refine (ih (fun m hm => dashes m (List.mem_cons_of_mem x hm)) _).behind [x] (fun h => ?_) (fun h => ?_)
    · exact ascending_afterSingle single h
    · exact h.afterSingle single

/-! ## Pairs that are read -/

open Expression (Fault Placed memberText placeFrom scanFrom)

/-- A range in wrong order that was read, as it is written. -/
def rangeOf : Option (ClassItem Placed) → Option BadRange
  | some (.range low high) => some ⟨memberText low.member, memberText high.member, low.position⟩
  | _ => none

/-- **The pairs that are read are the pairs that are written**, at the same positions. -/
theorem rangeOf_find {ms : List (Symbol × Bool)} (dashes : ∀ m ∈ ms, m.1 = dash → m.2 = false) :
    ∀ start : Nat, rangeOf ((ClassItem.pairUp Placed.isDash (placeFrom start ms)).find? Expression.descends) =
      firstBadRange start (ClassItem.pairUp Member.isDash (ms.map Member.ofUnit)) := by
  have isDash (m : Symbol × Bool) (hm : m ∈ ms) (position : Nat) :
      Placed.isDash ⟨m, position⟩ = Member.isDash (Member.ofUnit m) := by
    obtain ⟨s, escaped⟩ := m
    by_cases hs : s = dash
    · obtain rfl : escaped = false := dashes _ hm hs
      simp [Placed.isDash, Member.isDash, Member.ofUnit, hs]
    · simp [Placed.isDash, Member.isDash, Member.ofUnit, hs]
  clear dashes
  induction ms using ClassItem.pairs_induction (fun m => Member.isDash (Member.ofUnit m)) with
  | nil =>
    intro start
    rfl
  | range x d y rest hd ih =>
    intro start
    have read := (isDash d (by simp) (start + (memberText x).length)).trans hd
    have width : (memberText d).length = 1 := by
      have plain : d = (dash, false) := by simpa [Placed.isDash] using read
      rw [plain]
      rfl
    simp only [placeFrom, List.map_cons]
    rw [ClassItem.pairUp, if_pos read, ClassItem.pairUp, if_pos hd, firstBadRange, List.find?_cons]
    have same : Expression.descends (.range ⟨x, start⟩ ⟨y, start + (memberText x).length + (memberText d).length⟩) =
        decide ((Member.ofUnit y).symbol.code < (Member.ofUnit x).symbol.code) := rfl
    rw [same]
    by_cases descends : (Member.ofUnit y).symbol.code < (Member.ofUnit x).symbol.code
    · rw [decide_eq_true descends, if_pos descends]
      rfl
    · rw [decide_eq_false descends, if_neg descends, width]
      exact ih (fun m hm => isDash m (by simp [hm])) _
  | single x rest hr ih =>
    intro start
    have read : ∀ d y later, placeFrom (start + (memberText x).length) rest = d :: y :: later →
        Placed.isDash d = false := by
      intro d y later e
      rcases rest with _ | ⟨d', _ | ⟨y', later'⟩⟩
      · cases e
      · cases e
      · rw [← (List.cons.inj e).1, isDash d' (by simp)]
        exact hr d' y' later' rfl
    have written : ∀ d y later, rest.map Member.ofUnit = d :: y :: later → Member.isDash d = false := by
      intro d y later e
      rcases rest with _ | ⟨d', _ | ⟨y', later'⟩⟩
      · cases e
      · cases e
      · rw [← (List.cons.inj e).1]
        exact hr d' y' later' rfl
    rw [placeFrom, List.map_cons, ClassItem.pairUp_single read, ClassItem.pairUp_single written, firstBadRange,
      List.find?_cons]
    exact ih (fun m hm => isDash m (List.mem_cons_of_mem x hm)) _

theorem firstBadRange_add (items : List (ClassItem Member)) (position : Nat) : ∀ offset : Nat,
    firstBadRange (position + offset) items =
      (firstBadRange offset items).map fun r => { r with offset := position + r.offset } := by
  induction items with
  | nil => exact fun offset => rfl
  | cons i items ih =>
    intro offset
    cases i with
    | one x => rw [firstBadRange, firstBadRange, Nat.add_assoc, ih]
    | range x y =>
      rw [firstBadRange, firstBadRange]
      split
      · rfl
      · rw [show position + offset + x.written.length + 1 + y.written.length =
          position + (offset + x.written.length + 1 + y.written.length) by omega, ih]

theorem classFault_of_rangeOf {stop : Nat} {ms : List (Symbol × Bool)} {r : BadRange}
    (h : rangeOf ((ClassItem.pairUp Placed.isDash
      (placeFrom (stop - (ms.flatMap memberText).length) ms)).find? Expression.descends) = some r) :
    Expression.classFault stop ms = .badRange r.low r.high r.offset := by
  unfold Expression.classFault
  dsimp only
  generalize (ClassItem.pairUp Placed.isDash _).find? Expression.descends = found at h
  unfold rangeOf at h
  split at h
  · cases h
    rfl
  · cases h

/-- **A class is read**: its first range in wrong order is the fault, at the position at which it is written. -/
theorem scanFrom_class {c : CharClass} (h : c.Closed) {r : BadRange} (hr : c.badRange? = some r) (position : Nat)
    (t : Text) : ∃ later, scanFrom .plain position (c.written ++ t) =
      .error (.badRange r.low r.high (position + r.offset)) :: later := by
  have refused : Expression.classLexeme c.negated c.units = .malformed := by
    rw [Expression.classLexeme_units]
    refine if_neg fun ordered => ?_
    rw [badRange_eq_none_iff.2 (List.all_eq_true.1 ordered)] at hr
    cases hr
  have fault : Expression.classFault (position + (c.opening ++ c.units.flatMap memberText).length) c.units =
      .badRange r.low r.high (position + r.offset) := by
    refine classFault_of_rangeOf (r := { r with offset := position + r.offset }) ?_
    have start : position + (c.opening ++ c.units.flatMap memberText).length - (c.units.flatMap memberText).length =
        position + c.opening.length := by
      rw [List.length_append]
      omega
    rw [start, rangeOf_find fun m hm => escaped_of_dash hm, map_ofUnit_units, firstBadRange_add]
    exact congrArg (Option.map _) hr
  refine ⟨scanFrom .plain (position + (c.opening ++ c.units.flatMap memberText).length + 1) t, ?_⟩
  rw [written_eq, List.append_assoc, (Expression.silent_class h).scanFrom, List.singleton_append,
    Expression.scanFrom_cons]
  simp only [Expression.lexSymbol, if_true, List.reverse_reverse, refused, List.map_cons, List.map_nil,
    List.singleton_append, Expression.located, Expression.LexMode.fault, fault]

theorem modeAfter_class {c : CharClass} (h : c.Closed) : Expression.modeAfter .plain c.written = .plain := by
  rw [written_eq, Expression.modeAfter_append, (Expression.silent_class h).modeAfter]
  rfl

end CharClass
end DirWatch

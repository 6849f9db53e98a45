import DecisionTable.Rule.Basic
import DecisionTable.Proofs.Formula.Assignment

/-! # Failures of paths and statements

A value cannot be assigned where something on the path to it is no object, and the error names the
first such place (`Barrier`). Reading gets further, so it fails only where assigning fails. The
search goes down into the fact and changes nothing before it has reached the end of the path: a
statement that works in place (`Statement.execute`) leaves the fact as it was when it fails.
-/

namespace DecisionTable

/-- Whether a value is an object. -/
def Json.isObject : Json → Bool
  | object _ => true
  | _ => false

theorem Json.isObject_iff {value : Json} :
    value.isObject = true ↔ ∃ members, value = .object members := by
  cases value <;> simp [isObject]

/-- `Barrier members segments walk`: the walk is the shortest proper front part of the segments that
    leads to something else than an object. -/
structure Barrier (members : Members) (segments walk : List String) : Prop where
  front : walk <+: segments
  proper : walk ≠ segments
  barred : ((Json.object members).descendant walk).isObject = false
  shortest : ∀ shorter, shorter <+: walk → shorter ≠ walk →
    ((Json.object members).descendant shorter).isObject = true

/-- The error for a value, found behind a walk, that is no object. What is absent is null. -/
def EvalError.barred (walk : List String) (value : Json) : EvalError :=
  if value = .null then .missing walk else .notObject walk

namespace Barrier

variable {members inner : Members} {key : String} {segments rest walk : List String}

theorem exists_cons (barrier : Barrier members (key :: rest) walk) :
    ∃ behind, walk = key :: behind := by
  cases walk with
  | nil => exact nomatch barrier.barred
  | cons segment behind =>
      obtain ⟨rfl, -⟩ := List.cons_prefix_cons.1 barrier.front
      exact ⟨behind, rfl⟩

/-- Behind an object the search goes on in it. -/
theorem cons_iff (found : (Json.object members).child key = .object inner) :
    Barrier members (key :: rest) walk ↔ ∃ behind, walk = key :: behind ∧
      Barrier inner rest behind := by
  constructor
  · intro barrier
    obtain ⟨behind, rfl⟩ := barrier.exists_cons
    obtain ⟨front, proper, barred, shortest⟩ := barrier
    rw [Json.descendant_cons, found] at barred
    refine ⟨behind, rfl, (List.cons_prefix_cons.1 front).2, fun same => proper (same ▸ rfl), barred,
      fun shorter front' proper' => ?_⟩
    have open_ := shortest (key :: shorter) (List.cons_prefix_cons.2 ⟨rfl, front'⟩)
      fun same => proper' (List.cons.inj same).2
    rwa [Json.descendant_cons, found] at open_
  · rintro ⟨behind, rfl, front, proper, barred, shortest⟩
    refine ⟨List.cons_prefix_cons.2 ⟨rfl, front⟩, fun same => proper (List.cons.inj same).2, ?_,
      fun shorter front' proper' => ?_⟩
    · rwa [Json.descendant_cons, found]
    · cases shorter with
      | nil => rfl
      | cons segment shorter =>
          obtain ⟨rfl, within⟩ := List.cons_prefix_cons.1 front'
          rw [Json.descendant_cons, found]
          exact shortest shorter within fun same => proper' (same ▸ rfl)

/-- Something else than an object ends the search, if the segments go on. -/
theorem cons_iff_eq (barred : ((Json.object members).child key).isObject = false) :
    Barrier members (key :: rest) walk ↔ walk = [key] ∧ rest ≠ [] := by
  constructor
  · intro barrier
    obtain ⟨behind, rfl⟩ := barrier.exists_cons
    by_cases here : behind = []
    · subst here
      exact ⟨rfl, fun none => barrier.proper (none ▸ rfl)⟩
    · have open_ : ((Json.object members).child key).isObject = true :=
        barrier.shortest [key] (by simp) (by simpa using Ne.symm here)
      rw [barred] at open_
      cases open_
  · rintro ⟨rfl, onward⟩
    refine ⟨by simp, by simpa using Ne.symm onward, barred, fun shorter front proper => ?_⟩
    cases shorter with
    | nil => rfl
    | cons segment shorter =>
        obtain ⟨rfl, within⟩ := List.cons_prefix_cons.1 front
        exact absurd (List.prefix_nil.1 within ▸ rfl) proper

/-- Where null bars the way, reading stops as well. -/
theorem readFrom_eq (barrier : Barrier members segments walk)
    (null : (Json.object members).descendant walk = .null) (walked : List String) :
    FieldPath.readFrom walked (.object members) segments =
      .error (.missing (walked ++ walk)) := by
  induction segments generalizing members walk walked with
  | nil => exact absurd (List.prefix_nil.1 barrier.front) barrier.proper
  | cons key rest ih =>
      rw [FieldPath.readFrom_object]
      cases kind : ((Json.object members).child key).isObject with
      | true =>
          obtain ⟨inner, found⟩ := Json.isObject_iff.1 kind
          obtain ⟨behind, rfl, within⟩ := (cons_iff found).1 barrier
          rw [Json.descendant_cons, found] at null
          rw [found, ih within null, List.append_assoc]
          rfl
      | false =>
          obtain ⟨rfl, onward⟩ := (cons_iff_eq kind).1 barrier
          obtain ⟨next, rest, rfl⟩ := List.exists_cons_of_ne_nil onward
          have absent : (Json.object members).child key = .null := null
          rw [absent, FieldPath.readFrom]

end Barrier

namespace FieldPath

theorem assignFrom_of_object {walked : List String} {value : Json} {key next : String}
    {rest : List String} {members inner : Members}
    (found : (Json.object members).child key = .object inner) :
    assignFrom walked value key (next :: rest) members =
      (assignFrom (walked ++ [key]) value next rest inner).map fun after =>
        Members.insert key (.object after) members := by
  rw [assignFrom]
  split <;> simp_all [Json.child]

theorem assignFrom_of_barred {walked : List String} {value : Json} {key next : String}
    {rest : List String} {members : Members}
    (barred : ((Json.object members).child key).isObject = false) :
    assignFrom walked value key (next :: rest) members =
      .error (.barred (walked ++ [key]) ((Json.object members).child key)) := by
  rw [assignFrom, EvalError.barred]
  split <;> simp_all [Json.child, Json.isObject]

/-- Assigning fails at the barrier on its path, and nowhere else. -/
theorem assignFrom_eq_error_iff {walked : List String} {value : Json} {key : String}
    {rest : List String} {members : Members} {e : EvalError} :
    assignFrom walked value key rest members = .error e ↔
      ∃ walk, Barrier members (key :: rest) walk ∧
        e = .barred (walked ++ walk) ((Json.object members).descendant walk) := by
  induction rest generalizing walked key members with
  | nil =>
      refine iff_of_false nofun ?_
      rintro ⟨walk, barrier, -⟩
      obtain ⟨behind, rfl⟩ := barrier.exists_cons
      have within := (List.cons_prefix_cons.1 barrier.front).2
      exact barrier.proper (List.prefix_nil.1 within ▸ rfl)
  | cons next rest ih =>
      cases kind : ((Json.object members).child key).isObject with
      | true =>
          obtain ⟨inner, found⟩ := Json.isObject_iff.1 kind
          rw [assignFrom_of_object found, Parser.map_eq_error, ih]
          constructor
          · rintro ⟨walk, barrier, rfl⟩
            refine ⟨key :: walk, (Barrier.cons_iff found).2 ⟨walk, rfl, barrier⟩, ?_⟩
            rw [Json.descendant_cons, found, List.append_assoc]
            rfl
          · rintro ⟨walk, barrier, rfl⟩
            obtain ⟨behind, rfl, within⟩ := (Barrier.cons_iff found).1 barrier
            refine ⟨behind, within, ?_⟩
            rw [Json.descendant_cons, found, List.append_assoc]
            rfl
      | false =>
          rw [assignFrom_of_barred kind, Except.error.injEq]
          constructor
          · rintro rfl
            exact ⟨[key], (Barrier.cons_iff_eq kind).2 ⟨rfl, nofun⟩, rfl⟩
          · rintro ⟨walk, barrier, rfl⟩
            obtain ⟨rfl, -⟩ := (Barrier.cons_iff_eq kind).1 barrier
            rfl

theorem assign_eq_error_iff {path : FieldPath} {value : Json} {fact : Fact} {e : EvalError} :
    path.assign value fact = .error e ↔ ∃ walk, Barrier fact path.segments walk ∧
      e = .barred walk ((Json.object fact).descendant walk) :=
  assignFrom_eq_error_iff

/-- All that a path goes through on its way to a stored value are objects. -/
theorem Stored.isObject {value : Json} {key : String} {rest : List String}
    {before after : Members} (stored : Stored value key rest before after) {walk : List String}
    (front : walk <+: key :: rest) (proper : walk ≠ key :: rest) :
    ((Json.object before).descendant walk).isObject = true := by
  induction stored generalizing walk with
  | last key members =>
      rcases List.prefix_cons_iff.1 front with rfl | ⟨behind, rfl, within⟩
      · rfl
      · exact absurd (List.prefix_nil.1 within ▸ rfl) proper
  | inside found stored ih =>
      rcases List.prefix_cons_iff.1 front with rfl | ⟨behind, rfl, within⟩
      · rfl
      · rw [Json.descendant_cons, Json.child_of_get? found]
        exact ih within fun same => proper (same ▸ rfl)

theorem exists_assign_error_iff {path : FieldPath} {value : Json} {fact : Fact} :
    (∃ e, path.assign value fact = .error e) ↔ ∃ walk, walk <+: path.segments ∧
      walk ≠ path.segments ∧ ((Json.object fact).descendant walk).isObject = false := by
  constructor
  · rintro ⟨e, failed⟩
    obtain ⟨walk, barrier, -⟩ := assign_eq_error_iff.1 failed
    exact ⟨walk, barrier.front, barrier.proper, barrier.barred⟩
  · rintro ⟨walk, front, proper, barred⟩
    cases assigned : path.assign value fact with
    | error e => exact ⟨e, rfl⟩
    | ok after =>
        have open_ := (assign_eq_ok_iff.1 assigned).isObject front proper
        rw [barred] at open_
        cases open_

/-- What can be assigned to can be read. -/
theorem Stored.exists_read {value : Json} {key : String} {rest : List String}
    {before after : Members} (stored : Stored value key rest before after)
    (walked : List String) :
    ∃ old, readFrom walked (.object before) (key :: rest) = .ok old := by
  induction stored generalizing walked with
  | last key members => exact ⟨_, by rw [readFrom_object, readFrom]⟩
  | inside found stored ih =>
      rw [readFrom_object, Json.child_of_get? found]
      exact ih _

theorem exists_assign_error_of_read {path : FieldPath} {fact : Fact} {e : EvalError}
    (failed : path.read fact = .error e) (value : Json) :
    ∃ e', path.assign value fact = .error e' := by
  cases assigned : path.assign value fact with
  | error e' => exact ⟨e', rfl⟩
  | ok after =>
      obtain ⟨old, read⟩ := (assign_eq_ok_iff.1 assigned).exists_read []
      rw [read_eq_readFrom] at failed
      cases failed.symm.trans read

theorem read_eq_of_assign_missing {path : FieldPath} {value : Json} {fact : Fact}
    {walk : List String} (failed : path.assign value fact = .error (.missing walk)) :
    path.read fact = .error (.missing walk) := by
  obtain ⟨walk', barrier, named⟩ := assign_eq_error_iff.1 failed
  rw [EvalError.barred] at named
  split at named
  case isTrue null =>
    cases named
    exact barrier.readFrom_eq null []
  case isFalse => cases named

end FieldPath

/-! ## Assigning in place -/

/-- An object inside of a fact and the objects around it, innermost first, each with the key under
    which the one before stands in it. -/
structure Place where
  members : Members
  around : List (String × Members)

/-- The fact around a place, as the place is now. -/
def Place.whole (p : Place) : Fact :=
  p.around.foldl (fun inner outer => Members.insert outer.1 (.object inner) outer.2) p.members

theorem Place.whole_enter {p : Place} {key : String} {inner : Members}
    (found : Members.get? key p.members = some (.object inner)) :
    (Place.mk inner ((key, p.members) :: p.around)).whole = p.whole := by
  simp only [whole, List.foldl_cons, Members.insert_of_get? found]

/-- Goes down from a place to the object that holds the last segment, and stores a value in it. -/
def FieldPath.assignAt (walked : List String) (value : Json) (p : Place) (key : String) :
    List String → Effect Unit
  | [] => ⟨(Place.mk (Members.insert key value p.members) p.around).whole, .ok ()⟩
  | next :: rest =>
    match Members.get? key p.members with
    | some (.object inner) =>
      assignAt (walked ++ [key]) value ⟨inner, (key, p.members) :: p.around⟩ next rest
    | none | some .null => ⟨p.whole, .error (.missing (walked ++ [key]))⟩
    | some _ => ⟨p.whole, .error (.notObject (walked ++ [key]))⟩

/-- The effect of a step that leaves the fact when it fails. -/
def Effect.ofResult (fact : Fact) : Except EvalError Fact → Effect Unit
  | .ok after => ⟨after, .ok ()⟩
  | .error e => ⟨fact, .error e⟩

/-- Going down changes nothing, so in place an assignment does what it does to the object alone. -/
theorem FieldPath.assignAt_eq (walked : List String) (value : Json) (p : Place) (key : String)
    (rest : List String) : assignAt walked value p key rest =
      .ofResult p.whole ((assignFrom walked value key rest p.members).map fun after =>
        (Place.mk after p.around).whole) := by
  induction rest generalizing walked key p with
  | nil => rfl
  | cons next rest ih =>
      rw [assignAt, assignFrom]
      cases found : Members.get? key p.members with
      | none => rfl
      | some inside =>
          cases inside with
          | object inner =>
              simp only [ih, Place.whole_enter found]
              cases assignFrom (walked ++ [key]) value next rest inner <;> rfl
          | _ => rfl

/-- Runs a statement in place. -/
def Statement.execute (fact : Fact) : Statement → Effect Unit
  | assign target value =>
    match value.eval fact with
    | .error e => ⟨fact, .error e⟩
    | .ok v => FieldPath.assignAt [] v ⟨fact, []⟩ target.first target.rest
  | bare e => ⟨fact, (e.eval fact).map fun _ => ()⟩

theorem Effect.ofResult_eq_error_iff {fact left : Fact} {result : Except EvalError Fact}
    {e : EvalError} :
    ofResult fact result = ⟨left, .error e⟩ ↔ left = fact ∧ result = .error e := by
  cases result <;> simp [ofResult, eq_comm]

theorem Effect.ofResult_eq_ok_iff {fact after : Fact} {result : Except EvalError Fact} :
    ofResult fact result = ⟨after, .ok ()⟩ ↔ result = .ok after := by
  cases result <;> simp [ofResult]

theorem Statement.execute_eq (fact : Fact) (s : Statement) :
    s.execute fact = .ofResult fact (s.run fact) := by
  cases s with
  | assign target value =>
      rw [execute, run]
      cases value.eval fact with
      | error e => rfl
      | ok v =>
          refine (FieldPath.assignAt_eq [] v ⟨fact, []⟩ target.first target.rest).trans ?_
          cases found : FieldPath.assignFrom [] v target.first target.rest fact <;>
            simp [FieldPath.assign, found, bind, Except.bind, Except.map, Place.whole]
  | bare e =>
      rw [execute, run]
      cases e.eval fact <;> rfl

namespace Consequence

/-- Runs statements in place up to the first that fails. -/
def executeAll (fact : Fact) : List Statement → Effect Unit
  | [] => ⟨fact, .ok ()⟩
  | s :: rest =>
    let done := s.execute fact
    match done.report with
    | .error e => ⟨done.fact, .error e⟩
    | .ok () => executeAll done.fact rest

theorem executeAll_eq (fact : Fact) (statements : List Statement) :
    executeAll fact statements = runAll fact statements := by
  induction statements generalizing fact with
  | nil => rfl
  | cons s rest ih =>
      rw [executeAll, runAll, s.execute_eq]
      cases s.run fact with
      | error e => rfl
      | ok after => exact ih after

/-- Statements fail at one that fails in the fact that those before it have left. -/
theorem runAll_eq_error_iff {fact left : Fact} {statements : List Statement} {e : EvalError} :
    runAll fact statements = ⟨left, .error e⟩ ↔ ∃ before s behind,
      statements = before ++ s :: behind ∧ runAll fact before = ⟨left, .ok ()⟩ ∧
        s.run left = .error e := by
  induction statements generalizing fact with
  | nil => simp [runAll]
  | cons s rest ih =>
      constructor
      · intro failed
        rw [runAll] at failed
        cases ran : s.run fact with
        | error e' =>
            rw [ran] at failed
            cases failed
            exact ⟨[], s, rest, rfl, rfl, ran⟩
        | ok after =>
            rw [ran] at failed
            obtain ⟨before, t, behind, rfl, done, stuck⟩ := ih.1 failed
            exact ⟨s :: before, t, behind, rfl, by rw [runAll, ran]; exact done, stuck⟩
      · rintro ⟨before, t, behind, split, done, stuck⟩
        cases before with
        | nil =>
            cases split
            cases done
            rw [runAll, stuck]
        | cons first before =>
            obtain ⟨rfl, others⟩ := List.cons.inj split
            rw [runAll] at done ⊢
            cases ran : s.run fact with
            | error e' => rw [ran] at done; cases done
            | ok after =>
                rw [ran] at done
                exact ih.2 ⟨before, t, behind, others, done, stuck⟩

/-- A statement that fails in place leaves the fact as it was, and one that succeeds leaves its
    result. A consequence that fails leaves what the statements before the failing one have made of
    the fact. Assigning fails exactly where a proper front part of the path leads to no object; the
    error names the shortest one, as missing if it leads to null and as a wrong target otherwise.
    Where assigning misses a field reading misses the same one, and where reading fails assigning
    fails. -/
theorem failures_exact (fact : Fact) :
    (∀ (s : Statement) left e,
      s.execute fact = ⟨left, .error e⟩ ↔ left = fact ∧ s.run fact = .error e) ∧
    (∀ (s : Statement) after, s.execute fact = ⟨after, .ok ()⟩ ↔ s.run fact = .ok after) ∧
    (∀ c : Consequence, c.apply fact = executeAll fact c.statements) ∧
    (∀ (c : Consequence) left e, c.apply fact = ⟨left, .error e⟩ ↔ ∃ before s behind,
      c.statements = before ++ s :: behind ∧ executeAll fact before = ⟨left, .ok ()⟩ ∧
        s.execute left = ⟨left, .error e⟩) ∧
    (∀ (path : FieldPath) value, (∃ e, path.assign value fact = .error e) ↔
      ∃ walk, walk <+: path.segments ∧ walk ≠ path.segments ∧
        ((Json.object fact).descendant walk).isObject = false) ∧
    (∀ (path : FieldPath) value e, path.assign value fact = .error e ↔
      ∃ walk, Barrier fact path.segments walk ∧
        e = if (Json.object fact).descendant walk = .null then .missing walk
          else .notObject walk) ∧
    (∀ (path : FieldPath) value walk, path.assign value fact = .error (.missing walk) →
      path.read fact = .error (.missing walk)) ∧
    ∀ (path : FieldPath) value e, path.read fact = .error e →
      ∃ e', path.assign value fact = .error e' := by
  refine ⟨fun s left e => ?_, fun s after => ?_, fun c => (executeAll_eq fact c.statements).symm,
    fun c left e => ?_, fun path value => FieldPath.exists_assign_error_iff,
    fun path value e => FieldPath.assign_eq_error_iff,
    fun path value walk => FieldPath.read_eq_of_assign_missing,
    fun path value e failed => FieldPath.exists_assign_error_of_read failed value⟩
  · rw [s.execute_eq, Effect.ofResult_eq_error_iff]
  · rw [s.execute_eq, Effect.ofResult_eq_ok_iff]
  · rw [apply, runAll_eq_error_iff]
    simp only [executeAll_eq, Statement.execute_eq, Effect.ofResult_eq_error_iff, true_and]

end Consequence

end DecisionTable

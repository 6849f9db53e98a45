import DecisionTable.Proofs.Book.Calls
import Mathlib.Algebra.BigOperators.Fin
import Mathlib.Algebra.Order.BigOperators.Group.Finset

/-! # Calls at the same time

A book is shared by callers that hold its lock for a section at a time: a load stores its sheet in
one section, a removal tests in one and erases in another, and a question takes a snapshot in one.
What a caller does between its sections it does on its own. A schedule says who goes on next.
-/

namespace DecisionTable

/-- A call that leaves the book as it is. -/
def Call.isQuestion : Call → Bool
  | .load .. | .remove _ => false
  | _ => true

theorem RuleBook.call_question (book : RuleBook) {c : Call} (question : c.isQuestion = true) :
    (book.call c).2 = book := by
  cases c with
  | load | remove => cases question
  | _ => rfl

/-- How far a call has come. -/
inductive Stage where
  | waiting (c : Call)
  /-- A load has compiled its sheet. -/
  | storing (sheet : Sheet)
  /-- A removal has found its sheet. -/
  | removing (id : String)
  /-- A question has its snapshot. -/
  | asking (c : Call) (snapshot : RuleBook)
  | answered (a : Answer)

namespace Stage

/-- What a call does next, and what it makes of the book. -/
def advance (book : RuleBook) : Stage → Option (Stage × RuleBook)
  | waiting (.load id content format modified) =>
    match Sheet.compile book.syn id content format modified with
    | .ok sheet => some (storing sheet, book)
    | .error e => some (answered (.loaded (.error e)), book)
  | waiting (.remove id) =>
    if book.contains id then some (removing id, book) else some (answered (.removed false), book)
  | waiting c => some (asking c book, book)
  | storing sheet => some (answered (.loaded (.ok sheet)), book.update (SheetMap.insert sheet))
  | removing id => some (answered (.removed true), book.update (SheetMap.erase id))
  | asking c snapshot => some (answered (snapshot.call c).1, book)
  | answered _ => none

/-- The ways in which a call goes on. -/
inductive Advances (book : RuleBook) : Stage → Stage → RuleBook → Prop where
  | compile {id : String} {content : FileContent} {format : SheetFormat} {modified : Int}
      {sheet : Sheet} (compiled : Sheet.compile book.syn id content format modified = .ok sheet) :
      Advances book (waiting (.load id content format modified)) (storing sheet) book
  | refuse {id : String} {content : FileContent} {format : SheetFormat} {modified : Int}
      {e : TableError} (refused : Sheet.compile book.syn id content format modified = .error e) :
      Advances book (waiting (.load id content format modified)) (answered (.loaded (.error e)))
        book
  | find {id : String} (found : book.contains id = true) :
      Advances book (waiting (.remove id)) (removing id) book
  | miss {id : String} (absent : book.contains id = false) :
      Advances book (waiting (.remove id)) (answered (.removed false)) book
  | ask {c : Call} (question : c.isQuestion = true) : Advances book (waiting c) (asking c book) book
  | store (sheet : Sheet) : Advances book (storing sheet) (answered (.loaded (.ok sheet)))
      (book.update (SheetMap.insert sheet))
  | erase (id : String) : Advances book (removing id) (answered (.removed true))
      (book.update (SheetMap.erase id))
  | reply (c : Call) (snapshot : RuleBook) :
      Advances book (asking c snapshot) (answered (snapshot.call c).1) book

variable {book book' : RuleBook} {stage stage' : Stage}

theorem advance_eq_some_iff :
    stage.advance book = some (stage', book') ↔ Advances book stage stage' book' := by
  constructor
  · intro h
    cases stage with
    | waiting c =>
        cases c with
        | load id content format modified =>
            cases compiled : Sheet.compile book.syn id content format modified with
            | ok sheet =>
                simp only [advance, compiled] at h
                cases h
                exact .compile compiled
            | error e =>
                simp only [advance, compiled] at h
                cases h
                exact .refuse compiled
        | remove id =>
            rw [advance] at h
            split at h
            · rename_i found
              cases h
              exact .find found
            · rename_i absent
              cases h
              exact .miss (Bool.eq_false_iff.2 absent)
        | _ =>
            cases h
            exact .ask rfl
    | storing sheet =>
        cases h
        exact .store sheet
    | removing id =>
        cases h
        exact .erase id
    | asking c snapshot =>
        cases h
        exact .reply c snapshot
    | answered a => cases h
  · intro advances
    cases advances with
    | compile compiled => simp only [advance, compiled]
    | refuse refused => simp only [advance, refused]
    | find found => exact if_pos found
    | miss absent => exact if_neg (Bool.eq_false_iff.1 absent)
    | @ask c question =>
        cases c with
        | load | remove => cases question
        | _ => rfl
    | _ => rfl

theorem advance_eq_none_iff : stage.advance book = none ↔ ∃ a, stage = answered a := by
  constructor
  · intro h
    cases stage with
    | waiting c =>
        cases c with
        | load id content format modified =>
            rw [advance] at h
            split at h <;> cases h
        | remove id =>
            rw [advance] at h
            split at h <;> cases h
        | _ => cases h
    | answered a => exact ⟨a, rfl⟩
    | _ => cases h
  · rintro ⟨a, rfl⟩
    rfl

/-- A bound on what is left of a call. -/
def remaining : Stage → Nat
  | waiting _ => 2
  | answered _ => 0
  | _ => 1

theorem Advances.remaining_lt (advances : Advances book stage stage' book') :
    stage'.remaining < stage.remaining := by
  cases advances <;> simp only [remaining] <;> omega

end Stage

/-- A book and the calls on it. -/
structure Shared (n : Nat) where
  book : RuleBook
  stage : Fin n → Stage

namespace Shared

variable {n : Nat} {s s' : Shared n} {i j : Fin n}

/-- All calls are about to begin. -/
def start (book : RuleBook) (calls : Fin n → Call) : Shared n := ⟨book, fun i => .waiting (calls i)⟩

/-- All calls are answered. -/
def Done (s : Shared n) : Prop := ∀ i, ∃ a, s.stage i = .answered a

/-- One call goes on. -/
def step (s : Shared n) (i : Fin n) : Option (Shared n) :=
  ((s.stage i).advance s.book).map fun (stage, book) => ⟨book, Function.update s.stage i stage⟩

/-- Calls go on as a schedule says. -/
def run (s : Shared n) : List (Fin n) → Option (Shared n)
  | [] => some s
  | i :: rest => (s.step i).bind fun s' => s'.run rest

theorem step_eq_some_iff : s.step i = some s' ↔ ∃ stage book,
    (s.stage i).Advances s.book stage book ∧ s' = ⟨book, Function.update s.stage i stage⟩ := by
  simp only [step, Option.map_eq_some_iff, Prod.exists, Stage.advance_eq_some_iff]
  exact exists₂_congr fun _ _ => and_congr_right fun _ => eq_comm

theorem run_append (s : Shared n) (past more : List (Fin n)) :
    s.run (past ++ more) = (s.run past).bind fun s' => s'.run more := by
  induction past generalizing s with
  | nil => rfl
  | cons i past ih =>
      rw [List.cons_append, run, run, Option.bind_assoc]
      exact congrArg _ (funext fun s' => ih s')

/-- What holds at the start and is kept by each step holds after each schedule. -/
theorem run_induction {P : List (Fin n) → Shared n → Prop} {schedule : List (Fin n)}
    (start : P [] s) (kept : ∀ past s s' i, P past s → s.step i = some s' → P (past ++ [i]) s')
    (ran : s.run schedule = some s') : P schedule s' := by
  have onward (schedule past : List (Fin n)) (s : Shared n) (held : P past s)
      (ran : s.run schedule = some s') : P (past ++ schedule) s' := by
    induction schedule generalizing s past with
    | nil =>
        cases ran
        rwa [List.append_nil]
    | cons i rest ih =>
        obtain ⟨next, stepped, ran⟩ := Option.bind_eq_some_iff.1 ran
        rw [List.append_cons]
        exact ih _ next (kept past s next i held stepped) ran
  exact onward schedule [] s start ran

/-- A call that is answered does not go on. -/
theorem stage_of_answered {schedule : List (Fin n)} (ran : s.run schedule = some s') {a : Answer}
    (answered : s.stage i = .answered a) : i ∉ schedule ∧ s'.stage i = .answered a := by
  have := run_induction (P := fun past s => i ∉ past ∧ s.stage i = .answered a)
    ⟨List.not_mem_nil, answered⟩ (fun past s s' j held stepped => ?_) ran
  · exact this
  · obtain ⟨stage, book, advances, rfl⟩ := step_eq_some_iff.1 stepped
    obtain ⟨unused, answered⟩ := held
    have other : i ≠ j := by
      rintro rfl
      rw [answered] at advances
      cases advances
    exact ⟨by simp [unused, other], (Function.update_of_ne other _ _).trans answered⟩

/-- Whatever has been done, the calls can be ended. -/
theorem exists_finish (s : Shared n) : ∃ more last, s.run more = some last ∧ last.Done := by
  by_cases done : s.Done
  · exact ⟨[], s, rfl, done⟩
  · obtain ⟨i, unanswered⟩ := not_forall.1 done
    cases next : (s.stage i).advance s.book with
    | none => exact absurd (Stage.advance_eq_none_iff.1 next) unanswered
    | some r =>
        have less : ∑ j, (Function.update s.stage i r.1 j).remaining <
            ∑ j, (s.stage j).remaining := by
          have shorter := (Stage.advance_eq_some_iff.1 next).remaining_lt
          refine Finset.sum_lt_sum (fun j _ => ?_) ⟨i, Finset.mem_univ i, by simpa using shorter⟩
          by_cases same : j = i
          · subst same
            simpa using Nat.le_of_lt shorter
          · rw [Function.update_of_ne same]
        obtain ⟨more, last, ran, done⟩ := exists_finish ⟨r.2, Function.update s.stage i r.1⟩
        exact ⟨i :: more, last, by rw [run, step, next]; exact ran, done⟩
termination_by ∑ j, (s.stage j).remaining

theorem run_pair {stage stage' : Stage} {book book' : RuleBook}
    (first : (s.stage i).Advances s.book stage book) (second : stage.Advances book stage' book') :
    s.run [i, i] = some ⟨book', Function.update s.stage i stage'⟩ := by
  have next : Shared.step ⟨book, Function.update s.stage i stage⟩ i =
      some ⟨book', Function.update s.stage i stage'⟩ :=
    step_eq_some_iff.2 ⟨stage', book', by simpa using second, by simp⟩
  rw [run, step_eq_some_iff.2 ⟨stage, book, first, rfl⟩, Option.bind_some, run, next]
  rfl

/-- A call that goes on until it is answered is the call of a book with one caller. -/
theorem exists_run_uninterrupted {c : Call} (waiting : s.stage i = .waiting c) :
    ∃ k, s.run (List.replicate k i) = some ⟨(s.book.call c).2,
      Function.update s.stage i (.answered (s.book.call c).1)⟩ := by
  have one {stage : Stage} {book : RuleBook} (only : (s.stage i).Advances s.book stage book) :
      s.run [i] = some ⟨book, Function.update s.stage i stage⟩ := by
    rw [run, step_eq_some_iff.2 ⟨stage, book, only, rfl⟩]
    rfl
  cases next : (s.stage i).advance s.book with
  | none =>
      obtain ⟨a, answered⟩ := Stage.advance_eq_none_iff.1 next
      cases waiting.symm.trans answered
  | some r =>
      obtain ⟨stage, book⟩ := r
      have first := Stage.advance_eq_some_iff.1 next
      have begun := first
      rw [waiting] at begun
      cases begun with
      | compile compiled =>
          refine ⟨2, (run_pair first (.store _)).trans ?_⟩
          rw [RuleBook.call, RuleBook.load_eq, compiled]
          rfl
      | refuse refused =>
          refine ⟨1, (one first).trans ?_⟩
          rw [RuleBook.call, RuleBook.load_eq, refused]
          rfl
      | find found =>
          refine ⟨2, (run_pair first (.erase _)).trans ?_⟩
          rw [RuleBook.call, RuleBook.remove, if_pos found]
      | miss absent =>
          refine ⟨1, (one first).trans ?_⟩
          rw [RuleBook.call, RuleBook.remove, if_neg (Bool.eq_false_iff.1 absent)]
      | ask question =>
          refine ⟨2, (run_pair first (.reply _ _)).trans ?_⟩
          rw [RuleBook.call_question _ question]

end Shared

end DecisionTable

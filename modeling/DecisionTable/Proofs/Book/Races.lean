import DecisionTable.Proofs.Book.Linearization

/-! # Removals that race

Two removals of one sheet can both find it before either erases it, and then both say that they have
removed it. Nothing else tells calls at the same time from calls in turn: wherever two removals
cannot race for a sheet, each schedule has an order that explains it.
-/

namespace DecisionTable

variable {n : Nat}

/-- An order of all calls in which none comes behind a call that began after it was over. In this
    order the calls have these answers and lead to the same book. -/
structure Explains (first : RuleBook) (calls : Fin n → Call) (schedule : List (Fin n))
    (last : Shared n) (order : List (Fin n)) (answers : Fin n → Answer) : Prop where
  all : order.Perm (List.finRange n)
  keeps : order.Pairwise fun i j => ¬ Precedes schedule j i
  ran : first.run (order.map calls) = (order.map answers, last.book)

/-- Calls at the same time have the answers of calls in turn. -/
def Linearizable (first : RuleBook) (calls : Fin n → Call) (schedule : List (Fin n))
    (last : Shared n) : Prop :=
  ∃ order answers, Explains first calls schedule last order answers ∧
    ∀ i, last.stage i = .answered (answers i)

/-- Two removals may race for a sheet that is there or gets there. -/
def Contested (first : RuleBook) (calls : Fin n → Call) : Prop :=
  ∃ id i j, i ≠ j ∧ calls i = .remove id ∧ calls j = .remove id ∧
    (first.contains id = true ∨ ∃ k, (calls k).Stores first.syn id)

variable {first : RuleBook} {calls : Fin n → Call} {schedule order : List (Fin n)}
  {last : Shared n} {answers : Fin n → Answer} {i j : Fin n}

/-- When all calls are answered, the order of their effects explains the answers, but for the
    removals that were overtaken. -/
theorem Effects.explains (effects : Effects first calls schedule last order answers)
    (done : last.Done) : Explains first calls schedule last order answers ∧
      ∀ i, last.stage i = .answered (answers i) ∨
        last.stage i = .answered (.removed true) ∧ Overtaken calls schedule order answers i := by
  have told (i : Fin n) : i ∈ order ∧ (last.stage i = .answered (answers i) ∨
      last.stage i = .answered (.removed true) ∧ Overtaken calls schedule order answers i) := by
    obtain ⟨a, answered⟩ := done i
    have accounted := effects.accounted i
    rw [answered] at accounted ⊢
    obtain ⟨mem, rfl | ⟨rfl, overtaken⟩⟩ := accounted
    · exact ⟨mem, .inl rfl⟩
    · exact ⟨mem, .inr ⟨rfl, overtaken⟩⟩
  refine ⟨⟨?_, effects.keeps, effects.ran⟩, fun i => (told i).2⟩
  rw [List.perm_ext_iff_of_nodup effects.nodup (List.nodup_finRange n)]
  exact fun i => iff_of_true (told i).1 (List.mem_finRange i)

namespace Explains

theorem nodup (explains : Explains first calls schedule last order answers) : order.Nodup :=
  explains.all.nodup_iff.2 (List.nodup_finRange n)

theorem mem (explains : Explains first calls schedule last order answers) (i : Fin n) :
    i ∈ order :=
  explains.all.mem_iff.2 (List.mem_finRange i)

theorem answer_eq (explains : Explains first calls schedule last order answers)
    {before after : List (Fin n)} (split : order = before ++ i :: after) :
    answers i = ((first.run (before.map calls)).2.call (calls i)).1 := by
  have ran := congrArg Prod.fst explains.ran
  rw [split, List.map_append, List.map_cons, RuleBook.run_append, RuleBook.run, List.map_append,
    List.map_cons] at ran
  obtain ⟨-, same⟩ := List.append_inj ran (by simp [RuleBook.length_run])
  exact (List.cons.inj same).1.symm

/-- Of two removals of an id with nothing between them, the second one finds no sheet. -/
theorem removed_false (explains : Explains first calls schedule last order answers) {id : String}
    (callI : calls i = .remove id) (callJ : calls j = .remove id) {before after : List (Fin n)}
    (split : order = before ++ i :: j :: after) : answers j = .removed false := by
  have behind : (first.run ((before ++ [i]).map calls)).2 =
      ((first.run (before.map calls)).2.remove id).2 := by
    rw [List.map_append, List.map_singleton, RuleBook.run_append, callI]
    rfl
  have absent := RuleBook.not_contains_remove (first.run (before.map calls)).2 id
  have next : order = (before ++ [i]) ++ j :: after := by simp [split]
  rw [explains.answer_eq next, callJ, behind, RuleBook.call, RuleBook.remove, if_neg absent]

/-- Calls that are over before two others began, or begin after both, are not between them. -/
theorem adjacent (explains : Explains first calls schedule last order answers)
    (apart : ∀ k, k ≠ i → k ≠ j → Precedes schedule k i ∨ Precedes schedule j k)
    {before between after : List (Fin n)}
    (split : order = before ++ i :: (between ++ j :: after)) : between = [] := by
  refine List.eq_nil_iff_forall_not_mem.2 fun k mem => ?_
  have nodup := explains.nodup
  have keeps := explains.keeps
  rw [split] at nodup keeps
  obtain ⟨-, nodup, -⟩ := List.nodup_append.1 nodup
  obtain ⟨fresh, nodup⟩ := List.nodup_cons.1 nodup
  obtain ⟨-, -, distinct⟩ := List.nodup_append.1 nodup
  obtain ⟨-, keeps, -⟩ := List.pairwise_append.1 keeps
  obtain ⟨behind, keeps⟩ := List.pairwise_cons.1 keeps
  obtain ⟨-, -, ahead⟩ := List.pairwise_append.1 keeps
  have notFirst : k ≠ i := fun same => fresh (same ▸ List.mem_append_left _ mem)
  have notLast : k ≠ j := distinct k mem j List.mem_cons_self
  rcases apart k notFirst notLast with early | late
  · exact behind k (List.mem_append_left _ mem) early
  · exact ahead k mem j List.mem_cons_self late

/-- Two removals of an id that no other call can come between do not both find a sheet. -/
theorem not_both (explains : Explains first calls schedule last order answers) {id : String}
    (differ : i ≠ j) (callI : calls i = .remove id) (callJ : calls j = .remove id)
    (apart : ∀ k, k ≠ i → k ≠ j →
      (Precedes schedule k i ∧ Precedes schedule k j) ∨
        (Precedes schedule i k ∧ Precedes schedule j k)) :
    answers i = .removed false ∨ answers j = .removed false := by
  obtain ⟨before, after, split⟩ := List.append_of_mem (explains.mem i)
  have memJ := explains.mem j
  rw [split] at memJ
  rcases List.mem_append.1 memJ with ahead | behind
  · obtain ⟨before, between, rfl⟩ := List.append_of_mem ahead
    have apart' (k) (notJ : k ≠ j) (notI : k ≠ i) := (apart k notI notJ).imp And.right And.left
    rw [List.append_assoc, List.cons_append] at split
    obtain rfl := explains.adjacent apart' split
    exact .inl (explains.removed_false callJ callI split)
  · obtain ⟨between, after, rfl⟩ := List.append_of_mem
      ((List.mem_cons.1 behind).resolve_left (Ne.symm differ))
    have apart' (k) (notI : k ≠ i) (notJ : k ≠ j) := (apart k notI notJ).imp And.left And.right
    obtain rfl := explains.adjacent apart' split
    exact .inr (explains.removed_false callI callJ split)

/-- Where a removal was overtaken, there was a sheet to race for. -/
theorem contested (explains : Explains first calls schedule last order answers)
    (overtaken : Overtaken calls schedule order answers i) : Contested first calls := by
  obtain ⟨-, id, j, callI, forestalls, -⟩ := overtaken
  refine ⟨id, i, j, forestalls.other.symm, callI, forestalls.call, ?_⟩
  obtain ⟨before, after, split⟩ := List.append_of_mem forestalls.mem
  have found := explains.answer_eq split
  rw [forestalls.found, forestalls.call, RuleBook.call, RuleBook.remove] at found
  have there : (first.run (before.map calls)).2.contains id = true := by
    by_contra absent
    rw [if_neg absent] at found
    cases found
  rcases RuleBook.contains_of_run there with early | ⟨c, mem, stores⟩
  · exact .inl early
  · obtain ⟨k, -, rfl⟩ := List.mem_map.1 mem
    exact .inr ⟨k, stores⟩

end Explains

namespace Shared

variable {s s' : Shared n}

/-- Both removals test, and then both erase. -/
theorem run_race {id : String} (differ : i ≠ j) (waitingI : s.stage i = .waiting (.remove id))
    (waitingJ : s.stage j = .waiting (.remove id)) (found : s.book.contains id = true) :
    ∃ s', s.run [i, j, i, j] = some s' ∧ s'.stage i = .answered (.removed true) ∧
      s'.stage j = .answered (.removed true) ∧ ∀ k, k ≠ i → k ≠ j → s'.stage k = s.stage k := by
  have moved := Ne.symm differ
  refine ⟨⟨(s.book.update (SheetMap.erase id)).update (SheetMap.erase id),
    Function.update (Function.update s.stage i (.answered (.removed true))) j
      (.answered (.removed true))⟩, ?_, ?_, ?_, fun k notI notJ => ?_⟩
  · simp only [run, step, Stage.advance, waitingI, waitingJ, found, differ, moved, if_true,
      Option.map_some, Option.bind_some, ne_eq, not_false_eq_true, Function.update_of_ne,
      Function.update_self]
    rw [Function.update_comm moved, Function.update_idem, Function.update_idem]
  · simp [differ]
  · simp
  · simp [notI, notJ]

/-- Two removals that no other call can come between have not both removed a sheet in their turn. -/
theorem not_linearizable {id : String} (differ : i ≠ j) (callI : calls i = .remove id)
    (callJ : calls j = .remove id)
    (apart : ∀ k, k ≠ i → k ≠ j →
      (Precedes schedule k i ∧ Precedes schedule k j) ∨
        (Precedes schedule i k ∧ Precedes schedule j k))
    (trueI : last.stage i = .answered (.removed true))
    (trueJ : last.stage j = .answered (.removed true)) :
    ¬ Linearizable first calls schedule last := by
  rintro ⟨order, answers, explains, told⟩
  have sameI := Stage.answered.inj (trueI.symm.trans (told i))
  have sameJ := Stage.answered.inj (trueJ.symm.trans (told j))
  rcases explains.not_both differ callI callJ apart with missed | missed
  · rw [missed] at sameI
    cases sameI
  · rw [missed] at sameJ
    cases sameJ

theorem exists_race {pre : List (Fin n)} (started : (start first calls).run pre = some s)
    (answered : ∀ k ∈ pre, ∃ a, s.stage k = .answered a) {id : String} (differ : i ≠ j)
    (callI : calls i = .remove id) (callJ : calls j = .remove id)
    (waitingI : s.stage i = .waiting (calls i)) (waitingJ : s.stage j = .waiting (calls j))
    (found : s.book.contains id = true) :
    ∃ schedule last, (start first calls).run schedule = some last ∧ last.Done ∧
      ¬ Linearizable first calls schedule last := by
  rw [callI] at waitingI
  rw [callJ] at waitingJ
  obtain ⟨s', raced, trueI, trueJ, others⟩ := run_race differ waitingI waitingJ found
  -- the calls that are left begin when both removals are over
  obtain ⟨more, last, ended, done⟩ := s'.exists_finish
  obtain ⟨unusedI, trueI⟩ := stage_of_answered ended trueI
  obtain ⟨unusedJ, trueJ⟩ := stage_of_answered ended trueJ
  have freshI : i ∉ pre := fun mem => by
    obtain ⟨a, told⟩ := answered i mem
    cases waitingI.symm.trans told
  have freshJ : j ∉ pre := fun mem => by
    obtain ⟨a, told⟩ := answered j mem
    cases waitingJ.symm.trans told
  have freshMore (k) (notI : k ≠ i) (notJ : k ≠ j) (mem : k ∈ more) : k ∉ pre := fun memPre => by
    obtain ⟨a, told⟩ := answered k memPre
    exact (stage_of_answered ended ((others k notI notJ).trans told)).1 mem
  refine ⟨pre ++ ([i, j, i, j] ++ more), last, ?_, done, ?_⟩
  · rw [run_append, started, Option.bind_some, run_append, raced, Option.bind_some, ended]
  · refine not_linearizable differ callI callJ (fun k notI notJ => ?_) trueI trueJ
    by_cases late : k ∈ more
    · have early : k ∉ pre ++ [i, j, i, j] := by simp [notI, notJ, freshMore k notI notJ late]
      have split := (List.append_assoc pre [i, j, i, j] more).symm
      exact .inr ⟨⟨_, more, split, unusedI, early⟩, ⟨_, more, split, unusedJ, early⟩⟩
    · have early : k ∉ [i, j, i, j] ++ more := by simp [notI, notJ, late]
      exact .inl ⟨⟨pre, _, rfl, early, freshI⟩, ⟨pre, _, rfl, early, freshJ⟩⟩

theorem exists_not_linearizable (contested : Contested first calls) :
    ∃ schedule last, (start first calls).run schedule = some last ∧ last.Done ∧
      ¬ Linearizable first calls schedule last := by
  obtain ⟨id, i, j, differ, callI, callJ, found | ⟨k, stores⟩⟩ := contested
  · have unstarted : (start first calls).run [] = some (start first calls) := rfl
    exact exists_race unstarted (fun _ mem => absurd mem List.not_mem_nil) differ callI callJ
      rfl rfl found
  · -- the load goes first, so that there is a sheet to race for
    obtain ⟨content, format, modified, sheet, callK, compiled⟩ := stores
    have notI : i ≠ k := fun same => by
      rw [same, callK] at callI
      cases callI
    have notJ : j ≠ k := fun same => by
      rw [same, callK] at callJ
      cases callJ
    obtain ⟨times, loaded⟩ :=
      exists_run_uninterrupted (s := start first calls) (i := k) (c := calls k) rfl
    have found : (first.call (calls k)).2.contains id = true := by
      rw [callK, RuleBook.call, RuleBook.load_eq, compiled]
      exact RuleBook.contains_update_insert.2 (.inl (Sheet.compile_id compiled))
    refine exists_race loaded (fun k' mem => ?_) differ callI callJ
      (Function.update_of_ne notI ..) (Function.update_of_ne notJ ..) found
    rw [List.eq_of_mem_replicate mem]
    exact ⟨_, Function.update_self ..⟩

/-- Calls at the same time, on a book that has had any calls before, are calls in turn: each
    schedule has an order in which all calls have the same answers and lead to the same book, but
    for removals that another removal of the id has overtaken. These say that they have removed a
    sheet. So each schedule is linearizable just when no two removals may race for a sheet. -/
theorem run_explained (syn : TableSyntax) (settings : EngineSettings) (earlier : List Call)
    (calls : Fin n → Call) :
    let first := ((RuleBook.empty syn settings).run earlier).2
    (∀ schedule last, (start first calls).run schedule = some last → last.Done →
      ∃ order answers, Explains first calls schedule last order answers ∧
        ∀ i, last.stage i = .answered (answers i) ∨
          last.stage i = .answered (.removed true) ∧ Overtaken calls schedule order answers i) ∧
    ((∀ schedule last, (start first calls).run schedule = some last → last.Done →
      Linearizable first calls schedule last) ↔ ¬ Contested first calls) := by
  intro first
  have explained (schedule : List (Fin n)) (last : Shared n)
      (ran : (start first calls).run schedule = some last) (done : last.Done) :
      ∃ order answers, Explains first calls schedule last order answers ∧
        ∀ i, last.stage i = .answered (answers i) ∨
          last.stage i = .answered (.removed true) ∧ Overtaken calls schedule order answers i := by
    obtain ⟨order, answers, effects⟩ := Effects.exists_of_run
      ((Reflects.empty syn settings).run earlier) ran
    exact ⟨order, answers, effects.explains done⟩
  refine ⟨explained, fun linearizable contested => ?_, fun uncontested schedule last ran done => ?_⟩
  · obtain ⟨schedule, last, ran, done, not⟩ := exists_not_linearizable contested
    exact not (linearizable schedule last ran done)
  · obtain ⟨order, answers, explains, told⟩ := explained schedule last ran done
    exact ⟨order, answers, explains, fun i => (told i).resolve_right fun ⟨_, overtaken⟩ =>
      uncontested (explains.contested overtaken)⟩

/-- A sheet that is loaded once is removed twice: both removals test for it before one erases it. -/
theorem removed_twice :
    let content : FileContent := .bytes (",amount,,ok\nBINDING,this.amount > $value,,this.ok = " ++
      "$value\nbig,100,,TRUE\n").toUTF8.toList
    let calls : Fin 3 → Call := ![.load "t" content .csv 0, .remove "t", .remove "t"]
    ∃ last, (start (.empty {} {}) calls).run [0, 0, 1, 2, 1, 2] = some last ∧ last.Done ∧
      last.stage 1 = .answered (.removed true) ∧ last.stage 2 = .answered (.removed true) ∧
      ¬ Linearizable (.empty {} {}) calls [0, 0, 1, 2, 1, 2] last := by
  intro content calls
  let s := start (.empty {} {}) calls
  have compiles : (Sheet.compile {} "t" content .csv 0).isOk = true := by decide +kernel
  cases compiled : Sheet.compile {} "t" content .csv 0 with
  | error e =>
      rw [compiled] at compiles
      cases compiles
  | ok sheet =>
      let t : Shared 3 := ⟨s.book.update (SheetMap.insert sheet),
        Function.update s.stage 0 (.answered (.loaded (.ok sheet)))⟩
      have loaded : s.run [0, 0] = some t := run_pair (.compile compiled) (.store sheet)
      have waits (k : Fin 3) (later : k ≠ 0) : t.stage k = .waiting (calls k) :=
        Function.update_of_ne later ..
      have found : t.book.contains "t" = true :=
        RuleBook.contains_update_insert.2 (.inl (Sheet.compile_id compiled))
      obtain ⟨last, raced, first, second, others⟩ :=
        run_race (by decide) (waits 1 (by decide)) (waits 2 (by decide)) found
      refine ⟨last, ?_, fun k => ?_, first, second, ?_⟩
      · exact (run_append s [0, 0] [1, 2, 1, 2]).trans (by rw [loaded]; exact raced)
      · match k with
        | 0 => exact ⟨_, others 0 (by decide) (by decide)⟩
        | 1 => exact ⟨_, first⟩
        | 2 => exact ⟨_, second⟩
      · refine not_linearizable (by decide) rfl rfl (fun k notFirst notSecond => .inl ?_)
          first second
        obtain rfl : k = 0 := by omega
        exact ⟨⟨[0, 0], [1, 2, 1, 2], rfl, by decide, by decide⟩,
          ⟨[0, 0], [1, 2, 1, 2], rfl, by decide, by decide⟩⟩

end Shared

end DecisionTable

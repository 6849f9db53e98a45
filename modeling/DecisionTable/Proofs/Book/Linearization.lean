import DecisionTable.Proofs.Book.Interleaving

/-! # Orders of calls at the same time

Calls take effect one after the other: a load when it stores its sheet, a removal when it erases
one or finds none, a question when it takes its snapshot. In this order (`Effects`) each call
answers what it would answer in its turn, but for a removal that found a sheet and was forestalled
by another one.
-/

namespace DecisionTable

variable {n : Nat}

/-- One call was over before another one began. -/
def Precedes (schedule : List (Fin n)) (i j : Fin n) : Prop :=
  ∃ before after, schedule = before ++ after ∧ i ∉ after ∧ j ∉ before

namespace Precedes

variable {past : List (Fin n)} {i j k : Fin n}

theorem of_concat (precedes : Precedes (past ++ [k]) i j) : Precedes past i j := by
  obtain ⟨before, after, split, ended, fresh⟩ := precedes
  rcases List.eq_nil_or_concat after with rfl | ⟨after, last, rfl⟩
  · rw [List.append_nil] at split
    rw [← split] at fresh
    exact ⟨past, [], (List.append_nil past).symm, List.not_mem_nil,
      fun mem => fresh (List.mem_append_left _ mem)⟩
  · rw [List.concat_eq_append, ← List.append_assoc] at split
    refine ⟨before, after, (List.append_inj_left' split rfl), fun mem => ended ?_, fresh⟩
    rw [List.concat_eq_append]
    exact List.mem_append_left _ mem

/-- Who goes on last is over before none that has begun. -/
theorem not_concat (begun : j ∈ past) : ¬ Precedes (past ++ [i]) i j := by
  rintro ⟨before, after, split, ended, fresh⟩
  rcases List.eq_nil_or_concat after with rfl | ⟨after, last, rfl⟩
  · rw [List.append_nil] at split
    exact fresh (split ▸ List.mem_append_left _ begun)
  · rw [List.concat_eq_append, ← List.append_assoc] at split
    have same := List.append_inj_right' split rfl
    simp only [List.cons.injEq, and_true] at same
    exact ended (by simp [same])

end Precedes

/-- In its turn another removal of an id has found a sheet, and it was not over when the first one
    began. -/
structure Forestalls (calls : Fin n → Call) (schedule order : List (Fin n))
    (answers : Fin n → Answer) (id : String) (j i : Fin n) : Prop where
  mem : j ∈ order
  other : j ≠ i
  call : calls j = .remove id
  found : answers j = .removed true
  reaches : ¬ Precedes schedule j i

/-- A removal that finds no sheet in its turn, since another one at the same time has. -/
structure Overtaken (calls : Fin n → Call) (schedule order : List (Fin n))
    (answers : Fin n → Answer) (i : Fin n) : Prop where
  missed : answers i = .removed false
  forestalled : ∃ id j, calls i = .remove id ∧ Forestalls calls schedule order answers id j i ∧
    ¬ Precedes schedule i j

/-- What the stage of a call tells of its effect. The calls that have had theirs are in order, and
    these are their answers in turn. -/
def Accounted (calls : Fin n → Call) (past : List (Fin n)) (book : RuleBook) (order : List (Fin n))
    (answers : Fin n → Answer) (i : Fin n) : Stage → Prop
  | .waiting c => c = calls i ∧ i ∉ past
  | .storing sheet => i ∉ order ∧ ∃ id content format modified,
      calls i = .load id content format modified ∧
      Sheet.compile book.syn id content format modified = .ok sheet
  | .removing id => i ∉ order ∧ i ∈ past ∧ calls i = .remove id ∧
      (book.contains id = true ∨ ∃ j, Forestalls calls past order answers id j i)
  | .asking c snapshot => i ∈ order ∧ c = calls i ∧ (snapshot.call c).1 = answers i
  | .answered a => i ∈ order ∧
      (a = answers i ∨ a = .removed true ∧ Overtaken calls past order answers i)

/-- Calls up to some time, in the order of their effects: one after the other they would lead to the
    same book. -/
structure Effects (first : RuleBook) (calls : Fin n → Call) (past : List (Fin n)) (s : Shared n)
    (order : List (Fin n)) (answers : Fin n → Answer) : Prop where
  nodup : order.Nodup
  ran : first.run (order.map calls) = (order.map answers, s.book)
  keeps : order.Pairwise fun i j => ¬ Precedes past j i
  begun : ∀ i ∈ order, i ∈ past
  accounted : ∀ i, Accounted calls past s.book order answers i (s.stage i)

variable {first : RuleBook} {calls : Fin n → Call} {past order order' : List (Fin n)}
  {book book' : RuleBook} {answers answers' : Fin n → Answer} {s s' : Shared n} {i j : Fin n}

theorem Forestalls.later {id : String} (forestalls : Forestalls calls past order answers id j i)
    (grows : ∀ k ∈ order, k ∈ order' ∧ answers' k = answers k) (k : Fin n) :
    Forestalls calls (past ++ [k]) order' answers' id j i where
  mem := (grows j forestalls.mem).1
  other := forestalls.other
  call := forestalls.call
  found := (grows j forestalls.mem).2.trans forestalls.found
  reaches precedes := forestalls.reaches precedes.of_concat

/-- What a stage tells stays true when another call goes on. -/
theorem Accounted.later {stage : Stage}
    (accounted : Accounted calls past book order answers j stage)
    (other : j ≠ i) (grows : ∀ k ∈ order, k ∈ order' ∧ answers' k = answers k)
    (fresh : j ∈ order' → j ∈ order) (syn : book'.syn = book.syn)
    (keeps : ∀ id, book.contains id = true → book'.contains id = true ∨
      i ∈ order' ∧ calls i = .remove id ∧ answers' i = .removed true) :
    Accounted calls (past ++ [i]) book' order' answers' j stage := by
  cases stage with
  | waiting c =>
      obtain ⟨same, unused⟩ := accounted
      exact ⟨same, by simp [unused, other]⟩
  | storing sheet =>
      obtain ⟨pending, load⟩ := accounted
      exact ⟨fun mem => pending (fresh mem), syn ▸ load⟩
  | removing id =>
      obtain ⟨pending, begun, call, found | ⟨k, forestalls⟩⟩ := accounted
      · -- a sheet that has gone was found by the call that went on
        refine ⟨fun mem => pending (fresh mem), List.mem_append_left _ begun, call, ?_⟩
        refine (keeps id found).imp_right fun ⟨mem, own, taken⟩ => ?_
        exact ⟨i, mem, Ne.symm other, own, taken, Precedes.not_concat begun⟩
      · refine ⟨fun mem => pending (fresh mem), List.mem_append_left _ begun, call, .inr ?_⟩
        exact ⟨k, forestalls.later grows i⟩
  | asking c snapshot =>
      obtain ⟨mem, call, answer⟩ := accounted
      exact ⟨(grows j mem).1, call, answer.trans (grows j mem).2.symm⟩
  | answered a =>
      obtain ⟨mem, accounted⟩ := accounted
      refine ⟨(grows j mem).1, ?_⟩
      rw [(grows j mem).2]
      refine accounted.imp_right fun ⟨own, missed, id, k, call, forestalls, reached⟩ => ?_
      exact ⟨own, (grows j mem).2.trans missed, id, k, call, forestalls.later grows i,
        fun precedes => reached precedes.of_concat⟩

namespace Effects

theorem start (first : RuleBook) (calls : Fin n → Call) :
    Effects first calls [] (.start first calls) [] fun i => (first.call (calls i)).1 :=
  ⟨.nil, rfl, .nil, fun _ mem => mem, fun _ => ⟨rfl, List.not_mem_nil⟩⟩

/-- A call goes on without an effect. -/
theorem quiet (effects : Effects first calls past s order answers) {stage : Stage}
    (accounted : Accounted calls (past ++ [i]) s.book order answers i stage) :
    Effects first calls (past ++ [i]) ⟨s.book, Function.update s.stage i stage⟩ order answers where
  nodup := effects.nodup
  ran := effects.ran
  keeps := effects.keeps.imp fun apart precedes => apart precedes.of_concat
  begun j mem := List.mem_append_left _ (effects.begun j mem)
  accounted j := by
    by_cases same : j = i
    · subst same
      simpa using accounted
    · simp only [Function.update_of_ne same]
      exact (effects.accounted j).later same (fun k mem => ⟨mem, rfl⟩) id rfl
        fun _ found => .inl found

/-- A call goes on with its effect, and is the next in order. -/
theorem effect (effects : Effects first calls past s order answers) (pending : i ∉ order)
    {stage : Stage} (same : book = (s.book.call (calls i)).2)
    (accounted : ∀ answers', answers' i = (s.book.call (calls i)).1 →
      (∀ j ∈ order, answers' j = answers j) →
      Accounted calls (past ++ [i]) book (order ++ [i]) answers' i stage) :
    ∃ answers', Effects first calls (past ++ [i]) ⟨book, Function.update s.stage i stage⟩
      (order ++ [i]) answers' := by
  subst same
  let answers' := Function.update answers i (s.book.call (calls i)).1
  have own : answers' i = (s.book.call (calls i)).1 := Function.update_self ..
  have others (j : Fin n) (mem : j ∈ order) : answers' j = answers j :=
    Function.update_of_ne (ne_of_mem_of_not_mem mem pending) ..
  refine ⟨answers', ?_, ?_, ?_, ?_, fun j => ?_⟩
  · exact List.nodup_append.2 ⟨effects.nodup, List.nodup_singleton i,
      fun j mem k last => List.mem_singleton.1 last ▸ ne_of_mem_of_not_mem mem pending⟩
  · have same : order.map answers' = order.map answers := List.map_congr_left others
    rw [List.map_append, RuleBook.run_append, effects.ran, List.map_append, same]
    rw [List.map_singleton, List.map_singleton, own]
    rfl
  · refine List.pairwise_append.2 ⟨?_, List.pairwise_singleton _ _, fun j mem k last => ?_⟩
    · exact effects.keeps.imp fun apart precedes => apart precedes.of_concat
    · rw [List.mem_singleton.1 last]
      exact Precedes.not_concat (effects.begun j mem)
  · intro j mem
    rcases List.mem_append.1 mem with mem | mem
    · exact List.mem_append_left _ (effects.begun j mem)
    · exact List.mem_append_right _ mem
  · by_cases same : j = i
    · subst same
      simpa using accounted answers' own others
    · simp only [Function.update_of_ne same]
      refine (effects.accounted j).later same
        (fun k mem => ⟨List.mem_append_left _ mem, others k mem⟩) (fun mem => ?_)
        (s.book.call_syn _) fun id found => ?_
      · exact (List.mem_append.1 mem).resolve_right (by simpa using same)
      · refine (RuleBook.contains_call found (calls i)).imp_right fun ⟨call, taken⟩ => ?_
        exact ⟨List.mem_append_right _ (List.mem_singleton_self i), call, own.trans taken⟩

theorem effect_answered (effects : Effects first calls past s order answers) (pending : i ∉ order)
    {a : Answer} (called : s.book.call (calls i) = (a, book)) :
    ∃ answers', Effects first calls (past ++ [i])
      ⟨book, Function.update s.stage i (.answered a)⟩ (order ++ [i]) answers' := by
  refine effects.effect pending (by rw [called]) fun answers' own _ => ⟨by simp, .inl ?_⟩
  rw [own, called]

variable {syn : TableSyntax} {settings : EngineSettings} {stored : String → Option Sheet}

theorem step (effects : Effects first calls past s order answers)
    (reflects : Reflects syn settings stored s.book) (stepped : s.step i = some s') :
    ∃ order answers, Effects first calls (past ++ [i]) s' order answers := by
  obtain ⟨stage, book, advances, rfl⟩ := Shared.step_eq_some_iff.1 stepped
  have accounted := effects.accounted i
  have unbegun (unused : i ∉ past) : i ∉ order := fun mem => unused (effects.begun i mem)
  generalize s.stage i = here at advances accounted
  cases advances with
  | @compile id content format modified sheet compiled =>
      obtain ⟨call, unused⟩ := accounted
      exact ⟨order, answers,
        effects.quiet ⟨unbegun unused, id, content, format, modified, call.symm, compiled⟩⟩
  | refuse refused =>
      obtain ⟨call, unused⟩ := accounted
      refine ⟨_, effects.effect_answered (unbegun unused) ?_⟩
      rw [← call, RuleBook.call, RuleBook.load_eq, refused]
      rfl
  | find found =>
      obtain ⟨call, unused⟩ := accounted
      exact ⟨order, answers, effects.quiet ⟨unbegun unused, by simp, call.symm, .inl found⟩⟩
  | miss absent =>
      obtain ⟨call, unused⟩ := accounted
      refine ⟨_, effects.effect_answered (unbegun unused) ?_⟩
      rw [← call, RuleBook.call, RuleBook.remove, if_neg (Bool.eq_false_iff.1 absent)]
  | @ask c question =>
      obtain ⟨call, unused⟩ := accounted
      refine ⟨_, effects.effect (unbegun unused) ?_ fun answers' own _ => ⟨by simp, call, ?_⟩⟩
      · rw [← call, RuleBook.call_question _ question]
      · rw [own, call]
  | store sheet =>
      obtain ⟨pending, id, content, format, modified, call, compiled⟩ := accounted
      refine ⟨_, effects.effect_answered pending ?_⟩
      rw [call, RuleBook.call, RuleBook.load_eq, compiled]
      rfl
  | erase id =>
      obtain ⟨pending, begun, call, accounted⟩ := accounted
      have called : s.book.call (calls i) =
          (.removed (s.book.remove id).1, s.book.update (SheetMap.erase id)) := by
        rw [call, RuleBook.call, reflects.update_erase]
      by_cases found : s.book.contains id = true
      · refine ⟨_, effects.effect_answered pending ?_⟩
        rw [called, RuleBook.remove, if_pos found]
      · -- the sheet was there when it was tested for, so another removal has found it since
        obtain ⟨k, forestalls⟩ := accounted.resolve_left found
        refine ⟨_, effects.effect pending (by rw [called]) fun answers' own others =>
          ⟨by simp, .inr ⟨rfl, ?_, id, k, call, ?_, ?_⟩⟩⟩
        · rw [own, called, RuleBook.remove, if_neg found]
        · exact forestalls.later (fun k mem => ⟨List.mem_append_left _ mem, others k mem⟩) i
        · exact Precedes.not_concat (effects.begun k forestalls.mem)
  | reply c snapshot =>
      obtain ⟨mem, -, answer⟩ := accounted
      exact ⟨order, answers, effects.quiet ⟨mem, .inl answer⟩⟩

/-- At any time some calls have had their effects, in some order. -/
theorem exists_of_run {earlier : List Call} {schedule : List (Fin n)}
    (reflects : Reflects syn settings (registered syn earlier) first)
    (ran : (Shared.start first calls).run schedule = some s) :
    ∃ order answers, Effects first calls schedule s order answers := by
  refine Shared.run_induction (P := fun past s => ∃ order answers,
    Effects first calls past s order answers) ⟨_, _, Effects.start first calls⟩ ?_ ran
  rintro past s s' i ⟨order, answers, effects⟩ stepped
  have reflects := reflects.run (order.map calls)
  rw [effects.ran] at reflects
  exact effects.step reflects stepped

end Effects

end DecisionTable

import DecisionTable.Proofs.Chaining.Pass

/-! # Fixed points of chaining

Where a change of the fact starts a run over, a run that ends has nothing left to change: its last
pass went through all rules, and all facts it saw were equal (`Rule.Settled`). So a further run on
the last fact is that pass once more (`Chain.run_fixedPoint`).
-/

namespace DecisionTable

namespace Members

theorem equivalent_iff {a b : Members} :
    a.equivalent b = true ↔ (Json.object a).normal = (Json.object b).normal := by
  rw [equivalent, Json.equivalent, beq_iff_eq]

theorem equivalent_refl (a : Members) : a.equivalent a = true := equivalent_iff.2 rfl

theorem equivalent_symm {a b : Members} (h : a.equivalent b = true) : b.equivalent a = true :=
  equivalent_iff.2 (equivalent_iff.1 h).symm

theorem equivalent_trans {a b c : Members} (h : a.equivalent b = true)
    (h' : b.equivalent c = true) : a.equivalent c = true :=
  equivalent_iff.2 ((equivalent_iff.1 h).trans (equivalent_iff.1 h'))

end Members

namespace Rule

/-- The rule does not change the fact by its condition, never stops or restarts the run, and does
    the same to equal facts. -/
structure Steady (r : Rule) : Prop where
  condition_fact : ∀ fact, (r.condition fact).fact = fact
  onward : ∀ fact flow, (r.consequence fact).report = .ok flow → flow = .next
  condition_congr : ∀ {f g : Fact}, f.equivalent g = true →
    (r.condition f).report = (r.condition g).report
  consequence_congr : ∀ {f g : Fact}, f.equivalent g = true →
    (r.consequence f).report = (r.consequence g).report
  consequence_fact : ∀ {f g : Fact} {flow : Flow}, f.equivalent g = true →
    (r.consequence f).report = .ok flow →
    (r.consequence f).fact.equivalent (r.consequence g).fact = true

theorem Steady.condition_eq {r : Rule} (steady : r.Steady) {fact : Fact}
    {report : Except EvalError (Option Bool)} (tried : (r.condition fact).report = report) :
    r.condition fact = ⟨fact, report⟩ := by
  have kept := steady.condition_fact fact
  cases tries : r.condition fact with
  | mk left report' =>
      rw [tries] at kept tried
      cases kept
      cases tried
      rfl

/-- Whether the condition opens the gate. -/
def opens (fact : Fact) (r : Rule) : Bool :=
  match (r.condition fact).report with
  | .ok (some true) => true
  | _ => false

theorem opens_iff {fact : Fact} {r : Rule} :
    r.opens fact = true ↔ (r.condition fact).report = .ok (some true) := by
  rw [opens]
  split
  · rename_i report
    simp [report]
  · rename_i other
    exact ⟨nofun, fun report => absurd report other⟩

/-- The rule has nothing left to change: its condition does not fail, and if it opens, the
    consequence returns an equal fact. -/
def Settled (fact : Fact) (r : Rule) : Prop :=
  ∃ gate, (r.condition fact).report = .ok gate ∧
    (gate = some true → (r.consequence fact).report = .ok .next ∧
      fact.equivalent (r.consequence fact).fact = true)

theorem Settled.congr {r : Rule} {f g : Fact} (settled : r.Settled f) (steady : r.Steady)
    (same : f.equivalent g = true) : r.Settled g := by
  obtain ⟨gate, tried, quiet⟩ := settled
  refine ⟨gate, steady.condition_congr same ▸ tried, fun opened => ?_⟩
  obtain ⟨done, kept⟩ := quiet opened
  refine ⟨steady.consequence_congr same ▸ done, ?_⟩
  exact Members.equivalent_trans (Members.equivalent_symm same)
    (Members.equivalent_trans kept (steady.consequence_fact same done))

end Rule

namespace Chain

variable {rules : List Rule}

/-- All facts of a pass that does not ask to start over are equal. -/
theorem settled_of_pass {f g : Fact} {matched : List String} (steady : ∀ r ∈ rules, r.Steady)
    (ended : pass false f rules = .ok ⟨g, matched, false⟩) :
    f.equivalent g = true ∧ ∀ r ∈ rules, r.Settled f := by
  induction rules generalizing f matched with
  | nil =>
      cases ended
      exact ⟨Members.equivalent_refl _, by simp⟩
  | cons r rest ih =>
      rw [List.forall_mem_cons] at steady
      obtain ⟨first, steady⟩ := steady
      have same_fact {before : Fact} {gate : Option Bool}
          (tried : r.condition f = ⟨before, .ok gate⟩) : f = before := by
        simpa [tried] using (first.condition_fact f).symm
      have head := head false f r rest
      rw [ended] at head
      generalize result : Except.ok _ = p at head
      cases head with
      | failed | stuck | again => cases result
      | stop tried done => cases first.onward _ _ (by rw [done])
      | @shut before gate tried opened =>
          obtain rfl := same_fact tried
          obtain ⟨same, settled⟩ := ih steady result.symm
          refine ⟨same, List.forall_mem_cons.2 ⟨⟨gate, by rw [tried], ?_⟩, settled⟩⟩
          exact fun yes => absurd yes opened
      | @next before after tried done quiet =>
          obtain rfl := same_fact tried
          have kept : f.equivalent after = true := by
            simpa [wantsRestart] using quiet
          obtain ⟨⟨last, names, again⟩, behind, eq⟩ := Parser.map_eq_ok.1 result.symm
          cases eq
          obtain ⟨same, settled⟩ := ih steady behind
          refine ⟨Members.equivalent_trans kept same, List.forall_mem_cons.2 ⟨?_, ?_⟩⟩
          · exact ⟨_, by rw [tried], fun _ => by rw [done]; exact ⟨rfl, kept⟩⟩
          · exact fun q mem => (settled q mem).congr (steady q mem)
              (Members.equivalent_symm kept)

/-- Where no rule has anything left to change, a pass names the rules that open. -/
theorem pass_of_settled {f f' : Fact} (steady : ∀ r ∈ rules, r.Steady)
    (settled : ∀ r ∈ rules, r.Settled f) (same : f.equivalent f' = true) :
    ∃ g, f.equivalent g = true ∧
      pass false f' rules = .ok ⟨g, (rules.filter (·.opens f)).map (·.name), false⟩ := by
  induction rules generalizing f' with
  | nil => exact ⟨f', same, rfl⟩
  | cons r rest ih =>
      rw [List.forall_mem_cons] at steady settled
      obtain ⟨gate, report, quiet⟩ := settled.1.congr steady.1 same
      have tried := steady.1.condition_eq report
      have opens : r.opens f = true ↔ gate = some true := by
        rw [Rule.opens_iff, steady.1.condition_congr same, report, Except.ok.injEq]
      by_cases opened : gate = some true
      · subst opened
        obtain ⟨done, kept⟩ := quiet rfl
        obtain ⟨g, same', behind⟩ :=
          ih steady.2 settled.2 (Members.equivalent_trans same kept)
        refine ⟨g, same', ?_⟩
        rw [pass_next tried (by rw [← done]) (by simp [wantsRestart, kept]), behind,
          List.filter_cons_of_pos (opens.2 rfl)]
        rfl
      · obtain ⟨g, same', behind⟩ := ih steady.2 settled.2 same
        refine ⟨g, same', ?_⟩
        rw [pass_shut tried opened, behind, List.filter_cons_of_neg (mt opens.1 opened)]

/-- A run that ends has ended with a pass that did not ask to start over. -/
theorem exists_pass_of_passes {settings : EngineSettings} {left : Nat} {fact : Fact}
    {e : Execution} (ran : passes settings rules left fact = .ok e) :
    ∃ f matched, pass settings.ignoreFactChanges f rules = .ok ⟨e.fact, matched, false⟩ := by
  rw [passes] at ran
  cases passed : pass settings.ignoreFactChanges fact rules with
  | error e => rw [passed] at ran; cases ran
  | ok p =>
      obtain ⟨after, matched, again⟩ := p
      rw [passed] at ran
      cases again with
      | false =>
          cases ran
          exact ⟨fact, matched, passed⟩
      | true =>
          cases left with
          | zero => cases ran
          | succ left =>
              obtain ⟨e', behind, rfl⟩ := Parser.map_eq_ok.1 ran
              exact exists_pass_of_passes (e := e') behind

/-- A run of steady rules in which changes count ends where the rules change nothing any more. A
    further run goes once through the rules that open there. -/
theorem run_fixedPoint {settings : EngineSettings} (changes : settings.ignoreFactChanges = false)
    (steady : ∀ r ∈ rules, r.Steady) {fact : Fact} {e : Execution}
    (ran : run settings rules fact = .ok e) :
    (∀ r ∈ rules, (r.condition e.fact).report = .ok (some true) →
      ∃ after, r.consequence e.fact = ⟨after, .ok .next⟩ ∧ e.fact.equivalent after = true) ∧
    ∃ again, run settings rules e.fact = .ok again ∧ e.fact.equivalent again.fact = true ∧
      again.matchPath = (rules.filter (·.opens e.fact)).map (·.name) := by
  obtain ⟨f, matched, ended⟩ := exists_pass_of_passes ran
  rw [changes] at ended
  obtain ⟨same, settled⟩ := settled_of_pass steady ended
  have settled : ∀ r ∈ rules, r.Settled e.fact := fun r mem =>
    (settled r mem).congr (steady r mem) same
  constructor
  · intro r mem opened
    obtain ⟨gate, report, quiet⟩ := settled r mem
    obtain ⟨done, kept⟩ := quiet (Except.ok.inj (report.symm.trans opened))
    exact ⟨_, by rw [← done], kept⟩
  · obtain ⟨g, kept, again⟩ := pass_of_settled steady settled (Members.equivalent_refl e.fact)
    exact ⟨_, run_of_pass_ok (by rw [changes]; exact again), kept, rfl⟩

/-- Replaces one fact by another, and goes on. -/
def replacer (name : String) (old new : Fact) : Rule where
  name := name
  condition fact := ⟨fact, .ok (some (fact.equivalent old))⟩
  consequence _ := ⟨new, .ok .next⟩

theorem replacer_steady (name : String) (old new : Fact) : (replacer name old new).Steady where
  condition_fact _ := rfl
  onward _ _ done := (Except.ok.inj done).symm
  condition_congr {f g} same := by
    have : f.equivalent old = g.equivalent old := Bool.eq_iff_iff.2
      ⟨Members.equivalent_trans (Members.equivalent_symm same), Members.equivalent_trans same⟩
    exact congrArg (fun isOpen => Except.ok (some isOpen)) this
  consequence_congr _ := rfl
  consequence_fact _ _ := Members.equivalent_refl new

/-- Two changes that start the run over, against the order of the rules, and a rule that opens on
    what is left. -/
theorem run_fixedPoint_replacers :
    let a : Fact := []
    let b : Fact := [("n", .null)]
    let c : Fact := [("n", .bool true)]
    let rules := [replacer "second" b c, replacer "last" c c, replacer "first" a b]
    (∀ r ∈ rules, r.Steady) ∧ run ⟨false, 2⟩ rules a = .ok ⟨c, ["first", "second", "last"]⟩ ∧
      ∃ again, run ⟨false, 2⟩ rules c = .ok again ∧ c.equivalent again.fact = true ∧
        again.matchPath = ["last"] := by
  intro a b c rules
  have steady : ∀ r ∈ rules, r.Steady := by
    simp only [rules, List.forall_mem_cons]
    exact ⟨replacer_steady _ _ _, replacer_steady _ _ _, replacer_steady _ _ _, by simp⟩
  have ran : run ⟨false, 2⟩ rules a = .ok ⟨c, ["first", "second", "last"]⟩ := by
    rfl
  exact ⟨steady, ran, (run_fixedPoint rfl steady ran).2⟩

end Chain

end DecisionTable

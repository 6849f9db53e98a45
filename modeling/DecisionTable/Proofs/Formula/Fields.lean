import DecisionTable.Formula.Evaluation
import DecisionTable.Proofs.Alike
import DecisionTable.Proofs.Json.Members

/-! # The fields that formulas mention

A formula looks into a fact only through the first segments of its paths. In two facts that agree
on these fields it has the same value or the same error (`eval_eq`), and a statement leaves them
in agreement (`run_alike`). Fields that a statement does not mention stay as they are
(`get?_run`).
-/

namespace DecisionTable

namespace Members

variable {keys : List String} {a b : Members}

/-- The same is found in two objects under each of some keys. -/
def AgreeOn (keys : List String) (a b : Members) : Prop :=
  ∀ key ∈ keys, get? key a = get? key b

instance : Decidable (AgreeOn keys a b) :=
  inferInstanceAs (Decidable (∀ key ∈ keys, get? key a = get? key b))

theorem AgreeOn.insert (agree : AgreeOn keys a b) (key : String) (value : Json) :
    AgreeOn keys (insert key value a) (insert key value b) := by
  intro key' mem
  rw [get?_insert, get?_insert, agree key' mem]

end Members

open Members (AgreeOn)

namespace FieldPath

variable {keys : List String} {fact other : Fact}

theorem read_eq {path : FieldPath} (agree : AgreeOn keys fact other) (mem : path.first ∈ keys) :
    path.read fact = path.read other := by
  rw [read, read, agree path.first mem]

/-- Below the first segment two facts that agree on it are the same. -/
theorem assignFrom_alike {key : String} (agree : AgreeOn keys fact other) (mem : key ∈ keys)
    (walked : List String) (value : Json) (rest : List String) :
    Alike (· = ·) (AgreeOn keys) (assignFrom walked value key rest fact)
      (assignFrom walked value key rest other) := by
  cases rest with
  | nil => exact .ok (agree.insert key value)
  | cons next rest =>
      rw [assignFrom, assignFrom, agree key mem]
      split
      case h_1 inner _ =>
        exact (Alike.refl (fun _ => rfl) (fun _ => rfl) _).map fun inner _ same =>
          same ▸ agree.insert key (.object inner)
      case h_2 => exact .error rfl
      case h_3 => exact .error rfl
      case h_4 => exact .error rfl

theorem get?_assignFrom {key key' : String} (differ : key ≠ key') {walked : List String}
    {value : Json} {rest : List String} {after : Fact}
    (done : assignFrom walked value key rest fact = .ok after) :
    Members.get? key' after = Members.get? key' fact := by
  cases rest with
  | nil =>
      cases done
      rw [Members.get?_insert, if_neg differ]
  | cons next rest =>
      rw [assignFrom] at done
      split at done
      case h_1 inner _ =>
        cases assigned : assignFrom (walked ++ [key]) value next rest inner with
        | error e => simp [assigned, Except.map] at done
        | ok inner' =>
            simp only [assigned, Except.map, Except.ok.injEq] at done
            rw [← done, Members.get?_insert, if_neg differ]
      all_goals cases done

end FieldPath

namespace Expression

/-- The fields of a fact that an expression mentions: the first segments of its paths. -/
def fields : Expression → List String
  | literal _ => []
  | field path => [path.first]
  | prefixed _ operand => operand.fields
  | infixed _ left right => left.fields ++ right.fields

theorem eval_eq {e : Expression} {fact other : Fact} (agree : AgreeOn e.fields fact other) :
    e.eval fact = e.eval other := by
  induction e with
  | literal value => rfl
  | field path => exact path.read_eq agree List.mem_cons_self
  | prefixed op operand ih => rw [eval, eval, ih agree]
  | infixed op left right ihLeft ihRight =>
      rw [eval, eval, ihLeft fun key mem => agree key (List.mem_append_left _ mem),
        ihRight fun key mem => agree key (List.mem_append_right _ mem)]

theorem holds_eq {e : Expression} {fact other : Fact} (agree : AgreeOn e.fields fact other) :
    e.holds fact = e.holds other := by
  rw [holds, holds, eval_eq agree]

end Expression

namespace Statement

/-- The fields of a fact that a statement mentions, the one that it assigns among them. -/
def fields : Statement → List String
  | assign target value => target.first :: value.fields
  | bare e => e.fields

theorem run_alike {s : Statement} {keys : List String} {fact other : Fact}
    (mentioned : s.fields ⊆ keys) (agree : AgreeOn keys fact other) :
    Alike (· = ·) (AgreeOn keys) (s.run fact) (s.run other) := by
  cases s with
  | assign target value =>
      have same := value.eval_eq fun key mem =>
        agree key (mentioned (List.mem_cons_of_mem _ mem))
      rw [run, run, same]
      refine (Alike.refl (fun _ => rfl) (fun _ => rfl) _).bind fun v _ same => ?_
      subst same
      exact FieldPath.assignFrom_alike agree (mentioned List.mem_cons_self) [] v target.rest
  | bare e =>
      rw [run, run, e.eval_eq fun key mem => agree key (mentioned mem)]
      exact (Alike.refl (fun _ => rfl) (fun _ => rfl) _).bind fun _ _ _ => .ok agree

/-- A statement leaves what it does not mention. -/
theorem get?_run {s : Statement} {key : String} (other : key ∉ s.fields) {fact after : Fact}
    (done : s.run fact = .ok after) : Members.get? key after = Members.get? key fact := by
  cases s with
  | assign target value =>
      have differ : target.first ≠ key := (List.ne_of_not_mem_cons other).symm
      rw [run] at done
      cases found : value.eval fact with
      | error e => simp [found, bind, Except.bind] at done
      | ok v =>
          rw [found] at done
          exact FieldPath.get?_assignFrom differ done
  | bare e =>
      rw [run] at done
      cases found : e.eval fact with
      | error e => simp [found, bind, Except.bind] at done
      | ok v =>
          rw [found] at done
          cases done
          rfl

end Statement

end DecisionTable

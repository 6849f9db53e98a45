/-! # Outcomes of two runs

Two runs are alike when both fail with related errors or both succeed with related values. A run
in steps is alike to another one if its steps are (`Alike.bind`).
-/

namespace DecisionTable

/-- `Alike E V x y`: two errors that `E` relates, or two values that `V` relates. -/
inductive Alike {ε ε' α α' : Type} (E : ε → ε' → Prop) (V : α → α' → Prop) :
    Except ε α → Except ε' α' → Prop where
  | error {e : ε} {e' : ε'} (errors : E e e') : Alike E V (.error e) (.error e')
  | ok {a : α} {a' : α'} (values : V a a') : Alike E V (.ok a) (.ok a')

namespace Alike

variable {ε ε' α α' β β' : Type} {E : ε → ε' → Prop} {V : α → α' → Prop} {W : β → β' → Prop}

theorem refl {E : ε → ε → Prop} {V : α → α → Prop} (errors : ∀ e, E e e) (values : ∀ a, V a a)
    (x : Except ε α) : Alike E V x x := by
  cases x with
  | error e => exact .error (errors e)
  | ok a => exact .ok (values a)

theorem eq {x y : Except ε α} (alike : Alike (· = ·) (· = ·) x y) : x = y := by
  cases alike with
  | error errors => rw [errors]
  | ok values => rw [values]

theorem imp {E' : ε → ε' → Prop} {V' : α → α' → Prop} {x : Except ε α} {y : Except ε' α'}
    (alike : Alike E V x y) (errors : ∀ e e', E e e' → E' e e')
    (values : ∀ a a', V a a' → V' a a') : Alike E' V' x y := by
  cases alike with
  | error related => exact .error (errors _ _ related)
  | ok related => exact .ok (values _ _ related)

theorem bind {x : Except ε α} {y : Except ε' α'} {f : α → Except ε β} {g : α' → Except ε' β'}
    (first : Alike E V x y) (next : ∀ a a', V a a' → Alike E W (f a) (g a')) :
    Alike E W (x >>= f) (y >>= g) := by
  cases first with
  | error related => exact .error related
  | ok related => exact next _ _ related

/-- The next steps may rely on what the first ones gave. -/
theorem bind_of_ok {x : Except ε α} {y : Except ε' α'} {f : α → Except ε β}
    {g : α' → Except ε' β'} (first : Alike E V x y)
    (next : ∀ a a', x = .ok a → V a a' → Alike E W (f a) (g a')) :
    Alike E W (x >>= f) (y >>= g) := by
  cases first with
  | error related => exact .error related
  | ok related => exact next _ _ rfl related

theorem map {x : Except ε α} {y : Except ε' α'} {f : α → β} {g : α' → β'}
    (alike : Alike E V x y) (values : ∀ a a', V a a' → W (f a) (g a')) :
    Alike E W (x.map f) (y.map g) := by
  cases alike with
  | error related => exact .error related
  | ok related => exact .ok (values _ _ related)

end Alike

end DecisionTable

import DecisionTable.Book.Basic

/-! # Reported failures

A failure that ends a command is reported with all its causes, outermost first. An error that
words its own cause and has it as well names it twice.
-/

namespace DecisionTable

/-- A failure: its text and those of its causes. -/
structure Failure where
  causes : List String
  deriving DecidableEq, Repr

namespace Failure

/-- The text of a failure. -/
def text (f : Failure) : String := ": ".intercalate f.causes

/-- A failure seen from what was being done. -/
def during (f : Failure) (context : String) : Failure := ⟨context :: f.causes⟩

/-- A failure without further causes. -/
def ofText (text : String) : Failure := ⟨[text]⟩

/-- An error of a table with what caused it. -/
def ofTable (e : TableError) : Failure :=
  ⟨e.message :: match e with
    | .expression _ _ _ cause => [cause.message]
    | .notWorkbook => [TableError.notWorkbookReason]
    | .csv fault => [fault.message, fault.reason]
    | .file fault => [fault.message]
    | _ => []⟩

/-- An error of a run with what caused it. -/
def ofChain (e : ChainError) : Failure :=
  ⟨e.message :: match e with
    | .eval _ cause => [cause.message]
    | _ => []⟩

/-- An error of a rule book with what caused it. -/
def ofBook : BookError → Failure
  | .table e => ofTable e
  | .chain e => ofChain e
  | .invalidFact found => ofText (BookError.invalidFact found).message

end Failure

end DecisionTable

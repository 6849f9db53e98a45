/-! # Settings of the engine -/

namespace DecisionTable

/-- How an engine runs its rules. -/
structure EngineSettings where
  /-- Whether a change of the fact is no reason to start over. -/
  ignoreFactChanges : Bool := true
  /-- How often a run may start over. -/
  maxRestarts : UInt32 := 64
  deriving DecidableEq, Repr

end DecisionTable

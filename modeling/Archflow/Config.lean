/-!
The settings of a run.
-/
namespace Archflow

/-- How the jobs of a batch are scheduled; their results do not depend on it. -/
inductive Concurrency where
  | sequential
  | pooled
deriving DecidableEq, Repr

structure Config where
  /-- Reactions nested deeper than this end the run, as do longer chains of delegation. -/
  maxCascadeDepth : Nat := 64
  /-- The bound on the iterations of protocols that have none of their own. -/
  protocolIterations : Nat := 5
  concurrency : Concurrency := .sequential
  poolSize : Option Nat := none
deriving DecidableEq, Repr

end Archflow

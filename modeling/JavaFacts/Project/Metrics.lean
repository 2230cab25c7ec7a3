namespace JavaFacts

/-- The share of nothing is zero. -/
def rate (share total : Nat) : Float :=
  if total == 0 then 0
  else (UInt64.ofNat share).toFloat / (UInt64.ofNat total).toFloat

structure Metrics where
  attempted : Nat
  succeeded : Nat
  failed : Nat
  /-- In nanoseconds. -/
  duration : Nat
  entities : Nat
  associations : Nat
  deferred : Nat
  resolved : Nat
  ambiguous : Nat
deriving Repr, DecidableEq, Inhabited

namespace Metrics

def zero : Metrics := ⟨0, 0, 0, 0, 0, 0, 0, 0, 0⟩

def merge (left right : Metrics) : Metrics :=
  { attempted := left.attempted + right.attempted
    succeeded := left.succeeded + right.succeeded
    failed := left.failed + right.failed
    duration := left.duration + right.duration
    entities := left.entities + right.entities
    associations := left.associations + right.associations
    deferred := left.deferred + right.deferred
    resolved := left.resolved + right.resolved
    ambiguous := left.ambiguous + right.ambiguous }

/-- In whole milliseconds. -/
def time (metrics : Metrics) : Nat := metrics.duration / 1000000

def successRate (metrics : Metrics) : Float :=
  rate metrics.succeeded metrics.attempted

def resolutionRate (metrics : Metrics) : Float :=
  rate metrics.resolved metrics.deferred

/-- The divisor is the number of units as far as it fits 32 bits. -/
def averageTime? (metrics : Metrics) : Option Nat :=
  if metrics.succeeded == 0 then some 0
  else
    let divisor := metrics.succeeded % 0x100000000
    if divisor == 0 then none else some (metrics.duration / divisor)

end Metrics

end JavaFacts

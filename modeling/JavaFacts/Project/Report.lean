import JavaFacts.Call.Linking
import JavaFacts.Project.Metrics

namespace JavaFacts

structure UnitReport where
  path : String
  types : List EntityId
  /-- Those made up for the file included. -/
  methods : List EntityId
  entitiesCreated : Nat
  associationsCreated : Nat
  deferredCount : Nat
  deferred : List Call
  lines : Nat
  bytes : Nat
deriving Repr, DecidableEq, Inhabited

namespace UnitReport

def declarationCount (report : UnitReport) : Nat :=
  report.types.length + report.methods.length

end UnitReport

namespace Metrics

/-- A unit has a report if it succeeded. -/
def countUnit (metrics : Metrics) (report : Option UnitReport) : Metrics :=
  let tried := { metrics with attempted := metrics.attempted + 1 }
  match report with
  | some report =>
      { tried with
        succeeded := tried.succeeded + 1
        entities := tried.entities + report.entitiesCreated
        associations := tried.associations + report.associationsCreated
        deferred := tried.deferred + report.deferredCount }
  | none => { tried with failed := tried.failed + 1 }

def countResolution (metrics : Metrics) (summary : Option ResolutionSummary) : Metrics :=
  match summary with
  | some summary =>
      { metrics with
        resolved := metrics.resolved + summary.unique
        ambiguous := metrics.ambiguous + summary.ambiguous }
  | none => metrics

end Metrics

structure ProjectReport where
  units : List UnitReport
  failed : List (String × String)
  cancelled : Bool
  deferred : List Call
  resolution : ResolutionSummary
deriving Repr, DecidableEq, Inhabited

namespace ProjectReport

def empty : ProjectReport := ⟨[], [], false, [], .none⟩

/-- The project takes charge of the calls of the file. -/
def addUnit (project : ProjectReport) (unit : UnitReport) : ProjectReport :=
  { project with
    units := project.units ++ [{ unit with deferred := [] }]
    deferred := project.deferred ++ unit.deferred }

def addFailure (project : ProjectReport) (path reason : String) : ProjectReport :=
  { project with failed := project.failed ++ [(path, reason)] }

def totalUnits (project : ProjectReport) : Nat :=
  project.units.length + project.failed.length

def totalTypes (project : ProjectReport) : Nat :=
  (project.units.flatMap (·.types)).length

def totalMethods (project : ProjectReport) : Nat :=
  (project.units.flatMap (·.methods)).length

def successRate (project : ProjectReport) : Float :=
  rate project.units.length project.totalUnits

end ProjectReport

end JavaFacts

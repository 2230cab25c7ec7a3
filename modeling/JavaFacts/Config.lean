namespace JavaFacts

structure Config where
  parallel : Bool
  /-- `none` leaves it to the machine. -/
  workers : Option Nat
  maxFileSize : Nat
  resolveDeferred : Bool
  linkUnique : Bool
  /-- To its first candidate. -/
  linkAmbiguous : Bool
  recordStatements : Bool
deriving Repr, DecidableEq, Inhabited

namespace Config

def standard : Config :=
  { parallel := false, workers := none, maxFileSize := 10 * 1024 * 1024, resolveDeferred := true,
    linkUnique := true, linkAmbiguous := false, recordStatements := true }

def fast : Config :=
  { standard with resolveDeferred := false, linkUnique := false, recordStatements := false }

def comprehensive : Config :=
  { standard with linkAmbiguous := true }

end Config

end JavaFacts

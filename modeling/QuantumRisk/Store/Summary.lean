import QuantumRisk.Report

/-!
# Risk summaries

A summary lists the saved reports in short form, with their number and their average score.
-/

namespace QuantumRisk

/-- A report in short form. -/
structure Digest where
  contract : String
  riskScore : Nat
  ecrecoverCount : Nat
  keyExposureCount : Nat
  deriving DecidableEq, Inhabited

namespace Digest

def ofReport (r : Report) : Digest :=
  ⟨r.contract, r.riskScore, r.ecrecoverCount, r.keyExposureCount⟩

def toJson (d : Digest) : Json :=
  .obj [("contract", .str d.contract), ("riskScore", .int d.riskScore),
    ("ecrecoverCount", .int d.ecrecoverCount),
    ("publicKeyExposureCount", .int d.keyExposureCount)]

end Digest

structure Summary where
  digests : List Digest
  deriving DecidableEq, Inhabited

namespace Summary

def total (s : Summary) : Nat := s.digests.length

/-- The sum of all scores. -/
def scoreSum (s : Summary) : Nat := s.digests.foldr (·.riskScore + ·) 0

/-- The average score; of no reports it is zero. -/
def average (s : Summary) : Number.Binary64 :=
  if s.total = 0 then .quotient 0 1 else .quotient s.scoreSum s.total

def toJson (s : Summary) : Json :=
  .obj [("totalReports", .int s.total), ("avgRisk", .float s.average),
    ("reports", .arr (s.digests.map (·.toJson)))]

end Summary

end QuantumRisk

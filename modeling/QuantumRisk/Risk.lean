import QuantumRisk.Finding
import QuantumRisk.Validation

/-!
# Risk scores

The score of a set of findings is the sum of their weights, cut off at a ceiling. Weights are not
negative, and the ceiling is at most one hundred.
-/

namespace QuantumRisk

open Validation (Complaint Issue Rejection Step)

/-- The weight of each kind, and the ceiling of the score. A kind without a weight weighs
nothing. -/
structure RiskWeights where
  weights : List (FindingKind × Nat)
  ceiling : Nat
  ceiling_le : ceiling ≤ 100 := by decide

namespace RiskWeights

def standard : RiskWeights where
  weights := [(.ecrecoverUsage, 50), (.keyExposure, 10)]
  ceiling := 100

def weight (w : RiskWeights) (k : FindingKind) : Nat := (List.lookup k w.weights).getD 0

def model : String := "RiskWeights"

/-- The weights of a record, kind by kind in its order. -/
private def readWeights (members : List (String × Json)) :
    Except (List Complaint) (List (FindingKind × Int)) :=
  let choices := FindingKind.all.map (·.name)
  let complaints := members.flatMap fun (k, v) ↦
    let key := match FindingKind.ofName? k with
      | some _ => []
      | none => [⟨[.member "weights", .member k, .member "[key]"], Issue.notKind choices⟩]
    key ++ Validation.complaintAt [.member "weights", .member k] (Validation.integer v)
  if complaints.isEmpty then
    .ok (members.filterMap fun (k, v) ↦
      match FindingKind.ofName? k, Validation.integer v with
      | some kind, .ok n => some (kind, n)
      | _, _ => none)
  else .error complaints

/-- Weights have to be counts. -/
private def nonNegative (ws : List (FindingKind × Int)) :
    Except (List Complaint) (List (FindingKind × Nat)) :=
  let negative := (ws.filter (·.2 < 0)).map (·.1.name)
  if negative.isEmpty then .ok (ws.map fun (k, n) ↦ (k, n.toNat))
  else
    let reason := "weights must be non-negative: " ++ String.intercalate ", " negative
    .error [⟨[.member "weights"], .refused reason⟩]

/-- Read weights and ceiling; what is not given is standard. -/
def read (weights ceiling : Option Json) : Except Rejection RiskWeights :=
  let ws : Except (List Complaint) (List (FindingKind × Nat)) := match weights with
    | none => .ok standard.weights
    | some (.obj members) => (readWeights members).bind nonNegative
    | some _ => .error [⟨[.member "weights"], .notRecord⟩]
  let top : Except Issue Int := match ceiling with
    | none => .ok 100
    | some v => Validation.integerWithin (some 0) (some 100) v
  match ws, top with
  | .ok weights, .ok n =>
    if h : n.toNat ≤ 100 then .ok ⟨weights, n.toNat, h⟩
    else .error ⟨model, [⟨[.member "ceiling"], .above 100⟩]⟩
  | ws, top =>
    let first := match ws with
      | .ok _ => []
      | .error complaints => complaints
    .error ⟨model, first ++ Validation.complaintAt [.member "ceiling"] top⟩

end RiskWeights

/-- The sum of the weights of all counted findings. -/
def rawScore (counts : Counts) (w : RiskWeights) : Int :=
  counts.foldr (fun (k, n) total ↦ (w.weight k : Int) * n + total) 0

/-- The score, at most the ceiling. -/
def score (counts : Counts) (w : RiskWeights) : Int := min (w.ceiling : Int) (rawScore counts w)

end QuantumRisk

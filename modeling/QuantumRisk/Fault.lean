import QuantumRisk.Failure
import QuantumRisk.FileSystem.Actions
import QuantumRisk.Log.Setup
import QuantumRisk.Rule
import QuantumRisk.Validation

/-!
# Everything that can go wrong

A failure is an expected end of a run. The other faults come from outside the run: settings that are
rejected, paths that the system refuses, rules that do not fit the data. They are passed on as they
are.
-/

namespace QuantumRisk

inductive Fault where
  | failure (f : Failure)
  | rejected (r : Validation.Rejection)
  | path (f : PathFault)
  | text (f : Text.Utf8Fault)
  | matching (f : MatchFault)
  | level (f : Log.SetupFault)
  deriving Inhabited

def Fault.ofRead : FileSystem.ReadFault → Fault
  | .path f => .path f
  | .text f => .text f

end QuantumRisk

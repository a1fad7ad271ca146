/-!
# The program itself

Its name and version as it shows them.
-/

namespace QuantumRisk

def programName : String := "pqscan"

def programVersion : String := "1.0.0"

/-- The title of the network service. -/
def serviceTitle : String := "pqscan API"

end QuantumRisk

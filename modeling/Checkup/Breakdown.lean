import Checkup.Value
import Checkup.Workspace

/-!
# Breakdowns

Most faults are dealt with where they arise. Some end the work at once: a path that has to be used
and cannot, a value that is nested too deeply to be read, and output of git that is not a text.
-/

namespace Checkup

/-- What ends the work at once. -/
inductive Breakdown where
  | path (fault : PathFault)
  | overflow (overflow : Value.Overflow)
  | undecoded

namespace Breakdown

def message : Breakdown → String
  | .path fault => fault.message
  | .overflow deep => deep.message
  | .undecoded => PathFault.notText.message

def ofPath : Except PathFault α → Except Breakdown α
  | .ok a => .ok a
  | .error fault => .error (.path fault)

def ofOverflow : Except Value.Overflow α → Except Breakdown α
  | .ok a => .ok a
  | .error deep => .error (.overflow deep)

end Breakdown

end Checkup

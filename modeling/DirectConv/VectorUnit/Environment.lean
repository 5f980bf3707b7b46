import DirectConv.Log
import DirectConv.Text.Blank
import DirectConv.VectorUnit

/-!
# The vector unit of the environment

Two variables of the environment describe the vector unit for a whole process. Each holds a size,
possibly between blanks. A description that cannot be used is ignored as a whole.

## Main definitions

- `DirectConv.Environment`: the values of the two variables
- `DirectConv.Environment.ofBytes`: the values as the system hands them over
- `DirectConv.VectorUnit.ofEnvironment`: the unit they describe, or why they describe none
- `DirectConv.VectorUnit.ambient`: the unit a process uses
- `DirectConv.VectorUnit.ambientLog`: what the process reports when it looks the unit up
-/

namespace DirectConv

/-- The values of the two variables, as far as they are set. -/
structure Environment where
  registerBits : Option String
  /-- The largest number of lanes to use. -/
  laneCap : Option String
  deriving DecidableEq

namespace Environment

/-- The variable that holds the register length. -/
def registerBitsName : String := "VCONV2D_VLEN"

/-- The variable that holds the lane cap. -/
def laneCapName : String := "VCONV2D_LANES"

/-- The environment in which neither variable is set. -/
def empty : Environment := ⟨none, none⟩

/-- The environment with these raw values. A value that is not well-formed UTF-8 counts as not
set. -/
def ofBytes (registerBits laneCap : Option ByteArray) : Environment where
  registerBits := registerBits.bind String.fromUTF8?
  laneCap := laneCap.bind String.fromUTF8?

/-- The size a variable holds, if the variable is set. -/
def readVariable (variableName : String) : Option String → Except Rejection (Option Nat)
  | none => .ok none
  | some value =>
    match Text.readSize (Text.trim value.toList) with
    | .ok n => .ok (some n)
    | .error error => .error (.unreadable variableName value error)

end Environment

namespace VectorUnit

/-- The unit the environment describes. The register length is read before the lane cap, and the
unit is checked last. -/
def ofEnvironment (env : Environment) : Except Rejection VectorUnit := do
  let bits ← Environment.readVariable Environment.registerBitsName env.registerBits
  let cap ← Environment.readVariable Environment.laneCapName env.laneCap
  let unit : VectorUnit := ⟨bits.getD standardBits, cap⟩
  unit.validate
  return unit

/-- The unit a process with this environment uses: the one the environment describes, or the
standard one if it describes none. -/
def ambient (env : Environment) : VectorUnit :=
  match ofEnvironment env with
  | .ok unit => unit
  | .error _ => standard

/-- What a process with this environment reports when it looks its unit up. -/
def ambientLog (env : Environment) : List LogEntry :=
  match ofEnvironment env with
  | .ok _ => []
  | .error reason => [.ignoredEnvironment reason]

end VectorUnit

end DirectConv

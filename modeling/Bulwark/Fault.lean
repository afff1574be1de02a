/-!
# Faults

Why a guarded operation failed.  A fault has a class, by which retries and fallbacks are decided,
and a text.  A store fails in two ways of its own; whatever the store reports reaches a caller as a
fault of the class `storeUnavailable`.
-/

namespace Bulwark

/-- Why a store call failed. -/
inductive StoreError where
  /-- The store could not be reached. -/
  | unavailable (detail : String)
  /-- The store answered something that makes no sense. -/
  | protocol (detail : String)
  deriving DecidableEq, Repr, Inhabited

/-- The text of a store error. -/
def StoreError.message : StoreError → String
  | .unavailable detail => "store unavailable: " ++ detail
  | .protocol detail => "unexpected store reply: " ++ detail

/-- The classes of faults. -/
inductive FaultClass where
  /-- Bad input; never retried. -/
  | validation
  | transient
  | backpressure
  | streaming
  | storeUnavailable
  /-- A call refused for good; never retried. -/
  | circuitOpen
  deriving DecidableEq, Repr, Inhabited

namespace FaultClass

/-- Every class. -/
def all : List FaultClass :=
  [.validation, .transient, .backpressure, .streaming, .storeUnavailable, .circuitOpen]

/-- The name in configuration and logs. -/
def name : FaultClass → String
  | .validation => "validation"
  | .transient => "transient"
  | .backpressure => "backpressure"
  | .streaming => "streaming"
  | .storeUnavailable => "store_unavailable"
  | .circuitOpen => "circuit_open"

/-- The class of a name. -/
def ofName? (s : String) : Option FaultClass := all.find? (·.name == s)

/-- The two classes that go back to the caller as they are: they are never retried and never
replaced by a fallback. -/
def isTerminal (c : FaultClass) : Bool := c == .validation || c == .circuitOpen

end FaultClass

/-- A failure that crosses the border of a component. -/
inductive Fault where
  | validation (detail : String)
  | transient (detail : String)
  | backpressure (detail : String)
  | streaming (detail : String)
  | store (cause : StoreError)
  | circuitOpen (operation : String)
  deriving DecidableEq, Repr, Inhabited

namespace Fault

/-- The class of a fault. -/
def kind : Fault → FaultClass
  | .validation _ => .validation
  | .transient _ => .transient
  | .backpressure _ => .backpressure
  | .streaming _ => .streaming
  | .store _ => .storeUnavailable
  | .circuitOpen _ => .circuitOpen

/-- The text of a fault. -/
def message : Fault → String
  | .validation detail => "validation failed: " ++ detail
  | .transient detail => "transient failure: " ++ detail
  | .backpressure detail => "backpressure: " ++ detail
  | .streaming detail => "stream fault: " ++ detail
  | .store cause => cause.message
  | .circuitOpen operation => "service unavailable: circuit open for '" ++ operation ++ "'"

/-- Whether the fault says that a circuit is open. -/
def isCircuitOpen (f : Fault) : Bool := f.kind == .circuitOpen

end Fault
end Bulwark

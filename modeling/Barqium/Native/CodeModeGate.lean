import Barqium.Native.ToolRegistry

/-!
# Code Mode gate

Model of `crates/barqium-policy/src/codemode.rs`. Every operation takes the gate's lock once,
so it is a function of the sessions.
-/

namespace Barqium.Native

/-- Session-level Code Mode gate. -/
structure CodeModeGate where
  sessions : HashMap ToolTier

def tierOrd : ToolTier → UInt8
  | .readOnly => 0
  | .limited => 1
  | .full => 2

def maxTier (a b : ToolTier) : ToolTier := if tierOrd b > tierOrd a then b else a

namespace CodeModeGate

def new : CodeModeGate := ⟨∅⟩

/-- The current tier of a session. -/
def tier (gate : CodeModeGate) (sessionId : String) : ToolTier :=
  (gate.sessions.lookup sessionId).getD .readOnly

/-- Advance the session to `targetTier` if that is higher than its tier. The result is the new
    tier. -/
def advance (gate : CodeModeGate) (sessionId : String) (targetTier : ToolTier) :
    ToolTier × CodeModeGate :=
  let current := (gate.sessions.lookup sessionId).getD .readOnly
  let newTier := maxTier current targetTier
  (newTier, ⟨gate.sessions.insert sessionId newTier⟩)

/-- Remove the session (called on session close). -/
def remove (gate : CodeModeGate) (sessionId : String) : CodeModeGate :=
  ⟨gate.sessions.erase sessionId⟩

end CodeModeGate

/-- The operations that change a gate. -/
inductive GateOp where
  | advance (sessionId : String) (targetTier : ToolTier)
  | remove (sessionId : String)
  deriving Repr, DecidableEq

namespace CodeModeGate

/-- The gate after an operation. -/
def step (gate : CodeModeGate) : GateOp → CodeModeGate
  | .advance sessionId targetTier => (gate.advance sessionId targetTier).2
  | .remove sessionId => gate.remove sessionId

/-- A new gate after a sequence of operations. -/
def run (ops : List GateOp) : CodeModeGate := ops.foldl step new

end CodeModeGate

end Barqium.Native

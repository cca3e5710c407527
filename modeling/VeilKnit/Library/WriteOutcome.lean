/-!
# Outcomes of writes

A write to a network ends with success or an error, and an error leaves open whether the value has
been stored.
-/

namespace VeilKnit.Library

/-- A write to the network. An error does not say whether the value has landed. -/
inductive WriteOutcome
  | stored
  | failed (error : String) (landed : Bool)
  deriving DecidableEq

namespace WriteOutcome

def landed : WriteOutcome → Bool
  | .stored => true
  | .failed _ landed => landed

def result (context : String) : WriteOutcome → Except String Unit
  | .stored => .ok ()
  | .failed error _ => .error (context ++ error)

end WriteOutcome

end VeilKnit.Library

import VeilKnit.Handshake.Moves

/-!
# The operations of a node

What a node's owner, its peers and its clock can make the manager do.
-/

namespace VeilKnit.Handshake

open Library

variable {Secret : Type}

inductive Operation
  | initiateHandshake (target : String)
  | initiateVerificationHandshake (target : String)
  | initiateHandshakeWithMode (target : String) (mode : EncryptionMode)
  | initiatePersistentHandshake (target : String)
  | appMessage (data : Bytes)
  /-- The peers in the order in which their restarts are visited. -/
  | tick (order : List String)

section Perform

variable (prim : Primitives Secret) (direct : DirectPrimitives) (ans : Answers Secret)

def perform (p : Process Secret) : Operation → Process Secret
  | .initiateHandshake target => (initiateHandshake prim ans target p).2
  | .initiateVerificationHandshake target => (initiateVerificationHandshake prim ans target p).2
  | .initiateHandshakeWithMode target mode =>
    (initiateHandshakeWithMode prim ans target mode p).2
  | .initiatePersistentHandshake target => (initiatePersistentHandshake prim ans target p).2
  | .appMessage data => handleAppMessage prim direct ans data p
  | .tick order => tick prim ans order p

/-- The handshake message that an operation brings. -/
def Operation.incoming : Operation → Option (HandshakeMessage × Bytes)
  | .appMessage data =>
    if data.length > maxDirectApplicationMessageBytes then none
    else
      match decodeAndValidateHandshakeMessage prim (ans.clock 6) data with
      | .ok message => some (message, data)
      | .error _ => none
  | _ => none

end Perform

variable {prim : Primitives Secret} {direct : DirectPrimitives} {ans : Answers Secret}

/-- Bytes that read as a handshake message are handled as one. -/
theorem perform_appMessage {data : Bytes} {message : HandshakeMessage}
    (short : data.length ≤ maxDirectApplicationMessageBytes)
    (decoded : decodeAndValidateHandshakeMessage prim (ans.clock 6) data = .ok message)
    (p : Process Secret) :
    perform prim direct ans p (.appMessage data) =
      (processValidatedMessage prim ans message.senderDht message data p).2 := by
  rw [perform, handleAppMessage, if_neg (by omega), decoded]

theorem processDirectApplication_moves {incoming : Option (HandshakeMessage × Bytes)}
    {start : Process Secret} (envelope : DirectApplicationEnvelope) (p : Process Secret) :
    Moves prim ans incoming start p (processDirectApplication prim direct ans envelope p).2 := by
  unfold processDirectApplication
  dsimp only
  split
  · exact .refl
  split
  · exact .refl
  split
  · exact .refl
  split
  · exact .refl
  split
  case h_1 => exact .refl
  case h_2 s hs =>
  split
  case h_1 => exact .refl
  case h_2 =>
    have hseen : Touched s { s with lastSeen := ans.clock 1 } := { Touched.refl s with }
    refine .tail (.single (.touch hs hseen)) (.note ?_)
    intro route bytes h
    cases h

/-- Every operation is a sequence of moves. -/
theorem perform_moves (op : Operation) (p : Process Secret) :
    Moves prim ans (op.incoming prim ans) p p (perform prim direct ans p op) := by
  cases op with
  | initiateHandshake target => exact initiateHandshakeInternal_moves _ _ _ _ _ _
  | initiateVerificationHandshake target => exact initiateHandshakeInternal_moves _ _ _ _ _ _
  | initiateHandshakeWithMode target mode => exact initiateHandshakeInternal_moves _ _ _ _ _ _
  | initiatePersistentHandshake target => exact initiatePersistentHandshake_moves _ _
  | tick order => exact tick_moves order p
  | appMessage data =>
    rw [perform, handleAppMessage, Operation.incoming]
    split
    · exact .refl
    cases decodeAndValidateHandshakeMessage prim (ans.clock 6) data with
    | ok message => exact processValidatedMessage_moves _ message data p
    | error _ =>
      dsimp only
      split
      · exact .refl
      cases direct.envelopeFromJson data with
      | error _ => exact .refl
      | ok envelope => exact processDirectApplication_moves envelope p

end VeilKnit.Handshake

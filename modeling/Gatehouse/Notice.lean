import Gatehouse.Failure

/-!
Notices: what the gateway tells its operator about failures that a caller does not see, or sees only
in general terms.
-/

namespace Gatehouse

inductive Notice where
  /-- An expired key could not be removed from the store. -/
  | expiredKeyKept (id : String) (cause : Failure)
  /-- A request about keys met a failure of the gateway itself. -/
  | keyRequestFailed (cause : Failure)
  /-- An observer did not take a message. -/
  | deliveryFailed (endpoint token : String) (fault : SessionFault)
  /-- An observer whose session ended could not be cancelled. -/
  | cleanupFailed (endpoint token : String) (cause : Failure)
  /-- A request of a device met a failure of the gateway itself. -/
  | deviceRequestFailed (path : String) (cause : Failure)
  /-- No service for access checks is set, so that no device has access. -/
  | accessUnset
  deriving DecidableEq, Repr

namespace Notice

/-- The gateway itself is at fault. -/
def isError : Notice → Bool
  | keyRequestFailed _ => true
  | deviceRequestFailed _ _ => true
  | _ => false

def level (n : Notice) : String := if n.isError then "ERROR" else "WARN"

def message : Notice → String
  | expiredKeyKept _ _ => "Failed to remove expired key"
  | keyRequestFailed _ => "Key service request failed"
  | deliveryFailed _ _ _ => "Failed to deliver to observer"
  | cleanupFailed _ _ _ => "Failed to clean up observer"
  | deviceRequestFailed _ _ => "CoAP request failed"
  | accessUnset => "coap.things_url not set - all channel access will be denied"

def details : Notice → List (String × String)
  | expiredKeyKept id cause => [("key_id", id), ("error", cause.message)]
  | keyRequestFailed cause => [("error", cause.message)]
  | deliveryFailed endpoint token fault =>
    [("endpoint", endpoint), ("token", token), ("error", fault.message)]
  | cleanupFailed endpoint token cause =>
    [("endpoint", endpoint), ("token", token), ("error", cause.message)]
  | deviceRequestFailed path cause => [("path", path), ("error", cause.message)]
  | accessUnset => []

end Notice
end Gatehouse

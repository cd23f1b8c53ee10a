import Gatehouse.Failure
import Gatehouse.Table

/-!
Access checks: which thing stands behind a key on a channel.
-/

namespace Gatehouse.Observe

/-- Answers for a key and a channel with the thing that may use the channel. Any failure means that
it may not. -/
abbrev AccessCheck := String → String → Except Failure String

/-- Explicit grants: things by key and channel. -/
abbrev Grants := Table (String × String) String

namespace Grants

def grant (g : Grants) (key channel thing : String) : Grants := g.insert (key, channel) thing

def withdraw (g : Grants) (key channel : String) : Grants := g.erase (key, channel)

def check (g : Grants) : AccessCheck := fun key channel =>
  match g.get? (key, channel) with
  | some thing => .ok thing
  | none => .error (.unauthorized .accessDenied)

end Grants

/-- A failure of the check that is no rejection becomes one, with the failure as its cause. -/
def asDenial (e : Failure) : Failure :=
  if e.isUnauthorized then e else .denied .accessDenied e

/-- The thing behind a key on a channel, or a rejection. -/
def authorize (access : AccessCheck) (key channel : String) : Except Failure String :=
  match access key channel with
  | .ok thing => .ok thing
  | .error e => .error (asDenial e)

end Gatehouse.Observe

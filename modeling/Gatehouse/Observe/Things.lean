import Gatehouse.Http.Url
import Gatehouse.Json.Reader
import Gatehouse.Json.Value
import Gatehouse.Observe.Access

/-!
Checking access at the things service, over HTTP.

How an inquiry gets there is the transport's matter. Only a reply of success that carries an id
admits; that nothing or nonsense comes back is a failure of the service.
-/

namespace Gatehouse.Observe

/-- A request to the things service: a JSON text posted to a URL. -/
structure Inquiry where
  url : String
  body : Json

def Inquiry.target? (i : Inquiry) : Option String := Http.Url.target? i.url

structure Reply where
  status : Nat
  body : List UInt8
  deriving DecidableEq, Repr

def Reply.isSuccess (r : Reply) : Bool := 200 ≤ r.status && r.status < 300

/-- Gets an inquiry answered, or tells what stood in the way. -/
abbrev Transport := Inquiry → Except String Reply

/-- The things service at a base URL that does not end in a slash. -/
structure ThingsService where
  base : String
  deriving DecidableEq, Repr

namespace ThingsService

/-- The service at a URL; slashes at its end do not count. -/
def ofUrl (url : String) : ThingsService :=
  ⟨String.ofList (Text.trimEndWith (· == '/') url.toList)⟩

def inquiry (t : ThingsService) (key channel : String) : Inquiry :=
  ⟨t.base ++ "/identify/channels/" ++ channel ++ "/access-by-key", .object [("token", .text key)]⟩

def readId : Json.Node → Except Json.Fault String :=
  Json.Read.record
    [.slot "id" id (fun (_ : Option String) v => v) Json.Read.text] none Json.Read.required

def verdict (r : Reply) : Except Failure String :=
  if r.isSuccess then
    match Json.Read.document readId (Json.Document.ofBytes r.body) with
    | .ok thing => .ok thing
    | .error fault => .error (.remote ("things service response: " ++ fault.message))
  else .error (.unauthorized .accessDenied)

/-- The check at the service. Without key or channel nobody is asked. -/
def check (t : ThingsService) (ask : Transport) : AccessCheck := fun key channel =>
  if key.isEmpty || channel.isEmpty then .error (.unauthorized .accessDenied)
  else
    match ask (t.inquiry key channel) with
    | .ok reply => verdict reply
    | .error detail => .error (.remote ("things service: " ++ detail))

end ThingsService
end Gatehouse.Observe

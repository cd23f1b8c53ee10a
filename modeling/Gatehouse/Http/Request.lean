import Gatehouse.Http.MediaType
import Gatehouse.Text.Blank

/-!
HTTP requests, and what the key endpoints look at in them.
-/

namespace Gatehouse.Http

inductive Method where
  | get
  | head
  | post
  | delete
  /-- Any method that no endpoint knows. -/
  | other
  deriving DecidableEq, Repr

structure Request where
  method : Method
  /-- The path with the query, as sent. -/
  target : String
  /-- Names and values in order. -/
  headers : List (String × String)
  body : List UInt8

namespace Request

def path (r : Request) : List Char := r.target.toList.takeWhile fun c => c != '?' && c != '#'

/-- A character that may stand in a header that is read as text. -/
def isVisible (c : Char) : Bool := c == '\t' || (0x20 ≤ c.toNat && c.toNat < 0x7F)

/-- The first header of a name, whatever the case of its letters, if it is text. -/
def header? (r : Request) (name : String) : Option (List Char) :=
  match r.headers.find? fun h => h.1.toList.map Char.toLower == name.toList with
  | some (_, value) => if value.toList.all isVisible then some value.toList else none
  | none => none

/-- The credential in the `Authorization` header, with or without a scheme before it. Without a
header it is empty. -/
def credential (r : Request) : String :=
  let value := Text.trim ((r.header? "authorization").getD [])
  String.ofList ((Text.after? "Bearer ".toList value).getD value)

def announcesJson (r : Request) : Bool :=
  match (r.header? "content-type").bind MediaType.read? with
  | some t => t.isJson
  | none => false

/-- The largest body that is read, in bytes. -/
def bodyLimit : Nat := 2 * 1024 * 1024

def isTooLarge (r : Request) : Bool := bodyLimit < r.body.length

end Request
end Gatehouse.Http

import Gatehouse.Json.Lenient

/-!
Keys inside token headers. A header may bring a description of a key. It must then be a proper one,
though nothing is done with it: an object with the members of one kind of key, and with some more
that every kind may have. Other members are passed over.
-/

namespace Gatehouse.Jwk

open Json (Node)

/-- A value that is passed over: read to its end, and not nested deeper than this. -/
def isPlain (depth : Nat) (node : Node) : Bool := (node.halt? depth).isNone

def isText : Node → Bool
  | .text _ => true
  | _ => false

def isTexts : Node → Bool
  | .array items closed => closed && items.all isText
  | _ => false

/-- A word, as a string or as the only member of an object, with value `null`. -/
def isWord (known : String → Bool) : Node → Bool
  | .text word => known word
  | .object [(some word, .null)] closed => closed && known word
  | _ => false

def orNull (admits : Node → Bool) : Node → Bool
  | .null => true
  | node => admits node

/-- A member that is looked at. It must not come twice. -/
structure Member where
  name : String
  needed : Bool
  admits : Node → Bool

/-- The members of an object are right as far as this one goes. -/
def Member.fits (members : List (Option String × Node)) (m : Member) : Bool :=
  match members.filter fun member => member.1 == some m.name with
  | [] => !m.needed
  | [(_, node)] => m.admits node
  | _ => false

/-- What every kind of key may have. -/
def common : List Member := [
  ⟨"use", false, orNull isText⟩, ⟨"key_ops", false, orNull isTexts⟩,
  ⟨"alg", false, orNull (isWord fun _ => true)⟩, ⟨"kid", false, orNull isText⟩,
  ⟨"x5u", false, orNull isText⟩, ⟨"x5c", false, orNull isTexts⟩, ⟨"x5t", false, orNull isText⟩,
  ⟨"x5t#S256", false, orNull isText⟩]

def kindIs (name : String) : Member := ⟨"kty", true, isWord (· == name)⟩

def curve : Member := ⟨"crv", true, isWord ["P-256", "P-384", "P-521", "Ed25519"].contains⟩

def textOf (name : String) : Member := ⟨name, true, isText⟩

def kinds : List (List Member) := [
  [kindIs "EC", curve, textOf "x", textOf "y"],
  [kindIs "RSA", textOf "n", textOf "e"],
  [kindIs "oct", textOf "k"],
  [kindIs "OKP", curve, textOf "x"]]

/-- A proper description of a key. A value in it may be nested as deep as the limit of 127 leaves
room for inside the header and the key. -/
def isKey : Node → Bool
  | .object members closed =>
    closed && members.all (fun m => m.1.isSome && isPlain 125 m.2) &&
      common.all (Member.fits members) && kinds.any fun kind => kind.all (Member.fits members)
  | _ => false

end Gatehouse.Jwk

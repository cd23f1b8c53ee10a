import Gatehouse.Digest.Sha256
import Gatehouse.Keys.Key
import Gatehouse.Table

/-!
The vault: stored keys by issuer and id. A key that is not in the vault is revoked.
-/

namespace Gatehouse

abbrev Vault := Table (String × String) Key

namespace Vault

/-- The digest that stands for a token in the vault. -/
def digest (token : String) : String :=
  String.ofList (Text.Hex.encode (Digest.Sha256.hash token.toUTF8.toList))

/-- Stores a key and tells its id; a key already there is a conflict and stays. -/
def save (v : Vault) (key : Key) : Except Failure String × Vault :=
  if v.contains (key.issuer, key.id) then (.error .conflict, v)
  else (.ok key.id, v.insert (key.issuer, key.id) key)

def retrieve (v : Vault) (issuer id : String) : Except Failure Key :=
  match v.get? (issuer, id) with
  | some key => .ok key
  | none => .error .notFound

/-- Deletes a key; one that is not there is no failure. -/
def remove (v : Vault) (issuer id : String) : Vault := v.erase (issuer, id)

end Vault
end Gatehouse

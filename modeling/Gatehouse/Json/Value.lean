import Gatehouse.Text.Decimal
import Gatehouse.Text.Hex

/-!
JSON values and their written form: no blanks, members in the order given, and in strings only the
quote, the backslash and control characters escaped.
-/

namespace Gatehouse

inductive Json where
  | null
  | bool (value : Bool)
  | integer (value : Int)
  | text (value : String)
  | array (items : List Json)
  | object (members : List (String × Json))

namespace Json

/-- How a character stands inside a quoted string. -/
def escapeChar (c : Char) : List Char :=
  if c = '"' then ['\\', '"']
  else if c = '\\' then ['\\', '\\']
  else if c = '\x08' then ['\\', 'b']
  else if c = '\x0c' then ['\\', 'f']
  else if c = '\n' then ['\\', 'n']
  else if c = '\r' then ['\\', 'r']
  else if c = '\t' then ['\\', 't']
  else if c.toNat < 0x20 then
    ['\\', 'u', '0', '0', Text.Hex.digit (c.toNat / 16), Text.Hex.digit (c.toNat % 16)]
  else [c]

def quote (s : String) : List Char := '"' :: (s.toList.flatMap escapeChar ++ ['"'])

/-- The digits of an integer, a minus sign in front of a negative one. -/
def writeInt (n : Int) : List Char :=
  if n < 0 then '-' :: Text.natDigits n.natAbs else Text.natDigits n.natAbs

mutual

def write : Json → List Char
  | null => ['n', 'u', 'l', 'l']
  | bool true => ['t', 'r', 'u', 'e']
  | bool false => ['f', 'a', 'l', 's', 'e']
  | integer n => writeInt n
  | text s => quote s
  | array items => '[' :: writeItems items
  | object members => '\x7b' :: writeMembers members

def writeItems : List Json → List Char
  | [] => [']']
  | [item] => write item ++ [']']
  | item :: items => write item ++ ',' :: writeItems items

def writeMembers : List (String × Json) → List Char
  | [] => ['\x7d']
  | [(key, value)] => quote key ++ ':' :: write value ++ ['\x7d']
  | (key, value) :: members => quote key ++ ':' :: write value ++ ',' :: writeMembers members

end

def render (j : Json) : String := String.ofList j.write

end Json
end Gatehouse

/-!
Media types of HTTP bodies, such as `application/json; charset=utf-8`.

`MediaType.read?` checks the form of the whole text, but keeps no parameters: what a body is depends
on type, subtype and suffix alone.
-/

namespace Gatehouse.Http

/-- Type, subtype and suffix in lower case. -/
structure MediaType where
  main : List Char
  sub : List Char
  /-- What follows the last plus sign of the subtype. -/
  suffix : Option (List Char)
  deriving DecidableEq, Repr

namespace MediaType

def isToken (c : Char) : Bool := c.isAlphanum || "!#$%&'*+-.^_`|~".toList.contains c

def isQuotable (c : Char) : Bool := 0x20 ≤ c.toNat && c.toNat < 0x7F

def pastQuote? : List Char → Option (List Char)
  | [] => none
  | c :: cs => if c = '"' then some cs else if isQuotable c then pastQuote? cs else none

/-- Goes past a value in quotes and the blanks after it. The first character belongs to the value
even if it is a quote. -/
def quotedValue? : List Char → Option (List Char)
  | [] => none
  | c :: cs =>
    if isQuotable c then
      match (pastQuote? cs).map fun rest => rest.dropWhile (· == ' ') with
      | some [] => some []
      | some (';' :: rest) => some rest
      | _ => none
    else none

def value? : List Char → Option (List Char)
  | '"' :: cs => quotedValue? cs
  | cs =>
    match cs.dropWhile isToken with
    | [] => some []
    | ';' :: rest => if (cs.takeWhile isToken).isEmpty then none else some rest
    | _ => none

/-- The text is a row of at most so many parameters. -/
def areParameters : Nat → List Char → Bool
  | _, [] => true
  | 0, _ :: _ => false
  | n + 1, c :: cs =>
    let cs := (c :: cs).dropWhile (· == ' ')
    match (cs.takeWhile isToken).isEmpty, cs.dropWhile isToken with
    | false, '=' :: rest =>
      match value? rest with
      | some rest => areParameters n rest
      | none => false
    | _, _ => false

/-- Subtype and suffix. A plus sign at the front starts no suffix. -/
def splitSuffix : List Char → List Char × Option (List Char)
  | [] => ([], none)
  | c :: cs =>
    let suffix := (cs.reverse.takeWhile (· != '+')).reverse
    if suffix.length < cs.length then
      (c :: cs.take (cs.length - suffix.length - 1), some suffix)
    else (c :: cs, none)

def lower (cs : List Char) : List Char := cs.map Char.toLower

def read? (cs : List Char) : Option MediaType :=
  let main := cs.takeWhile isToken
  match main.isEmpty, cs.dropWhile isToken with
  | false, '/' :: rest =>
    let whole := rest.takeWhile isToken
    let (sub, suffix) := splitSuffix (lower whole)
    let type : MediaType := ⟨lower main, sub, suffix⟩
    match rest.dropWhile isToken with
    | [] => some type
    | ';' :: parameters =>
      if !whole.isEmpty && areParameters (parameters.length + 1) parameters then some type else none
    | _ => none
  | _, _ => none

/-- The type of JSON texts, or one built on it. -/
def isJson (t : MediaType) : Bool :=
  t.main == "application".toList &&
    (t.sub == "json".toList || t.suffix == some "json".toList)

example : (read? "Application/vnd.x+JSON; v=\"1;2\" ;q=3".toList).map isJson = some true := by
  decide

example : (read? "application/json; charset".toList).map isJson = none := by decide

end MediaType
end Gatehouse.Http

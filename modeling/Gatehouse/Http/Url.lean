import Gatehouse.Http.Percent
import Gatehouse.Text.Split

/-!
What a URL asks of a server: the path and the query that are sent.

The rules are those of the URL standard for `http` and `https`: a backslash counts as a slash, `.`
and `..` segments are carried out, and characters that may not be sent are percent-coded.
-/

namespace Gatehouse.Http.Url

/-- A control character or a blank; these are left out at both ends of a URL. -/
def isEdge (c : Char) : Bool := c.toNat ≤ 0x20

def isIgnored (c : Char) : Bool := c == '\t' || c == '\n' || c == '\r'

def isSlash (c : Char) : Bool := c == '/' || c == '\\'

def isFragmentStart (c : Char) : Bool := c == '#'

/-- A character that is not sent as it is, neither in a path nor in a query. -/
def isUnsafe (c : Char) : Bool :=
  c.toNat ≤ 0x20 || 0x7E < c.toNat || "\"#<>".toList.contains c

def isCodedInPath (c : Char) : Bool := isUnsafe c || "?^`\x7b\x7d".toList.contains c

def isCodedInQuery (c : Char) : Bool := isUnsafe c || c == '\''

/-- The segment stands for a dot; it may be coded. -/
def dots? (segment : List Char) : Option Nat :=
  match segment.map Char.toLower with
  | ['.'] => some 1
  | ['%', '2', 'e'] => some 1
  | ['.', '.'] => some 2
  | ['.', '%', '2', 'e'] => some 2
  | ['%', '2', 'e', '.'] => some 2
  | ['%', '2', 'e', '%', '2', 'e'] => some 2
  | _ => none

/-- Carries segments out in turn after those kept so far, the last of these first. A dot segment at
the end leaves an empty one. -/
def walk : List (List Char) → List (List Char) → List (List Char)
  | kept, [] => kept
  | kept, segment :: rest =>
    match dots? segment with
    | none => walk (Percent.encode isCodedInPath segment :: kept) rest
    | some n =>
      let kept := kept.drop (n - 1)
      walk (if rest.isEmpty then [] :: kept else kept) rest

def pathSent (path : List Char) : List Char :=
  let segments :=
    Text.splitOn '/' ((if (path.headD ' ') == '/' then path.drop 1 else path))
  '/' :: Text.joinWith '/' (walk [] segments).reverse

/-- What follows scheme and colon, if the scheme is one of the two. -/
def afterScheme? (url : List Char) : Option (List Char) :=
  match url.dropWhile (· != ':') with
  | [] => none
  | _ :: rest =>
    let scheme := (url.takeWhile (· != ':')).map Char.toLower
    if scheme = "http".toList ∨ scheme = "https".toList then some rest else none

def target? (url : String) : Option String := do
  let cs := (Text.trimWith isEdge url.toList).filter fun c => !isIgnored c
  let rest ← afterScheme? (cs.takeWhile fun c => !isFragmentStart c)
  let place := (rest.dropWhile isSlash).dropWhile fun c => !isSlash c && c != '?'
  let path := (place.takeWhile (· != '?')).map fun c => if isSlash c then '/' else c
  let query := place.dropWhile (· != '?')
  return String.ofList (pathSent path ++
    match query with
    | [] => []
    | _ :: cs => '?' :: Percent.encode isCodedInQuery cs)

example : target? "http://h:80/a/../b c/./d?x y#z" = some "/b%20c/d?x%20y" := by decide +kernel

example : target? "http://h" = some "/" := by decide +kernel

example : target? "h/a" = none := by decide +kernel

end Gatehouse.Http.Url

/-!
The text of a YAML document, each character with its column, and what may stand between its parts.
-/

namespace Gatehouse.Config.Yaml

/-- The rest of a text; columns count from zero. -/
abbrev Source := List (Char × Nat)

namespace Source

def ofChars : Nat → List Char → Source
  | _, [] => []
  | column, c :: cs => (c, column) :: ofChars (if c = '\n' then 0 else column + 1) cs

/-- The text with line ends of one form. -/
def unifyBreaks : List Char → List Char
  | '\r' :: '\n' :: cs => '\n' :: unifyBreaks cs
  | '\r' :: cs => '\n' :: unifyBreaks cs
  | c :: cs => c :: unifyBreaks cs
  | [] => []

/-- A character that a document may hold. -/
def isAllowed (c : Char) : Bool :=
  let n := c.toNat
  n == 9 || n == 10 || n == 13 || (0x20 ≤ n && n ≤ 0x7E) || n == 0x85 ||
    (0xA0 ≤ n && n != 0xFFFE && n != 0xFFFF)

/-- The source of a text; nothing if it holds a character that no document may hold. -/
def ofText? (s : String) : Option Source :=
  let cs := s.toList
  let cs := if cs.head? = some '\ufeff' then cs.drop 1 else cs
  if cs.all isAllowed then some (ofChars 0 (unifyBreaks cs)) else none

def column : Source → Nat
  | [] => 0
  | (_, n) :: _ => n

def next? (s : Source) : Option Char := (List.head? s).map Prod.fst

def chars (s : Source) : List Char := s.map Prod.fst

def isGap (c : Char) : Bool := c == ' ' || c == '\t'

def dropChars (test : Char → Bool) (s : Source) : Source := s.dropWhile fun p => test p.1

def takeChars (test : Char → Bool) (s : Source) : List Char :=
  (s.takeWhile fun p => test p.1).map Prod.fst

def atGap (s : Source) : Bool :=
  match s.next? with
  | none => true
  | some c => isGap c || c == '\n'

def toLineEnd (s : Source) : Source := s.dropChars (· != '\n')

def restOfLine (s : Source) : Source :=
  let s := s.dropChars isGap
  if s.next? = some '#' then s.toLineEnd else s

/-- Goes from the start of a line past blank lines and comments. Lines are indented with blanks
only. -/
def lineStart : Nat → Source → Source
  | 0, s => s
  | fuel + 1, s =>
    let s := s.dropChars (· == ' ')
    let s := if s.next? = some '#' then s.toLineEnd else s
    match s with
    | ('\n', _) :: rest => lineStart fuel rest
    | s => s

/-- Goes past gaps, comments and line ends. -/
def toToken (s : Source) : Source :=
  match s.restOfLine with
  | ('\n', _) :: rest => lineStart rest.length rest
  | s => s

/-- Goes to what comes next if nothing more stands on the line. -/
def closeLine? (s : Source) : Option Source :=
  match s.restOfLine with
  | [] => some []
  | ('\n', _) :: rest => some (lineStart rest.length rest)
  | _ => none

/-- Goes past gaps, comments and line ends between brackets. -/
def toFlowToken : Nat → Source → Source
  | 0, s => s
  | fuel + 1, s =>
    match s.restOfLine with
    | ('\n', _) :: rest => toFlowToken fuel rest
    | s => s

/-- A marker of three characters stands at the start of the line. -/
def isMarker (c : Char) (s : Source) : Bool :=
  s.column == 0 && chars (s.take 3) == [c, c, c] && atGap (s.drop 3)

def atEnd (s : Source) : Bool := s.isEmpty || s.isMarker '-' || s.isMarker '.'

/-- An indicator that is one only before a gap. -/
def isIndicator (c : Char) (s : Source) : Bool := s.next? == some c && atGap (s.drop 1)

end Source
end Gatehouse.Config.Yaml

import Gatehouse.Config.Yaml.Node
import Gatehouse.Config.Yaml.Scalar
import Gatehouse.Config.Yaml.Text

/-!
Reading YAML documents: tables, lists and scalars, indented or in brackets.

A scalar's place in the text tells what may follow it; its form alone tells what it means. Tags
other than those of the common types are refused, as are keys that are no scalars. Every part of a
document is shorter than the document, so its length bounds the depth of reading.
-/

namespace Gatehouse.Config.Yaml

open Source

abbrev Fuel := Nat

structure Properties where
  tag : Option String := none
  /-- The name by which the value can be repeated. -/
  anchor : Option String := none

def Properties.mark (p : Properties) (n : Node) : Node :=
  match p.anchor with
  | some name => .anchored name n
  | none => n

def Properties.fits (p : Properties) (name : String) : Bool := p.tag.isNone || p.tag == some name

/-- Goes past an anchor and a tag, at most one of each. -/
def properties? : Nat → Properties → Source → Option (Properties × Source)
  | 0, p, s => some (p, s)
  | n + 1, p, s =>
    let isName := fun c => !isGap c && c != '\n'
    let word := String.ofList (s.takeChars isName)
    let rest := (s.dropChars isName).dropChars isGap
    match s.next? with
    | some '&' =>
      if p.anchor.isNone then properties? n { p with anchor := some ((word.drop 1).toString) } rest
      else none
    | some '!' => if p.tag.isNone then properties? n { p with tag := some word } rest else none
    | _ => some (p, s)

def tagged? (tag : Option String) (quoted : Bool) (cs : List Char) : Option Tree :=
  match tag with
  | none => some (if quoted then .text (String.ofList cs) else plainValue cs)
  | some "!" => some (.text (String.ofList cs))
  | some "!!str" => some (.text (String.ofList cs))
  | some "!!null" => match plainValue cs with | .null => some .null | _ => none
  | some "!!bool" => match plainValue cs with | .bool b => some (.bool b) | _ => none
  | some "!!int" => match plainValue cs with | .integer n => some (.integer n) | _ => none
  | some "!!float" =>
    match plainValue cs with
    | .integer _ => some .real
    | .real => some .real
    | _ => none
  | some _ => none

def Properties.scalar? (p : Properties) (quoted : Bool) (cs : List Char) : Option Node :=
  (tagged? p.tag quoted cs).map fun t => p.mark (.scalar t)

def reference? (s : Source) : Option (String × Source) :=
  match s with
  | ('*', _) :: rest =>
    let isName := fun (c : Char) => !isGap c && c != '\n' && !isFlowEnd c
    let name := takeChars isName rest
    if name.isEmpty then none else some (String.ofList name, dropChars isName rest)
  | _ => none

/-! ## In brackets -/

def flowScalar? (p : Properties) (s : Source) : Option (Node × Source) := do
  match quoted? s with
  | some (cs, s) => return (← p.scalar? true cs, s)
  | none =>
    if startsPlain true s then
      let (cs, s) := plain s.length ⟨true, true, 0⟩ s
      return (← p.scalar? false cs, s)
    else none

def flowKey? (s : Source) : Option (String × Source) :=
  match quoted? s with
  | some (cs, s) => some (String.ofList cs, s)
  | none =>
    if startsPlain true s then
      let (cs, s) := plain s.length ⟨true, true, 0⟩ s
      some (String.ofList cs, s)
    else none

def toFlow (s : Source) : Source := toFlowToken (s.length + 1) s

mutual

def flowNode? : Fuel → Source → Option (Node × Source)
  | 0, _ => none
  | fuel + 1, s => do
    let (p, s) ← properties? 2 {} s
    match s.next? with
    | some '[' =>
      if p.fits "!!seq" then
        let (items, s) ← flowItems? fuel (toFlow (s.drop 1))
        return (p.mark (.list items), s)
      else none
    | some '\x7b' =>
      if p.fits "!!map" then
        let (members, s) ← flowMembers? fuel (toFlow (s.drop 1))
        return (p.mark (.table members), s)
      else none
    | some '*' => (reference? s).map fun (name, s) => (.reference name, s)
    | _ => flowScalar? p s

/-- What stands up to the closing bracket of a list. A member in a list is a table of its own. -/
def flowItems? : Fuel → Source → Option (List Node × Source)
  | 0, _ => none
  | fuel + 1, s =>
    if s.next? = some ']' then some ([], s.drop 1)
    else do
      let member : Option (Node × Source) := do
        let (key, rest) ← flowKey? s
        let rest := toFlow rest
        if rest.next? = some ':' then
          let (value, rest) ← flowValue? fuel (toFlow (rest.drop 1))
          return (.table [(key, value)], rest)
        else none
      let (item, s) ← member <|> flowNode? fuel s
      let s := toFlow s
      match s.next? with
      | some ',' => (flowItems? fuel (toFlow (s.drop 1))).map fun (items, s) => (item :: items, s)
      | some ']' => some ([item], s.drop 1)
      | _ => none

def flowMembers? : Fuel → Source → Option (List (String × Node) × Source)
  | 0, _ => none
  | fuel + 1, s =>
    if s.next? = some '\x7d' then some ([], s.drop 1)
    else do
      let (key, s) ← flowKey? s
      let s := toFlow s
      let (value, s) ←
        if s.next? = some ':' then flowValue? fuel (toFlow (s.drop 1)) else some (.nothing, s)
      let s := toFlow s
      match s.next? with
      | some ',' =>
        (flowMembers? fuel (toFlow (s.drop 1))).map fun (members, s) => ((key, value) :: members, s)
      | some '\x7d' => some ([(key, value)], s.drop 1)
      | _ => none

/-- A value between brackets that may be left out. -/
def flowValue? : Fuel → Source → Option (Node × Source)
  | 0, _ => none
  | fuel + 1, s =>
    match s.next? with
    | some ',' => some (.nothing, s)
    | some ']' => some (.nothing, s)
    | some '\x7d' => some (.nothing, s)
    | _ => flowNode? fuel s

end

/-! ## Indented -/

def key? (s : Source) : Option (String × Source) :=
  let (cs, rest) :=
    match quoted? s with
    | some (cs, rest) => (cs, rest.dropChars isGap)
    | none => if startsPlain false s then plain s.length ⟨false, false, 0⟩ s else ([], [])
  if rest.isIndicator ':' && !(s.take (s.length - rest.length)).any (·.1 == '\n') then
    some (String.ofList cs, rest.drop 1)
  else none

/-- A value on which its line ends. -/
def closed? (found : Option (Node × Source)) : Option (Node × Source) := do
  let (n, s) ← found
  return (n, ← closeLine? s)

/-- A scalar or a bracketed value that starts on this line; nothing may follow it on its last
line. -/
def leaf? (p : Properties) (least : Nat) (s : Source) : Option (Node × Source) :=
  let block : Option (Node × Source) := do
    let (cs, s) ← block? least s
    return (← p.scalar? true cs, s)
  let bracketed (tag : String) : Option (Node × Source) :=
    if p.fits tag then closed? ((flowNode? (2 * s.length) s).map fun (n, s) => (p.mark n, s))
    else none
  match s.next? with
  | some '[' => bracketed "!!seq"
  | some '\x7b' => bracketed "!!map"
  | some '|' => block
  | some '>' => block
  | some '*' => closed? ((reference? s).map fun (name, s) => (.reference name, s))
  | _ =>
    match quoted? s with
    | some (cs, s) => closed? ((p.scalar? true cs).map (·, s))
    | none =>
      if startsPlain false s then
        let (cs, s) := plain s.length ⟨false, true, least⟩ s
        closed? ((p.scalar? false cs).map (·, s))
      else none

def isLineDone (s : Source) : Bool :=
  match s.restOfLine with
  | [] => true
  | (c, _) :: _ => c == '\n'

mutual

def node? : Fuel → Nat → Source → Option (Node × Source)
  | 0, _, _ => none
  | fuel + 1, least, s =>
    if s.isIndicator '-' then
      (items? fuel s.column s).map fun (items, s) => (.list items, s)
    else if (key? s).isSome then
      (members? fuel s.column s).map fun (members, s) => (.table members, s)
    else do
      let (p, rest) ← properties? 2 {} s
      if isLineDone rest then below? fuel p least (toToken rest)
      else leaf? p least rest

/-- The value after a key or a dash whose line holds nothing more. It is nothing if the next line is
not indented enough. -/
def below? : Fuel → Properties → Nat → Source → Option (Node × Source)
  | 0, _, _, _ => none
  | fuel + 1, p, least, s =>
    if s.atEnd || s.column < least then (p.scalar? false []).map (·, s)
    else if p.fits "!!map" || p.fits "!!seq" then
      (node? fuel least s).map fun (n, s) => (p.mark n, s)
    else leaf? p least s

/-- The items of a list whose dashes stand in a column. -/
def items? : Fuel → Nat → Source → Option (List Node × Source)
  | 0, _, _ => none
  | fuel + 1, column, s =>
    if !s.atEnd && s.column = column && s.isIndicator '-' then do
      let rest := s.drop 1
      let (item, s) ←
        if isLineDone rest then below? fuel {} (column + 1) (toToken rest)
        else node? fuel (column + 1) (dropChars isGap rest)
      (items? fuel column s).map fun (items, s) => (item :: items, s)
    else some ([], s)

def members? : Fuel → Nat → Source → Option (List (String × Node) × Source)
  | 0, _, _ => none
  | fuel + 1, column, s => do
    let (key, rest) ← key? s
    let (value, s) ← value? fuel column rest
    if s.atEnd || s.column < column then return ([(key, value)], s)
    else if s.column = column then
      (members? fuel column s).map fun (members, s) => ((key, value) :: members, s)
    else none

/-- The value after a colon. A list may stand in the column of its key. -/
def value? : Fuel → Nat → Source → Option (Node × Source)
  | 0, _, _ => none
  | fuel + 1, column, s => do
    let (p, rest) ← properties? 2 {} (s.dropChars isGap)
    if isLineDone rest then
      let next := toToken rest
      if !next.atEnd && next.column = column && next.isIndicator '-' && p.fits "!!seq" then
        (items? fuel column next).map fun (items, s) => (p.mark (.list items), s)
      else below? fuel p (column + 1) next
    else leaf? p (column + 1) rest

end

/-! ## Documents -/

def directives : Fuel → Source → Source
  | 0, s => s
  | fuel + 1, s =>
    if s.next? = some '%' && s.column == 0 then directives fuel (toToken s.toLineEnd) else s

/-- After the document nothing comes but its end. -/
def endsText (s : Source) : Bool :=
  if s.isMarker '.' then (toToken (s.drop 3)).isEmpty else s.isEmpty

/-- Reads a text that holds one document or none. -/
def read? (text : String) : Option (Option Tree) := do
  let whole (found : Option (Node × Source)) : Option (Option Tree) := do
    let (n, rest) ← found
    if endsText rest then n.tree?.map some else none
  let s ← ofText? text
  let fuel := 2 * s.length + 2
  let start := directives fuel (lineStart fuel s)
  let marked := start.isMarker '-'
  let body := if marked then start.drop 3 else start
  if isLineDone body then
    let body := toToken body
    if body.atEnd then
      if endsText body then return none else none
    else whole (node? fuel 0 body)
  else if marked then whole (leaf? {} 0 (dropChars isGap body))
  else whole (node? fuel 0 body)

end Gatehouse.Config.Yaml

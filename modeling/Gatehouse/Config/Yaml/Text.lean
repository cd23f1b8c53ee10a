import Gatehouse.Config.Yaml.Source
import Gatehouse.Text.Numeral

/-!
The texts in a YAML document: in quotes, without quotes, and as blocks of lines.

A text over several lines is folded: one line end becomes a blank, and of more the first is left
out.
-/

namespace Gatehouse.Config.Yaml

open Source

/-- What a number of line ends in a folded text becomes. -/
def foldedBreaks (n : Nat) : List Char :=
  if n = 1 then [' '] else List.replicate (n - 1) '\n'

/-- Counts line ends, with the gaps around them, and goes past them. -/
def breaks : Nat → Source → Nat × Source
  | 0, s => (0, s)
  | fuel + 1, s =>
    match s.dropChars isGap with
    | ('\n', _) :: rest =>
      let (n, rest) := breaks fuel rest
      (n + 1, rest)
    | s => (0, s)

/-! ## In quotes -/

def single? : Nat → Source → Option (List Char × Source)
  | 0, _ => none
  | fuel + 1, s =>
    match s with
    | [] => none
    | ('\'', _) :: ('\'', _) :: rest => (single? fuel rest).map fun (cs, s) => ('\'' :: cs, s)
    | ('\'', _) :: rest => some ([], rest)
    | (c, _) :: rest =>
      match breaks s.length s with
      | (0, _) => (single? fuel rest).map fun (cs, s) => (c :: cs, s)
      | (n, rest) => (single? fuel rest).map fun (cs, s) => (foldedBreaks n ++ cs, s)

def escape? (c : Char) : Option Char :=
  [('0', '\x00'), ('a', '\x07'), ('b', '\x08'), ('t', '\t'), ('\t', '\t'), ('n', '\n'),
    ('v', '\x0b'), ('f', '\x0c'), ('r', '\r'), ('e', '\x1b'), (' ', ' '), ('"', '"'), ('/', '/'),
    ('\\', '\\'), ('N', '\u0085'), ('_', '\u00a0'), ('L', '\u2028'), ('P', '\u2029')].lookup c

def escapeWidth? (c : Char) : Option Nat := [('x', 2), ('u', 4), ('U', 8)].lookup c

def charOf? (n : Nat) : Option Char := if n.isValidChar then some (Char.ofNat n) else none

def double? : Nat → Source → Option (List Char × Source)
  | 0, _ => none
  | fuel + 1, s =>
    match s with
    | [] => none
    | ('"', _) :: rest => some ([], rest)
    | ('\\', _) :: ('\n', _) :: rest =>
      let (n, rest) := breaks rest.length rest
      (double? fuel rest).map fun (cs, s) => (List.replicate n '\n' ++ cs, s)
    | ('\\', _) :: (c, _) :: rest =>
      match escape? c, escapeWidth? c with
      | some e, _ => (double? fuel rest).map fun (cs, s) => (e :: cs, s)
      | none, some width => do
        let e ← charOf? (← Text.natIn? 16 (chars (rest.take width)))
        if (rest.take width).length = width then
          (double? fuel (rest.drop width)).map fun (cs, s) => (e :: cs, s)
        else none
      | none, none => none
    | (c, _) :: rest =>
      match breaks s.length s with
      | (0, _) => (double? fuel rest).map fun (cs, s) => (c :: cs, s)
      | (n, rest) => (double? fuel rest).map fun (cs, s) => (foldedBreaks n ++ cs, s)

def quoted? (s : Source) : Option (List Char × Source) :=
  match s with
  | ('\'', _) :: rest => single? s.length rest
  | ('"', _) :: rest => double? s.length rest
  | _ => none

/-! ## Without quotes -/

def isFlowEnd (c : Char) : Bool := ",[]\x7b\x7d".toList.contains c

/-- A character that starts something else than a text. -/
def isReserved (c : Char) : Bool := ",[]\x7b\x7d#&*!|>'\"%@`".toList.contains c

/-- A text without quotes may start here. -/
def startsPlain (flow : Bool) (s : Source) : Bool :=
  match s.next? with
  | none => false
  | some c =>
    if c == '-' then !atGap (s.drop 1)
    else if c == '?' || c == ':' then !flow && !atGap (s.drop 1)
    else !isReserved c && !isGap c && c != '\n'

structure PlainPlace where
  /-- Between brackets. -/
  flow : Bool
  /-- The text may go on on the next lines. -/
  long : Bool
  /-- The first column of further lines. -/
  least : Nat

/-- The text goes on on this line, which comes after a line end. -/
def PlainPlace.goesOn (p : PlainPlace) (s : Source) : Bool :=
  p.long && (p.flow || p.least ≤ s.column) && !atEnd s && s.next? != some '#'

/-- The text ends before this character. -/
def PlainPlace.stops (p : PlainPlace) (s : Source) : Bool :=
  match s with
  | [] => true
  | (c, _) :: rest => (c == ':' && atGap rest) || (p.flow && isFlowEnd c)

def plain : Nat → PlainPlace → Source → List Char × Source
  | 0, _, s => ([], s)
  | fuel + 1, p, s =>
    if p.stops s then ([], s)
    else
      let gap := s.takeChars isGap
      match s.dropChars isGap with
      | [] => ([], [])
      | ('\n', column) :: rest =>
        let (n, next) := breaks rest.length rest
        if p.goesOn next then
          let (cs, s) := plain fuel p next
          (if cs.isEmpty then (cs, s) else (foldedBreaks (n + 1) ++ cs, s))
        else ([], ('\n', column) :: rest)
      | (c, column) :: rest =>
        let s := (c, column) :: rest
        if !gap.isEmpty && (c == '#' || p.stops s) then ([], s)
        else
          let (cs, s) := plain fuel p rest
          (gap ++ c :: cs, s)

/-! ## Blocks of lines -/

/-- What happens to the line ends at the end of a block. -/
inductive Chomp where
  | clip
  | strip
  | keep
  deriving DecidableEq, Repr

structure BlockHeader where
  folded : Bool
  chomp : Chomp := .clip
  /-- The indentation over that of the parent, if it is given. -/
  indent : Option Nat := none

/-- Reads the mark of a block and the line it stands on. -/
def blockHeader? (s : Source) : Option (BlockHeader × Source) :=
  match s with
  | [] => none
  | (mark, _) :: rest =>
    let signs := chars (rest.takeWhile fun p => p.1 != ' ' && p.1 != '\t' && p.1 != '\n')
    let blank : BlockHeader := { folded := mark == '>' }
    let take (h : BlockHeader) (c : Char) : Option BlockHeader :=
      if c == '-' && h.chomp = .clip then some { h with chomp := .strip }
      else if c == '+' && h.chomp = .clip then some { h with chomp := .keep }
      else
        match Text.digit? c with
        | some (n + 1) => if h.indent.isNone then some { h with indent := some (n + 1) } else none
        | _ => none
    match signs.foldlM take blank, restOfLine (rest.drop signs.length) with
    | some h, [] => some (h, [])
    | some h, ('\n', _) :: rest => some (h, rest)
    | _, _ => none

/-- The lines of a block without their indentation, whether the last one ends, and what follows. -/
def blockLines : Nat → Nat → Source → List (List Char) × Bool × Source
  | 0, _, s => ([], true, s)
  | fuel + 1, indent, s =>
    let line := s.takeChars (· != '\n')
    let blank := line.all (· == ' ')
    let lead := (line.takeWhile (· == ' ')).length
    if s.isEmpty then ([], true, s)
    else if blank || indent ≤ lead then
      match s.dropChars (· != '\n') with
      | [] => ([line.drop indent], false, [])
      | _ :: rest =>
        let (lines, ended, s) := blockLines fuel indent rest
        (line.drop indent :: lines, ended, s)
    else ([], true, s)

/-- The indentation of the first line that is not blank. -/
def firstIndent : Nat → Source → Nat
  | 0, _ => 0
  | fuel + 1, s =>
    let rest := s.dropChars (· == ' ')
    match rest with
    | ('\n', _) :: rest => firstIndent fuel rest
    | s => s.column

/-- A line of a block that is kept on a line of its own. -/
def isKept (line : List Char) : Bool :=
  match line with
  | [] => true
  | c :: _ => isGap c

/-- Folds lines: line ends between two lines of text become a blank. -/
def foldLines : List (List Char) → List Char
  | [] => []
  | [line] => line
  | line :: next :: lines =>
    let rest := foldLines (next :: lines)
    if isKept line && !line.isEmpty then line ++ '\n' :: rest
    else if line.isEmpty then '\n' :: rest
    else if next.isEmpty then line ++ foldEmpty (next :: lines) rest
    else if isKept next then line ++ '\n' :: rest
    else line ++ ' ' :: rest
where
  /-- Between a line of text and one that is kept the line end itself stays. -/
  foldEmpty (lines : List (List Char)) (rest : List Char) : List Char :=
    match lines.find? fun l => !l.isEmpty with
    | some l => if isKept l then '\n' :: rest else rest
    | none => rest

def blockText (h : BlockHeader) (lines : List (List Char)) (ended : Bool) : List Char :=
  let body := (lines.reverse.dropWhile List.isEmpty).reverse
  let blanks := lines.length - body.length
  let text := if h.folded then foldLines body else (body.intersperse ['\n']).flatten
  let final := if body.isEmpty || (blanks = 0 && !ended) then [] else ['\n']
  match h.chomp with
  | .strip => text
  | .clip => text ++ final
  | .keep => text ++ final ++ List.replicate blanks '\n'

/-- A block, of lines indented at least as given, and the next line that is none of it. -/
def block? (least : Nat) (s : Source) : Option (List Char × Source) := do
  let (h, s) ← blockHeader? s
  let indent :=
    match h.indent with
    | some n => least - 1 + n
    | none => max least (firstIndent s.length s)
  let (lines, ended, rest) := blockLines s.length indent s
  return (blockText h lines ended, lineStart rest.length rest)

end Gatehouse.Config.Yaml

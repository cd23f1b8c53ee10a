import Gatehouse.Json.Numeral
import Gatehouse.Text.Hex

/-!
What a JSON text looks like to a reader who goes through it once, from left to right.

A text may break off or go wrong at some place. It is still read up to there: the place itself is a
`broken` node, and every list or object around it is marked as not closed. So a reader of typed
values meets the faults of a text in the order in which they stand in it.
-/

namespace Gatehouse.Json

inductive Node where
  | null
  | bool (value : Bool)
  /-- A number written without point and exponent, and not as `-0`. -/
  | integer (value : Int)
  | real
  | text (value : String)
  /-- A string whose escapes or bytes are no characters, or a number beyond all doubles. -/
  | garbled (halt : Halt)
  | array (items : List Node) (closed : Bool)
  | object (members : List (Option String × Node)) (closed : Bool)
  /-- Here the text stops being JSON. -/
  | broken

/-- The text of the node is JSON to its end. -/
def Node.isSound : Node → Bool
  | array _ closed => closed
  | object _ closed => closed
  | broken => false
  | _ => true

namespace Scan

def byte (c : Char) : UInt8 := UInt8.ofNat c.toNat

def isSpace (b : UInt8) : Bool := b == 0x20 || b == 0x0A || b == 0x0D || b == 0x09

def skipSpace (bs : List UInt8) : List UInt8 := bs.dropWhile isSpace

def isDigit (b : UInt8) : Bool := 0x30 ≤ b && b ≤ 0x39

/-- A part of a string: a byte as it stands, or the number of a `\u` escape. -/
inductive Piece where
  | raw (b : UInt8)
  | code (n : Nat)

def simpleEscape? (b : UInt8) : Option UInt8 :=
  if b = byte '"' then some b
  else if b = byte '\\' then some b
  else if b = byte '/' then some b
  else if b = byte 'b' then some 0x08
  else if b = byte 'f' then some 0x0C
  else if b = byte 'n' then some 0x0A
  else if b = byte 'r' then some 0x0D
  else if b = byte 't' then some 0x09
  else none

def hexByte? (b : UInt8) : Option Nat := Text.Hex.value? (Char.ofNat b.toNat)

def hexQuad? (a b c d : UInt8) : Option Nat := do
  let a ← hexByte? a
  let b ← hexByte? b
  let c ← hexByte? c
  let d ← hexByte? d
  return ((a * 16 + b) * 16 + c) * 16 + d

/-- The pieces up to the closing quote, and what follows it. -/
def pieces : List UInt8 → Option (List Piece × List UInt8)
  | [] => none
  | b :: bs =>
    if b = byte '"' then some ([], bs)
    else if b = byte '\\' then
      match bs with
      | [] => none
      | e :: bs =>
        match simpleEscape? e with
        | some v => (pieces bs).map fun (ps, rest) => (.raw v :: ps, rest)
        | none =>
          if e = byte 'u' then
            match bs with
            | h1 :: h2 :: h3 :: h4 :: bs =>
              match hexQuad? h1 h2 h3 h4 with
              | some n => (pieces bs).map fun (ps, rest) => (.code n :: ps, rest)
              | none => none
            | _ => none
          else none
    else if b < 0x20 then none
    else (pieces bs).map fun (ps, rest) => (.raw b :: ps, rest)

def isHighHalf (n : Nat) : Bool := 0xD800 ≤ n && n < 0xDC00

def isLowHalf (n : Nat) : Bool := 0xDC00 ≤ n && n < 0xE000

/-- The bytes of the pieces; a high half must be followed at once by a low half, and no low half
stands alone. A high half is given up behind the byte that should be a backslash, which may be the
closing quote. -/
def assemble : List Piece → Except Halt (List UInt8)
  | [] => .ok []
  | .raw b :: ps => (assemble ps).map (b :: ·)
  | .code n :: ps =>
    if isHighHalf n then
      match ps with
      | [] => .error .behind
      | .code m :: ps =>
        if isLowHalf m then
          let c := Char.ofNat (0x10000 + (n - 0xD800) * 0x400 + (m - 0xDC00))
          (assemble ps).map (String.utf8EncodeChar c ++ ·)
        else .error .within
      | .raw _ :: _ => .error .within
    else if isLowHalf n then .error .within
    else (assemble ps).map (String.utf8EncodeChar (Char.ofNat n) ++ ·)

def textOf? (bytes : List UInt8) : Option String := String.fromUTF8? ⟨bytes.toArray⟩

/-- The text of some pieces. Whether their bytes are characters is looked at last. -/
def textOf (ps : List Piece) : Except Halt String :=
  match assemble ps with
  | .error halt => .error halt
  | .ok bytes =>
    match textOf? bytes with
    | some s => .ok s
    | none => .error .behind

def quoted (bs : List UInt8) : Option (Except Halt String × List UInt8) :=
  (pieces bs).map fun (ps, rest) => (textOf ps, rest)

def stringNode : Except Halt String → Node
  | .ok s => .text s
  | .error halt => .garbled halt

def digitValues (ds : List UInt8) : List Nat := ds.map fun d => d.toNat - 48

def digitsValue (ds : List UInt8) : Nat := ds.foldl (fun n d => n * 10 + (d.toNat - 48)) 0

/-- The digits behind a point or an exponent letter, of which there must be some. -/
def someDigits (bs : List UInt8) : Option (List UInt8 × List UInt8) :=
  let digits := bs.takeWhile isDigit
  if digits.isEmpty then none else some (digits, bs.dropWhile isDigit)

/-- The exponent of a number, if there is one: whether it is negative, and its digits. -/
def exponentPart (bs : List UInt8) : Option (Option (Bool × List UInt8) × List UInt8) :=
  match bs with
  | b :: bs' =>
    if b = byte 'e' ∨ b = byte 'E' then
      match bs' with
      | s :: bs'' =>
        (if s = byte '+' ∨ s = byte '-' then someDigits bs'' else someDigits bs').map
          fun (digits, rest) => (some (s == byte '-', digits), rest)
      | [] => none
    else some (none, bs)
  | [] => some (none, [])

/-- The digits of the fraction of a number, none if there is no point. -/
def fractionPart (bs : List UInt8) : Option (List UInt8 × List UInt8) :=
  match bs with
  | b :: bs' => if b = byte '.' then someDigits bs' else some ([], bs)
  | [] => some ([], [])

/-- A number after its sign. No digit may follow a leading zero. -/
def number (negative : Bool) (bs : List UInt8) : Node × List UInt8 :=
  let whole := bs.takeWhile isDigit
  let lone := whole.length = 1 ∨ whole.head? ≠ some (byte '0')
  if whole ≠ [] ∧ lone then
    match fractionPart (bs.dropWhile isDigit) with
    | none => (.broken, [])
    | some (fraction, bs) =>
      match exponentPart bs with
      | none => (.broken, [])
      | some (exponent, bs) =>
        let n := digitsValue whole
        if !fraction.isEmpty || exponent.isSome || (negative && n == 0) then
          let numeral : Numeral :=
            ⟨digitValues whole, digitValues fraction, exponent.map fun e => (e.1, digitValues e.2)⟩
          match numeral.halt? with
          | none => (.real, bs)
          | some halt => (.garbled halt, bs)
        else (.integer (if negative then -(n : Int) else n), bs)
  else (.broken, [])

def word (rest : List Char) (node : Node) (bs : List UInt8) : Node × List UInt8 :=
  let expected := rest.map byte
  if bs.take expected.length = expected then (node, bs.drop expected.length) else (.broken, [])

/-- Every recursive call leaves out at least the byte it has looked at, so the length of the text
bounds the depth. -/
abbrev Fuel := Nat

mutual

/-- The value at the front of the text, and what follows it. -/
def value : Fuel → List UInt8 → Node × List UInt8
  | 0, _ => (.broken, [])
  | fuel + 1, bs =>
    match skipSpace bs with
    | [] => (.broken, [])
    | b :: bs =>
      if b = byte '"' then
        match quoted bs with
        | some (s, rest) => (stringNode s, rest)
        | none => (.broken, [])
      else if b = byte '[' then
        match skipSpace bs with
        | [] => (.array [] false, [])
        | c :: rest =>
          if c = byte ']' then (.array [] true, rest)
          else
            let (items, closed, rest) := items fuel (c :: rest)
            (.array items closed, rest)
      else if b = byte '\x7b' then
        match skipSpace bs with
        | [] => (.object [] false, [])
        | c :: rest =>
          if c = byte '\x7d' then (.object [] true, rest)
          else
            let (members, closed, rest) := members fuel (c :: rest)
            (.object members closed, rest)
      else if b = byte 'n' then word ['u', 'l', 'l'] .null bs
      else if b = byte 't' then word ['r', 'u', 'e'] (.bool true) bs
      else if b = byte 'f' then word ['a', 'l', 's', 'e'] (.bool false) bs
      else if b = byte '-' then number true bs
      else if isDigit b then number false (b :: bs)
      else (.broken, [])

def items : Fuel → List UInt8 → List Node × Bool × List UInt8
  | 0, _ => ([], false, [])
  | fuel + 1, bs =>
    let (item, rest) := value fuel bs
    if item.isSound then
      match skipSpace rest with
      | [] => ([item], false, [])
      | b :: rest =>
        if b = byte ']' then ([item], true, rest)
        else if b = byte ',' then
          let (more, closed, rest) := items fuel rest
          (item :: more, closed, rest)
        else ([item], false, [])
    else ([item], false, [])

def members : Fuel → List UInt8 → List (Option String × Node) × Bool × List UInt8
  | 0, _ => ([], false, [])
  | fuel + 1, bs =>
    match skipSpace bs with
    | [] => ([], false, [])
    | b :: bs =>
      if b = byte '"' then
        match quoted bs with
        | none => ([], false, [])
        | some (key, rest) =>
          match skipSpace rest with
          | [] => ([(key.toOption, .broken)], false, [])
          | b :: rest =>
            if b = byte ':' then
              let (item, rest) := value fuel rest
              if item.isSound then
                match skipSpace rest with
                | [] => ([(key.toOption, item)], false, [])
                | b :: rest =>
                  if b = byte '\x7d' then ([(key.toOption, item)], true, rest)
                  else if b = byte ',' then
                    let (more, closed, rest) := members fuel rest
                    ((key.toOption, item) :: more, closed, rest)
                  else ([(key.toOption, item)], false, [])
              else ([(key.toOption, item)], false, [])
            else ([(key.toOption, .broken)], false, [])
      else ([], false, [])

end

end Scan

/-- A whole text: its value, and whether only blanks follow that. -/
structure Document where
  root : Node
  ended : Bool

def Document.ofBytes (bytes : List UInt8) : Document :=
  let (root, rest) := Scan.value (bytes.length + 1) bytes
  ⟨root, (Scan.skipSpace rest).isEmpty⟩

def Document.ofString (s : String) : Document := Document.ofBytes s.toUTF8.toList

end Gatehouse.Json

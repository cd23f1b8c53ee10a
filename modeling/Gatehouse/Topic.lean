import Gatehouse.Text.Split

/-!
Addresses of messages: a channel, and within it an optional dotted subtopic.

A message is known locally by its `endpoint` and on the broker by its `subject`. Requests write the
subtopic with slashes; `normalize` turns that into the dotted form.
-/

namespace Gatehouse.Topic

/-- The address local observers register under; it keeps the dot before an empty subtopic. -/
def endpoint (channel subtopic : String) : String := channel ++ "." ++ subtopic

/-- The address on the broker; an empty subtopic leaves no trace. -/
def subject (channel subtopic : String) : String :=
  if subtopic.isEmpty then "channels." ++ channel else "channels." ++ channel ++ "." ++ subtopic

inductive Fault where
  | emptySegment
  | wildcard
  deriving DecidableEq, Repr

def Fault.message : Fault → String
  | .emptySegment => "subtopic contains an empty segment"
  | .wildcard => "subtopic contains a wildcard"

/-- A segment is wild if it could stand for several subjects on the broker. -/
def isWild (segment : List Char) : Bool := segment.contains '*' || segment.contains '>'

/-- Finds the first bad segment; within one segment emptiness is the only test before wildness. -/
def checkSegments : List (List Char) → Except Fault Unit
  | [] => .ok ()
  | segment :: segments =>
    if segment.isEmpty then .error .emptySegment
    else if isWild segment then .error .wildcard
    else checkSegments segments

/-- The segments of a path, slashes at its ends left out; no segments for a path without text. -/
def segments (path : List Char) : List (List Char) :=
  let inner := Text.trimWith (· == '/') path
  if inner.isEmpty then [] else Text.splitOn '/' inner

def normalizeChars (path : List Char) : Except Fault (List Char) :=
  match checkSegments (segments path) with
  | .error fault => .error fault
  | .ok () => .ok (Text.joinWith '.' (segments path))

def normalize (path : String) : Except Fault String :=
  (normalizeChars path.toList).map String.ofList

end Gatehouse.Topic

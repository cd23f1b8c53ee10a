import Gatehouse.Json.Node

/-!
Reading a value of any shape.

A reader who gives up a value stands somewhere in the text. A list or an object that is given up at
its last value is still closed if the reader stands behind that. In the middle of a value there is
nothing that a list or an object could go on with, a string apart. A reader who is lost in a string
may go on with what stands there, but takes every quote that closes a string for one that opens it,
and so does not come to the end of the text.
-/

namespace Gatehouse.Json.Node

/-- Where a list or an object is given up, from where its values are. -/
def enclosingHalt? : List (Option Halt) → Option Halt
  | [] => none
  | none :: values => enclosingHalt? values
  | [some halt] => some halt
  | some _ :: _ => some .within

/-- Where a reader of any value gives up, if it does. It opens `depth` lists and objects in each
other and no more. -/
def halt? : Nat → Node → Option Halt
  | depth + 1, array items closed =>
    if closed then enclosingHalt? (items.map fun item => halt? depth item) else some .within
  | depth + 1, object members closed =>
    if closed then
      enclosingHalt? (members.map fun m => if m.1.isSome then halt? depth m.2 else some .within)
    else some .within
  | 0, array _ _ => some .within
  | 0, object _ _ => some .within
  | _, integer n => (Numeral.ofNat n.natAbs).halt?
  | _, garbled halt => some halt
  | _, broken => some .within
  | _, _ => none

/-- A reader of numbers does not look into lists and objects. -/
def numberHalt? : Node → Option Halt
  | array items _ => if items.isEmpty then none else some .within
  | object members _ => if members.isEmpty then none else some .within
  | node => halt? 0 node

end Gatehouse.Json.Node

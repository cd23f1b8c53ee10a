import Gatehouse.Json.Value
import Gatehouse.Json.Reader
import Gatehouse.Topic

/-!
Messages: what a thing publishes on a channel, and its written form on the broker.
-/

namespace Gatehouse

structure Message where
  channel : String
  /-- Dotted; empty for none. -/
  subtopic : String := ""
  /-- The thing that published the message. -/
  publisher : String := ""
  /-- The protocol the message came over. -/
  protocol : String := ""
  payload : List UInt8 := []
  /-- Nanoseconds since the start of 1970. -/
  created : Int := 0
  deriving DecidableEq, Repr

namespace Message

def endpoint (m : Message) : String := Topic.endpoint m.channel m.subtopic

def subject (m : Message) : String := Topic.subject m.channel m.subtopic

def toJson (m : Message) : Json :=
  .object (
    [("channel", .text m.channel)] ++
    (if m.subtopic.isEmpty then [] else [("subtopic", .text m.subtopic)]) ++
    [("publisher", .text m.publisher), ("protocol", .text m.protocol),
      ("payload", .array (m.payload.map fun b => .integer b.toNat)),
      ("created", .integer m.created)])

/-- A message of which some fields have been read. -/
structure Draft where
  channel : Option String := none
  subtopic : Option String := none
  publisher : Option String := none
  protocol : Option String := none
  payload : Option (List UInt8) := none
  created : Option Int := none

open Json.Read in
def fields : List (RecordField Draft) := [
  .slot "channel" Draft.channel (fun d v => { d with channel := v }) text,
  .slot "subtopic" Draft.subtopic (fun d v => { d with subtopic := v }) text,
  .slot "publisher" Draft.publisher (fun d v => { d with publisher := v }) text,
  .slot "protocol" Draft.protocol (fun d v => { d with protocol := v }) text,
  .slot "payload" Draft.payload (fun d v => { d with payload := v })
    (list fun node => (natural 255 node).map UInt8.ofNat),
  .slot "created" Draft.created (fun d v => { d with created := v }) signed64]

def Draft.finish (d : Draft) : Except Json.Fault Message := do
  return {
    channel := ← Json.Read.required d.channel
    subtopic := d.subtopic.getD ""
    publisher := d.publisher.getD ""
    protocol := d.protocol.getD ""
    payload := d.payload.getD []
    created := d.created.getD 0 }

def read : Json.Node → Except Json.Fault Message := Json.Read.record fields {} Draft.finish

end Message
end Gatehouse

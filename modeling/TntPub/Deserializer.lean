import TntPub.Header
import TntPub.Framing

namespace TntPub

open Framing

/-- Conversion of a `size_t` to an `unsigned` parameter. -/
def toUnsigned (n : Nat) : Nat := n % 2 ^ 32

/-- The check both formats make on a header, `dataOffset() > messageLength() ||
!isValidType(_type)`: the type of the message unless it is corrupt. -/
def checkHeader (type : UInt8) (messageLength dataOffset : UInt32) : Option MessageType :=
  match MessageType.ofChar type with
  | none => none
  | some type => if messageLength < dataOffset || !isValidType type then none else some type

def Header.message (header : Header) (type : MessageType) (buffer : Bytes) : DataMessage where
  type := type
  topic :=
    { main := readString buffer header.topicOffset header.topicLength.toUInt32
      sub := readString buffer header.subtopicOffset header.subtopicLength.toUInt32 }
  source := readString buffer header.sourceOffset header.sourceLength.toUInt32
  serial := header.serial
  createDateTime := header.createDateTime
  data := readString buffer header.dataOffset header.dataLength

def Header1.message (header : Header1) (type : MessageType) (buffer : Bytes) : DataMessage where
  type := type
  topic := { main := readString buffer header.topicOffset header.topicLength.toUInt32 }
  source := []
  serial := header.serial
  createDateTime := header.createDateTime
  data := readString buffer header.dataOffset header.dataLength

def parseCurrent (buffer : Bytes) (bufsize : Nat) : Front DataMessage Exception :=
  if bufsize < Header.sizeof then .incomplete
  else
    let header := Header.ofBuffer buffer
    match checkHeader header.type header.messageLength header.dataOffset with
    | none => .fail .corruptMessage
    | some type =>
      if bufsize < header.messageLength.toNat then .incomplete
      else .frame (header.message type buffer) header.messageLength.toNat

def parseOld (buffer : Bytes) (bufsize : Nat) : Front DataMessage Exception :=
  let header := Header1.ofBuffer buffer
  match checkHeader header.type header.messageLength header.dataOffset with
  | none => .fail .corruptMessage
  | some type =>
    if bufsize < header.messageLength.toNat then .incomplete
    else .frame (header.message type buffer) header.messageLength.toNat

/-- `DataMessageDeserializer::processMessage(buffer, bufsize, cb)` up to the callback:
return zero, throw, or build the message and go on behind it. -/
def parseMessage (version1Flag : Bool) (buffer : Bytes) (bufsize : Nat) :
    Front DataMessage Exception :=
  if bufsize < Header1.sizeof then .incomplete
  else if (Header.ofBuffer buffer).magic = Header.magicNumber then parseCurrent buffer bufsize
  else if version1Flag then parseOld buffer bufsize
  else .fail .invalidMessageReceived

/-- `DataMessageDeserializer` without its signal `message`, which the calls below take
as the second callback. -/
structure Deserializer where
  inputData : Bytes := []
  version1Flag : Bool := false
deriving DecidableEq

section Processing

variable {σ : Type}

/-- `processMessage(buffer, bufsize, messageReceived)`; the result is the number of bytes used. -/
def processBuffer (version1Flag : Bool) (messageReceived message : DataMessage → Call σ Unit)
    (buffer : Bytes) (bufsize : Nat) : Call σ Nat :=
  match parseMessage version1Flag buffer bufsize with
  | .incomplete => pure 0
  | .fail e => throw (.exception e)
  | .frame m n => do
    messageReceived m
    message m
    pure n

namespace Deserializer

def addData (d : Deserializer) (buffer : Bytes) (bufsize : Nat) : Deserializer :=
  { d with inputData := d.inputData ++ buffer.take bufsize }

variable (messageReceived message : DataMessage → Call σ Unit)

/-- `processMessage(messageReceived)`: one message from the collected input. -/
def processMessage : Call (Deserializer × σ) Bool := fun (d, s) =>
  match processBuffer d.version1Flag messageReceived message d.inputData
      (toUnsigned d.inputData.length) s with
  | .ok 0 s => .ok false (d, s)
  | .ok count s => .ok true ({ d with inputData := d.inputData.drop count }, s)
  | .error e s => .error e (d, s)

/-- `while (processMessage(messageReceived)) ++count;`. Each message takes at least one
byte, so the size of the input bounds the iterations. -/
def processMessages : Nat → Call (Deserializer × σ) Nat
  | 0 => pure 0
  | fuel + 1 => do
    if ← processMessage messageReceived message then
      let count ← processMessages fuel
      pure (count + 1)
    else pure 0

/-- The loop of `advance` that takes messages directly from the given buffer, and what it
leaves of that buffer. -/
def advanceBuffer (version1Flag : Bool) : Nat → Bytes → Nat → Call σ (Bytes × Nat)
  | 0, buffer, bufsize => pure (buffer, bufsize)
  | fuel + 1, buffer, bufsize => do
    let n ← processBuffer version1Flag messageReceived message buffer bufsize
    if n = 0 then pure (buffer, bufsize)
    else advanceBuffer version1Flag fuel (buffer.drop n) (bufsize - n)

/-- The second part of `advance`: collect what is left and take messages from there. -/
def advanceInput (buffer : Bytes) (bufsize : Nat) : Call (Deserializer × σ) Nat := fun (d, s) =>
  if bufsize > 0 then
    let d := d.addData buffer bufsize
    processMessages messageReceived message (d.inputData.length + 1) (d, s)
  else .ok 0 (d, s)

def advance (buffer : Bytes) (bufsize : Nat) : Call (Deserializer × σ) Nat := fun (d, s) =>
  if d.inputData.isEmpty then
    match advanceBuffer messageReceived message d.version1Flag (bufsize + 1) buffer bufsize s with
    | .ok (buffer, bufsize) s => advanceInput messageReceived message buffer bufsize (d, s)
    | .error e s => .error e (d, s)
  else advanceInput messageReceived message buffer bufsize (d, s)

end Deserializer

end Processing

def createFromBuffer (data : Bytes) (size : Nat) (version1Flag : Bool) :
    Except Interrupt DataMessage :=
  let keep (m : DataMessage) : Call DataMessage Unit := set m
  match processBuffer version1Flag keep (fun _ => pure ()) data size {} with
  | .ok 0 _ => .error (.exception .failedToCreate)
  | .ok _ m => .ok m
  | .error e _ => .error e

end TntPub

import TntPub.StreamDecoding

namespace TntPub

/-- What went over one connection of a client: the reads, the messages dispatched from them
and the bytes written. -/
structure Exchange where
  input : List Bytes := []
  dispatched : List DataMessage := []
  output : Bytes := []
deriving DecidableEq

/-- A `Client` with its socket. A write is pending as long as `pending` holds the memory that
was handed to `beginWrite`. The members from `accepted` on are history: the messages of
all calls, what was written and called when `messagesSent` was emitted, and the connections. -/
structure Client where
  connected : Bool := false
  reading : Bool := false
  pending : Option Bytes := none
  outputBuffer : Bytes := []
  outputBufferNext : Bytes := []
  deserializer : Deserializer := {}
  dataMessage : DataMessage := {}
  autoSync : Bool := false
  accepted : List DataMessage := []
  messagesSent : List (Bytes × List DataMessage) := []
  exchange : Exchange := {}
  earlier : List Exchange := []
deriving DecidableEq

/-- The member functions of a client that have to do with its output; `obj` is an object
after its serialization. -/
inductive ClientCall
  | sendMessage (m : DataMessage)
  | subscribe (o : Origin) (topic : Topic) (type : SubscriptionType) (data : Bytes)
  | subscribeWithObject (o : Origin) (topic : Topic) (obj : Bytes) (type : SubscriptionType)
  | unsubscribe (o : Origin) (topic : Topic) (type : SubscriptionType)
  | flush
  | autoSync (sw : Bool)

def ClientCall.message : ClientCall → Option DataMessage
  | sendMessage m => some m
  | subscribe o topic type data => some (DataMessage.subscribe o topic type data)
  | subscribeWithObject o topic obj type =>
    some (DataMessage.subscribeWithObject id o topic obj type)
  | unsubscribe o topic type => some (DataMessage.unsubscribe o topic type)
  | flush => none
  | autoSync _ => none

namespace Client

def write (c : Client) (bytes : Bytes) : Client :=
  { c with exchange := { c.exchange with output := c.exchange.output ++ bytes } }

/-- `_peer.beginWrite(_outputBuffer.data(), _outputBuffer.size())`. -/
def beginWrite (c : Client) : Client := { c with pending := some c.outputBuffer }

/-- `auto count = _peer.endWrite()` and the removal of `count` bytes from `_outputBuffer`. -/
def endWrite (c : Client) (count : Nat) : Option Client :=
  match c.pending with
  | none => none
  | some region =>
    if count ≤ region.length then
      let c := c.write (region.take count)
      some { c with pending := none, outputBuffer := c.outputBuffer.drop count }
    else none

/-- `while (!buffer.empty())` with a blocking `_peer.write`, which reports one count after
the other: the bytes written and the counts left over. -/
def writeAll (buffer : Bytes) : List Nat → Option (Bytes × List Nat)
  | [] => if buffer.isEmpty then some ([], []) else none
  | count :: counts =>
    if buffer.isEmpty then some ([], count :: counts)
    else if count ≤ buffer.length then
      (writeAll (buffer.drop count) counts).map fun (written, left) =>
        (buffer.take count ++ written, left)
    else none

def doSendMessage (c : Client) (m : DataMessage) (counts : List Nat) : Option Client :=
  let c := { c with accepted := c.accepted ++ [m] }
  if c.autoSync then do
    let (written, _) ← writeAll (m.appendTo c.outputBuffer) counts
    let c := c.write written
    some { c with outputBuffer := [] }
  else if c.pending.isSome then
    some { c with outputBufferNext := m.appendTo c.outputBufferNext }
  else
    let c := { c with outputBuffer := m.appendTo c.outputBuffer }
    some c.beginWrite

/-- The part of `flush` for a pending write, which takes the first count. -/
def finishWrite (c : Client) : List Nat → Option (Client × List Nat)
  | [] => if c.pending.isSome then none else some (c, [])
  | count :: counts =>
    if c.pending.isSome then (c.endWrite count).map fun c => (c, counts)
    else some (c, count :: counts)

def flush (c : Client) (counts : List Nat) : Option Client := do
  let (c, counts) ← c.finishWrite counts
  let (written, counts) ← writeAll c.outputBuffer counts
  let c := c.write written
  let c := { c with outputBuffer := [] }
  let (written, _) ← writeAll c.outputBufferNext counts
  let c := c.write written
  some { c with outputBufferNext := [] }

def setAutoSync (c : Client) (sw : Bool) (counts : List Nat) : Option Client :=
  let c := { c with autoSync := sw }
  if sw then c.flush counts else some c

/-- A call with the counts its blocking writes report. -/
def call (c : Client) (counts : List Nat) : ClientCall → Option Client
  | .sendMessage m => c.doSendMessage m counts
  | .subscribe o topic type data => c.doSendMessage (DataMessage.subscribe o topic type data) counts
  | .subscribeWithObject o topic obj type =>
    c.doSendMessage (DataMessage.subscribeWithObject id o topic obj type) counts
  | .unsubscribe o topic type => c.doSendMessage (DataMessage.unsubscribe o topic type) counts
  | .flush => c.flush counts
  | .autoSync sw => c.setAutoSync sw counts

def calls (c : Client) : List (ClientCall × List Nat) → Option Client
  | [] => some c
  | (call, counts) :: rest => (c.call counts call).bind fun c => c.calls rest

/-- `Client::onOutput` when `count` bytes were written; `handler` is what the slots of
`messagesSent` call. -/
def onOutput (c : Client) (count : Nat) (handler : List (ClientCall × List Nat)) :
    Option Client := do
  let c ← c.endWrite count
  if c.outputBuffer.isEmpty then
    if c.outputBufferNext.isEmpty then
      let c := { c with messagesSent := c.messagesSent ++ [(c.exchange.output, c.accepted)] }
      c.calls handler
    else
      let c := { c with outputBuffer := c.outputBufferNext, outputBufferNext := c.outputBuffer }
      some c.beginWrite
  else if c.outputBufferNext.isEmpty then some c.beginWrite
  else
    let c := { c with
      outputBuffer := c.outputBuffer ++ c.outputBufferNext
      outputBufferNext := [] }
    some c.beginWrite

def dispatchMessage (c : Client) : Client :=
  { c with exchange := { c.exchange with dispatched := c.exchange.dispatched ++ [c.dataMessage] } }

def processInput : Nat → Client → Client × Option Interrupt
  | 0, c => (c, none)
  | fuel + 1, c =>
    let keep (m : DataMessage) : Call DataMessage Unit := set m
    match Deserializer.processMessage keep noSlots (c.deserializer, c.dataMessage) with
    | .ok true (d, m) =>
      let c := { c with deserializer := d, dataMessage := m }
      processInput fuel c.dispatchMessage
    | .ok false (d, m) => ({ c with deserializer := d, dataMessage := m }, none)
    | .error e (d, m) => ({ c with deserializer := d, dataMessage := m }, some e)

/-- `_peer.close()`, also when the socket was lost. Of a pending write some bytes may have
been written that are not reported any more. -/
def closePeer (c : Client) (unreported : Nat) : Client :=
  let c := c.write ((c.pending.getD []).take unreported)
  { c with connected := false, reading := false, pending := none }

def inputError (c : Client) (unreported : Nat) : Client :=
  let c := c.closePeer unreported
  { c with outputBuffer := [], outputBufferNext := [] }

end Client

/-- What `onInput` finds after the messages: more to come, the end of the input, or that
`beginRead` fails. -/
inductive InputEnd
  | more
  | eof
  | failed (unreported : Nat)

/-- `Client::onInput` after `endRead` has delivered bytes. An exception of the deserializer
leaves the function before the next read is begun. -/
def Client.onInput (c : Client) (input : Bytes) (ending : InputEnd) : Client :=
  let d := c.deserializer.addData input input.length
  let c := { c with
    reading := false
    deserializer := d
    exchange := { c.exchange with input := c.exchange.input ++ [input] } }
  match c.processInput (d.inputData.length + 1) with
  | (c, some _) => c
  | (c, none) =>
    match ending with
    | .more => { c with reading := true }
    | .eof => c
    | .failed unreported => c.inputError unreported

/-- What can happen to a client. A count `unreported` belongs to a write that was pending. -/
inductive ClientEvent
  | call (call : ClientCall) (counts : List Nat)
  | output (count : Nat) (handler : List (ClientCall × List Nat))
  | endWriteFailed (unreported : Nat)
  | beginWriteFailed (count : Nat)
  | input (bytes : Bytes) (ending : InputEnd)
  | endReadFailed (unreported : Nat)
  | close (unreported : Nat)
  | connect (unreported : Nat)

def ClientEvent.isConnect : ClientEvent → Bool
  | .connect _ => true
  | _ => false

namespace Client

/-- `connect`, or `beginConnect` and `endConnect`. A socket that is open is closed first. -/
def connect (c : Client) (unreported : Nat) : Client :=
  let c := c.closePeer unreported
  { c with
    connected := true
    reading := true
    exchange := {}
    earlier := c.earlier ++ [c.exchange] }

def step (c : Client) : ClientEvent → Option Client
  | .call call counts => if c.connected then c.call counts call else none
  | .output count handler => if c.connected then c.onOutput count handler else none
  | .endWriteFailed unreported =>
    if c.connected && c.pending.isSome then some (c.closePeer unreported) else none
  | .beginWriteFailed count =>
    if c.connected then
      (c.onOutput count []).bind fun c => if c.pending.isSome then some (c.closePeer 0) else none
    else none
  | .input bytes ending => if c.connected && c.reading then some (c.onInput bytes ending) else none
  | .endReadFailed unreported =>
    if c.connected && c.reading then some (c.inputError unreported) else none
  | .close unreported => some (c.closePeer unreported)
  | .connect unreported => some (c.connect unreported)

end Client

end TntPub

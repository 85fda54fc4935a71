import TntPub.Deserializer
import TntPub.Registry

namespace TntPub

abbrev ResponderId := Nat

/-- A `Responder`: its deserializer, its subscriptions and the bytes its socket has not sent. -/
structure Responder where
  deserializer : Deserializer := {}
  subscriptions : List Subscription := []
  outputBuffer : Bytes := []
deriving DecidableEq

namespace Responder

def isSubscribed (rx : Regex) (r : Responder) (topic : Topic) : Bool :=
  r.subscriptions.any fun subscription => subscription.matchesTopic rx topic

/-- The loop of `unsubscribeMessageReceived`: the first equal subscription is erased. The
`std::string` is converted to a topic without subtopic. -/
def unsubscribe (r : Responder) (m : DataMessage) : Responder :=
  { r with
    subscriptions := r.subscriptions.eraseP fun subscription =>
      subscription.equals { main := m.topic.main } (DataMessage.subscriptionType m.type) }

/-- `dataMessage.appendTo(_socket.outputBuffer())`. -/
def queue (r : Responder) (m : DataMessage) : Responder :=
  { r with outputBuffer := m.appendTo r.outputBuffer }

/-- `_maxOBuf != 0` and `_socket.outputSize() > _maxOBuf`. -/
def exceeds (r : Responder) (maxOBuf : Nat) : Bool :=
  maxOBuf ≠ 0 && r.outputBuffer.length > maxOBuf

end Responder

/-- What a run of the server shows: messages taken from a connection, messages sent to all
with the subscriptions of that moment, and the signals about a connection. -/
inductive Event
  | received (id : ResponderId) (m : DataMessage)
  | dispatched (m : DataMessage) (subscribers : ResponderId → Option Responder)
  | clientSubscribed (id : ResponderId) (m : DataMessage)
  | outputBufferFull (id : ResponderId)
  | clientDisconnected (id : ResponderId)

/-- The server with the static members of `DataMessage` and `Responder`; `events` is history. -/
structure Server where
  responders : Registry ResponderId Responder := .empty
  lastSerial : UInt64 := 0
  maxOBuf : Nat := 0
  events : List Event := []

namespace Server

/-- Access to a member of a responder through its pointer. -/
def accessResponder (id : ResponderId) : Call Server Responder := fun s =>
  match s.responders.find id with
  | some r => .ok r s
  | none => .error .useAfterFree s

def modifyResponder (id : ResponderId) (f : Responder → Responder) : Call Server Unit := fun s =>
  match s.responders.find id with
  | some _ => .ok () { s with responders := s.responders.modify id f }
  | none => .error .useAfterFree s

def emitEvent (e : Event) : Call Server Unit := fun s =>
  .ok () { s with events := s.events ++ [e] }

/-- `Responder::closeClient`, which ends in `delete this`. -/
def closeClient (id : ResponderId) : Call Server Unit := do
  let _ ← accessResponder id
  emitEvent (.clientDisconnected id)
  modify fun s => { s with responders := s.responders.remove id }

def outputExceeds (id : ResponderId) : Call Server Bool := do
  let r ← accessResponder id
  let s ← get
  pure (r.exceeds s.maxOBuf)

def sendMessage (id : ResponderId) (m : DataMessage) : Call Server Unit := do
  modifyResponder id (·.queue m)
  if ← outputExceeds id then emitEvent (.outputBufferFull id)
  if ← outputExceeds id then closeClient id

variable (rx : Regex)

/-- `Responder::onDataMessageReceived`, the slot of a responder. -/
def onDataMessageReceived (id : ResponderId) (m : DataMessage) : Call Server Unit := do
  let r ← accessResponder id
  if r.isSubscribed rx m.topic then sendMessage id m

/-- `Server::doSendMessage`: `MessageSink::dispatchMessage` without registered callbacks. -/
def doSendMessage (m : DataMessage) : Call Server Unit := do
  let s ← get
  emitEvent (.dispatched m s.responders.find)
  Registry.emit (fun t id => (t.responders.find id).isSome)
    (fun id => onDataMessageReceived rx id m) s.responders.slots

/-- `Server::processMessage` with the default hooks. -/
def processMessage (m : DataMessage) : Call Server Unit := doSendMessage rx m

def setNextSerial (m : DataMessage) : Call Server DataMessage := fun s =>
  .ok { m with serial := s.lastSerial + 1 } { s with lastSerial := s.lastSerial + 1 }

def subscribe (id : ResponderId) (m : DataMessage) : Call Server Unit := do
  match Subscription.create rx m.topic (DataMessage.subscriptionType m.type) with
  | .error e => throw (.exception e)
  | .ok subscription =>
    modifyResponder id fun r => { r with subscriptions := r.subscriptions ++ [subscription] }
    emitEvent (.clientSubscribed id m)

/-- `Responder::subscribe(topic, type)`. -/
def subscribeTopic (o : Origin) (id : ResponderId) (topic : Topic) (type : SubscriptionType) :
    Call Server Unit :=
  subscribe rx id (DataMessage.subscribe o topic type [])

def subscribeMessageReceived (id : ResponderId) (m : DataMessage) : Call Server Unit :=
  subscribe rx id m

def unsubscribeMessageReceived (id : ResponderId) (m : DataMessage) : Call Server Unit :=
  modifyResponder id (·.unsubscribe m)

def systemMessageReceived (_ : ResponderId) (_ : DataMessage) : Call Server Unit := pure ()

/-- The callback of `Responder::onInput`. Its last statement, a `return` when the responder
was deleted, ends the callback only. -/
def handleMessage (id : ResponderId) (m : DataMessage) : Call Server Unit := do
  emitEvent (.received id m)
  if m.isDataMessage then
    let m ← setNextSerial m
    processMessage rx m
  else if m.isSubscribeMessage then subscribeMessageReceived rx id m
  else if m.isUnsubscribeMessage then unsubscribeMessageReceived id m
  else if m.isSystemMessage then systemMessageReceived id m
  else pure ()

/-- The emission of `message`, a member of the deserializer in the responder. -/
def emitMessage (id : ResponderId) (_ : DataMessage) : Call Server Unit := do
  let _ ← accessResponder id

def catchException (id : ResponderId) : Call Server Unit := fun s =>
  if (s.responders.find id).isSome then closeClient id s else .ok () s

/-- `Responder::onInput` for the bytes `endRead` has delivered. -/
def onInput (id : ResponderId) (input : Bytes) (eof : Bool) : Call Server Unit := fun s =>
  match s.responders.find id with
  | none => .error .useAfterFree s
  | some r =>
    match Deserializer.advance (handleMessage rx id) (emitMessage id) input
        (toUnsigned input.length) (r.deserializer, s) with
    | .ok _ (d, s) =>
      (do modifyResponder id fun r => { r with deserializer := d }
          if eof then closeClient id) s
    | .error .useAfterFree (_, s) => .error .useAfterFree s
    | .error (.exception _) (_, s) => catchException id s

/-- `Server::onConnectionPending`: a new responder is connected behind the others. -/
def onConnectionPending (s : Server) (id : ResponderId) : Server :=
  { s with responders := s.responders.insert id {} }

def oneClient : Server := onConnectionPending {} 0

/-- The socket of a responder has sent the first bytes of its output. -/
def drain (s : Server) (id : ResponderId) (count : Nat) : Server :=
  { s with
    responders :=
      s.responders.modify id fun r => { r with outputBuffer := r.outputBuffer.drop count } }

end Server

end TntPub

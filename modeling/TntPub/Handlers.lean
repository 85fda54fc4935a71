import TntPub.ConnectionInput

namespace TntPub

open Framing

/-- What a handler throws. Of these `Client::onInput` catches a `cxxtools::IOError` only. -/
inductive HandlerException
  | ioError
  | other
deriving DecidableEq

/-- How the call of a handler ends; `destroyed` is a return after which the client is gone. -/
inductive HandlerEnd
  | returned
  | destroyed
  | thrown (e : HandlerException)
deriving DecidableEq

/-- A function of the application with its argument, on the state of the application. -/
abbrev Handler (σ : Type) := σ → HandlerEnd × σ

/-- A `ServiceProcedure`: the call of its function with what `dm.si() >>= arg` has read, if
this throws no `SerializationError`. -/
inductive ServiceProcedure (σ : Type)
  | serviceFunction (fn : DataMessage → Option (Handler σ))
  | serviceMethod (memFunc : DataMessage → Option (Handler σ))

/-- `MessageSink::Slot`. -/
structure Slot (σ : Type) where
  topic : Subscription := {}
  proc : ServiceProcedure σ

/-- A client with the members of its base class `MessageSink`. -/
structure Receiver (σ : Type) where
  client : Client
  messageReceived : List (DataMessage → Handler σ) := []
  callbacks : List (Slot σ) := []

/-- A client, until it is destroyed, and the state of the application. -/
structure Session (σ : Type) where
  receiver : Option (Receiver σ)
  app : σ

/-- The members that `onInput` and `dispatchMessage` use. -/
inductive Member
  | messageReceived
  | dataMessage
  | callbacks
  | deserializer
  | peer
deriving DecidableEq

/-- Why a call did not return: an exception of the deserializer or of a handler, or the use of
a member of a destroyed client. -/
inductive Failure
  | deserializer (i : Interrupt)
  | handler (e : HandlerException)
  | useAfterFree (member : Member)
deriving DecidableEq

abbrev Act (σ : Type) := EStateM Failure (Session σ)

variable {σ : Type}

namespace Session

def access (member : Member) : Act σ (Receiver σ) := fun s =>
  match s.receiver with
  | some r => .ok r s
  | none => .error (.useAfterFree member) s

def setClient (c : Client) : Act σ Unit := modify fun s =>
  { s with receiver := s.receiver.map fun r => { r with client := c } }

/-- `sentry.deleted()`. -/
def deleted : Act σ Bool := return (← get).receiver.isNone

def runHandler (h : Handler σ) : Act σ Unit := fun s =>
  match h s.app with
  | (.returned, app) => .ok () { s with app := app }
  | (.destroyed, app) => .ok () { receiver := none, app := app }
  | (.thrown e, app) => .error (.handler e) { s with app := app }

/-- `ServiceProcedure::invoke`; only the one of `ServiceFunction` looks at the type. -/
def invoke : ServiceProcedure σ → DataMessage → Act σ Unit
  | .serviceFunction fn, dm =>
    if dm.type ≠ .data then pure ()
    else match fn dm with
      | none => pure ()
      | some call => runHandler call
  | .serviceMethod memFunc, dm =>
    match memFunc dm with
    | none => pure ()
    | some call => runHandler call

/-- The emission of `messageReceived`, which ends when a slot destroys the signal. -/
def emit : List (DataMessage → Handler σ) → DataMessage → Act σ Unit
  | [], _ => pure ()
  | slot :: slots, msg => do
    runHandler (slot msg)
    if ← deleted then pure ()
    else emit slots msg

/-- The loop of `dispatchMessage`; `_callbacks.size()` is read before each round. -/
def invokeCallbacks (rx : Regex) : List (Slot σ) → Act σ Unit
  | [] => do
    let _ ← access .callbacks
    pure ()
  | slot :: slots => do
    let r ← access .callbacks
    let msg := r.client.dataMessage
    if slot.topic.matchesTopic rx msg.topic then invoke slot.proc msg
    invokeCallbacks rx slots

/-- `MessageSink::dispatchMessage`, where `msg` refers to the `_dataMessage` of the client. -/
def dispatchMessage (rx : Regex) : Act σ Unit := do
  let r ← access .messageReceived
  setClient r.client.dispatchMessage
  emit r.messageReceived r.client.dataMessage
  let r ← access .dataMessage
  if r.client.dataMessage.type ≠ .data then pure ()
  else invokeCallbacks rx r.callbacks

/-- The loop of `onInput`; the result tells whether the client was deleted. -/
def processInput (rx : Regex) : Nat → Act σ Bool
  | 0 => pure false
  | fuel + 1 => do
    let r ← access .deserializer
    let c := r.client
    let keep (m : DataMessage) : Call DataMessage Unit := set m
    match Deserializer.processMessage keep noSlots (c.deserializer, c.dataMessage) with
    | .ok true (d, m) =>
      setClient { c with deserializer := d, dataMessage := m }
      dispatchMessage rx
      if ← deleted then pure true
      else processInput rx fuel
    | .ok false (d, m) =>
      setClient { c with deserializer := d, dataMessage := m }
      pure false
    | .error i (d, m) =>
      setClient { c with deserializer := d, dataMessage := m }
      throw (.deserializer i)

/-- What `onInput` does before its `catch`. -/
def readInput (rx : Regex) (input : Bytes) (ending : InputEnd) : Act σ Unit := do
  let r ← access .peer
  let c := r.client
  let d := c.deserializer.addData input input.length
  setClient { c with
    reading := false
    deserializer := d
    exchange := { c.exchange with input := c.exchange.input ++ [input] } }
  if ← processInput rx (d.inputData.length + 1) then pure ()
  else
    let r ← access .peer
    match ending with
    | .more => setClient { r.client with reading := true }
    | .eof => pure ()
    | .failed unreported => setClient (r.client.inputError unreported)

/-- `Client::onInput` with its handlers. A count `unreported` belongs to a pending write when
the socket is closed because a handler threw an `IOError`. -/
def onInput (rx : Regex) (input : Bytes) (ending : InputEnd) (unreported : Nat) : Act σ Unit :=
  fun s =>
    match readInput rx input ending s with
    | .error (.handler .ioError) s =>
      (do let r ← access .peer
          setClient (r.client.inputError unreported) : Act σ Unit) s
    | result => result

end Session

/-- A call of a handler, with the member that is used next when the handler has returned. -/
structure HandlerCall (σ : Type) where
  next : Member
  call : Handler σ

/-- How a sequence of calls ends: it ends early when one destroys the client or throws. -/
inductive CallsEnd
  | returned
  | destroyed (next : Member)
  | thrown (e : HandlerException)
deriving DecidableEq

def runCalls : List (HandlerCall σ) → σ → CallsEnd × σ
  | [], app => (.returned, app)
  | c :: cs, app =>
    match c.call app with
    | (.returned, app) => runCalls cs app
    | (.destroyed, app) => (.destroyed c.next, app)
    | (.thrown e, app) => (.thrown e, app)

def ServiceProcedure.called : ServiceProcedure σ → DataMessage → Option (Handler σ)
  | .serviceFunction fn, dm => if dm.type ≠ .data then none else fn dm
  | .serviceMethod memFunc, dm => memFunc dm

namespace Receiver

def slotCalls (slots : List (DataMessage → Handler σ)) (m : DataMessage) : List (HandlerCall σ) :=
  slots.map fun slot => ⟨.dataMessage, slot m⟩

def callbackCalls (rx : Regex) (slots : List (Slot σ)) (m : DataMessage) :
    List (HandlerCall σ) :=
  slots.filterMap fun slot =>
    if slot.topic.matchesTopic rx m.topic then (slot.proc.called m).map (⟨.callbacks, ·⟩)
    else none

/-- The calls of handlers that a message is to bring about. -/
def handlerCalls (rx : Regex) (r : Receiver σ) (m : DataMessage) : List (HandlerCall σ) :=
  slotCalls r.messageReceived m ++
    if m.type ≠ .data then [] else callbackCalls rx r.callbacks m

end Receiver

end TntPub

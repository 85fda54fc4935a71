import TntPub.Publication
import TntPub.Link
import TntPub.Failures

namespace TntPub

open Framing Broadcast

/-- A server and the clients of all its connections, each of which is made once; `read` is the
number of bytes the server has read from a client. -/
structure Deployment where
  hub : Hub := {}
  clients : ResponderId → Client := fun _ => {}
  read : ResponderId → Nat := fun _ => 0

/-- The events of a deployment. A client is asynchronous, or writes and waits; it is closed when
a call of it has thrown. A slot that throws for a message leaves `onInput`. -/
inductive DeploymentEvent
  | connect (i : ResponderId) (autoSync : Bool)
  | client (i : ResponderId) (e : ClientEvent)
  | clientInput (i : ResponderId) (size : Nat) (ending : InputEnd)
  | slotThrows (i : ResponderId) (size returned : Nat)
  | callThrows (i : ResponderId) (call : ClientCall) (counts : List Nat) (inInput : Bool)
      (unreported : Nat)
  | serverInput (i : ResponderId) (size : Nat) (eof : Bool)
  | server (e : HubEvent)

/-- An application calls a member function, which returns or throws. -/
def DeploymentEvent.calling (i : ResponderId) (call : ClientCall) (counts : List Nat)
    (throws : Bool) : DeploymentEvent :=
  if throws then .callThrows i call counts false 0 else .client i (.call call counts)

/-- The message fits its header. -/
def ClientCall.fits (call : ClientCall) : Bool := call.message.all fun m => decide m.Encodable

/-- Calls, writes that report their count, and failures: what needs no bytes of the server. -/
def ClientEvent.isLocal : ClientEvent → Bool
  | .call c _ => c.fits
  | .output _ handler => handler.all fun call => call.1.fits
  | .endWriteFailed _ => true
  | .beginWriteFailed _ => true
  | .endReadFailed _ => true
  | .close _ => true
  | .input _ _ => false
  | .connect _ => false

def HubEvent.isLocal : HubEvent → Bool
  | .readFailed _ => true
  | .output _ _ => true
  | .outputFailed _ => true
  | .send m => decide m.Encodable
  | .connect _ => false
  | .input _ _ _ => false

namespace Deployment

def setClient (d : Deployment) (i : ResponderId) (c : Client) : Deployment :=
  { d with clients := Function.update d.clients i c }

/-- The bytes the server can read from a client, also those of a write that is still pending. -/
def toServer (d : Deployment) (i : ResponderId) : Bytes :=
  ((d.clients i).exchange.output ++ (d.clients i).pending.getD []).drop (d.read i)

def toClient (d : Deployment) (i : ResponderId) : Bytes :=
  (d.hub.written i).drop (d.clients i).readCount

/-- The messages a client is given in one event. -/
def arrivals (d : Deployment) (i : ResponderId) : DeploymentEvent → List DataMessage
  | .clientInput j size _ =>
    if j = i then ((d.clients i).deserializer.takesAll ((d.toClient i).take size)).messages
    else []
  | .slotThrows j size returned =>
    if j = i then
      ((d.clients i).deserializer.takesAll ((d.toClient i).take size)).messages.take (returned + 1)
    else []
  | _ => []

/-- One event, if it can happen. No deserializer collects 2^32 bytes. -/
def step (rx : Regex) (hook : Hook) (d : Deployment) : DeploymentEvent → Option Deployment
  | .connect i autoSync =>
    (d.hub.step rx hook (.connect i)).map fun hub =>
      { d.setClient i (({ autoSync := autoSync } : Client).connect 0) with hub := hub }
  | .client i e => if e.isLocal then ((d.clients i).step e).map (d.setClient i) else none
  | .clientInput i size ending =>
    let bytes := (d.toClient i).take size
    if ((d.clients i).deserializer.inputData ++ bytes).length < 2 ^ 32 then
      ((d.clients i).step (.input bytes ending)).map (d.setClient i)
    else none
  | .slotThrows i size returned =>
    let c := d.clients i
    let bytes := (d.toClient i).take size
    if (c.deserializer.inputData ++ bytes).length < 2 ^ 32 ∧ c.connected ∧ c.reading then
      (c.onInputThrows bytes returned).map (d.setClient i)
    else none
  | .callThrows i call counts inInput unreported =>
    let c := d.clients i
    if c.connected ∧ call.fits then
      (c.callThrows counts call).map fun c => d.setClient i (c.abandon inInput unreported)
    else none
  | .serverInput i size eof =>
    match d.hub.server.responders.find i with
    | none => none
    | some r =>
      let bytes := (d.toServer i).take size
      if (r.deserializer.inputData ++ bytes).length < 2 ^ 32 then
        (d.hub.step rx hook (.input i bytes eof)).map fun hub =>
          { d with hub := hub, read := Function.update d.read i (d.read i + bytes.length) }
      else none
  | .server e =>
    if e.isLocal then (d.hub.step rx hook e).map fun hub => { d with hub := hub } else none

variable {rx : Regex} {hook : Hook} {d d' : Deployment} {i : ResponderId}

@[simp] theorem setClient_self (d : Deployment) (i : ResponderId) (c : Client) :
    (d.setClient i c).clients i = c := by
  simp only [setClient, Function.update_self]

theorem setClient_of_ne (d : Deployment) {i j : ResponderId} (c : Client) (hij : i ≠ j) :
    (d.setClient j c).clients i = d.clients i := by
  simp only [setClient, Function.update_of_ne hij]

theorem setClient_setClient (d : Deployment) (i : ResponderId) (c c' : Client) :
    (d.setClient i c).setClient i c' = d.setClient i c' := by
  simp only [setClient, Function.update_idem]

theorem step_connect {autoSync : Bool} (h : d.step rx hook (.connect i autoSync) = some d') :
    d'.clients i = ({ autoSync := autoSync } : Client).connect 0 ∧
      ∀ j, j ≠ i → d'.clients j = d.clients j := by
  obtain ⟨hub, -, rfl⟩ := Option.map_eq_some_iff.mp h
  exact ⟨setClient_self d i _, fun j hj => setClient_of_ne d _ hj⟩

end Deployment

end TntPub

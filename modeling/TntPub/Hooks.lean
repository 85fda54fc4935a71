import TntPub.Broadcast
import TntPub.Fanout

namespace TntPub

open Framing Broadcast

/-- `Server::onDataMessageReceived`, which may change a message or keep it back. -/
abbrev Hook := ResponderId → DataMessage → Option DataMessage

def Hook.default : Hook := fun _ m => some m

namespace HookedServer

variable (rx : Regex) (hook : Hook)

/-- `Server::processMessage`; `onDataMessageProcessed` cannot change the message any more. -/
def processMessage (id : ResponderId) (m : DataMessage) : Call Server Unit :=
  match hook id m with
  | none => pure ()
  | some m => Server.doSendMessage rx m

def handleMessage (id : ResponderId) (m : DataMessage) : Call Server Unit := do
  Server.emitEvent (.received id m)
  if m.isDataMessage then
    let m ← Server.setNextSerial m
    processMessage rx hook id m
  else if m.isSubscribeMessage then Server.subscribeMessageReceived rx id m
  else if m.isUnsubscribeMessage then Server.unsubscribeMessageReceived id m
  else if m.isSystemMessage then Server.systemMessageReceived id m
  else pure ()

def onInput (id : ResponderId) (input : Bytes) (eof : Bool) : Call Server Unit :=
  Server.onInputWith (handleMessage rx hook id) id input eof

theorem handleMessage_default (id : ResponderId) :
    handleMessage rx .default id = Server.handleMessage rx id := rfl

theorem onInput_default (id : ResponderId) (input : Bytes) (eof : Bool) :
    onInput rx .default id input eof = Server.onInput rx id input eof := rfl

end HookedServer

/-- What a server has handled, in order: messages with the connection they were taken from,
and the messages it sent by itself. -/
abbrev Log := List (Option ResponderId × DataMessage)

namespace Log

def serialAfter : UInt64 → Log → UInt64
  | serial, [] => serial
  | serial, (none, _) :: log => serialAfter serial log
  | serial, (some _, m) :: log =>
    if m.isDataMessage then serialAfter (serial + 1) log else serialAfter serial log

/-- The messages that are sent to all: the server's own as they are, and the data messages of
the connections with the next serial numbers, if the hook lets them pass. -/
def published (hook : Hook) : UInt64 → Log → List DataMessage
  | _, [] => []
  | serial, (none, m) :: log => m :: published hook serial log
  | serial, (some id, m) :: log =>
    if m.isDataMessage then
      (hook id { m with serial := serial + 1 }).toList ++ published hook (serial + 1) log
    else published hook serial log

variable {hook : Hook} {serial : UInt64}

theorem serialAfter_append (log more : Log) :
    serialAfter serial (log ++ more) = serialAfter (serialAfter serial log) more := by
  induction log generalizing serial with
  | nil => rfl
  | cons entry log ih =>
    obtain ⟨source, m⟩ := entry
    cases source with
    | none => exact ih
    | some id =>
      simp only [List.cons_append, serialAfter]
      split
      next => exact ih
      next => exact ih

theorem published_append (log more : Log) :
    published hook serial (log ++ more) =
      published hook serial log ++ published hook (serialAfter serial log) more := by
  induction log generalizing serial with
  | nil => rfl
  | cons entry log ih =>
    obtain ⟨source, m⟩ := entry
    cases source with
    | none =>
      simp only [List.cons_append, published, serialAfter]
      rw [ih]
    | some id =>
      simp only [List.cons_append, published, serialAfter]
      split
      next => rw [ih, List.append_assoc]
      next => exact ih

end Log

end TntPub

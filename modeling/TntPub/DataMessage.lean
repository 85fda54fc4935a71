import TntPub.Subscription
import TntPub.LittleEndian

namespace TntPub

/-- `DataMessage::Type`. -/
inductive MessageType
  | null
  | subscribeFull
  | subscribePrefix
  | subscribeRegex
  | subscribeRegexReversed
  | unsubscribeFull
  | unsubscribePrefix
  | unsubscribeRegex
  | unsubscribeRegexReversed
  | data
  | plainData
  | system
deriving DecidableEq

namespace MessageType

def toChar : MessageType → UInt8
  | null => 0x20
  | subscribeFull => 0x46
  | subscribePrefix => 0x50
  | subscribeRegex => 0x58
  | subscribeRegexReversed => 0x59
  | unsubscribeFull => 0x66
  | unsubscribePrefix => 0x70
  | unsubscribeRegex => 0x78
  | unsubscribeRegexReversed => 0x79
  | data => 0x44
  | plainData => 0x52
  | system => 0x53

/-- The enumerator a character stands for, if any: a received header may hold any byte. -/
def ofChar (c : UInt8) : Option MessageType :=
  if c = 0x20 then some null
  else if c = 0x46 then some subscribeFull
  else if c = 0x50 then some subscribePrefix
  else if c = 0x58 then some subscribeRegex
  else if c = 0x59 then some subscribeRegexReversed
  else if c = 0x66 then some unsubscribeFull
  else if c = 0x70 then some unsubscribePrefix
  else if c = 0x78 then some unsubscribeRegex
  else if c = 0x79 then some unsubscribeRegexReversed
  else if c = 0x44 then some data
  else if c = 0x52 then some plainData
  else if c = 0x53 then some system
  else none

theorem ofChar_toChar (t : MessageType) : ofChar t.toChar = some t := by
  cases t <;> rfl

end MessageType

/-- `isValidType` in datamessage.cpp. -/
def isValidType (type : MessageType) : Bool :=
  type == .subscribeFull
    || type == .subscribePrefix
    || type == .subscribeRegex
    || type == .unsubscribeFull
    || type == .unsubscribePrefix
    || type == .unsubscribeRegex
    || type == .data
    || type == .plainData
    || type == .system

/-- `cxxtools::UtcDateTime`, by the two numbers it is taken apart into and rebuilt from. -/
structure UtcDateTime where
  julian : UInt32
  totalUSecs : UInt64
deriving DecidableEq

/-- The fields of a message; the cached object `_si` is no part of what is sent. -/
structure DataMessage where
  type : MessageType := .null
  topic : Topic := { main := [] }
  source : Bytes := []
  serial : UInt64 := 0
  createDateTime : UtcDateTime := ⟨0, 0⟩
  data : Bytes := []
deriving DecidableEq

/-- What a new message takes from its process: `myhostname()` and the system clock. -/
structure Origin where
  myhostname : Bytes
  systemTime : UtcDateTime
deriving DecidableEq

namespace DataMessage

/-- The private constructor of locally created messages. -/
def ofOrigin (o : Origin) (topic : Topic) (type : MessageType) (data : Bytes) : DataMessage where
  type := type
  topic := topic
  source := o.myhostname
  createDateTime := o.systemTime
  data := data

def subscribe (o : Origin) (topic : Topic) (type : SubscriptionType) (data : Bytes) : DataMessage :=
  ofOrigin o topic
    (if type = .typePrefix then .subscribePrefix
      else if type = .typeRegex then .subscribeRegex
      else .subscribeFull)
    data

section Objects

variable {Obj : Type} (serialize : Obj → Bytes)

/-- `serialize` is `cxxtools::bin::Serializer::toString` after `si <<= obj`, as in `setData`. -/
def subscribeWithObject (o : Origin) (topic : Topic) (obj : Obj) (type : SubscriptionType) :
    DataMessage :=
  ofOrigin o topic
    (if type = .typePrefix then .subscribePrefix
      else if type = .typeRegex then .subscribeRegex
      else if type = .typeRegexReversed then .subscribeRegexReversed
      else .subscribeFull)
    (serialize obj)

def create (o : Origin) (topic : Topic) (obj : Obj) : DataMessage :=
  ofOrigin o topic .data (serialize obj)

def createSystem (o : Origin) (topic : Topic) (obj : Obj) : DataMessage :=
  ofOrigin o topic .system (serialize obj)

end Objects

/-- The local variable `data` of the source is not sent: the message is always empty. -/
def unsubscribe (o : Origin) (topic : Topic) (type : SubscriptionType) : DataMessage :=
  ofOrigin o topic
    (if type = .typePrefix then .unsubscribePrefix
      else if type = .typeRegex then .unsubscribeRegex
      else .unsubscribeFull)
    []

def createPlain (o : Origin) (topic : Topic) (data : Bytes) : DataMessage :=
  ofOrigin o topic .plainData data

def isDataMessage (m : DataMessage) : Bool :=
  m.type == .data || m.type == .plainData

def isSubscribeMessage (m : DataMessage) : Bool :=
  m.type == .subscribeFull || m.type == .subscribePrefix || m.type == .subscribeRegex
    || m.type == .subscribeRegexReversed

def isUnsubscribeMessage (m : DataMessage) : Bool :=
  m.type == .unsubscribeFull || m.type == .unsubscribePrefix || m.type == .unsubscribeRegex
    || m.type == .unsubscribeRegexReversed

def isSystemMessage (m : DataMessage) : Bool :=
  m.type == .system

def subscriptionType : MessageType → SubscriptionType
  | .subscribeFull => .typeFull
  | .unsubscribeFull => .typeFull
  | .subscribePrefix => .typePrefix
  | .unsubscribePrefix => .typePrefix
  | .subscribeRegex => .typeRegex
  | .unsubscribeRegex => .typeRegex
  | .subscribeRegexReversed => .typeRegexReversed
  | .unsubscribeRegexReversed => .typeRegexReversed
  | _ => .typeNull

/-- A sample: the plain data "hi" to the topic "a". -/
def greeting : DataMessage :=
  createPlain ⟨[], 0, 0⟩ { main := [0x61] } [0x68, 0x69]

end DataMessage

end TntPub

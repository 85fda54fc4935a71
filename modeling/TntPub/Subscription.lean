import TntPub.Call
import Mathlib.Data.List.Infix

namespace TntPub

structure Topic where
  main : Bytes
  sub : Bytes := []
deriving DecidableEq

/-- `Subscription::Type`. -/
inductive SubscriptionType
  | typeNull
  | typeFull
  | typePrefix
  | typeRegex
  | typeRegexReversed
deriving DecidableEq

/-- `cxxtools::Regex`: the patterns its constructor accepts, and what they find. -/
structure Regex where
  accepts : Bytes → Bool
  finds : Bytes → Bytes → Bool

/-- Patterns without special characters, which are found as they stand. -/
def Regex.literal : Regex where
  accepts _ := true
  finds pattern text := decide (pattern <:+: text)

/-- `Subscription::Impl` with its four derived classes. -/
inductive SubscriptionImpl
  | fullTopic (data : Topic)
  | prefixTopic (data : Topic)
  | regexTopic (data : Topic)
  | regexTopicReversed (data : Topic)
deriving DecidableEq

namespace SubscriptionImpl

def data : SubscriptionImpl → Topic
  | fullTopic data => data
  | prefixTopic data => data
  | regexTopic data => data
  | regexTopicReversed data => data

def is : SubscriptionImpl → SubscriptionType → Bool
  | fullTopic _, type => type == .typeFull
  | prefixTopic _, type => type == .typePrefix
  | regexTopic _, type => type == .typeRegex
  | regexTopicReversed _, type => type == .typeRegexReversed

/-- The overrides of `Impl::match`. -/
def matchesTopic (rx : Regex) : SubscriptionImpl → Topic → Bool
  | fullTopic data, topic =>
    topic.main == data.main && (data.sub.isEmpty || data.sub == topic.sub)
  | prefixTopic data, topic =>
    topic.main.take data.main.length == data.main && (data.sub.isEmpty || data.sub == topic.sub)
  | regexTopic data, topic => data.main == topic.main && rx.finds data.sub topic.sub
  | regexTopicReversed data, topic => data.main == topic.main && !rx.finds data.sub topic.sub

end SubscriptionImpl

/-- A subscription owns at most one implementation; a default or moved-from one has none. -/
structure Subscription where
  impl : Option SubscriptionImpl := none
deriving DecidableEq

namespace Subscription

/-- `Subscription::Subscription(topic, type)`; the regular expressions are compiled here. -/
def create (rx : Regex) (topic : Topic) (type : SubscriptionType) :
    Except Exception Subscription :=
  match type with
  | .typeNull => .ok ⟨some (.fullTopic topic)⟩
  | .typeFull => .ok ⟨some (.fullTopic topic)⟩
  | .typePrefix => .ok ⟨some (.prefixTopic topic)⟩
  | .typeRegex =>
    if rx.accepts topic.sub then .ok ⟨some (.regexTopic topic)⟩ else .error .invalidRegex
  | .typeRegexReversed =>
    if rx.accepts topic.sub then .ok ⟨some (.regexTopicReversed topic)⟩ else .error .invalidRegex

def matchesTopic (rx : Regex) (s : Subscription) (topic : Topic) : Bool :=
  match s.impl with
  | none => true
  | some impl => impl.matchesTopic rx topic

def equals (s : Subscription) (topic : Topic) (type : SubscriptionType) : Bool :=
  match s.impl with
  | none => topic.main.isEmpty
  | some impl => impl.is type && impl.data.main == topic.main

end Subscription

end TntPub

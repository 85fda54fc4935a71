import TntPub.Course

namespace TntPub

section Request

variable {rx : Regex} {o : Origin} {topic : Topic} {type : SubscriptionType} {data : Bytes}
  {wanted : Subscription}

/-- The subscription a responder makes of a request for a subscription. -/
def understood (topic : Topic) (type : SubscriptionType) (wanted : Subscription) : Subscription :=
  if type = .typeRegexReversed then ⟨some (.fullTopic topic)⟩ else wanted

theorem create_subscribe (hcreate : Subscription.create rx topic type = .ok wanted) :
    Subscription.create rx topic
      (DataMessage.subscriptionType (DataMessage.subscribe o topic type data).type) =
        .ok (understood topic type wanted) := by
  cases type with
  | typeNull => exact hcreate
  | typeFull => exact hcreate
  | typePrefix => exact hcreate
  | typeRegex => exact hcreate
  | typeRegexReversed => rfl

theorem isSubscribeMessage_subscribe (o : Origin) (topic : Topic) (type : SubscriptionType)
    (data : Bytes) :
    (DataMessage.subscribe o topic type data).isDataMessage = false ∧
      (DataMessage.subscribe o topic type data).isSubscribeMessage = true := by
  cases type <;> exact ⟨rfl, rfl⟩

theorem isValidType_subscribe :
    isValidType (DataMessage.subscribe o topic type data).type = true := by
  cases type <;> rfl

theorem course_subscribe (hcreate : Subscription.create rx topic type = .ok wanted)
    (maxOBuf : Nat) (serial : UInt64) (r : Responder) :
    r.course rx maxOBuf serial (DataMessage.subscribe o topic type data) =
      .kept serial { r with
        subscriptions := r.subscriptions ++ [understood topic type wanted] } := by
  obtain ⟨hdata, hsub⟩ := isSubscribeMessage_subscribe o topic type data
  have htopic : (DataMessage.subscribe o topic type data).topic = topic := rfl
  simp only [Responder.course, Responder.control, hdata, hsub, if_true, Bool.false_eq_true,
    if_false, htopic, create_subscribe hcreate]

/-- A reversed regular expression is understood as wanted only if it happens to find
exactly the subtopics that a full topic does not match. -/
theorem understood_matches_iff (hcreate : Subscription.create rx topic type = .ok wanted) :
    (∀ x, (understood topic type wanted).matchesTopic rx x = wanted.matchesTopic rx x) ↔
      type ≠ .typeRegexReversed ∨
        ∀ text, rx.finds topic.sub text = !(topic.sub.isEmpty || topic.sub == text) := by
  by_cases htype : type = .typeRegexReversed
  · subst htype
    have hwanted : wanted = ⟨some (.regexTopicReversed topic)⟩ := by
      simp only [Subscription.create] at hcreate
      split at hcreate
      next => cases hcreate; rfl
      next => cases hcreate
    subst hwanted
    simp only [understood, if_true, ne_eq, not_true_eq_false, false_or, Subscription.matchesTopic,
      SubscriptionImpl.matchesTopic]
    constructor
    · intro h text
      have hx := h { main := topic.main, sub := text }
      simp only [beq_self_eq_true, Bool.true_and] at hx
      rw [hx, Bool.not_not]
    · intro h x
      rw [h x.sub, Bool.not_not, Bool.beq_comm]
  · have hsame : understood topic type wanted = wanted := if_neg htype
    rw [hsame]
    exact ⟨fun _ => .inl htype, fun _ _ => rfl⟩

end Request

namespace Server

variable {rx : Regex} {s t : Server} {id : ResponderId} {r : Responder} {o : Origin}
  {topic : Topic} {type : SubscriptionType} {data : Bytes} {wanted : Subscription}

/-- The responder has one subscription more, and it matches what the wanted one does. -/
def Gains (rx : Regex) (id : ResponderId) (r : Responder) (wanted : Subscription) (t : Server) :
    Prop :=
  ∃ r' gained, t.responders.find id = some r' ∧
    r'.subscriptions = r.subscriptions ++ [gained] ∧
    ∀ x, gained.matchesTopic rx x = wanted.matchesTopic rx x

/-- The request of a client, cut anywhere on its way, and the request made in the server
both have the wanted effect. -/
def SameMeaning (rx : Regex) (s : Server) (id : ResponderId) (r : Responder) (o : Origin)
    (topic : Topic) (type : SubscriptionType) (data : Bytes) (wanted : Subscription) : Prop :=
  (∃ t, subscribeTopic rx o id topic type s = .ok () t ∧ Gains rx id r wanted t) ∧
    ∀ chunks, chunks.flatten = (DataMessage.subscribe o topic type data).frame →
      ∃ t, inputChunks rx id chunks s = .ok () t ∧ Gains rx id r wanted t

theorem subscribeTopic_ok (hcreate : Subscription.create rx topic type = .ok wanted)
    (hr : s.responders.find id = some r) :
    ∃ t, subscribeTopic rx o id topic type s = .ok () t ∧ t.responders.find id = some { r with
      subscriptions := r.subscriptions ++ [understood topic type wanted] } := by
  have htopic : (DataMessage.subscribe o topic type []).topic = topic := rfl
  rw [subscribeTopic, subscribe, htopic, create_subscribe hcreate]
  dsimp only
  rw [Call.bind_ok (modifyResponder_ok hr _)]
  exact ⟨_, rfl, by simp [hr]⟩

theorem inputChunks_subscribe {chunks : List Bytes}
    (hcreate : Subscription.create rx topic type = .ok wanted)
    (hr : s.responders.find id = some r) (hempty : r.deserializer.inputData = [])
    (hfits : (DataMessage.subscribe o topic type data).FitsHeader)
    (hchunks : chunks.flatten = (DataMessage.subscribe o topic type data).frame) :
    ∃ t r', inputChunks rx id chunks s = .ok () t ∧ t.responders.find id = some r' ∧
      r'.subscriptions = r.subscriptions ++ [understood topic type wanted] := by
  have hwait := r.deserializer.front_of_empty hempty
  have hm : (DataMessage.subscribe o topic type data).Encodable := ⟨hfits, isValidType_subscribe⟩
  have hdrain : (framer r.deserializer.version1Flag).drain
      (r.deserializer.inputData ++ chunks.flatten) =
        ⟨[DataMessage.subscribe o topic type data], [], none⟩ := by
    have hone := drain_frame_append r.deserializer.version1Flag hm []
    rw [List.append_nil, Framing.Framer.drain_nil] at hone
    rw [hempty, List.nil_append, hchunks, hone]
    rfl
  have hbelow : Deserializer.StaysBelow r.deserializer.version1Flag r.deserializer.inputData
      chunks := by
    refine Deserializer.staysBelow_of_total ?_
    rw [hempty, List.nil_append, hchunks, hfits.frame_length]
    exact hfits.length_lt
  have hcourses : r.courses rx s.maxOBuf s.lastSerial [DataMessage.subscribe o topic type data] =
      some (s.lastSerial, { r with
        subscriptions := r.subscriptions ++ [understood topic type wanted] }) := by
    simp only [Responder.courses, course_subscribe hcreate]
  obtain ⟨t, ht, -, -, hr', -⟩ := inputChunks_courses hr hwait hbelow hdrain rfl hcourses
  exact ⟨t, _, ht, hr', rfl⟩

theorem SameMeaning.matches (h : SameMeaning rx s id r o topic type data wanted)
    (hcreate : Subscription.create rx topic type = .ok wanted)
    (hr : s.responders.find id = some r) (x : Topic) :
    (understood topic type wanted).matchesTopic rx x = wanted.matchesTopic rx x := by
  obtain ⟨⟨t, ht, r', gained, hr', hgained, hmatches⟩, -⟩ := h
  obtain ⟨u, hu, hru⟩ := subscribeTopic_ok (o := o) hcreate hr
  obtain ⟨-, rfl⟩ := EStateM.Result.ok.inj (ht.symm.trans hu)
  obtain rfl := Option.some.inj (hr'.symm.trans hru)
  obtain rfl : understood topic type wanted = gained := by simpa using hgained
  exact hmatches x

/-- A subscription means in the server what it means where it was requested, unless it is
for a reversed regular expression that does not happen to mean the same as a full topic. -/
theorem sameMeaning_iff (rx : Regex) (s : Server) (id : ResponderId) (r : Responder) (o : Origin)
    (topic : Topic) (type : SubscriptionType) (data : Bytes) (wanted : Subscription)
    (hr : s.responders.find id = some r) (hempty : r.deserializer.inputData = [])
    (hfits : (DataMessage.subscribe o topic type data).FitsHeader)
    (hcreate : Subscription.create rx topic type = .ok wanted) :
    SameMeaning rx s id r o topic type data wanted ↔
      type ≠ .typeRegexReversed ∨
        ∀ text, rx.finds topic.sub text = !(topic.sub.isEmpty || topic.sub == text) := by
  rw [← understood_matches_iff hcreate]
  constructor
  · exact fun h => h.matches hcreate hr
  · intro hmatches
    refine ⟨?_, fun chunks hchunks => ?_⟩
    · obtain ⟨t, ht, hr'⟩ := subscribeTopic_ok (o := o) hcreate hr
      exact ⟨t, ht, _, _, hr', rfl, hmatches⟩
    · obtain ⟨t, r', ht, hr', hsubs⟩ := inputChunks_subscribe hcreate hr hempty hfits hchunks
      exact ⟨t, ht, r', _, hr', hsubs, hmatches⟩

theorem sameMeaning_regex :
    SameMeaning .literal oneClient 0 {} ⟨[], 0, 0⟩ { main := [0x61], sub := [0x78] } .typeRegex []
      ⟨some (.regexTopic { main := [0x61], sub := [0x78] })⟩ :=
  (sameMeaning_iff .literal oneClient 0 {} ⟨[], 0, 0⟩ { main := [0x61], sub := [0x78] } .typeRegex
    [] ⟨some (.regexTopic { main := [0x61], sub := [0x78] })⟩ rfl rfl (by decide) rfl).mpr
    (.inl (by decide))

/-- All subtopics without "x" are wanted, and the subtopic "x" is what the server gives. -/
theorem not_sameMeaning_regexReversed :
    ¬ ∀ rx s id r o topic type data wanted, s.responders.find id = some r →
      r.deserializer.inputData = [] → (DataMessage.subscribe o topic type data).FitsHeader →
      Subscription.create rx topic type = .ok wanted →
      SameMeaning rx s id r o topic type data wanted := by
  intro h
  have hsame := h .literal oneClient 0 {} ⟨[], 0, 0⟩ { main := [0x61], sub := [0x78] }
    .typeRegexReversed [] ⟨some (.regexTopicReversed { main := [0x61], sub := [0x78] })⟩ rfl rfl
    (by decide) rfl
  have hmatches := hsame.matches rfl rfl { main := [0x61], sub := [0x79] }
  exact absurd hmatches (by decide)

end Server

end TntPub

import TntPub.Course

namespace TntPub

open Framing

def Event.message : Event → Option DataMessage
  | received _ m => some m
  | _ => none

namespace Server

variable {rx : Regex} {s t u : Server} {i j : ResponderId} {r : Responder} {m : DataMessage}

def handledFrom (s : Server) (i : ResponderId) : List DataMessage :=
  (s.connection i).events.filterMap Event.message

def isSubscribedAt (rx : Regex) (i : ResponderId)
    (dispatch : DataMessage × (ResponderId → Option Responder)) : Bool :=
  (dispatch.2 i).any fun r => r.isSubscribed rx dispatch.1.topic

/-- The messages that matched a subscription of one connection when they were handled, in
the order in which they were handled. -/
def matchedBy (rx : Regex) (s : Server) (i : ResponderId) : List DataMessage :=
  (s.shared.dispatches.filter (isSubscribedAt rx i)).map Prod.fst

/-- What each connection is given while messages of one connection are handled: as many
messages more have matched as frames more are queued. -/
structure Grows (rx : Regex) (i : ResponderId) (ms : List DataMessage) (s t : Server) : Prop where
  maxOBuf : t.maxOBuf = s.maxOBuf
  handled : ∀ j, t.handledFrom j = if j = i then s.handledFrom j ++ ms else s.handledFrom j
  destroyed : ∀ j, s.responders.find j = none →
    t.responders.find j = none ∧ t.matchedBy rx j = s.matchedBy rx j
  queued : ∀ j r, s.responders.find j = some r → ∃ r' new, t.responders.find j = some r' ∧
    r'.deserializer = r.deserializer ∧ r'.outputBuffer = r.outputBuffer ++ frames new ∧
    t.matchedBy rx j = s.matchedBy rx j ++ new ∧ ∀ m ∈ new, m.Encodable

theorem Grows.refl (s : Server) : Grows rx i [] s s where
  maxOBuf := rfl
  handled j := by simp
  destroyed j hj := ⟨hj, rfl⟩
  queued j r hr := ⟨r, [], hr, rfl, by simp, by simp, by simp⟩

theorem Grows.trans {ms ns : List DataMessage} (h : Grows rx i ms s t) (h' : Grows rx i ns t u) :
    Grows rx i (ms ++ ns) s u where
  maxOBuf := h'.maxOBuf.trans h.maxOBuf
  handled j := by
    rw [h'.handled, h.handled]
    split <;> simp
  destroyed j hj := by
    obtain ⟨ht, hmatched⟩ := h.destroyed j hj
    obtain ⟨hu, hmatched'⟩ := h'.destroyed j ht
    exact ⟨hu, hmatched'.trans hmatched⟩
  queued j r hr := by
    obtain ⟨r1, new, hr1, hd, hout, hmatched, hnew⟩ := h.queued j r hr
    obtain ⟨r2, new', hr2, hd', hout', hmatched', hnew'⟩ := h'.queued j r1 hr1
    refine ⟨r2, new ++ new', hr2, hd'.trans hd, ?_, ?_, fun m hm => ?_⟩
    · rw [hout', hout, frames_append, List.append_assoc]
    · rw [hmatched', hmatched, List.append_assoc]
    · rcases List.mem_append.mp hm with hm | hm
      · exact hnew m hm
      · exact hnew' m hm

theorem handledFrom_eq {new : List Event} {r : Option Responder}
    (h : t.connection j = ⟨r, (s.connection j).events ++ new⟩) :
    t.handledFrom j = s.handledFrom j ++ new.filterMap Event.message := by
  simp only [handledFrom, h, List.filterMap_append]

theorem signals_message : (signals i m).filterMap Event.message = [] := by
  unfold signals
  split <;> rfl

theorem grows_control (hr : s.responders.find i = some r) (hm : m.isDataMessage = false)
    (haccepted : m.isAccepted rx = true) :
    ∃ t, announce (handleMessage rx i) (emitMessage i) m s = .ok () t ∧ Grows rx i [m] s t := by
  obtain ⟨r', hc, hdeserializer, houtput⟩ := r.control_accepted haccepted
  obtain ⟨t, ht, hshared, hparts⟩ := announce_control hr hm hc
  have hmatched (j : ResponderId) : t.matchedBy rx j = s.matchedBy rx j := by
    simp only [matchedBy, hshared]
  have hother (j : ResponderId) (hj : j ≠ i) : t.connection j = s.connection j := by
    rw [hparts, if_neg hj]
  have hown : t.connection i =
      ⟨some r', (s.connection i).events ++ .received i m :: signals i m⟩ := by
    rw [hparts, if_pos rfl]
  refine ⟨t, ht, congrArg Shared.maxOBuf hshared, fun j => ?_, fun j hj => ?_, fun j q hq => ?_⟩
  · split
    next hj =>
      rw [hj, handledFrom_eq hown]
      simp [Event.message, signals_message]
    next hj => simp only [handledFrom, hother j hj]
  · have hne : j ≠ i := by
      rintro rfl
      rw [hr] at hj
      cases hj
    exact ⟨(congrArg Connection.responder (hother j hne)).trans hj, hmatched j⟩
  · by_cases hj : j = i
    · subst hj
      obtain rfl := Option.some.inj (hr.symm.trans hq)
      exact ⟨r', [], congrArg Connection.responder hown, hdeserializer, by simp [houtput],
        by simp [hmatched], by simp⟩
    · exact ⟨q, [], (congrArg Connection.responder (hother j hj)).trans hq, rfl, by simp,
        by simp [hmatched], by simp⟩

theorem offer_events (c : Connection) : (c.offer rx 0 m j).events = c.events := by
  unfold Connection.offer
  split
  next => rfl
  next =>
    split
    next => rw [Responder.exceeds_zero]; rfl
    next => rfl

theorem offer_responder (c : Connection) :
    (c.offer rx 0 m j).responder =
      c.responder.map fun r => if r.isSubscribed rx m.topic then r.queue m else r := by
  unfold Connection.offer
  split
  next h => rw [h]; rfl
  next r h =>
    rw [h, Option.map_some]
    split
    next => rw [Responder.exceeds_zero]; rfl
    next => exact h

theorem encodable_serial (hm : m.Encodable) (serial : UInt64) :
    ({ m with serial := serial } : DataMessage).Encodable :=
  ⟨⟨⟨hm.main_le, hm.sub_le, hm.source_le⟩, hm.length_lt⟩, hm.validType⟩

theorem grows_data (hr : s.responders.find i = some r) (hmax : s.maxOBuf = 0)
    (hm : m.isDataMessage = true) (hencodable : m.Encodable) :
    ∃ t, announce (handleMessage rx i) (emitMessage i) m s = .ok () t ∧ Grows rx i [m] s t := by
  obtain ⟨t, ht, hshared, hparts⟩ := announce_data rx hr hm
    (fun _ => by rw [hmax, Responder.exceeds_zero])
  rw [hmax] at hparts
  have hfind (j : ResponderId) : t.responders.find j = (s.responders.find j).map fun q =>
      if q.isSubscribed rx m.topic then q.queue { m with serial := s.lastSerial + 1 } else q := by
    have h := congrArg Connection.responder (hparts j)
    rw [offer_responder] at h
    refine h.trans ?_
    split <;> rfl
  have hmatched (j : ResponderId) : t.matchedBy rx j = s.matchedBy rx j ++
      if (s.responders.find j).any (fun q => q.isSubscribed rx m.topic) then
        [{ m with serial := s.lastSerial + 1 }] else [] := by
    simp only [matchedBy, hshared, List.filter_append, List.map_append]
    congr 1
    by_cases hany : (s.responders.find j).any (fun q => q.isSubscribed rx m.topic) = true
    · simp [isSubscribedAt, hany]
    · simp [isSubscribedAt, hany]
  refine ⟨t, ht, congrArg Shared.maxOBuf hshared, fun j => ?_, fun j hj => ?_, fun j q hq => ?_⟩
  · have h := congrArg Connection.events (hparts j)
    rw [offer_events] at h
    simp only [handledFrom, h]
    split
    next => simp [Connection.log, Event.message]
    next => rfl
  · exact ⟨by rw [hfind, hj]; rfl, by rw [hmatched, hj]; simp⟩
  · by_cases hsub : q.isSubscribed rx m.topic = true
    · refine ⟨q.queue { m with serial := s.lastSerial + 1 },
        [{ m with serial := s.lastSerial + 1 }], ?_, rfl, ?_, ?_, ?_⟩
      · rw [hfind, hq, Option.map_some, if_pos hsub]
      · simp [Responder.queue, DataMessage.appendTo]
      · rw [hmatched, hq, Option.any_some, if_pos hsub]
      · intro k hk
        obtain rfl := List.mem_singleton.mp hk
        exact encodable_serial hencodable _
    · refine ⟨q, [], ?_, rfl, by simp, ?_, by simp⟩
      · rw [hfind, hq, Option.map_some, if_neg hsub]
      · rw [hmatched, hq, Option.any_some, if_neg hsub]

/-- Messages of one connection are handled without loss of a connection, and each message
reaches every connection that is subscribed to it at that moment. -/
theorem deliver_grows {ms : List DataMessage} (hr : s.responders.find i = some r)
    (hmax : s.maxOBuf = 0) (hms : ∀ m ∈ ms, m.Encodable ∧ m.isAccepted rx = true) :
    ∃ t, deliver (handleMessage rx i) (emitMessage i) ms s = .ok () t ∧ Grows rx i ms s t := by
  induction ms generalizing s r with
  | nil => exact ⟨s, rfl, .refl s⟩
  | cons m ms ih =>
    obtain ⟨hencodable, haccepted⟩ := hms m List.mem_cons_self
    have hone : ∃ t, announce (handleMessage rx i) (emitMessage i) m s = .ok () t ∧
        Grows rx i [m] s t := by
      cases hm : m.isDataMessage with
      | true => exact grows_data hr hmax hm hencodable
      | false => exact grows_control hr hm haccepted
    obtain ⟨t, ht, hgrows⟩ := hone
    obtain ⟨r', _, hr', -⟩ := hgrows.queued i r hr
    obtain ⟨u, hu, hgrows'⟩ := ih hr' (hgrows.maxOBuf.trans hmax)
      fun k hk => hms k (List.mem_cons_of_mem m hk)
    refine ⟨u, ?_, hgrows.trans hgrows'⟩
    rw [deliver, Call.bind_ok ht]
    exact hu

theorem onInput_grows {input rest : Bytes} {taken : List DataMessage}
    (hr : s.responders.find i = some r) (hmax : s.maxOBuf = 0)
    (htakes : r.takes input = ⟨taken, rest, none⟩)
    (hms : ∀ m ∈ taken, m.Encodable ∧ m.isAccepted rx = true) :
    ∃ t, Grows rx i taken s t ∧ onInput rx i input false s = .ok () { t with
      responders := t.responders.modify i fun q =>
        { q with deserializer := { r.deserializer with inputData := rest } } } := by
  obtain ⟨t, ht, hgrows⟩ := deliver_grows hr hmax hms
  obtain ⟨r', _, hr', -⟩ := hgrows.queued i r hr
  refine ⟨t, hgrows, ?_⟩
  rw [onInput_eq hr, htakes]
  dsimp only
  rw [ht]
  dsimp only
  rw [Call.bind_ok (modifyResponder_ok hr' _)]
  rfl

end Server

end TntPub

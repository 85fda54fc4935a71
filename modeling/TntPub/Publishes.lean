import TntPub.Hooks

namespace TntPub

open Framing Broadcast

namespace Server

variable {rx : Regex} {hook : Hook} {s t u : Server} {id j : ResponderId} {r : Responder}
  {m k : DataMessage} {log more : Log}

def sent (s : Server) : List DataMessage := s.shared.dispatches.map Prod.fst

theorem matchedBy_sublist (rx : Regex) (s : Server) (i : ResponderId) :
    (s.matchedBy rx i).Sublist s.sent :=
  List.filter_sublist.map _

/-- What handling the messages of a log does to a server: for every connection, as many frames
are queued as messages match, as long as it is there. -/
structure Publishes (rx : Regex) (hook : Hook) (log : Log) (s t : Server) : Prop where
  maxOBuf : t.maxOBuf = s.maxOBuf
  lastSerial : t.lastSerial = Log.serialAfter s.lastSerial log
  sent : t.sent = s.sent ++ Log.published hook s.lastSerial log
  handled : ∀ j, t.handledFrom j = s.handledFrom j ++ contribution log (some j)
  destroyed : ∀ j, s.responders.find j = none →
    t.responders.find j = none ∧ t.matchedBy rx j = s.matchedBy rx j
  queued : ∀ j r, s.responders.find j = some r → ∃ new,
    t.matchedBy rx j = s.matchedBy rx j ++ new ∧ ∀ r', t.responders.find j = some r' →
      r'.deserializer = r.deserializer ∧ r'.outputBuffer = r.outputBuffer ++ frames new

theorem Publishes.refl (s : Server) : Publishes rx hook [] s s where
  maxOBuf := rfl
  lastSerial := rfl
  sent := by simp [Log.published]
  handled j := by simp
  destroyed j hj := ⟨hj, rfl⟩
  queued j r hr := ⟨[], by simp, fun r' hr' => by simp [Option.some.inj (hr.symm.trans hr')]⟩

theorem Publishes.trans (h : Publishes rx hook log s t) (h' : Publishes rx hook more t u) :
    Publishes rx hook (log ++ more) s u where
  maxOBuf := h'.maxOBuf.trans h.maxOBuf
  lastSerial := by rw [h'.lastSerial, h.lastSerial, Log.serialAfter_append]
  sent := by rw [h'.sent, h.sent, h.lastSerial, Log.published_append, List.append_assoc]
  handled j := by rw [h'.handled, h.handled, contribution_append, List.append_assoc]
  destroyed j hj := by
    obtain ⟨ht, hmatched⟩ := h.destroyed j hj
    obtain ⟨hu, hmatched'⟩ := h'.destroyed j ht
    exact ⟨hu, hmatched'.trans hmatched⟩
  queued j r hr := by
    obtain ⟨new, hmatched, hkept⟩ := h.queued j r hr
    cases hr1 : t.responders.find j with
    | none =>
      obtain ⟨hnone, hmatched'⟩ := h'.destroyed j hr1
      refine ⟨new, hmatched'.trans hmatched, fun r' hr' => ?_⟩
      rw [hnone] at hr'
      cases hr'
    | some r1 =>
      obtain ⟨hdeserializer, houtput⟩ := hkept r1 hr1
      obtain ⟨new', hmatched', hkept'⟩ := h'.queued j r1 hr1
      refine ⟨new ++ new', by rw [hmatched', hmatched, List.append_assoc], fun r' hr' => ?_⟩
      obtain ⟨hdeserializer', houtput'⟩ := hkept' r' hr'
      refine ⟨hdeserializer'.trans hdeserializer, ?_⟩
      rw [houtput', houtput, frames_append, List.append_assoc]

theorem Publishes.matched (h : Publishes rx hook log s t) (j : ResponderId) :
    s.matchedBy rx j <+: t.matchedBy rx j := by
  cases hr : s.responders.find j with
  | none =>
    rw [(h.destroyed j hr).2]
  | some r =>
    obtain ⟨new, hmatched, -⟩ := h.queued j r hr
    exact ⟨new, hmatched.symm⟩

theorem Publishes.kept {r' : Responder} (h : Publishes rx hook log s t)
    (hr' : t.responders.find j = some r') :
    ∃ r, s.responders.find j = some r ∧ r'.deserializer = r.deserializer := by
  cases hr : s.responders.find j with
  | none =>
    rw [(h.destroyed j hr).1] at hr'
    cases hr'
  | some r =>
    obtain ⟨new, -, hkept⟩ := h.queued j r hr
    exact ⟨r, rfl, (hkept r' hr').1⟩

/-- Nothing is dispatched, and a connection is left as it is to the others or closed. -/
theorem Publishes.silent (hshared : t.shared = { s.shared with
      lastSerial := Log.serialAfter s.lastSerial log })
    (hlog : Log.published hook s.lastSerial log = [])
    (hhandled : ∀ j, t.handledFrom j = s.handledFrom j ++ contribution log (some j))
    (hfind : ∀ j r', t.responders.find j = some r' → ∃ r, s.responders.find j = some r ∧
      r'.deserializer = r.deserializer ∧ r'.outputBuffer = r.outputBuffer) :
    Publishes rx hook log s t := by
  have hmatched (j : ResponderId) : t.matchedBy rx j = s.matchedBy rx j := by
    simp only [matchedBy, hshared]
  refine ⟨congrArg Shared.maxOBuf hshared, congrArg Shared.lastSerial hshared, ?_, hhandled,
    fun j hj => ⟨?_, hmatched j⟩, fun j r hr => ⟨[], by simp [hmatched], fun r' hr' => ?_⟩⟩
  · simp only [Server.sent, hshared, hlog, List.append_nil]
  · cases hr' : t.responders.find j with
    | none => rfl
    | some r' =>
      obtain ⟨r, hr, -⟩ := hfind j r' hr'
      rw [hj] at hr
      cases hr
  · obtain ⟨q, hq, hdeserializer, houtput⟩ := hfind j r' hr'
    obtain rfl := Option.some.inj (hr.symm.trans hq)
    exact ⟨hdeserializer, by simp [houtput]⟩

theorem offer_message (c : Connection) (maxOBuf : Nat) (m : DataMessage) (j : ResponderId) :
    (c.offer rx maxOBuf m j).events.filterMap Event.message = c.events.filterMap Event.message := by
  unfold Connection.offer
  split
  next => rfl
  next =>
    split
    next =>
      split
      next => simp [Event.message]
      next => rfl
    next => rfl

theorem offer_kept {c : Connection} {maxOBuf : Nat} {r' : Responder}
    (h : (c.offer rx maxOBuf m j).responder = some r') :
    ∃ r, c.responder = some r ∧ r'.deserializer = r.deserializer ∧
      r'.outputBuffer = r.outputBuffer ++
        frames (if r.isSubscribed rx m.topic then [m] else []) := by
  unfold Connection.offer at h
  split at h
  next hnone =>
    rw [hnone] at h
    cases h
  next r hr =>
    refine ⟨r, hr, ?_⟩
    split at h
    next hsub =>
      split at h
      next => cases h
      next =>
        obtain rfl := Option.some.inj h
        simp [hsub, Responder.queue, DataMessage.appendTo]
    next hsub =>
      obtain rfl := Option.some.inj (hr.symm.trans h)
      simp [hsub]

/-- One message is dispatched, and every connection is offered it. -/
theorem Publishes.offered (hshared : t.shared = ⟨Log.serialAfter s.lastSerial log, s.maxOBuf,
      s.shared.dispatches ++ [(k, s.responders.find)]⟩)
    (hlog : Log.published hook s.lastSerial log = [k])
    (hparts : ∀ j, ∃ c : Connection, t.connection j = c.offer rx s.maxOBuf k j ∧
      c.responder = s.responders.find j ∧
      c.events.filterMap Event.message = s.handledFrom j ++ contribution log (some j)) :
    Publishes rx hook log s t := by
  have hmatched (j : ResponderId) : t.matchedBy rx j = s.matchedBy rx j ++
      if (s.responders.find j).any (fun q => q.isSubscribed rx k.topic) then [k] else [] := by
    simp only [matchedBy, hshared, List.filter_append, List.map_append]
    congr 1
    by_cases hany : (s.responders.find j).any (fun q => q.isSubscribed rx k.topic) = true
    · simp [isSubscribedAt, hany]
    · simp [isSubscribedAt, hany]
  refine ⟨congrArg Shared.maxOBuf hshared, congrArg Shared.lastSerial hshared, ?_,
    fun j => ?_, fun j hj => ⟨?_, by rw [hmatched, hj]; simp⟩, fun j r hr => ?_⟩
  · simp only [Server.sent, hshared, hlog, List.map_append, List.map_cons, List.map_nil]
  · obtain ⟨c, hc, -, hevents⟩ := hparts j
    rw [← hevents, handledFrom, hc, offer_message]
  · obtain ⟨c, hc, hresponder, -⟩ := hparts j
    have hnone : c.responder = none := hresponder.trans hj
    have hfind := congrArg Connection.responder hc
    simp only [connection_responder, Connection.offer, hnone] at hfind
    exact hfind
  · refine ⟨_, hmatched j, fun r' hr' => ?_⟩
    obtain ⟨c, hc, hresponder, -⟩ := hparts j
    have hfind := congrArg Connection.responder hc
    rw [connection_responder, hr'] at hfind
    obtain ⟨q, hq, hdeserializer, houtput⟩ := offer_kept hfind.symm
    obtain rfl := Option.some.inj (hq.symm.trans (hresponder.trans hr))
    rw [hr, Option.any_some]
    exact ⟨hdeserializer, houtput⟩

/-- What was handled of a connection grows by the message that was taken from it. -/
theorem handledFrom_received {own : Option Responder} {new : List Event}
    (hparts : ∀ j, t.connection j =
      if j = id then ⟨own, (s.connection id).events ++ .received id m :: new⟩ else s.connection j)
    (hnew : new.filterMap Event.message = []) (j : ResponderId) :
    t.handledFrom j = s.handledFrom j ++ contribution [(some id, m)] (some j) := by
  rw [contribution_cons, contribution_nil]
  by_cases hj : id = j
  · subst hj
    rw [handledFrom_eq ((hparts id).trans (if_pos rfl)), if_pos rfl]
    simp [Event.message, hnew]
  · rw [if_neg (by simpa using hj), List.append_nil]
    simp only [handledFrom, hparts, if_neg (Ne.symm hj)]

theorem publishes_closed (rx : Regex) (hook : Hook)
    (hfind : ∀ j, t.responders.find j = if j = id then none else s.responders.find j)
    (hserial : t.lastSerial = s.lastSerial) (hmax : t.maxOBuf = s.maxOBuf)
    (hevents : t.events = s.events ++ [.clientDisconnected id]) :
    Publishes rx hook [] s t ∧ t.responders.find id = none := by
  refine ⟨.silent ?_ rfl (fun j => ?_) fun j r' hr' => ?_, (hfind id).trans (if_pos rfl)⟩
  · simp [shared, Event.dispatch, Log.serialAfter, hserial, hmax, hevents]
  · simp [handledFrom, connection, Event.isAbout, hevents, List.filterMap_append, Event.message]
  · rw [hfind] at hr'
    split at hr'
    next => cases hr'
    next => exact ⟨r', hr', rfl, rfl⟩

theorem catchException_publishes (rx : Regex) (hook : Hook) (hr : s.responders.find id = some r)
    (h : catchException id s = .ok () t) :
    Publishes rx hook [] s t ∧ t.responders.find id = none := by
  simp only [catchException, hr, Option.isSome_some, if_true, closeClient_ok hr] at h
  obtain ⟨-, rfl⟩ := EStateM.Result.ok.inj h
  exact publishes_closed rx hook (fun j => Registry.find_remove _ _ _) rfl rfl rfl

theorem closeClient_returned (h : closeClient id s = .ok () t) :
    ∃ r, s.responders.find id = some r ∧ catchException id s = .ok () t := by
  cases hr : s.responders.find id with
  | none =>
    have haccess : accessResponder id s = .error .useAfterFree s := by
      simp only [accessResponder, hr]
    rw [closeClient, Call.bind_error haccess] at h
    cases h
  | some r =>
    refine ⟨r, rfl, ?_⟩
    simpa only [catchException, hr, Option.isSome_some, if_true] using h

theorem doSendMessage_publishes (rx : Regex) (hook : Hook)
    (h : doSendMessage rx m s = .ok () t) : Publishes rx hook [(none, m)] s t := by
  obtain ⟨u, hu, hshared, hparts⟩ := doSendMessage_spec rx m s
  rw [hu] at h
  obtain ⟨-, rfl⟩ := EStateM.Result.ok.inj h
  refine .offered (k := m) hshared rfl fun j => ⟨s.connection j, hparts j, rfl, ?_⟩
  exact (List.append_nil _).symm

end Server

end TntPub

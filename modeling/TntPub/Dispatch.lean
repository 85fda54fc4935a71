import TntPub.Server
import TntPub.Chunking

namespace TntPub

namespace Event

def isAbout (id : ResponderId) : Event → Bool
  | received i _ => i == id
  | dispatched _ _ => false
  | clientSubscribed i _ => i == id
  | outputBufferFull i => i == id
  | clientDisconnected i => i == id

def dispatch : Event → Option (DataMessage × (ResponderId → Option Responder))
  | dispatched m subscribers => some (m, subscribers)
  | _ => none

end Event

/-- The part of the server that belongs to one connection. -/
@[ext] structure Connection where
  responder : Option Responder
  events : List Event

@[ext] structure Shared where
  lastSerial : UInt64
  maxOBuf : Nat
  dispatches : List (DataMessage × (ResponderId → Option Responder))

def Connection.log (e : Event) (c : Connection) : Connection :=
  { c with events := c.events ++ [e] }

/-- A message that matches is queued, and a connection whose output grows above the limit
is closed. -/
def Connection.offer (rx : Regex) (maxOBuf : Nat) (m : DataMessage) (id : ResponderId)
    (c : Connection) : Connection :=
  match c.responder with
  | none => c
  | some r =>
    if r.isSubscribed rx m.topic then
      if (r.queue m).exceeds maxOBuf then
        ⟨none, c.events ++ [.outputBufferFull id, .clientDisconnected id]⟩
      else ⟨some (r.queue m), c.events⟩
    else c

/-- A message that is no data message changes the subscriptions at most. -/
def Responder.control (rx : Regex) (r : Responder) (m : DataMessage) :
    Except Exception Responder :=
  if m.isSubscribeMessage then
    match Subscription.create rx m.topic (DataMessage.subscriptionType m.type) with
    | .error e => .error e
    | .ok subscription => .ok { r with subscriptions := r.subscriptions ++ [subscription] }
  else if m.isUnsubscribeMessage then .ok (r.unsubscribe m)
  else .ok r

def signals (id : ResponderId) (m : DataMessage) : List Event :=
  if m.isSubscribeMessage then [.clientSubscribed id m] else []

namespace Server

variable {rx : Regex} {s : Server} {id : ResponderId} {r : Responder} {m : DataMessage}

def connection (s : Server) (id : ResponderId) : Connection where
  responder := s.responders.find id
  events := s.events.filter (Event.isAbout id)

def shared (s : Server) : Shared where
  lastSerial := s.lastSerial
  maxOBuf := s.maxOBuf
  dispatches := s.events.filterMap Event.dispatch

@[simp] theorem connection_responder (s : Server) (id : ResponderId) :
    (s.connection id).responder = s.responders.find id := rfl

theorem accessResponder_ok (hr : s.responders.find id = some r) :
    accessResponder id s = .ok r s := by
  simp only [accessResponder, hr]

theorem modifyResponder_ok (hr : s.responders.find id = some r) (f : Responder → Responder) :
    modifyResponder id f s = .ok () { s with responders := s.responders.modify id f } := by
  simp only [modifyResponder, hr]

theorem closeClient_ok (hr : s.responders.find id = some r) :
    closeClient id s = .ok () { s with
      responders := s.responders.remove id
      events := s.events ++ [.clientDisconnected id] } := by
  rw [closeClient, Call.bind_ok (accessResponder_ok hr)]
  rfl

theorem outputExceeds_ok (hr : s.responders.find id = some r) :
    outputExceeds id s = .ok (r.exceeds s.maxOBuf) s := by
  rw [outputExceeds, Call.bind_ok (accessResponder_ok hr)]
  rfl

theorem sendMessage_ok (hr : s.responders.find id = some r)
    (hroom : (r.queue m).exceeds s.maxOBuf = false) :
    sendMessage id m s = .ok () { s with responders := s.responders.modify id (·.queue m) } := by
  have hfind : (s.responders.modify id (·.queue m)).find id = some (r.queue m) := by simp [hr]
  have hexceeds := outputExceeds_ok
    (s := { s with responders := s.responders.modify id (·.queue m) }) hfind
  simp only [hroom] at hexceeds
  rw [sendMessage, Call.bind_ok (modifyResponder_ok hr _), Call.bind_ok hexceeds]
  simp only [Bool.false_eq_true, if_false]
  rw [Call.bind_ok hexceeds]
  rfl

theorem sendMessage_full (hr : s.responders.find id = some r)
    (hfull : (r.queue m).exceeds s.maxOBuf = true) :
    sendMessage id m s = .ok () { s with
      responders := (s.responders.modify id (·.queue m)).remove id
      events := s.events ++ [.outputBufferFull id, .clientDisconnected id] } := by
  have hfind : (s.responders.modify id (·.queue m)).find id = some (r.queue m) := by simp [hr]
  have hexceeds := outputExceeds_ok
    (s := { s with responders := s.responders.modify id (·.queue m) }) hfind
  have hexceeds' := outputExceeds_ok
    (s := { s with
      responders := s.responders.modify id (·.queue m)
      events := s.events ++ [.outputBufferFull id] }) hfind
  simp only [hfull] at hexceeds hexceeds'
  rw [sendMessage, Call.bind_ok (modifyResponder_ok hr _), Call.bind_ok hexceeds]
  simp only [if_true]
  rw [Call.bind_ok (by rfl : emitEvent (.outputBufferFull id) _ = .ok () _),
    Call.bind_ok hexceeds']
  simp only [if_true]
  rw [closeClient_ok hfind]
  simp only [List.append_assoc, List.cons_append, List.nil_append]

/-- What is done to one connection and reported of it changes no other. -/
theorem connection_of_own (s : Server) {t : Server} {own : Option Responder} {new : List Event}
    (hfind : ∀ j, t.responders.find j = if j = id then own else s.responders.find j)
    (hevents : t.events = s.events ++ new) (habout : ∀ e ∈ new, ∀ j, e.isAbout j = (id == j))
    (j : ResponderId) :
    t.connection j =
      if j = id then ⟨own, (s.connection id).events ++ new⟩ else s.connection j := by
  have hevents' : (t.connection j).events =
      (s.connection j).events ++ new.filter (Event.isAbout j) := by
    simp only [connection, hevents, List.filter_append]
  split
  next hj =>
    subst hj
    have hall : new.filter (Event.isAbout j) = new :=
      List.filter_eq_self.mpr fun e he => by rw [habout e he, beq_self_eq_true]
    refine Connection.ext ((hfind j).trans (if_pos rfl)) ?_
    rw [hevents', hall]
  next hj =>
    have hnone : new.filter (Event.isAbout j) = [] := by
      rw [List.filter_eq_nil_iff]
      intro e he
      rw [habout e he]
      simpa using Ne.symm hj
    refine Connection.ext ((hfind j).trans (if_neg hj)) ?_
    rw [hevents', hnone, List.append_nil]

theorem find_modify_own (hr : s.responders.find id = some r) (f : Responder → Responder)
    (j : ResponderId) :
    (s.responders.modify id f).find j = if j = id then some (f r) else s.responders.find j := by
  by_cases hj : j = id <;> simp [hj, hr]

theorem onDataMessageReceived_spec (rx : Regex) (hr : s.responders.find id = some r)
    (m : DataMessage) :
    ∃ t, onDataMessageReceived rx id m s = .ok () t ∧ t.shared = s.shared ∧
      ∀ j, t.connection j =
        if j = id then (s.connection id).offer rx s.maxOBuf m id else s.connection j := by
  rw [onDataMessageReceived, Call.bind_ok (accessResponder_ok hr)]
  simp only [Connection.offer, connection_responder, hr]
  split
  next hsub =>
    split
    next hfull =>
      refine ⟨_, sendMessage_full hr hfull, by simp [shared, Event.dispatch], ?_⟩
      refine connection_of_own s (fun j => ?_) rfl (by simp [Event.isAbout])
      by_cases hj : j = id <;> simp [hj]
    next hroom =>
      refine ⟨_, sendMessage_ok hr (by simpa using hroom), rfl, fun j => ?_⟩
      refine Connection.ext ?_ ?_
      · rw [connection_responder, find_modify_own hr]
        split <;> rfl
      · split
        next hj => rw [hj]; rfl
        next => rfl
  next hsub =>
    refine ⟨s, rfl, rfl, fun j => ?_⟩
    split
    next hj => rw [hj]
    next => rfl

/-- A message is offered to every connection by itself, whatever becomes of the others. -/
theorem doSendMessage_spec (rx : Regex) (m : DataMessage) (s : Server) :
    ∃ t, doSendMessage rx m s = .ok () t ∧
      t.shared = { s.shared with
        dispatches := s.shared.dispatches ++ [(m, s.responders.find)] } ∧
      ∀ j, t.connection j = (s.connection j).offer rx s.maxOBuf m j := by
  let s' : Server := { s with events := s.events ++ [.dispatched m s.responders.find] }
  have hconnection : ∀ j, s'.connection j = s.connection j := fun j => by
    simp [s', connection, Event.isAbout]
  have hslot : ∀ i u, u.shared = s'.shared → (u.connection i).responder.isSome →
      ∃ t, onDataMessageReceived rx i m u = .ok () t ∧ t.shared = s'.shared ∧
        ∀ j, t.connection j =
          if j = i then (u.connection i).offer rx s.maxOBuf m i else u.connection j := by
    intro i u hu hi
    obtain ⟨r, hr⟩ := Option.isSome_iff_exists.mp hi
    obtain ⟨t, ht, hshared, hparts⟩ := onDataMessageReceived_spec rx hr m
    have hmax : u.maxOBuf = s.maxOBuf := congrArg Shared.maxOBuf hu
    exact ⟨t, ht, hshared.trans hu, by rw [← hmax]; exact hparts⟩
  obtain ⟨t, ht, hshared, hparts⟩ := Registry.emit_local connection
    (fun c => c.responder.isSome) (fun u => u.shared = s'.shared)
    (fun i c => c.offer rx s.maxOBuf m i) hslot s'.responders.slots_nodup (s := s') rfl
  refine ⟨t, ht, by rw [hshared]; simp [s', shared, Event.dispatch], fun j => ?_⟩
  rw [hparts, hconnection]
  split
  next => rfl
  next h =>
    have hnone : s.responders.find j = none := by
      simpa [s', s.responders.mem_slots] using h
    simp [Connection.offer, hnone]

theorem handleMessage_data (rx : Regex) (s : Server) (id : ResponderId)
    (hm : m.isDataMessage = true) :
    ∃ t, handleMessage rx id m s = .ok () t ∧
      t.shared = ⟨s.lastSerial + 1, s.maxOBuf, s.shared.dispatches ++
        [({ m with serial := s.lastSerial + 1 }, s.responders.find)]⟩ ∧
      ∀ j, t.connection j =
        (if j = id then (s.connection j).log (.received id m) else s.connection j).offer rx
          s.maxOBuf { m with serial := s.lastSerial + 1 } j := by
  obtain ⟨t, ht, hshared, hparts⟩ := doSendMessage_spec rx
    { m with serial := s.lastSerial + 1 }
    { s with events := s.events ++ [.received id m], lastSerial := s.lastSerial + 1 }
  refine ⟨t, ?_, ?_, fun j => ?_⟩
  · rw [handleMessage, Call.bind_ok (by rfl : emitEvent _ _ = .ok () _), if_pos hm]
    exact ht
  · rw [hshared]
    simp [shared, Event.dispatch]
  · rw [hparts]
    by_cases hj : j = id
    · subst hj
      simp [connection, Event.isAbout, Connection.log]
    · simp [connection, Event.isAbout, hj, Ne.symm hj]

theorem handleMessage_control (rx : Regex) (hr : s.responders.find id = some r)
    (hm : m.isDataMessage = false) :
    match r.control rx m with
    | .ok r' => ∃ t, handleMessage rx id m s = .ok () t ∧ t.shared = s.shared ∧
        ∀ j, t.connection j =
          if j = id then ⟨some r', (s.connection id).events ++ .received id m :: signals id m⟩
          else s.connection j
    | .error e => ∃ t, handleMessage rx id m s = .error (.exception e) t ∧ t.shared = s.shared ∧
        ∀ j, t.connection j =
          if j = id then ⟨some r, (s.connection id).events ++ [.received id m]⟩
          else s.connection j := by
  have hr' : ({ s with events := s.events ++ [.received id m] } : Server).responders.find id =
      some r := hr
  have hrun : handleMessage rx id m s =
      (if m.isSubscribeMessage then subscribe rx id m
        else if m.isUnsubscribeMessage then modifyResponder id (·.unsubscribe m)
        else if m.isSystemMessage then pure () else pure ())
          { s with events := s.events ++ [.received id m] } := by
    rw [handleMessage, Call.bind_ok (by rfl : emitEvent _ _ = .ok () _), if_neg (by simp [hm])]
    rfl
  have hkept : ∀ j, s.responders.find j = if j = id then some r else s.responders.find j := by
    intro j
    split
    next hj => rw [hj, hr]
    next => rfl
  rw [hrun]
  simp only [Responder.control, signals]
  by_cases hsub : m.isSubscribeMessage = true
  · simp only [hsub, if_true, subscribe]
    cases Subscription.create rx m.topic (DataMessage.subscriptionType m.type) with
    | error e =>
      exact ⟨_, rfl, by simp [shared, Event.dispatch],
        connection_of_own s hkept rfl (by simp [Event.isAbout])⟩
    | ok subscription =>
      dsimp only
      rw [Call.bind_ok (modifyResponder_ok hr' _)]
      exact ⟨_, rfl, by simp [shared, Event.dispatch],
        connection_of_own s (find_modify_own hr _) (List.append_assoc _ _ _)
          (by simp [Event.isAbout])⟩
  · simp only [hsub, if_false, Bool.false_eq_true]
    by_cases hun : m.isUnsubscribeMessage = true
    · simp only [hun, if_true]
      exact ⟨_, modifyResponder_ok hr' _, by simp [shared, Event.dispatch],
        connection_of_own s (find_modify_own hr _) rfl (by simp [Event.isAbout])⟩
    · simp only [hun, if_false, Bool.false_eq_true, ite_self]
      exact ⟨_, rfl, by simp [shared, Event.dispatch],
        connection_of_own s hkept rfl (by simp [Event.isAbout])⟩

end Server

end TntPub

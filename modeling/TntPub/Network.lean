import TntPub.Fanout
import TntPub.Runs

namespace TntPub

open Framing

/-- What the clients do to a server: they connect, send bytes, of which `eof` tells that they
are the last, and take bytes from the output of their connection. -/
inductive Traffic
  | connect (id : ResponderId)
  | input (id : ResponderId) (bytes : Bytes) (eof : Bool)
  | output (id : ResponderId) (count : Nat)
deriving DecidableEq

/-- A connection that was closed delivers no more input. -/
def Server.trafficStep (rx : Regex) (s : Server) : Traffic → Option Server
  | .connect id => some (s.onConnectionPending id)
  | .input id bytes eof =>
    if (s.responders.find id).isSome then
      match Server.onInput rx id bytes eof s with
      | .ok _ t => some t
      | .error _ _ => none
    else some s
  | .output id count => some (s.drain id count)

/-- A server without a limit for its output, as what it is to each connection. -/
@[ext] structure Network where
  lastSerial : UInt64
  sent : List DataMessage
  connections : ResponderId → Connection

namespace Connection

variable (rx : Regex) (id : ResponderId)

/-- A message of its own that is no data message; a rejected one changes nothing. -/
def control (m : DataMessage) (c : Connection) : Connection :=
  match c.responder with
  | none => c
  | some r =>
    match r.control rx m with
    | .ok r => ⟨some r, c.events ++ .received id m :: signals id m⟩
    | .error _ => c.log (.received id m)

def modify (f : Responder → Responder) (c : Connection) : Connection :=
  { c with responder := c.responder.map f }

def close (c : Connection) : Connection := ⟨none, c.events ++ [.clientDisconnected id]⟩

/-- The messages that match a subscription are put into the output. -/
def gain (ms : List DataMessage) (c : Connection) : Connection :=
  c.modify fun r => { r with
    outputBuffer := r.outputBuffer ++ frames (ms.filter fun m => r.isSubscribed rx m.topic) }

end Connection

/-- The data messages with the serial numbers they get. -/
def DataMessage.numbered : UInt64 → List DataMessage → List DataMessage
  | _, [] => []
  | serial, m :: ms =>
    if m.isDataMessage then { m with serial := serial + 1 } :: numbered (serial + 1) ms
    else numbered serial ms

namespace Network

def update (n : Network) (id : ResponderId) (c : Connection) : Network :=
  { n with connections := fun j => if j = id then c else n.connections j }

variable (rx : Regex)

/-- One message of a connection: a data message is numbered and offered to all. -/
def receive (id : ResponderId) (n : Network) (m : DataMessage) : Network :=
  if m.isDataMessage then
    { lastSerial := n.lastSerial + 1
      sent := n.sent ++ [{ m with serial := n.lastSerial + 1 }]
      connections := fun j =>
        (if j = id then (n.connections j).log (.received id m) else n.connections j).offer rx 0
          { m with serial := n.lastSerial + 1 } j }
  else n.update id ((n.connections id).control rx id m)

/-- The messages that were taken from an input, up to one that is rejected. -/
def take (id : ResponderId) (d : Drained UInt8 DataMessage Exception) (n : Network) : Network :=
  (d.messages.takeWhile (DataMessage.isAccepted rx)).foldl (receive rx id) n

def input (id : ResponderId) (bytes : Bytes) (eof : Bool) (n : Network) : Network :=
  match (n.connections id).responder with
  | none => n
  | some r =>
    let d := r.takes bytes
    let t := n.take rx id d
    match d.messages.dropWhile (DataMessage.isAccepted rx) with
    | m :: _ => t.update id (((t.connections id).log (.received id m)).close id)
    | [] =>
      if d.error.isSome || eof then t.update id ((t.connections id).close id)
      else t.update id
        ((t.connections id).modify (·.withInput { r.deserializer with inputData := d.rest }))

def connect (id : ResponderId) (n : Network) : Network :=
  match (n.connections id).responder with
  | none => n.update id ⟨some {}, (n.connections id).events⟩
  | some _ => n

def output (id : ResponderId) (count : Nat) (n : Network) : Network :=
  n.update id ((n.connections id).modify fun r =>
    { r with outputBuffer := r.outputBuffer.drop count })

def step (n : Network) : Traffic → Network
  | .connect id => n.connect id
  | .input id bytes eof => n.input rx id bytes eof
  | .output id count => n.output id count

variable (n : Network) (id j : ResponderId) (c c' : Connection)

@[simp] theorem update_connections :
    (n.update id c).connections j = if j = id then c else n.connections j := rfl

@[simp] theorem update_update : (n.update id c).update id c' = n.update id c' := by
  refine Network.ext rfl rfl (funext fun j => ?_)
  simp only [update_connections]
  split <;> rfl

end Network

section Gains

variable {rx : Regex} {i j : ResponderId}

theorem Connection.gain_nil (c : Connection) : c.gain rx [] = c := by
  refine Connection.ext ?_ rfl
  cases hr : c.responder with
  | none => simp [gain, modify, hr]
  | some r => simp [gain, modify, hr]

theorem Connection.gain_gain (ms ns : List DataMessage) (c : Connection) :
    (c.gain rx ms).gain rx ns = c.gain rx (ms ++ ns) := by
  refine Connection.ext ?_ rfl
  cases hr : c.responder with
  | none => simp [gain, modify, hr]
  | some r => simp [gain, modify, hr, Responder.isSubscribed, List.append_assoc]

theorem Connection.offer_gain (m : DataMessage) (c : Connection) :
    c.offer rx 0 m j = c.gain rx [m] := by
  refine Connection.ext ?_ (Server.offer_events c)
  rw [Server.offer_responder]
  refine Option.map_congr fun r _ => ?_
  by_cases hsub : r.isSubscribed rx m.topic = true
  · simp [hsub, Responder.queue, DataMessage.appendTo]
  · simp [hsub]

/-- What the messages of one connection are to another one. -/
theorem Network.foldl_receive_other {ms : List DataMessage} {n : Network} (hj : j ≠ i) :
    (ms.foldl (Network.receive rx i) n).connections j =
      (n.connections j).gain rx (DataMessage.numbered n.lastSerial ms) := by
  induction ms generalizing n with
  | nil => exact (Connection.gain_nil _).symm
  | cons m ms ih =>
    rw [List.foldl_cons, ih, DataMessage.numbered, Network.receive]
    split
    next =>
      simp only [if_neg hj, Connection.offer_gain]
      rw [Connection.gain_gain, List.singleton_append]
    next =>
      rw [Network.update_connections, if_neg hj]
      rfl

end Gains

namespace Server

def network (s : Server) : Network where
  lastSerial := s.lastSerial
  sent := s.shared.dispatches.map Prod.fst
  connections := s.connection

variable {rx : Regex} {s t : Server} {id : ResponderId} {r : Responder} {m : DataMessage}

theorem network_eq {n : Network} (hserial : s.lastSerial = n.lastSerial)
    (hsent : s.shared.dispatches.map Prod.fst = n.sent)
    (hconnections : ∀ j, s.connection j = n.connections j) : s.network = n :=
  Network.ext hserial hsent (funext hconnections)

theorem network_update {n : Network} {c : Connection} (hserial : t.lastSerial = n.lastSerial)
    (hsent : t.shared.dispatches.map Prod.fst = n.sent)
    (hconnections : ∀ j, t.connection j = if j = id then c else n.connections j) :
    t.network = n.update id c :=
  network_eq hserial hsent hconnections

/-- A message that is accepted is handled, and the connection goes on. -/
theorem announce_accepted (hr : s.responders.find id = some r) (hmax : s.maxOBuf = 0)
    (haccepted : m.isAccepted rx = true) :
    ∃ t, announce (handleMessage rx id) (emitMessage id) m s = .ok () t ∧ t.maxOBuf = 0 ∧
      (∃ r', t.responders.find id = some r') ∧ t.network = s.network.receive rx id m := by
  cases hm : m.isDataMessage with
  | true =>
    obtain ⟨t, ht, hshared, hparts⟩ := announce_data rx hr hm
      (fun _ => by rw [hmax, Responder.exceeds_zero])
    rw [hmax] at hparts hshared
    have hown := congrArg Connection.responder (hparts id)
    rw [offer_responder, if_pos rfl] at hown
    refine ⟨t, ht, congrArg Shared.maxOBuf hshared,
      ⟨_, hown.trans (congrArg (Option.map _) hr)⟩, ?_⟩
    rw [Network.receive, if_pos hm]
    refine network_eq (congrArg Shared.lastSerial hshared) ?_ hparts
    rw [hshared]
    exact List.map_append
  | false =>
    obtain ⟨r', hc, -⟩ := r.control_accepted haccepted
    obtain ⟨t, ht, hshared, hparts⟩ := announce_control hr hm hc
    have hown := congrArg Connection.responder (hparts id)
    rw [if_pos rfl] at hown
    have hcontrol : (s.connection id).control rx id m =
        ⟨some r', (s.connection id).events ++ .received id m :: signals id m⟩ := by
      simp only [Connection.control, connection_responder, hr, hc]
    refine ⟨t, ht, (congrArg Shared.maxOBuf hshared).trans hmax, ⟨r', hown⟩, ?_⟩
    rw [Network.receive, if_neg (by simp [hm])]
    refine network_update (congrArg Shared.lastSerial hshared) (by rw [hshared]; rfl) fun j => ?_
    rw [hparts, ← hcontrol]
    rfl

theorem announce_refused (hr : s.responders.find id = some r) (hmax : s.maxOBuf = 0)
    (hrejected : m.isAccepted rx = false) :
    ∃ e t, announce (handleMessage rx id) (emitMessage id) m s = .error (.exception e) t ∧
      t.maxOBuf = 0 ∧ t.responders.find id = some r ∧
      t.network = s.network.update id ((s.connection id).log (.received id m)) := by
  obtain ⟨e, he⟩ := r.control_rejected hrejected
  have hm : m.isDataMessage = false := by
    by_contra hdata
    rw [DataMessage.isAccepted_of_data (by simpa using hdata)] at hrejected
    cases hrejected
  have hspec := handleMessage_control rx hr hm
  rw [he] at hspec
  obtain ⟨t, ht, hshared, hparts⟩ := hspec
  have hown := congrArg Connection.responder (hparts id)
  rw [if_pos rfl] at hown
  have hlog : (s.connection id).log (.received id m) =
      ⟨some r, (s.connection id).events ++ [.received id m]⟩ := Connection.ext hr rfl
  refine ⟨e, t, announce_thrown ht, (congrArg Shared.maxOBuf hshared).trans hmax, hown, ?_⟩
  refine network_update (congrArg Shared.lastSerial hshared) (by rw [hshared]; rfl) fun j => ?_
  rw [hparts, hlog]
  rfl

/-- The messages up to one that is rejected are handled in order. -/
theorem deliver_network (rx : Regex) (ms : List DataMessage) (hr : s.responders.find id = some r)
    (hmax : s.maxOBuf = 0) :
    ∃ t, t.maxOBuf = 0 ∧ (∃ r', t.responders.find id = some r') ∧
      match ms.dropWhile (DataMessage.isAccepted rx) with
      | [] => deliver (handleMessage rx id) (emitMessage id) ms s = .ok () t ∧
        t.network =
          (ms.takeWhile (DataMessage.isAccepted rx)).foldl (Network.receive rx id) s.network
      | m :: _ => ∃ u e, deliver (handleMessage rx id) (emitMessage id) ms s =
          .error (.exception e) t ∧
        u = (ms.takeWhile (DataMessage.isAccepted rx)).foldl (Network.receive rx id) s.network ∧
        t.network = u.update id ((u.connections id).log (.received id m)) := by
  induction ms generalizing s r with
  | nil => exact ⟨s, hmax, ⟨r, hr⟩, rfl, rfl⟩
  | cons m ms ih =>
    cases hm : m.isAccepted rx with
    | true =>
      obtain ⟨t, ht, hmax', ⟨r', hr'⟩, hnetwork⟩ := announce_accepted hr hmax hm
      obtain ⟨u, hu, hu', hrest⟩ := ih hr' hmax'
      refine ⟨u, hu, hu', ?_⟩
      rw [List.dropWhile_cons_of_pos hm, List.takeWhile_cons_of_pos hm, List.foldl_cons,
        ← hnetwork, deliver, Call.bind_ok ht]
      exact hrest
    | false =>
      obtain ⟨e, t, ht, hmax', hr', hnetwork⟩ := announce_refused hr hmax hm
      refine ⟨t, hmax', ⟨r, hr'⟩, ?_⟩
      rw [List.dropWhile_cons_of_neg (by simp [hm]), List.takeWhile_cons_of_neg (by simp [hm]),
        deliver, Call.bind_error ht]
      exact ⟨_, e, rfl, rfl, hnetwork⟩

theorem closeClient_network (hr : s.responders.find id = some r) :
    ∃ t, closeClient id s = .ok () t ∧ t.maxOBuf = s.maxOBuf ∧
      t.network = s.network.update id ((s.connection id).close id) := by
  refine ⟨_, closeClient_ok hr, rfl, network_update rfl ?_ ?_⟩
  · simp [shared, network, Event.dispatch]
  · refine connection_of_own s (fun j => ?_) rfl (by simp [Event.isAbout])
    exact Registry.find_remove _ _ _

theorem catchException_network (hr : s.responders.find id = some r) :
    ∃ t, catchException id s = .ok () t ∧ t.maxOBuf = s.maxOBuf ∧
      t.network = s.network.update id ((s.connection id).close id) := by
  obtain ⟨t, ht, hrest⟩ := closeClient_network hr
  exact ⟨t, by simp only [catchException, hr, Option.isSome_some, if_true, ht], hrest⟩

theorem modify_network (s : Server) (id : ResponderId) (f : Responder → Responder) :
    ({ s with responders := s.responders.modify id f } : Server).network =
      s.network.update id ((s.connection id).modify f) := by
  refine network_update rfl rfl fun j => ?_
  split
  next hj =>
    subst hj
    exact Connection.ext (if_pos rfl) rfl
  next hj => exact Connection.ext (if_neg hj) rfl

theorem onInput_network (hr : s.responders.find id = some r) (hmax : s.maxOBuf = 0)
    (input : Bytes) (eof : Bool) :
    ∃ t, onInput rx id input eof s = .ok () t ∧ t.maxOBuf = 0 ∧
      t.network = s.network.input rx id input eof := by
  obtain ⟨t, hmax', ⟨r', hr'⟩, hdeliver⟩ :=
    deliver_network rx (r.takes input).messages hr hmax
  obtain ⟨u, hu, humax, hclose⟩ := catchException_network hr'
  have hconnection : (s.network.connections id).responder = some r := hr
  simp only [Network.input, hconnection, Network.take]
  rw [onInput_eq hr]
  split at hdeliver
  next hnone =>
    obtain ⟨hok, hnetwork⟩ := hdeliver
    simp only [hok, hnone, ← hnetwork]
    cases herr : (r.takes input).error with
    | some e => exact ⟨u, hu, humax.trans hmax', hclose⟩
    | none =>
      simp only [Call.bind_ok (modifyResponder_ok hr' _)]
      have hmodify := modify_network t id fun r' => { r' with
        deserializer := { r.deserializer with inputData := (r.takes input).rest } }
      cases eof with
      | false => exact ⟨_, rfl, hmax', hmodify⟩
      | true =>
        obtain ⟨v, hv, hvmax, hvclose⟩ := closeClient_network (s := { t with
          responders := t.responders.modify id fun r' => { r' with
            deserializer := { r.deserializer with inputData := (r.takes input).rest } } })
          ((find_modify_own hr' _ id).trans (if_pos rfl))
        refine ⟨v, hv, hvmax.trans hmax', ?_⟩
        rw [hvclose, hmodify, Network.update_update]
        rfl
  next m rest hsome =>
    obtain ⟨n, e, hfail, hn, hnetwork⟩ := hdeliver
    simp only [hfail, hsome, ← hn]
    refine ⟨u, hu, humax.trans hmax', ?_⟩
    rw [hclose, hnetwork, Network.update_update]
    have hown : t.connection id = (n.connections id).log (.received id m) := by
      show t.network.connections id = _
      rw [hnetwork, Network.update_connections, if_pos rfl]
    rw [hown]

theorem onConnectionPending_network (s : Server) (id : ResponderId) :
    (s.onConnectionPending id).network = s.network.connect id := by
  have hconnection : (s.network.connections id).responder = s.responders.find id := rfl
  simp only [Network.connect, hconnection]
  cases hr : s.responders.find id with
  | some r => simp [onConnectionPending, Registry.insert, hr]
  | none =>
    refine network_update rfl rfl fun j => ?_
    refine Connection.ext ((Registry.find_insert hr {} j).trans ?_) ?_
    · split <;> rfl
    · split
      next hj => rw [hj]; rfl
      next => rfl

/-- Each step of a server without a limit is the step of the network, and returns. -/
theorem trafficStep_network (rx : Regex) (hmax : s.maxOBuf = 0) (e : Traffic) :
    ∃ t, s.trafficStep rx e = some t ∧ t.maxOBuf = 0 ∧ t.network = s.network.step rx e := by
  cases e with
  | connect id => exact ⟨_, rfl, hmax, onConnectionPending_network s id⟩
  | input id bytes eof =>
    cases hr : s.responders.find id with
    | none =>
      refine ⟨s, by simp [trafficStep, hr], hmax, ?_⟩
      have hconnection : (s.network.connections id).responder = none := hr
      simp only [Network.step, Network.input, hconnection]
    | some r =>
      obtain ⟨t, ht, hmax', hnetwork⟩ := onInput_network hr hmax bytes eof
      refine ⟨t, ?_, hmax', hnetwork⟩
      simp only [trafficStep, hr, Option.isSome_some, if_true, ht]
  | output id count => exact ⟨_, rfl, hmax, modify_network s id _⟩

/-- The server refines the network over whole runs. -/
theorem run_network (rx : Regex) (hmax : s.maxOBuf = 0) (es : List Traffic) :
    ∃ t, Runs.run (trafficStep rx) s es = some t ∧ t.maxOBuf = 0 ∧
      t.network = es.foldl (Network.step rx) s.network := by
  induction es generalizing s with
  | nil => exact ⟨s, rfl, hmax, rfl⟩
  | cons e es ih =>
    obtain ⟨t, ht, hmax', hnetwork⟩ := trafficStep_network rx hmax e
    obtain ⟨u, hu, humax, hrest⟩ := ih hmax'
    refine ⟨u, Runs.run_cons.mpr ⟨t, ht, hu⟩, humax, ?_⟩
    rw [hrest, hnetwork, List.foldl_cons]

end Server

end TntPub

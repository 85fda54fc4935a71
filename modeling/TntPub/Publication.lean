import TntPub.HookedServers
import TntPub.Runs

namespace TntPub

open Framing Broadcast

/-- A server with its sockets; `connected` are the connections ever made, `own` the messages
the server was told to send itself, and `written` the bytes that were written. -/
structure Hub where
  server : Server := {}
  connected : List ResponderId := []
  own : List DataMessage := []
  written : ResponderId → Bytes := fun _ => []

/-- What can happen to a server: its sockets come, deliver bytes, take bytes and fail, and
`sendMessage` is called. -/
inductive HubEvent
  | connect (id : ResponderId)
  | input (id : ResponderId) (bytes : Bytes) (eof : Bool)
  | readFailed (id : ResponderId)
  | output (id : ResponderId) (count : Nat)
  | outputFailed (id : ResponderId)
  | send (m : DataMessage)

namespace Hub

def after (h : Hub) (result : EStateM.Result Interrupt Server Unit) : Option Hub :=
  match result with
  | .ok _ server => some { h with server := server }
  | .error _ _ => none

/-- One event, if it can happen and leaves the behaviour defined. -/
def step (rx : Regex) (hook : Hook) (h : Hub) : HubEvent → Option Hub
  | .connect id =>
    if id ∈ h.connected then none
    else some { h with
      server := h.server.onConnectionPending id
      connected := h.connected ++ [id] }
  | .input id bytes eof => h.after (HookedServer.onInput rx hook id bytes eof h.server)
  | .readFailed id =>
    match h.server.responders.find id with
    | none => none
    | some _ => h.after (Server.catchException id h.server)
  | .output id count =>
    match h.server.responders.find id with
    | none => none
    | some r => some { h with
      server := h.server.drain id count
      written := Function.update h.written id (h.written id ++ r.outputBuffer.take count) }
  | .outputFailed id => h.after (Server.closeClient id h.server)
  | .send m => { h with own := h.own ++ [m] }.after (Server.doSendMessage rx m h.server)

variable {rx : Regex} {hook : Hook} {h h' : Hub} {log more : Log} {id j : ResponderId}
  {r : Responder} {m : DataMessage} {t : Server}

/-- The log accounts for all that was handled and sent, and a socket carries the frames of
what matched, byte by byte. -/
structure Published (rx : Regex) (hook : Hook) (h : Hub) (log : Log) : Prop where
  lastSerial : h.server.lastSerial = log.serialAfter 0
  sent : h.server.sent = log.published hook 0
  handled : ∀ j, h.server.handledFrom j = contribution log (some j)
  own : h.own = contribution log none
  queued : ∀ j r, h.server.responders.find j = some r →
    h.written j ++ r.outputBuffer = frames (h.server.matchedBy rx j)
  written : ∀ j, h.written j <+: frames (h.server.matchedBy rx j)
  fresh : ∀ j, j ∉ h.connected → h.server.responders.find j = none ∧
    h.server.handledFrom j = [] ∧ h.server.matchedBy rx j = [] ∧ h.written j = []

theorem published_new (rx : Regex) (hook : Hook) (maxOBuf : Nat) :
    ({ server := { maxOBuf := maxOBuf } } : Hub).Published rx hook [] where
  lastSerial := rfl
  sent := rfl
  handled _ := rfl
  own := rfl
  queued := nofun
  written _ := List.prefix_rfl
  fresh _ _ := ⟨rfl, rfl, rfl, rfl⟩

theorem Published.publishes (hp : h.Published rx hook log)
    (hs : Server.Publishes rx hook more h.server t)
    (hfrom : ∀ j, h.server.responders.find j = none → contribution more (some j) = []) :
    Published rx hook { h with server := t, own := h.own ++ contribution more none }
      (log ++ more) where
  lastSerial := by rw [hs.lastSerial, hp.lastSerial, Log.serialAfter_append]
  sent := by rw [hs.sent, hp.sent, hp.lastSerial, Log.published_append]
  handled j := by rw [hs.handled, hp.handled, contribution_append]
  own := by rw [hp.own, contribution_append]
  queued j r' hr' := by
    cases hr : h.server.responders.find j with
    | none =>
      rw [(hs.destroyed j hr).1] at hr'
      cases hr'
    | some r =>
      obtain ⟨new, hmatched, hkept⟩ := hs.queued j r hr
      rw [hmatched, (hkept r' hr').2, frames_append, ← hp.queued j r hr, List.append_assoc]
  written j := by
    cases hr : h.server.responders.find j with
    | none =>
      rw [(hs.destroyed j hr).2]
      exact hp.written j
    | some r =>
      obtain ⟨new, hmatched, -⟩ := hs.queued j r hr
      rw [hmatched, frames_append]
      exact (hp.written j).trans (List.prefix_append _ _)
  fresh j hj := by
    obtain ⟨hnone, hhandled, hmatched, hwritten⟩ := hp.fresh j hj
    obtain ⟨hnone', hmatched'⟩ := hs.destroyed j hnone
    refine ⟨hnone', ?_, hmatched'.trans hmatched, hwritten⟩
    rw [hs.handled, hhandled, hfrom j hnone, List.append_nil]

/-- What a connection has read but not yet handled does not matter to the others. -/
theorem Published.withInput (hp : h.Published rx hook log) (id : ResponderId) (d : Deserializer) :
    Published rx hook { h with server := { h.server with
      responders := h.server.responders.modify id fun r => { r with deserializer := d } } }
      log where
  lastSerial := hp.lastSerial
  sent := hp.sent
  handled := hp.handled
  own := hp.own
  queued j r' hr' := by
    simp only [Registry.find_modify] at hr'
    split at hr'
    next hj =>
      obtain ⟨r, hr, rfl⟩ := Option.map_eq_some_iff.mp hr'
      exact hp.queued j r hr
    next => exact hp.queued j r' hr'
  written := hp.written
  fresh j hj := by
    obtain ⟨hnone, hrest⟩ := hp.fresh j hj
    refine ⟨?_, hrest⟩
    simp [hnone]

theorem Published.connect (hp : h.Published rx hook log) (hid : id ∉ h.connected) :
    Published rx hook { h with
      server := h.server.onConnectionPending id
      connected := h.connected ++ [id] } log := by
  obtain ⟨hnone, -, hmatched, hwritten⟩ := hp.fresh id hid
  have hfind := Registry.find_insert hnone ({} : Responder)
  refine ⟨hp.lastSerial, hp.sent, hp.handled, hp.own, fun j r hr => ?_, hp.written,
    fun j hj => ?_⟩
  · rw [Server.onConnectionPending, hfind] at hr
    split at hr
    next hji =>
      obtain rfl := Option.some.inj hr
      subst hji
      change h.written j ++ [] = frames (h.server.matchedBy rx j)
      rw [hwritten, hmatched]
      rfl
    next => exact hp.queued j r hr
  · simp only [List.mem_append, List.mem_singleton, not_or] at hj
    obtain ⟨hnone', hrest⟩ := hp.fresh j hj.1
    exact ⟨((hfind j).trans (if_neg hj.2)).trans hnone', hrest⟩

theorem Published.output (hp : h.Published rx hook log)
    (hr : h.server.responders.find id = some r) (count : Nat) :
    Published rx hook { h with
      server := h.server.drain id count
      written := Function.update h.written id (h.written id ++ r.outputBuffer.take count) }
      log := by
  have hown : h.written id ++ r.outputBuffer.take count ++ r.outputBuffer.drop count =
      frames (h.server.matchedBy rx id) := by
    rw [List.append_assoc, List.take_append_drop]
    exact hp.queued id r hr
  refine ⟨hp.lastSerial, hp.sent, hp.handled, hp.own, fun j q hq => ?_, fun j => ?_,
    fun j hj => ?_⟩
  · by_cases hji : j = id
    · subst hji
      simp only [Server.drain, Registry.find_modify, if_true, hr, Option.map_some] at hq
      obtain rfl := Option.some.inj hq
      simp only [Function.update_self]
      exact hown
    · simp only [Server.drain, Registry.find_modify, if_neg hji] at hq
      simp only [Function.update_of_ne hji]
      exact hp.queued j q hq
  · by_cases hji : j = id
    · subst hji
      simp only [Function.update_self]
      exact ⟨_, hown⟩
    · simp only [Function.update_of_ne hji]
      exact hp.written j
  · obtain ⟨hnone, hhandled, hmatched, hwritten⟩ := hp.fresh j hj
    have hji : j ≠ id := by
      rintro rfl
      rw [hr] at hnone
      cases hnone
    refine ⟨?_, hhandled, hmatched, ?_⟩
    · simp [Server.drain, hji, hnone]
    · simp only [Function.update_of_ne hji]
      exact hwritten

theorem after_eq {result : EStateM.Result Interrupt Server Unit}
    (hstep : h.after result = some h') :
    ∃ t, result = .ok () t ∧ h' = { h with server := t } := by
  cases result with
  | ok a t => exact ⟨t, rfl, (Option.some.inj hstep).symm⟩
  | error e t => cases hstep

theorem Published.closed (hp : h.Published rx hook log)
    (hs : Server.Publishes rx hook [] h.server t) :
    Published rx hook { h with server := t } log := by
  have hnext := hp.publishes hs fun j _ => rfl
  rw [contribution_nil, List.append_nil, List.append_nil] at hnext
  exact hnext

theorem contribution_taken (taken : List DataMessage) (j : ResponderId) :
    contribution (taken.map fun m => (some id, m)) (some j) = if j = id then taken else [] := by
  rw [contribution_map]
  by_cases hj : id = j
  · simp [hj]
  · simp [hj, Ne.symm hj]

/-- An input handles some of what the deserializer takes from it, and all of it if the
connection is kept. -/
theorem Published.input {bytes : Bytes} {eof : Bool} (hp : h.Published rx hook log)
    (hr : h.server.responders.find id = some r)
    (hstep : HookedServer.onInput rx hook id bytes eof h.server = .ok () t) :
    ∃ taken, Published rx hook { h with server := t } (log ++ taken.map fun m => (some id, m)) ∧
      taken <+: (r.takes bytes).messages ∧
      (t.responders.find id = none ∨ taken = (r.takes bytes).messages ∧
        (r.takes bytes).error = none ∧ ∃ r', t.responders.find id = some r' ∧
          r'.deserializer = { r.deserializer with inputData := (r.takes bytes).rest }) ∧
      (∀ j, h.server.matchedBy rx j <+: t.matchedBy rx j) ∧
      ∀ j, j ≠ id → ∀ q', t.responders.find j = some q' → ∃ q,
        h.server.responders.find j = some q ∧ q'.deserializer = q.deserializer := by
  have hfrom (taken : List DataMessage) (j : ResponderId)
      (hj : h.server.responders.find j = none) :
      contribution (taken.map fun m => (some id, m)) (some j) = [] := by
    rw [contribution_taken, if_neg]
    rintro rfl
    rw [hr] at hj
    cases hj
  have hown (taken : List DataMessage) :
      h.own ++ contribution (taken.map fun m => (some id, m)) none = h.own := by
    rw [contribution_map, if_neg (by simp), List.append_nil]
  obtain ⟨taken, htaken, ⟨hall, herr, u, hs, rfl⟩ | ⟨hs, hnone⟩⟩ :=
    HookedServer.onInput_publishes hr hstep
  · have hnext := hp.publishes hs (hfrom taken)
    rw [hown] at hnext
    refine ⟨taken, hnext.withInput id _, htaken, ?_, hs.matched, fun j hj q' hq' => ?_⟩
    · cases hq : u.responders.find id with
      | none => exact .inl (by simp [hq])
      | some q =>
        refine .inr ⟨hall, herr, { q with
          deserializer := { r.deserializer with inputData := (r.takes bytes).rest } }, ?_, rfl⟩
        simp [hq]
    · simp only [Registry.find_modify, if_neg hj] at hq'
      exact hs.kept hq'
  · have hnext := hp.publishes hs (hfrom taken)
    rw [hown] at hnext
    exact ⟨taken, hnext, htaken, .inl hnone, hs.matched, fun j _ q' hq' => hs.kept hq'⟩

theorem Published.send (hp : h.Published rx hook log)
    (hstep : Server.doSendMessage rx m h.server = .ok () t) :
    Published rx hook { h with server := t, own := h.own ++ [m] } (log ++ [(none, m)]) :=
  hp.publishes (Server.doSendMessage_publishes rx hook hstep) fun _ _ => rfl

/-- Every event adds to the log what it has handled. -/
theorem Published.step {e : HubEvent} (hp : h.Published rx hook log)
    (hstep : h.step rx hook e = some h') :
    ∃ more, h'.Published rx hook (log ++ more) := by
  have hsame {g : Hub} (hg : g.Published rx hook log) :
      ∃ more, g.Published rx hook (log ++ more) := ⟨[], by rwa [List.append_nil]⟩
  cases e with
  | connect id =>
    simp only [Hub.step] at hstep
    split at hstep
    next => cases hstep
    next hid => exact hsame (Option.some.inj hstep ▸ hp.connect hid)
  | input id bytes eof =>
    obtain ⟨t, ht, rfl⟩ := after_eq hstep
    cases hr : h.server.responders.find id with
    | none =>
      simp only [HookedServer.onInput, Server.onInputWith, hr] at ht
      cases ht
    | some r =>
      obtain ⟨taken, hnext, -⟩ := hp.input hr ht
      exact ⟨_, hnext⟩
  | readFailed id =>
    simp only [Hub.step] at hstep
    split at hstep
    next => cases hstep
    next r hr =>
      obtain ⟨t, ht, rfl⟩ := after_eq hstep
      exact hsame (hp.closed (Server.catchException_publishes rx hook hr ht).1)
  | output id count =>
    simp only [Hub.step] at hstep
    split at hstep
    next => cases hstep
    next r hr => exact hsame (Option.some.inj hstep ▸ hp.output hr count)
  | outputFailed id =>
    obtain ⟨t, ht, rfl⟩ := after_eq hstep
    obtain ⟨r, hr, hcatch⟩ := Server.closeClient_returned ht
    exact hsame (hp.closed (Server.catchException_publishes rx hook hr hcatch).1)
  | send m =>
    obtain ⟨t, ht, rfl⟩ := after_eq hstep
    exact ⟨_, hp.send ht⟩

theorem Published.run {es : List HubEvent} (hp : h.Published rx hook log)
    (hrun : Runs.run (Hub.step rx hook) h es = some h') :
    ∃ more, h'.Published rx hook (log ++ more) :=
  Runs.record_grows (R := fun h log => h.Published rx hook log)
    (fun _ _ _ _ hp hstep => hp.step hstep) hp hrun

/-- What is sent to all is the messages of the connections, merged in some order, numbered one
after the other and as the hook leaves them, and every socket carries the frames of those that
matched: all of them as long as it is open, and a front part if it was closed. -/
theorem published_in_order (rx : Regex) (hook : Hook) (maxOBuf : Nat) (es : List HubEvent)
    (h : Hub)
    (hrun : Runs.run (Hub.step rx hook) { server := { maxOBuf := maxOBuf } } es = some h) :
    (∃ log : Log, h.server.sent = log.published hook 0 ∧ h.own = contribution log none ∧
      ∀ j, h.server.handledFrom j = contribution log (some j)) ∧
      ∀ j, (h.server.matchedBy rx j).Sublist h.server.sent ∧
        h.written j <+: frames (h.server.matchedBy rx j) ∧
        ∀ r, h.server.responders.find j = some r →
          h.written j ++ r.outputBuffer = frames (h.server.matchedBy rx j) := by
  obtain ⟨log, hp⟩ := (published_new rx hook maxOBuf).run hrun
  rw [List.nil_append] at hp
  exact ⟨⟨log, hp.sent, hp.own, hp.handled⟩,
    fun j => ⟨Server.matchedBy_sublist rx h.server j, hp.written j, hp.queued j⟩⟩

/-- A hook that keeps the answers of connection 0 back. -/
def muted : Hook := fun id m => if id = 0 then none else some m

/-- Connection 1 wants what connections 0 and 2 send. The first is closed for garbage, and the
limit closes connection 1 in the end. -/
def limitedRun : List HubEvent :=
  [.connect 0, .connect 1, .connect 2,
    .input 1 (DataMessage.subscribe ⟨[], 0, 0⟩ { main := [0x61] } .typeFull []).frame false,
    .input 0 (DataMessage.greeting.frame ++ List.replicate 200 0x41) false,
    .input 2 DataMessage.greeting.frame false, .output 1 20, .send .greeting, .output 1 30,
    .input 2 (DataMessage.greeting.frame ++ DataMessage.greeting.frame) true]

theorem published_in_order_limitedRun :
    ∃ h, Runs.run (Hub.step .literal muted) { server := { maxOBuf := 100 } } limitedRun = some h ∧
      h.server.sent.map DataMessage.serial = [2, 0, 3, 4] ∧
      (∃ log : Log, h.server.sent = log.published muted 0 ∧ h.own = contribution log none) ∧
      h.server.responders.find 1 = none ∧
      h.written 1 <+: frames (h.server.matchedBy .literal 1) := by
  have hrun : ∃ h,
      Runs.run (Hub.step .literal muted) { server := { maxOBuf := 100 } } limitedRun = some h ∧
        h.server.sent.map DataMessage.serial = [2, 0, 3, 4] ∧
        h.server.responders.find 1 = none := by
    decide +kernel
  obtain ⟨h, hh, hserial, hnone⟩ := hrun
  obtain ⟨⟨log, hsent, hown, -⟩, hparts⟩ :=
    published_in_order .literal muted 100 limitedRun h hh
  exact ⟨h, hh, hserial, ⟨log, hsent, hown⟩, hnone, (hparts 1).2.1⟩

end Hub

end TntPub

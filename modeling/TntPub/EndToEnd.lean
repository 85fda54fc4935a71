import TntPub.Link

namespace TntPub

open Framing

/-- A server with its clients; `read` is the number of bytes the server has read from each
client, and `written` are the bytes its sockets have sent. -/
structure System where
  server : Server := {}
  clients : ResponderId → Client := fun _ => {}
  read : ResponderId → Nat := fun _ => 0
  written : ResponderId → Bytes := fun _ => []

inductive SystemEvent
  | connect (i : ResponderId)
  | call (i : ResponderId) (call : ClientCall) (counts : List Nat)
  | clientOutput (i : ResponderId) (count : Nat) (handler : List (ClientCall × List Nat))
  | clientInput (i : ResponderId) (size : Nat)
  | serverInput (i : ResponderId) (size : Nat)
  | serverOutput (i : ResponderId) (count : Nat)

/-- The calls of an asynchronous client whose messages fit their header, with patterns that
can be compiled. -/
def ClientCall.isAllowed (rx : Regex) : ClientCall → Bool
  | autoSync _ => false
  | call => call.message.all fun m => decide m.Encodable && m.isAccepted rx

namespace System

variable {rx : Regex} {s s' : System} {i j : ResponderId} {c c' : Client}

def setClient (s : System) (i : ResponderId) (c : Client) : System :=
  { s with clients := Function.update s.clients i c }

/-- The bytes the server can read from a client, also those of a write that is still pending. -/
def toServer (s : System) (i : ResponderId) : Bytes :=
  ((s.clients i).exchange.output ++ (s.clients i).pending.getD []).drop (s.read i)

def toClient (s : System) (i : ResponderId) : Bytes :=
  (s.written i).drop (s.clients i).readCount

/-- One event, if it can happen. No deserializer collects 2^32 bytes. -/
def step (rx : Regex) (s : System) : SystemEvent → Option System
  | .connect i =>
    if (s.clients i).connected then none
    else
      let s := s.setClient i ((s.clients i).connect 0)
      some { s with server := s.server.onConnectionPending i }
  | .call i call counts =>
    if call.isAllowed rx then ((s.clients i).step (.call call counts)).map (s.setClient i)
    else none
  | .clientOutput i count handler =>
    if handler.all fun call => call.1.isAllowed rx then
      ((s.clients i).step (.output count handler)).map (s.setClient i)
    else none
  | .clientInput i size =>
    let bytes := (s.toClient i).take size
    if ((s.clients i).deserializer.inputData ++ bytes).length < 2 ^ 32 then
      ((s.clients i).step (.input bytes .more)).map (s.setClient i)
    else none
  | .serverInput i size =>
    match s.server.responders.find i with
    | none => none
    | some r =>
      let bytes := (s.toServer i).take size
      if (r.deserializer.inputData ++ bytes).length < 2 ^ 32 then
        match Server.onInput rx i bytes false s.server with
        | .ok _ server =>
          some { s with
            server := server
            read := Function.update s.read i (s.read i + bytes.length) }
        | .error _ _ => none
      else none
  | .serverOutput i count =>
    match s.server.responders.find i with
    | none => none
    | some r =>
      some { s with
        server := s.server.drain i count
        written := Function.update s.written i (s.written i ++ r.outputBuffer.take count) }

/-- Every connected client is linked to its responder, and nothing is known of the others. -/
structure Linked (rx : Regex) (s : System) : Prop where
  maxOBuf : s.server.maxOBuf = 0
  connected : ∀ i, (s.clients i).connected = true →
    ∃ r, s.server.responders.find i = some r ∧
      Link rx (s.clients i) r (s.server.handledFrom i) (s.server.matchedBy rx i) (s.read i)
        (s.written i)
  idle : ∀ i, (s.clients i).connected = false →
    s.clients i = {} ∧ s.server.responders.find i = none ∧ s.server.handledFrom i = [] ∧
      s.server.matchedBy rx i = [] ∧ s.read i = 0 ∧ s.written i = []

theorem linked_new (rx : Regex) : Linked rx {} where
  maxOBuf := rfl
  connected := nofun
  idle _ _ := ⟨rfl, rfl, rfl, rfl, rfl, rfl⟩

theorem Linked.isConnected {r : Responder} (h : Linked rx s)
    (hr : s.server.responders.find i = some r) : (s.clients i).connected = true := by
  by_contra hoff
  obtain ⟨-, hnone, -⟩ := h.idle i (by simpa using hoff)
  rw [hr] at hnone
  cases hnone

theorem Linked.setClient (h : Linked rx s) (hc : (s.clients i).connected = true)
    (hc' : c'.connected = true)
    (hlink : ∀ r handled matched,
      Link rx (s.clients i) r handled matched (s.read i) (s.written i) →
        Link rx c' r handled matched (s.read i) (s.written i)) : Linked rx (s.setClient i c') where
  maxOBuf := h.maxOBuf
  connected j hj := by
    by_cases hji : j = i
    · subst hji
      obtain ⟨r, hr, hl⟩ := h.connected j hc
      simp only [System.setClient, Function.update_self]
      exact ⟨r, hr, hlink _ _ _ hl⟩
    · simp only [System.setClient, Function.update_of_ne hji] at hj ⊢
      exact h.connected j hj
  idle j hj := by
    by_cases hji : j = i
    · subst hji
      simp only [System.setClient, Function.update_self, hc'] at hj
      cases hj
    · simp only [System.setClient, Function.update_of_ne hji] at hj ⊢
      exact h.idle j hj

theorem Linked.connect (h : Linked rx s) (hc : (s.clients i).connected = false) :
    Linked rx { s.setClient i ((s.clients i).connect 0) with
      server := s.server.onConnectionPending i } := by
  obtain ⟨hclient, hnone, hhandled, hmatched, hread, hwritten⟩ := h.idle i hc
  have hfind := Registry.find_insert hnone ({} : Responder)
  refine ⟨h.maxOBuf, fun j hj => ?_, fun j hj => ?_⟩
  · by_cases hji : j = i
    · subst hji
      refine ⟨{}, (hfind j).trans (if_pos rfl), ?_⟩
      have hlink := Link.start rx
      simp only [System.setClient, Function.update_self, hclient, hread, hwritten]
      rw [show (s.server.onConnectionPending j).handledFrom j = [] from hhandled,
        show (s.server.onConnectionPending j).matchedBy rx j = [] from hmatched]
      exact hlink
    · simp only [System.setClient, Function.update_of_ne hji] at hj ⊢
      obtain ⟨r, hr, hl⟩ := h.connected j hj
      exact ⟨r, ((hfind j).trans (if_neg hji)).trans hr, hl⟩
  · by_cases hji : j = i
    · subst hji
      simp only [System.setClient, Function.update_self] at hj
      cases hj
    · simp only [System.setClient, Function.update_of_ne hji] at hj ⊢
      obtain ⟨h1, h2, h3⟩ := h.idle j hj
      exact ⟨h1, ((hfind j).trans (if_neg hji)).trans h2, h3⟩

theorem isAllowed_message {call : ClientCall} (h : call.isAllowed rx = true) {m : DataMessage}
    (hm : call.message = some m) : m.Encodable ∧ m.isAccepted rx = true := by
  have hall : (call.message.all fun m => decide m.Encodable && m.isAccepted rx) = true := by
    cases call with
    | autoSync sw => cases h
    | sendMessage k => exact h
    | subscribe o topic type data => exact h
    | subscribeWithObject o topic obj type => exact h
    | unsubscribe o topic type => exact h
    | flush => exact h
  simpa [hm] using hall

theorem Linked.call {call : ClientCall} {counts : List Nat} (h : Linked rx s)
    (hallowed : call.isAllowed rx = true)
    (hstep : (s.clients i).step (.call call counts) = some c') :
    Linked rx (s.setClient i c') := by
  obtain ⟨hc, hcalls⟩ := Client.step_cases hstep
  have hsame := Client.calls_input hcalls
  refine h.setClient hc (hsame.connected.trans hc) fun r handled matched hlink => ?_
  obtain ⟨new, haccepted, hnew⟩ := hlink.buffered.calls_accepted
    (P := fun m => m.Encodable ∧ m.isAccepted rx = true)
    (fun first hfirst m hm => by
      obtain rfl := List.mem_singleton.mp hfirst
      exact isAllowed_message hallowed hm) hcalls
  exact hlink.client (hlink.buffered.calls hcalls) hsame haccepted hnew

theorem Linked.clientOutput {count : Nat} {handler : List (ClientCall × List Nat)}
    (h : Linked rx s) (hallowed : (handler.all fun call => call.1.isAllowed rx) = true)
    (hstep : (s.clients i).step (.output count handler) = some c') :
    Linked rx (s.setClient i c') := by
  obtain ⟨hc, houtput⟩ := Client.step_cases hstep
  have hsame := Client.onOutput_input houtput
  refine h.setClient hc (hsame.connected.trans hc) fun r handled matched hlink => ?_
  obtain ⟨new, haccepted, hnew⟩ := hlink.buffered.onOutput_accepted
    (P := fun m => m.Encodable ∧ m.isAccepted rx = true)
    (fun call hcall m hm => isAllowed_message (List.all_eq_true.mp hallowed call hcall) hm) houtput
  exact hlink.client (hlink.buffered.onOutput houtput) hsame haccepted hnew

theorem Linked.clientInput {size : Nat} (h : Linked rx s)
    (hsize : ((s.clients i).deserializer.inputData ++ (s.toClient i).take size).length < 2 ^ 32)
    (hstep : (s.clients i).step (.input ((s.toClient i).take size) .more) = some c') :
    Linked rx (s.setClient i c') := by
  obtain ⟨⟨hc, -⟩, rfl⟩ := Client.step_cases hstep
  have hc' : ((s.clients i).onInput ((s.toClient i).take size) .more).connected = true := by
    obtain ⟨d, hsame, hd | ⟨unreported, hne, -⟩⟩ :=
      Client.onInput_output (s.clients i) ((s.toClient i).take size) .more
    · rw [hd, hsame.connected, hc]
    · cases hne
  exact h.setClient hc hc' fun r handled matched hlink =>
    hlink.clientInput (List.take_prefix _ _) hsize

/-- The server takes any bytes that are on their way to it, and no connection is lost. -/
theorem Linked.serverInput {r : Responder} {bytes : Bytes} (h : Linked rx s)
    (hr : s.server.responders.find i = some r) (hbytes : bytes <+: s.toServer i)
    (hsize : (r.deserializer.inputData ++ bytes).length < 2 ^ 32) :
    ∃ server, Server.onInput rx i bytes false s.server = .ok () server ∧
      Linked rx { s with
        server := server
        read := Function.update s.read i (s.read i + bytes.length) } := by
  have hc := h.isConnected hr
  obtain ⟨q, hq, hlink⟩ := h.connected i hc
  obtain rfl := Option.some.inj (hr.symm.trans hq)
  have hstream : bytes <+: (s.clients i).stream.drop (s.read i) :=
    hbytes.trans ((Link.handed_prefix hlink.buffered).drop (s.read i))
  obtain ⟨taken, rest, htakes, hms, hlink'⟩ := hlink.serverInput hstream hsize
  obtain ⟨t, hgrows, hinput⟩ := Server.onInput_grows hr h.maxOBuf htakes hms
  refine ⟨_, hinput, hgrows.maxOBuf.trans h.maxOBuf, fun j hj => ?_, fun j hj => ?_⟩
  · obtain ⟨p, hp, hl⟩ := h.connected j hj
    obtain ⟨q', new, hq', hdeserializer, houtput, hmatched, hnew⟩ := hgrows.queued j p hp
    by_cases hji : j = i
    · subst hji
      obtain rfl := Option.some.inj (hr.symm.trans hp)
      refine ⟨{ q' with deserializer := { r.deserializer with inputData := rest } }, ?_, ?_⟩
      · simp [hq']
      · have hh := hgrows.handled j
        rw [if_pos rfl] at hh
        simp only [Function.update_self]
        change Link rx _ _ (t.handledFrom j) (t.matchedBy rx j) _ _
        rw [hh, hmatched]
        exact hlink' _ new rfl houtput hnew
    · refine ⟨q', by simp [hq', hji], ?_⟩
      have hh := hgrows.handled j
      rw [if_neg hji] at hh
      simp only [Function.update_of_ne hji]
      change Link rx _ _ (t.handledFrom j) (t.matchedBy rx j) _ _
      rw [hh, hmatched]
      exact hl.fanout hdeserializer houtput hnew
  · obtain ⟨h1, h2, h3, h4, h5, h6⟩ := h.idle j hj
    obtain ⟨hnone, hmatched⟩ := hgrows.destroyed j h2
    have hji : j ≠ i := by
      rintro rfl
      rw [hr] at h2
      cases h2
    have hh := hgrows.handled j
    rw [if_neg hji] at hh
    exact ⟨h1, by simp [hnone], hh.trans h3, hmatched.trans h4,
      by simp [Function.update_of_ne hji, h5], h6⟩

theorem Linked.serverOutput {r : Responder} (h : Linked rx s)
    (hr : s.server.responders.find i = some r) (count : Nat) :
    Linked rx { s with
      server := s.server.drain i count
      written := Function.update s.written i (s.written i ++ r.outputBuffer.take count) } := by
  refine ⟨h.maxOBuf, fun j hj => ?_, fun j hj => ?_⟩
  · obtain ⟨q, hq, hl⟩ := h.connected j hj
    by_cases hji : j = i
    · subst hji
      obtain rfl := Option.some.inj (hr.symm.trans hq)
      refine ⟨{ r with outputBuffer := r.outputBuffer.drop count }, by simp [Server.drain, hr], ?_⟩
      simp only [Function.update_self]
      exact hl.serverOutput count
    · refine ⟨q, by simp [Server.drain, hji, hq], ?_⟩
      simp only [Function.update_of_ne hji]
      exact hl
  · obtain ⟨h1, h2, h3, h4, h5, h6⟩ := h.idle j hj
    have hji : j ≠ i := by
      rintro rfl
      rw [hr] at h2
      cases h2
    exact ⟨h1, by simp [Server.drain, hji, h2], h3, h4, h5,
      by simp [Function.update_of_ne hji, h6]⟩

theorem Linked.step {e : SystemEvent} (h : Linked rx s) (hstep : s.step rx e = some s') :
    Linked rx s' := by
  cases e with
  | connect i =>
    simp only [System.step] at hstep
    split at hstep
    next => cases hstep
    next hc => exact Option.some.inj hstep ▸ h.connect (by simpa using hc)
  | call i call counts =>
    simp only [System.step] at hstep
    split at hstep
    next hallowed =>
      obtain ⟨c', hc', rfl⟩ := Option.map_eq_some_iff.mp hstep
      exact h.call hallowed hc'
    next => cases hstep
  | clientOutput i count handler =>
    simp only [System.step] at hstep
    split at hstep
    next hallowed =>
      obtain ⟨c', hc', rfl⟩ := Option.map_eq_some_iff.mp hstep
      exact h.clientOutput hallowed hc'
    next => cases hstep
  | clientInput i size =>
    simp only [System.step] at hstep
    split at hstep
    next hsize =>
      obtain ⟨c', hc', rfl⟩ := Option.map_eq_some_iff.mp hstep
      exact h.clientInput hsize hc'
    next => cases hstep
  | serverInput i size =>
    simp only [System.step] at hstep
    split at hstep
    next => cases hstep
    next r hr =>
      split at hstep
      next hsize =>
        obtain ⟨server, hserver, hlinked⟩ := h.serverInput hr (List.take_prefix _ _) hsize
        rw [hserver] at hstep
        exact Option.some.inj hstep ▸ hlinked
      next => cases hstep
  | serverOutput i count =>
    simp only [System.step] at hstep
    split at hstep
    next => cases hstep
    next r hr => exact Option.some.inj hstep ▸ h.serverOutput hr count

end System

end TntPub

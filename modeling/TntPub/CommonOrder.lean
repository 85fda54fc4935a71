import TntPub.Channels

namespace TntPub

open Framing Broadcast

namespace Deployment

variable {rx : Regex} {hook : Hook} {d d' : Deployment} {log more : Log} {i : ResponderId}
  {c : Client} {h : Hub}

structure Linked (rx : Regex) (hook : Hook) (d : Deployment) (log : Log) : Prop where
  published : d.hub.Published rx hook log
  own : ∀ m ∈ d.hub.own, m.Encodable
  channel : ∀ i, Channel (d.clients i) (d.hub.server.handledFrom i)
    (d.hub.server.matchedBy rx i) (d.hub.server.responders.find i) (d.read i) (d.hub.written i)
  fresh : ∀ i, i ∉ d.hub.connected → d.read i = 0

theorem linked_new (rx : Regex) (hook : Hook) (maxOBuf : Nat) :
    ({ hub := { server := { maxOBuf := maxOBuf } } } : Deployment).Linked rx hook [] where
  published := Hub.published_new rx hook maxOBuf
  own := nofun
  channel _ := Channel.idle
  fresh _ _ := rfl

theorem Linked.encodable (hl : d.Linked rx hook log)
    (hhook : ∀ id m k, m.Encodable → hook id m = some k → k.Encodable) (i : ResponderId) :
    ∀ m ∈ d.hub.server.matchedBy rx i, m.Encodable := by
  intro m hm
  have hsent := (Server.matchedBy_sublist rx d.hub.server i).subset hm
  rw [hl.published.sent] at hsent
  refine Hook.encodable_published hhook (fun entry hentry => ?_) m hsent
  obtain ⟨source, k⟩ := entry
  have hk := mem_contribution.mpr hentry
  cases source with
  | none =>
    rw [← hl.published.own] at hk
    exact hl.own k hk
  | some j =>
    rw [← hl.published.handled] at hk
    exact (hl.channel j).sends.encodable k ((hl.channel j).handledFront.subset hk)

theorem Linked.setClient (hl : d.Linked rx hook log)
    (hc : Channel c (d.hub.server.handledFrom i) (d.hub.server.matchedBy rx i)
      (d.hub.server.responders.find i) (d.read i) (d.hub.written i)) :
    (d.setClient i c).Linked rx hook log := by
  refine ⟨hl.published, hl.own, fun j => ?_, hl.fresh⟩
  by_cases hj : j = i
  · subst hj
    rw [setClient_self]
    exact hc
  · rw [setClient_of_ne d c hj]
    exact hl.channel j

theorem Linked.connect (hl : d.Linked rx hook log) (hi : i ∉ d.hub.connected) (autoSync : Bool) :
    Linked rx hook { d.setClient i (({ autoSync := autoSync } : Client).connect 0) with
      hub := { d.hub with
        server := d.hub.server.onConnectionPending i
        connected := d.hub.connected ++ [i] } } log := by
  obtain ⟨hnone, hhandled, hmatched, hwritten⟩ := hl.published.fresh i hi
  have hfind := Registry.find_insert hnone ({} : Responder)
  refine ⟨hl.published.connect hi, hl.own, fun j => ?_, fun j hj => hl.fresh j fun hmem =>
    hj (List.mem_append_left _ hmem)⟩
  have hfindj : (d.hub.server.onConnectionPending i).responders.find j = _ := hfind j
  change Channel _ (d.hub.server.handledFrom j) (d.hub.server.matchedBy rx j) _ (d.read j)
    (d.hub.written j)
  dsimp only
  rw [hfindj]
  by_cases hj : j = i
  · subst hj
    rw [hhandled, hmatched, hl.fresh j hi, hwritten, if_pos rfl]
    simp only [Deployment.setClient, Function.update_self]
    exact Channel.start autoSync
  · rw [if_neg hj]
    simp only [Deployment.setClient, Function.update_of_ne hj]
    exact hl.channel j

/-- An event of the server that handles no message of a client. -/
theorem Linked.server (hl : d.Linked rx hook log)
    (hp : h.Published rx hook (log ++ more)) (hown : ∀ m ∈ h.own, m.Encodable)
    (hconnected : h.connected = d.hub.connected)
    (hmore : ∀ j, contribution more (some j) = [])
    (hmatched : ∀ j, d.hub.server.matchedBy rx j <+: h.server.matchedBy rx j)
    (hkept : ∀ j r', h.server.responders.find j = some r' →
      ∃ r, d.hub.server.responders.find j = some r ∧ r'.deserializer = r.deserializer)
    (hwritten : ∀ j, d.hub.written j <+: h.written j) :
    Linked rx hook { d with hub := h } (log ++ more) := by
  refine ⟨hp, hown, fun j => ?_, fun j hj => hl.fresh j (hconnected ▸ hj)⟩
  have hhandled : h.server.handledFrom j = d.hub.server.handledFrom j := by
    rw [hp.handled, contribution_append, hmore, List.append_nil, hl.published.handled]
  dsimp only
  rw [hhandled]
  exact (hl.channel j).server (hmatched j) (hkept j) (hwritten j)

theorem Linked.serverInput {r : Responder} {bytes : Bytes} {eof : Bool}
    (hl : d.Linked rx hook log) (hr : d.hub.server.responders.find i = some r)
    (hbytes : bytes <+: d.toServer i)
    (hsize : (r.deserializer.inputData ++ bytes).length < 2 ^ 32)
    (hstep : d.hub.step rx hook (.input i bytes eof) = some h) :
    ∃ more, Linked rx hook
      { d with hub := h, read := Function.update d.read i (d.read i + bytes.length) }
      (log ++ more) := by
  obtain ⟨t, ht, rfl⟩ := Hub.after_eq hstep
  obtain ⟨taken, hp, htaken, hresponder, hmatched, hkept⟩ := hl.published.input hr ht
  refine ⟨_, hp, hl.own, fun j => ?_, fun j hj => ?_⟩
  · have hhandled : t.handledFrom j =
        d.hub.server.handledFrom j ++ if j = i then taken else [] := by
      rw [show t.handledFrom j = _ from hp.handled j, contribution_append,
        Hub.contribution_taken, hl.published.handled]
    dsimp only
    rw [hhandled]
    by_cases hj : j = i
    · subst hj
      have hchannel := hl.channel j
      rw [hr] at hchannel
      rw [if_pos rfl]
      simp only [Function.update_self]
      have hkeeps : ∀ r', t.responders.find j = some r' → taken = (r.takes bytes).messages ∧
          r'.deserializer = { r.deserializer with inputData := (r.takes bytes).rest } := by
        intro r' hr'
        rcases hresponder with hnone | ⟨hall, -, q, hq, hdeserializer⟩
        · rw [hnone] at hr'
          cases hr'
        · obtain rfl := Option.some.inj (hq.symm.trans hr')
          exact ⟨hall, hdeserializer⟩
      exact (hchannel.serverInput hbytes hsize htaken hkeeps).server (hmatched j)
        (fun r' hr' => ⟨r', hr', rfl⟩) List.prefix_rfl
    · rw [if_neg hj, List.append_nil]
      simp only [Function.update_of_ne hj]
      exact (hl.channel j).server (hmatched j) (hkept j hj) List.prefix_rfl
  · have hji : j ≠ i := by
      rintro rfl
      rw [(hl.published.fresh j hj).1] at hr
      cases hr
    simp only [Function.update_of_ne hji]
    exact hl.fresh j hj

theorem Linked.serverEvent {e : HubEvent} (hl : d.Linked rx hook log) (he : e.isLocal = true)
    (hstep : d.hub.step rx hook e = some h) :
    ∃ more, Linked rx hook { d with hub := h } (log ++ more) := by
  have hcatch {t : Server} {id : ResponderId} {r : Responder}
      (hr : d.hub.server.responders.find id = some r)
      (ht : Server.catchException id d.hub.server = .ok () t) :
      ∃ more, Linked rx hook { d with hub := { d.hub with server := t } } (log ++ more) := by
    have hs := (Server.catchException_publishes rx hook hr ht).1
    have hp := hl.published.closed hs
    rw [← List.append_nil log] at hp
    exact ⟨[], hl.server hp hl.own rfl (fun _ => rfl) hs.matched (fun j r' hr' => hs.kept hr')
      fun _ => List.prefix_rfl⟩
  cases e with
  | connect id => cases he
  | input id bytes eof => cases he
  | readFailed id =>
    simp only [Hub.step] at hstep
    split at hstep
    next => cases hstep
    next r hr =>
      obtain ⟨t, ht, rfl⟩ := Hub.after_eq hstep
      exact hcatch hr ht
  | output id count =>
    simp only [Hub.step] at hstep
    split at hstep
    next => cases hstep
    next r hr =>
      obtain rfl := Option.some.inj hstep
      have hp := hl.published.output hr count
      rw [← List.append_nil log] at hp
      refine ⟨[], hl.server hp hl.own rfl (fun _ => rfl) (fun j => List.prefix_rfl)
        (fun j r' hr' => ?_) fun j => ?_⟩
      · simp only [Server.drain, Registry.find_modify] at hr'
        split at hr'
        next =>
          obtain ⟨q, hq, rfl⟩ := Option.map_eq_some_iff.mp hr'
          exact ⟨q, hq, rfl⟩
        next => exact ⟨r', hr', rfl⟩
      · by_cases hj : j = id
        · subst hj
          simp only [Function.update_self]
          exact List.prefix_append _ _
        · simp only [Function.update_of_ne hj]
          exact List.prefix_rfl
  | outputFailed id =>
    obtain ⟨t, ht, rfl⟩ := Hub.after_eq hstep
    obtain ⟨r, hr, hok⟩ := Server.closeClient_returned ht
    exact hcatch hr hok
  | send m =>
    obtain ⟨t, ht, rfl⟩ := Hub.after_eq hstep
    have hs := Server.doSendMessage_publishes rx hook ht
    refine ⟨[(none, m)], hl.server (hl.published.send ht) (fun k hk => ?_) rfl (fun _ => rfl)
      hs.matched (fun j r' hr' => hs.kept hr') fun _ => List.prefix_rfl⟩
    rcases List.mem_append.mp hk with hk | hk
    · exact hl.own k hk
    · obtain rfl := List.mem_singleton.mp hk
      exact of_decide_eq_true he

theorem Linked.step {e : DeploymentEvent}
    (hhook : ∀ id m k, m.Encodable → hook id m = some k → k.Encodable)
    (hl : d.Linked rx hook log) (hstep : d.step rx hook e = some d') :
    ∃ more, d'.Linked rx hook (log ++ more) := by
  have hsame {d : Deployment} (hl : d.Linked rx hook log) :
      ∃ more, d.Linked rx hook (log ++ more) := ⟨[], by rwa [List.append_nil]⟩
  cases e with
  | connect i autoSync =>
    obtain ⟨h, hh, rfl⟩ := Option.map_eq_some_iff.mp hstep
    simp only [Hub.step] at hh
    split at hh
    next => cases hh
    next hi => exact hsame (Option.some.inj hh ▸ hl.connect hi autoSync)
  | client i e =>
    obtain ⟨he, hmap⟩ := Option.ite_none_right_eq_some.mp hstep
    obtain ⟨c, hc, rfl⟩ := Option.map_eq_some_iff.mp hmap
    exact hsame (hl.setClient ((hl.channel i).client he hc))
  | clientInput i size ending =>
    obtain ⟨hsize, hmap⟩ := Option.ite_none_right_eq_some.mp hstep
    obtain ⟨c, hc, rfl⟩ := Option.map_eq_some_iff.mp hmap
    exact hsame (hl.setClient ((hl.channel i).clientInput (hl.encodable hhook i)
      (hl.published.written i) (List.take_prefix _ _) hsize hc))
  | slotThrows i size returned =>
    obtain ⟨⟨hsize, hc, hreading⟩, hmap⟩ := Option.ite_none_right_eq_some.mp hstep
    obtain ⟨c, hthrows, rfl⟩ := Option.map_eq_some_iff.mp hmap
    exact hsame (hl.setClient ((hl.channel i).slotThrows hc hreading (hl.encodable hhook i)
      (hl.published.written i) (List.take_prefix _ _) hsize hthrows))
  | callThrows i call counts inInput unreported =>
    obtain ⟨⟨hc, hfits⟩, hmap⟩ := Option.ite_none_right_eq_some.mp hstep
    obtain ⟨c, hthrows, rfl⟩ := Option.map_eq_some_iff.mp hmap
    exact hsame (hl.setClient ((hl.channel i).callThrows hc hfits hthrows inInput unreported))
  | serverInput i size eof =>
    simp only [Deployment.step] at hstep
    split at hstep
    next => cases hstep
    next r hr =>
      obtain ⟨hsize, hmap⟩ := Option.ite_none_right_eq_some.mp hstep
      obtain ⟨h, hh, rfl⟩ := Option.map_eq_some_iff.mp hmap
      exact hl.serverInput hr (List.take_prefix _ _) hsize hh
  | server e =>
    obtain ⟨he, hmap⟩ := Option.ite_none_right_eq_some.mp hstep
    obtain ⟨h, hh, rfl⟩ := Option.map_eq_some_iff.mp hmap
    exact hl.serverEvent he hh

theorem Linked.run {es : List DeploymentEvent}
    (hhook : ∀ id m k, m.Encodable → hook id m = some k → k.Encodable)
    (hl : d.Linked rx hook log) (hrun : Runs.run (Deployment.step rx hook) d es = some d') :
    ∃ more, d'.Linked rx hook (log ++ more) :=
  Runs.record_grows (R := fun d log => d.Linked rx hook log)
    (fun _ _ _ _ hl hstep => hl.step hhook hstep) hl hrun

theorem Linked.waiting {r : Responder} (hl : d.Linked rx hook log)
    (hc : (d.clients i).connected = true) (hr : d.hub.server.responders.find i = some r) :
    (∃ waiting, (d.clients i).accepted = d.hub.server.handledFrom i ++ waiting ∧
      frames waiting = r.deserializer.inputData ++ (d.clients i).stream.drop (d.read i)) ∧
    ((d.clients i).reading = true → ∃ waiting,
      d.hub.server.matchedBy rx i = (d.clients i).exchange.dispatched ++ waiting ∧
      frames waiting =
        (d.clients i).deserializer.inputData ++ (d.toClient i ++ r.outputBuffer)) := by
  have hchannel := hl.channel i
  refine ⟨?_, fun hreading => ?_⟩
  · obtain ⟨left, hleft, hframes⟩ := (hchannel.up r hr).2.waiting
    refine ⟨left, hleft, hframes.trans ?_⟩
    rw [Client.stream, (hchannel.sends.buffered hc).whole]
    rfl
  · obtain ⟨left, hleft, hframes⟩ := (hchannel.down hc hreading).2.waiting
    have hwhole : (codec false).encodeAll (d.hub.server.matchedBy rx i) =
        d.hub.written i ++ r.outputBuffer := (hl.published.queued i r hr).symm
    refine ⟨left, hleft, hframes.trans ?_⟩
    rw [hwhole, List.drop_append_of_le_length hchannel.readCount_le]
    rfl

/-- Nothing is on its way between a client and its responder. -/
structure Settled (d : Deployment) (i : ResponderId) (r : Responder) : Prop where
  up : r.deserializer.inputData ++ (d.clients i).stream.drop (d.read i) = []
  down : (d.clients i).deserializer.inputData ++ (d.toClient i ++ r.outputBuffer) = []

theorem Linked.settled (hl : d.Linked rx hook log)
    (hhook : ∀ id m k, m.Encodable → hook id m = some k → k.Encodable)
    (hc : (d.clients i).connected = true) (hreading : (d.clients i).reading = true)
    (hr : d.hub.server.responders.find i = some r) (hsettled : d.Settled i r) :
    d.hub.server.handledFrom i = (d.clients i).accepted ∧
      d.hub.server.matchedBy rx i = (d.clients i).exchange.dispatched := by
  obtain ⟨⟨up, haccepted, hup⟩, hdown⟩ := hl.waiting hc hr
  obtain ⟨down, hmatched, hdown⟩ := hdown hreading
  rw [hsettled.up] at hup
  rw [hsettled.down] at hdown
  have hnothing {waiting : List DataMessage} (hms : ∀ m ∈ waiting, m.Encodable)
      (hframes : frames waiting = []) : waiting = [] :=
    Codec.eq_nil_of_incomplete (C := codec false) hms (by
      rw [show (codec false).encodeAll waiting = [] from hframes]
      exact (codec false).front_nil)
  have hup' : up = [] := hnothing (fun m hm => (hl.channel i).sends.encodable m (by
    rw [haccepted]; exact List.mem_append_right _ hm)) hup
  have hdown' : down = [] := hnothing (fun m hm => hl.encodable hhook i m (by
    rw [hmatched]; exact List.mem_append_right _ hm)) hdown
  constructor
  · rw [haccepted, hup', List.append_nil]
  · rw [hmatched, hdown', List.append_nil]

/-- Whatever fails and whoever leaves, there is one order of all messages in which every client
has a front part of what it was told to send, and every client is given a front part of what
matched its subscriptions. On a connection that is there on both sides the rest is on its way. -/
theorem delivered_in_order (rx : Regex) (hook : Hook) (maxOBuf : Nat) (es : List DeploymentEvent)
    (d : Deployment) (hhook : ∀ id m k, m.Encodable → hook id m = some k → k.Encodable)
    (hrun : Runs.run (Deployment.step rx hook) { hub := { server := { maxOBuf := maxOBuf } } } es =
      some d) :
    (∃ log : Log, d.hub.server.sent = log.published hook 0 ∧ d.hub.own = contribution log none ∧
      ∀ i, contribution log (some i) = d.hub.server.handledFrom i) ∧
    ∀ i, d.hub.server.handledFrom i <+: (d.clients i).accepted ∧
      (d.clients i).exchange.dispatched <+: d.hub.server.matchedBy rx i ∧
      (d.hub.server.matchedBy rx i).Sublist d.hub.server.sent ∧
      ∀ r, (d.clients i).connected = true → d.hub.server.responders.find i = some r →
        (∃ waiting, (d.clients i).accepted = d.hub.server.handledFrom i ++ waiting ∧
          frames waiting = r.deserializer.inputData ++ (d.clients i).stream.drop (d.read i)) ∧
        ((d.clients i).reading = true → ∃ waiting,
          d.hub.server.matchedBy rx i = (d.clients i).exchange.dispatched ++ waiting ∧
          frames waiting =
            (d.clients i).deserializer.inputData ++ (d.toClient i ++ r.outputBuffer)) := by
  obtain ⟨log, hl⟩ := (linked_new rx hook maxOBuf).run hhook hrun
  rw [List.nil_append] at hl
  refine ⟨⟨log, hl.published.sent, hl.published.own, fun i => (hl.published.handled i).symm⟩,
    fun i => ⟨(hl.channel i).handledFront, (hl.channel i).dispatchedFront,
      Server.matchedBy_sublist rx d.hub.server i, fun r hc hr => hl.waiting hc hr⟩⟩

/-- Clients 0 and 2 subscribe to what client 1 sends. Client 1 leaves when a part of its second
message was written, and client 0 when it has received the first. -/
def leavingRun : List DeploymentEvent :=
  [.connect 0 false, .connect 1 false, .connect 2 true,
    .client 0 (.call (.subscribe ⟨[], 0, 0⟩ { main := [0x61] } .typeFull []) []),
    .client 0 (.output 41 []), .serverInput 0 41 false,
    .client 2 (.call (.subscribe ⟨[], 0, 0⟩ { main := [0x61] } .typeFull []) [20, 21]),
    .serverInput 2 30 false, .serverInput 2 11 false,
    .client 1 (.call (.sendMessage .greeting) []), .serverInput 1 43 false,
    .client 1 (.output 43 []), .client 1 (.call (.sendMessage .greeting) []),
    .client 1 (.endWriteFailed 20), .serverInput 1 20 true, .server (.output 0 43),
    .server (.output 2 43), .clientInput 2 43 .more, .clientInput 0 43 .more,
    .client 0 (.endReadFailed 0), .server (.outputFailed 0)]

theorem delivered_in_order_leavingRun :
    ∃ d, Runs.run (Deployment.step .literal .default) { hub := { server := { maxOBuf := 100 } } }
        leavingRun = some d ∧
      d.hub.server.handledFrom 1 = [.greeting] ∧
      (d.clients 1).accepted = [.greeting, .greeting] ∧
      (d.clients 2).exchange.dispatched <+: d.hub.server.matchedBy .literal 2 := by
  have hrun : ∃ d, Runs.run (Deployment.step .literal .default)
        { hub := { server := { maxOBuf := 100 } } } leavingRun = some d ∧
      d.hub.server.handledFrom 1 = [.greeting] ∧
      (d.clients 1).accepted = [.greeting, .greeting] := by
    decide +kernel
  obtain ⟨d, hd, hhandled, haccepted⟩ := hrun
  obtain ⟨-, hparts⟩ := delivered_in_order .literal .default 100 leavingRun d
    (fun _ _ _ h hk => Option.some.inj hk ▸ h) hd
  exact ⟨d, hd, hhandled, haccepted, (hparts 2).2.1⟩

end Deployment

end TntPub

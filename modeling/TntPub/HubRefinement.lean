import TntPub.Refinement

namespace TntPub

open Framing Broadcast Brokers

namespace Hub

open Server

variable {rx : Regex} {hook : Hook} {h h' : Hub} {b : Brokerage} {id : ResponderId}
  {m : DataMessage}

/-- The broker that a server with its sockets is. -/
structure Refines (rx : Regex) (hook : Hook) (h : Hub) (b : Brokerage) : Prop where
  abstracts : h.server.Abstracts rx h.own h.connected b
  sound : Sound (hook.rules rx) b

theorem refines_new (rx : Regex) (hook : Hook) (maxOBuf : Nat) :
    Refines rx hook { server := { maxOBuf := maxOBuf } } { common := 0 } where
  abstracts := ⟨⟨rfl, rfl, fun _ => rfl, rfl, fun _ => rfl, rfl⟩, fun _ => rfl⟩
  sound := sound_new _ _

theorem Refines.follows {t : Server} (hb : h.Refines rx hook b)
    (hfollows : h.server.Follows rx hook t) :
    ∃ history b', Runs.run (Brokers.step (hook.rules rx)) b history = some b' ∧
      Refines rx hook { h with server := t } b' := by
  obtain ⟨history, b', hrun, hb'⟩ := hfollows _ _ b hb.abstracts
  exact ⟨history, b', hrun, hb', hb.sound.run hrun⟩

theorem Refines.connect (hb : h.Refines rx hook b) (hid : id ∉ h.connected) :
    ∃ history b', Runs.run (Brokers.step (hook.rules rx)) b history = some b' ∧
      Refines rx hook { h with
        server := h.server.onConnectionPending id
        connected := h.connected ++ [id] } b' := by
  obtain ⟨habstracts, hsound⟩ := hb
  have hnew : id ∉ b.arrived := habstracts.arrived ▸ hid
  have hnone : h.server.responders.find id = none := by
    by_contra hsome
    apply hnew
    apply hsound.members
    rw [habstracts.members, isSome_subscriptionsOf]
    exact Option.ne_none_iff_isSome.mp hsome
  refine ⟨[.arrive id], _, Runs.run_cons.mpr ⟨_, step_arrive hnew, rfl⟩, ?_, hsound.arrive hnew⟩
  refine ⟨⟨habstracts.common, habstracts.published, habstracts.handled, habstracts.own,
    habstracts.inbox, ?_⟩, fun i => ?_⟩
  · show b.arrived ++ [id] = h.connected ++ [id]
    rw [habstracts.arrived]
  · show Function.update b.members id (some []) i = _
    rw [subscriptionsOf_connect h hnone]
    split
    next hi => rw [hi, Function.update_self]
    next hi => rw [Function.update_of_ne hi, habstracts.members]

theorem Refines.send {t : Server} (hb : h.Refines rx hook b)
    (hstep : doSendMessage rx m h.server = .ok () t) :
    ∃ history b', Runs.run (Brokers.step (hook.rules rx)) b history = some b' ∧
      Refines rx hook { h with server := t, own := h.own ++ [m] } b' := by
  have hpublishes := doSendMessage_publishes rx hook hstep
  obtain ⟨u, hu, hshared, hparts⟩ := doSendMessage_spec rx m h.server
  rw [hu] at hstep
  obtain ⟨-, rfl⟩ := EStateM.Result.ok.inj hstep
  have hrecorded := hb.abstracts.record hpublishes
    (matchedBy_dispatched rx hook (congrArg Shared.dispatches hshared))
  have hkept (i : ResponderId) : u.subscriptionsOf i = none ∨
      u.subscriptionsOf i = (b.record (hook.rules rx) none m).members i := by
    show _ ∨ _ = b.members i
    rw [hb.abstracts.members]
    exact offered_subscriptions (fun i => ⟨_, hparts i, rfl⟩) i
  obtain ⟨history, b', hrun, hb'⟩ := hrecorded.departs hook h.server.responders.slots_nodup
    (fun i hi => mem_slots_of_member hb.abstracts i hi) hkept
  exact ⟨.announce m :: history, b', Runs.run_cons.mpr ⟨_, rfl, hrun⟩, hb',
    (hb.sound.announce m).run hrun⟩

theorem Refines.step {e : HubEvent} (hb : h.Refines rx hook b)
    (hstep : h.step rx hook e = some h') :
    ∃ history b', Runs.run (Brokers.step (hook.rules rx)) b history = some b' ∧
      h'.Refines rx hook b' := by
  cases e with
  | connect id =>
    simp only [Hub.step] at hstep
    split at hstep
    next => cases hstep
    next hid =>
      obtain rfl := Option.some.inj hstep
      exact hb.connect hid
  | input id bytes eof =>
    obtain ⟨t, ht, rfl⟩ := after_eq hstep
    cases hr : h.server.responders.find id with
    | none =>
      simp only [HookedServer.onInput, Server.onInputWith, hr] at ht
      cases ht
    | some r => exact hb.follows ((HookedServer.keeps_follows rx hook id).onInput hr ht)
  | readFailed id =>
    simp only [Hub.step] at hstep
    split at hstep
    next => cases hstep
    next r hr =>
      obtain ⟨t, ht, rfl⟩ := after_eq hstep
      exact hb.follows (catchException_follows hr ht)
  | output id count =>
    simp only [Hub.step] at hstep
    split at hstep
    next => cases hstep
    next r hr =>
      obtain rfl := Option.some.inj hstep
      obtain ⟨history, b', hrun, hb'⟩ := hb.follows (modify_follows h.server id
        (f := fun r => { r with outputBuffer := r.outputBuffer.drop count }) fun _ => rfl)
      exact ⟨history, b', hrun, hb'.abstracts, hb'.sound⟩
  | outputFailed id =>
    obtain ⟨t, ht, rfl⟩ := after_eq hstep
    obtain ⟨r, hr, hcatch⟩ := closeClient_returned ht
    exact hb.follows (catchException_follows hr hcatch)
  | send m =>
    obtain ⟨t, ht, rfl⟩ := after_eq hstep
    exact hb.send ht

theorem Refines.run {es : List HubEvent} (hb : h.Refines rx hook b)
    (hrun : Runs.run (Hub.step rx hook) h es = some h') :
    ∃ history b', Runs.run (Brokers.step (hook.rules rx)) b history = some b' ∧
      h'.Refines rx hook b' :=
  Runs.simulated (fun _ _ _ _ hb hstep => hb.step hstep) hb hrun

end Hub

namespace Deployment

variable {rx : Regex} {hook : Hook} {d : Deployment}

/-- Clients and server together are a broker: there is one history of connections that come and
go and of messages that are taken from them, in which each client has handed in a front part of
what it was told to send and is given a front part of its inbox. The server holds what the
members want, and writes the frames of their inboxes. -/
theorem serves_as_broker (rx : Regex) (hook : Hook) (maxOBuf : Nat) (es : List DeploymentEvent)
    (d : Deployment) (hhook : ∀ id m k, m.Encodable → hook id m = some k → k.Encodable)
    (hrun : Runs.run (Deployment.step rx hook) { hub := { server := { maxOBuf := maxOBuf } } } es =
      some d) :
    ∃ history b, Runs.run (Brokers.step (hook.rules rx)) { common := 0 } history = some b ∧
      b.published = d.hub.server.sent ∧ b.arrived = d.hub.connected ∧
      contribution b.taken none = d.hub.own ∧
      ∀ i, b.members i = d.hub.server.subscriptionsOf i ∧
        (∀ subscriptions, b.members i = some subscriptions → subscriptions =
          (contribution b.taken (some i)).foldl (fun known m => m.requested rx known) []) ∧
        contribution b.taken (some i) <+: (d.clients i).accepted ∧
        d.hub.written i <+: frames (b.inbox i) ∧
        (d.clients i).exchange.dispatched <+: b.inbox i ∧
        ∀ r, d.hub.server.responders.find i = some r →
          d.hub.written i ++ r.outputBuffer = frames (b.inbox i) ∧
          ((d.clients i).connected = true → (d.clients i).reading = true → d.Settled i r →
            contribution b.taken (some i) = (d.clients i).accepted ∧
              (d.clients i).exchange.dispatched = b.inbox i) := by
  obtain ⟨log, hl⟩ := (linked_new rx hook maxOBuf).run hhook hrun
  obtain ⟨hubEvents, hhub⟩ := run_hub hrun
  obtain ⟨history, b, hhistory, habstracts, hsound⟩ := (Hub.refines_new rx hook maxOBuf).run hhub
  refine ⟨history, b, hhistory, habstracts.published, habstracts.arrived, habstracts.own,
    fun i => ⟨habstracts.members i, hsound.interest i, ?_, ?_, ?_, fun r hr => ⟨?_, ?_⟩⟩⟩
  · rw [habstracts.handled]
    exact (hl.channel i).handledFront
  · rw [habstracts.inbox]
    exact hl.published.written i
  · rw [habstracts.inbox]
    exact (hl.channel i).dispatchedFront
  · rw [habstracts.inbox]
    exact hl.published.queued i r hr
  · intro hc hreading hsettled
    obtain ⟨hhandled, hmatched⟩ := hl.settled hhook hc hreading hr hsettled
    rw [habstracts.handled, habstracts.inbox]
    exact ⟨hhandled, hmatched.symm⟩

theorem serves_as_broker_leavingRun :
    ∃ d history b, Runs.run (Deployment.step .literal .default)
        { hub := { server := { maxOBuf := 100 } } } leavingRun = some d ∧
      Runs.run (Brokers.step (Hook.default.rules .literal)) { common := 0 } history = some b ∧
      b.published = [{ DataMessage.greeting with serial := 1 }] ∧ b.members 0 = none ∧
      (d.clients 2).exchange.dispatched <+: b.inbox 2 := by
  have hrun : ∃ d, Runs.run (Deployment.step .literal .default)
        { hub := { server := { maxOBuf := 100 } } } leavingRun = some d ∧
      d.hub.server.sent = [{ DataMessage.greeting with serial := 1 }] ∧
      d.hub.server.responders.find 0 = none := by
    decide +kernel
  obtain ⟨d, hd, hsent, hnone⟩ := hrun
  obtain ⟨history, b, hhistory, hpublished, -, -, hparts⟩ := serves_as_broker .literal .default
    100 leavingRun d (fun _ _ _ h hk => Option.some.inj hk ▸ h) hd
  refine ⟨d, history, b, hd, hhistory, hpublished.trans hsent, ?_, (hparts 2).2.2.2.2.1⟩
  rw [(hparts 0).1, Server.subscriptionsOf, hnone]
  rfl

end Deployment

end TntPub

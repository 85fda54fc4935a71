import TntPub.CommonOrder

namespace TntPub

open Framing Broadcast

/-- The subscriptions of a connection, as long as it is there. -/
def Server.subscriptionsOf (s : Server) (i : ResponderId) : Option (List Subscription) :=
  (s.responders.find i).map Responder.subscriptions

/-- The subscriptions of a connection when a message was dispatched. -/
def Server.subscriptionsAt (i : ResponderId)
    (dispatch : DataMessage × (ResponderId → Option Responder)) : Option (List Subscription) :=
  (dispatch.2 i).map Responder.subscriptions

def NeverUnsubscribes (ms : List DataMessage) : Prop := ∀ m ∈ ms, m.isUnsubscribeMessage = false

theorem NeverUnsubscribes.front {ms ns : List DataMessage} (h : NeverUnsubscribes ns)
    (hfront : ms <+: ns) : NeverUnsubscribes ms := fun m hm => h m (hfront.subset hm)

namespace Server

variable {rx : Regex} {hook : Hook} {s t u : Server} {i id j : ResponderId} {r : Responder}
  {m k : DataMessage} {log : Log}

/-- As long as a connection is there and takes no subscription back, each dispatch finds the
subscriptions that the one before has found and possibly more. -/
structure Retains (i : ResponderId) (s t : Server) : Prop where
  handled : s.handledFrom i <+: t.handledFrom i
  course : NeverUnsubscribes (t.handledFrom i) → ∃ more,
    t.shared.dispatches = s.shared.dispatches ++ more ∧
    (s.subscriptionsOf i :: (more.map (subscriptionsAt i) ++ [t.subscriptionsOf i])).Pairwise
      Continues

theorem Retains.trans (h : Retains i s t) (h' : Retains i t u) : Retains i s u where
  handled := h.handled.trans h'.handled
  course hnever := by
    obtain ⟨more, hmore, hcourse⟩ := h.course (hnever.front h'.handled)
    obtain ⟨rest, hrest, hcourse'⟩ := h'.course hnever
    refine ⟨more ++ rest, by rw [hrest, hmore, List.append_assoc], ?_⟩
    rw [← List.cons_append] at hcourse
    have hjoin := pairwise_join continues_trans hcourse hcourse'
    rw [List.map_append]
    exact hjoin

theorem Retains.silent (hhandled : s.handledFrom i <+: t.handledFrom i)
    (hshared : t.shared.dispatches = s.shared.dispatches)
    (hkept : NeverUnsubscribes (t.handledFrom i) →
      Continues (s.subscriptionsOf i) (t.subscriptionsOf i)) : Retains i s t where
  handled := hhandled
  course hnever := ⟨[], by rw [hshared, List.append_nil], by simpa using hkept hnever⟩

theorem Retains.offered (hhandled : s.handledFrom i <+: t.handledFrom i)
    (hshared : t.shared.dispatches = s.shared.dispatches ++ [(k, s.responders.find)])
    (hkept : Continues (s.subscriptionsOf i) (t.subscriptionsOf i)) : Retains i s t where
  handled := hhandled
  course _ := by
    refine ⟨_, hshared, ?_⟩
    have hsame : subscriptionsAt i (k, s.responders.find) = s.subscriptionsOf i := rfl
    simp only [List.map_cons, List.map_nil, hsame, List.singleton_append]
    simpa using ⟨continues_refl _, hkept⟩

theorem Retains.refl (i : ResponderId) (s : Server) : Retains i s s :=
  .silent List.prefix_rfl rfl fun _ => continues_refl _

theorem Publishes.handledFront (h : Publishes rx hook log s t) (i : ResponderId) :
    s.handledFrom i <+: t.handledFrom i := by
  rw [h.handled]
  exact List.prefix_append _ _

theorem continues_of_find
    (h : ∀ q, t.responders.find i = some q → ∃ r, s.responders.find i = some r ∧
      r.subscriptions <+: q.subscriptions) :
    Continues (s.subscriptionsOf i) (t.subscriptionsOf i) := by
  intro later hlater
  obtain ⟨q, hq, rfl⟩ := Option.map_eq_some_iff.mp hlater
  obtain ⟨r, hr, hfront⟩ := h q hq
  exact ⟨r.subscriptions, Option.map_eq_some_iff.mpr ⟨r, hr, rfl⟩, hfront⟩

theorem offer_subscriptions {c : Connection} {maxOBuf : Nat} {q : Responder}
    (h : (c.offer rx maxOBuf m j).responder = some q) :
    ∃ r, c.responder = some r ∧ r.subscriptions <+: q.subscriptions := by
  unfold Connection.offer at h
  split at h
  next hnone =>
    rw [hnone] at h
    cases h
  next r hr =>
    refine ⟨r, hr, ?_⟩
    split at h
    next =>
      split at h
      next => cases h
      next =>
        obtain rfl := Option.some.inj h
        exact List.prefix_rfl
    next =>
      obtain rfl := Option.some.inj (hr.symm.trans h)
      exact List.prefix_rfl

theorem control_subscriptions {q : Responder} (h : r.control rx m = .ok q)
    (hm : m.isUnsubscribeMessage = false) : r.subscriptions <+: q.subscriptions := by
  unfold Responder.control at h
  split at h
  next =>
    split at h
    next => cases h
    next =>
      obtain rfl := Except.ok.inj h
      exact List.prefix_append _ _
  next =>
    rw [hm] at h
    obtain rfl := Except.ok.inj h
    exact List.prefix_rfl

theorem retains_closed (i : ResponderId)
    (hfind : ∀ j, t.responders.find j = if j = id then none else s.responders.find j)
    (hserial : t.lastSerial = s.lastSerial) (hmax : t.maxOBuf = s.maxOBuf)
    (hevents : t.events = s.events ++ [.clientDisconnected id]) : Retains i s t := by
  obtain ⟨hpublishes, -⟩ := publishes_closed .literal .default hfind hserial hmax hevents
  refine .silent (hpublishes.handledFront i) ?_ fun _ => continues_of_find fun q hq => ?_
  · simp [shared, Event.dispatch, hevents]
  · rw [hfind] at hq
    split at hq
    next => cases hq
    next => exact ⟨q, hq, List.prefix_rfl⟩

theorem catchException_retains (hr : s.responders.find id = some r)
    (h : catchException id s = .ok () t) (i : ResponderId) : Retains i s t := by
  simp only [catchException, hr, Option.isSome_some, if_true, closeClient_ok hr] at h
  obtain ⟨-, rfl⟩ := EStateM.Result.ok.inj h
  exact retains_closed i (fun j => Registry.find_remove _ _ _) rfl rfl rfl

theorem retains_modify (s : Server) (id : ResponderId) {f : Responder → Responder}
    (hf : ∀ r, (f r).subscriptions = r.subscriptions) (i : ResponderId) :
    Retains i s { s with responders := s.responders.modify id f } := by
  refine .silent List.prefix_rfl rfl fun _ => continues_of_find fun q hq => ?_
  simp only [Registry.find_modify] at hq
  split at hq
  next =>
    obtain ⟨r, hr, rfl⟩ := Option.map_eq_some_iff.mp hq
    exact ⟨r, hr, by rw [hf]⟩
  next => exact ⟨q, hq, List.prefix_rfl⟩

theorem doSendMessage_retains (h : doSendMessage rx m s = .ok () t) (i : ResponderId) :
    Retains i s t := by
  obtain ⟨u, hu, hshared, hparts⟩ := doSendMessage_spec rx m s
  have hpublishes := doSendMessage_publishes rx .default h
  rw [hu] at h
  obtain ⟨-, rfl⟩ := EStateM.Result.ok.inj h
  refine .offered (hpublishes.handledFront i) (congrArg Shared.dispatches hshared)
    (continues_of_find fun q hq => ?_)
  have hfind := congrArg Connection.responder (hparts i)
  rw [connection_responder, hq] at hfind
  exact offer_subscriptions hfind.symm

end Server

namespace HookedServer

open Server

variable {s t : Server} {i id : ResponderId} {r : Responder} {m : DataMessage}

/-- A message changes the subscriptions of its own connection at most. -/
theorem handleMessage_retains (rx : Regex) (hook : Hook) (hr : s.responders.find id = some r)
    (m : DataMessage) (i : ResponderId) :
    match handleMessage rx hook id m s with
    | .ok _ t => Retains i s t
    | .error (.exception _) t => Retains i s t
    | .error .useAfterFree _ => False := by
  have hpublishes := handleMessage_publishes rx hook hr m
  cases hm : m.isDataMessage with
  | true =>
    rw [handleMessage_data rx hook s id hm] at hpublishes ⊢
    let s' : Server :=
      { s with events := s.events ++ [.received id m], lastSerial := s.lastSerial + 1 }
    cases hhook : hook id { m with serial := s.lastSerial + 1 } with
    | none =>
      simp only [processMessage, hhook] at hpublishes ⊢
      refine .silent (hpublishes.handledFront i) ?_ fun _ => continues_refl _
      simp [shared, Event.dispatch]
    | some k =>
      obtain ⟨t, ht, hshared, hparts⟩ := doSendMessage_spec rx k s'
      simp only [processMessage, hhook] at hpublishes ⊢
      rw [ht] at hpublishes ⊢
      refine .offered (k := k) (hpublishes.handledFront i) ?_
        (continues_of_find fun q hq => ?_)
      · rw [hshared]
        simp [s', shared, Event.dispatch]
      · have hfind := congrArg Connection.responder (hparts i)
        rw [connection_responder, hq] at hfind
        exact offer_subscriptions hfind.symm
  | false =>
    rw [handleMessage_control rx hook s id hm] at hpublishes ⊢
    have hspec := Server.handleMessage_control rx hr hm
    cases hc : r.control rx m with
    | ok r' =>
      rw [hc] at hspec
      obtain ⟨t, ht, hshared, hparts⟩ := hspec
      rw [ht] at hpublishes ⊢
      refine .silent (hpublishes.handledFront i) (congrArg Shared.dispatches hshared)
        fun hnever => continues_of_find fun q hq => ?_
      have hfind := congrArg Connection.responder (hparts i)
      rw [connection_responder, hq] at hfind
      split at hfind
      next hi =>
        obtain rfl := Option.some.inj hfind
        refine ⟨r, hi ▸ hr, control_subscriptions hc (hnever m ?_)⟩
        rw [hpublishes.handled, contribution_cons, hi, if_pos rfl]
        simp
      next => exact ⟨q, hfind.symm, List.prefix_rfl⟩
    | error e =>
      rw [hc] at hspec
      obtain ⟨t, ht, hshared, hparts⟩ := hspec
      rw [ht] at hpublishes ⊢
      refine .silent (hpublishes.1.handledFront i) (congrArg Shared.dispatches hshared)
        fun _ => continues_of_find fun q hq => ?_
      have hfind := congrArg Connection.responder (hparts i)
      rw [connection_responder, hq] at hfind
      split at hfind
      next hi =>
        obtain rfl := Option.some.inj hfind
        exact ⟨q, hi ▸ hr, List.prefix_rfl⟩
      next => exact ⟨q, hfind.symm, List.prefix_rfl⟩

theorem keeps_retains (rx : Regex) (hook : Hook) (id i : ResponderId) :
    Keeps rx hook id (Retains i) where
  refl s := .refl i s
  trans _ _ _ h h' := h.trans h'
  handle s r m hr := by
    have hspec := handleMessage_retains rx hook hr m i
    cases hm : handleMessage rx hook id m s with
    | ok a t =>
      rw [hm] at hspec
      exact hspec
    | error e t =>
      rw [hm] at hspec
      cases e with
      | exception e => exact hspec
      | useAfterFree => trivial
  close _ _ _ hr h := catchException_retains hr h i
  read s d := retains_modify s id (f := fun r => { r with deserializer := d }) (fun _ => rfl) i

end HookedServer

namespace Hub

variable {rx : Regex} {hook : Hook} {h h' : Hub} {log : Log} {i : ResponderId}

/-- Every event but the coming of the connection itself. -/
theorem step_retains {e : HubEvent} (hstep : h.step rx hook e = some h') (i : ResponderId) :
    Server.Retains i h.server h'.server ∧ h'.connected = h.connected ∨
      ∃ id, e = .connect id ∧ id ∉ h.connected ∧ h' = { h with
        server := h.server.onConnectionPending id
        connected := h.connected ++ [id] } := by
  cases e with
  | connect id =>
    simp only [Hub.step] at hstep
    split at hstep
    next => cases hstep
    next hid => exact .inr ⟨id, rfl, hid, (Option.some.inj hstep).symm⟩
  | input id bytes eof =>
    obtain ⟨t, ht, rfl⟩ := after_eq hstep
    cases hr : h.server.responders.find id with
    | none =>
      simp only [HookedServer.onInput, Server.onInputWith, hr] at ht
      cases ht
    | some r => exact .inl ⟨(HookedServer.keeps_retains rx hook id i).onInput hr ht, rfl⟩
  | readFailed id =>
    simp only [Hub.step] at hstep
    split at hstep
    next => cases hstep
    next r hr =>
      obtain ⟨t, ht, rfl⟩ := after_eq hstep
      exact .inl ⟨Server.catchException_retains hr ht i, rfl⟩
  | output id count =>
    simp only [Hub.step] at hstep
    split at hstep
    next => cases hstep
    next r hr =>
      obtain rfl := Option.some.inj hstep
      exact .inl ⟨Server.retains_modify h.server id (f := fun r => { r with
        outputBuffer := r.outputBuffer.drop count }) (fun _ => rfl) i, rfl⟩
  | outputFailed id =>
    obtain ⟨t, ht, rfl⟩ := after_eq hstep
    obtain ⟨r, hr, hcatch⟩ := Server.closeClient_returned ht
    exact .inl ⟨Server.catchException_retains hr hcatch i, rfl⟩
  | send m =>
    obtain ⟨t, ht, rfl⟩ := after_eq hstep
    exact .inl ⟨Server.doSendMessage_retains ht i, rfl⟩

theorem subscriptionsOf_connect (h : Hub) {id : ResponderId}
    (hid : h.server.responders.find id = none) (i : ResponderId) :
    (h.server.onConnectionPending id).subscriptionsOf i =
      if i = id then some [] else h.server.subscriptionsOf i := by
  have hfind := Registry.find_insert hid ({} : Responder) i
  rw [Server.subscriptionsOf, Server.onConnectionPending, hfind]
  split <;> rfl

/-- A connection that was made is not made again. -/
theorem retains_run {es : List HubEvent} (hp : h.Published rx hook log)
    (hi : i ∈ h.connected) (hrun : Runs.run (Hub.step rx hook) h es = some h') :
    Server.Retains i h.server h'.server := by
  have keep (g : Hub) (e : HubEvent) (g' : Hub)
      (hg : Server.Retains i h.server g.server ∧ i ∈ g.connected ∧
        ∃ log, g.Published rx hook log) (hstep : g.step rx hook e = some g') :
      Server.Retains i h.server g'.server ∧ i ∈ g'.connected ∧
        ∃ log, g'.Published rx hook log := by
    obtain ⟨hretains, hmem, log, hpublished⟩ := hg
    obtain ⟨more, hnext⟩ := hpublished.step hstep
    rcases step_retains hstep i with ⟨hmore, hconnected⟩ | ⟨id, -, hid, rfl⟩
    · exact ⟨hretains.trans hmore, hconnected ▸ hmem, _, hnext⟩
    · have hne : i ≠ id := fun heq => hid (heq ▸ hmem)
      have hnone := (hpublished.fresh id hid).1
      refine ⟨hretains.trans (.silent List.prefix_rfl rfl fun _ => ?_),
        List.mem_append_left _ hmem, _, hnext⟩
      rw [subscriptionsOf_connect g hnone, if_neg hne]
      exact Broadcast.continues_refl _
  exact (Runs.invariant keep ⟨.refl i h.server, hi, log, hp⟩ hrun).1

/-- Since a connection was made, each dispatch has found its subscriptions, and what the one
before has found as long as it was not closed. -/
def Lasts (i : ResponderId) (h : Hub) : Prop :=
  NeverUnsubscribes (h.server.handledFrom i) → ∃ before after,
    h.server.shared.dispatches = before ++ after ∧
    (∀ e ∈ before, Server.subscriptionsAt i e = none) ∧
    (after.map (Server.subscriptionsAt i) ++ [h.server.subscriptionsOf i]).Pairwise Continues ∧
    (i ∉ h.connected → after = [])

theorem Lasts.retains {t : Server} (hl : h.Lasts i) (hp : h.Published rx hook log)
    (hretains : Server.Retains i h.server t) (hserver : h'.server = t)
    (hconnected : h'.connected = h.connected) : h'.Lasts i := by
  intro hnever
  rw [hserver] at hnever
  rw [hserver, hconnected]
  obtain ⟨before, after, hall, hbefore, hafter, hnew⟩ := hl (hnever.front hretains.handled)
  obtain ⟨more, hmore, hcourse⟩ := hretains.course hnever
  by_cases hi : i ∈ h.connected
  · refine ⟨before, after ++ more, by rw [hmore, hall, List.append_assoc], hbefore, ?_,
      fun hnot => absurd hi hnot⟩
    rw [List.map_append]
    exact pairwise_join continues_trans hafter hcourse
  · have hnone : h.server.subscriptionsOf i = none := by
      rw [Server.subscriptionsOf, (hp.fresh i hi).1]
      rfl
    refine ⟨before ++ more, [], ?_, fun e he => ?_, List.pairwise_singleton _ _, fun _ => rfl⟩
    · rw [hmore, hall, hnew hi, List.append_nil, List.append_nil]
    · rcases List.mem_append.mp he with he | he
      · exact hbefore e he
      · have hcontinues := (List.pairwise_cons.mp hcourse).1 (Server.subscriptionsAt i e)
          (List.mem_append_left _ (List.mem_map_of_mem he))
        by_contra hsome
        have hsome' := hcontinues.isSome (Option.ne_none_iff_isSome.mp hsome)
        rw [hnone] at hsome'
        cases hsome'

theorem Lasts.step {e : HubEvent} (hl : h.Lasts i) (hp : h.Published rx hook log)
    (hstep : h.step rx hook e = some h') : h'.Lasts i := by
  rcases step_retains hstep i with ⟨hretains, hconnected⟩ | ⟨id, -, hid, rfl⟩
  · exact hl.retains hp hretains rfl hconnected
  · intro hnever
    obtain ⟨before, after, hall, hbefore, hafter, hnew⟩ := hl hnever
    refine ⟨before, after, hall, hbefore, ?_, fun hnot => hnew fun hmem =>
      hnot (List.mem_append_left _ hmem)⟩
    dsimp only
    rw [subscriptionsOf_connect h (hp.fresh id hid).1]
    split
    next hi =>
      rw [hnew (hi ▸ hid)]
      exact List.pairwise_singleton _ _
    next => exact hafter

theorem lasts_run {es : List HubEvent} (maxOBuf : Nat) (i : ResponderId)
    (hrun : Runs.run (Hub.step rx hook) { server := { maxOBuf := maxOBuf } } es = some h) :
    h.Lasts i := by
  have keep (g : Hub) (e : HubEvent) (g' : Hub)
      (hg : g.Lasts i ∧ ∃ log, g.Published rx hook log) (hstep : g.step rx hook e = some g') :
      g'.Lasts i ∧ ∃ log, g'.Published rx hook log := by
    obtain ⟨hlasts, log, hpublished⟩ := hg
    obtain ⟨more, hnext⟩ := hpublished.step hstep
    exact ⟨hlasts.step hpublished hstep, _, hnext⟩
  have hstart : Lasts i { server := { maxOBuf := maxOBuf } } :=
    fun _ => ⟨[], [], rfl, nofun, List.pairwise_singleton _ _, fun _ => rfl⟩
  exact (Runs.invariant keep ⟨hstart, [], published_new rx hook maxOBuf⟩ hrun).1

end Hub

end TntPub

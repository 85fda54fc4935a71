import TntPub.Continuity

namespace TntPub

open Framing Broadcast

namespace Server

variable {rx : Regex} {s t : Server} {i : ResponderId} {r : Responder} {x : Topic}
  {dispatches : List (DataMessage × (ResponderId → Option Responder))}

/-- The dispatches of messages on one topic. -/
def onTopic (x : Topic) (dispatch : DataMessage × (ResponderId → Option Responder)) : Bool :=
  dispatch.1.topic = x

/-- A subscription that matches the topic was there. -/
def wants (rx : Regex) (x : Topic) (subscriptions : Option (List Subscription)) : Bool :=
  subscriptions.any (List.any · fun subscription => subscription.matchesTopic rx x)

theorem filter_isSubscribedAt (rx : Regex) (i : ResponderId) (x : Topic) :
    (dispatches.filter (onTopic x)).filter (isSubscribedAt rx i) =
      (dispatches.filter (onTopic x)).filter fun e => wants rx x (subscriptionsAt i e) := by
  apply List.filter_congr
  intro e he
  obtain rfl : e.1.topic = x := by simpa [onTopic] using (List.mem_filter.mp he).2
  rw [isSubscribedAt, wants, subscriptionsAt, Option.any_map]
  rfl

theorem sent_on (s : Server) (x : Topic) :
    s.sent.filter (fun m => m.topic = x) =
      (s.shared.dispatches.filter (onTopic x)).map Prod.fst := by
  rw [sent, List.filter_map]
  rfl

theorem given_on (rx : Regex) (i : ResponderId) (x : Topic)
    (dispatches : List (DataMessage × (ResponderId → Option Responder))) :
    ((dispatches.filter (isSubscribedAt rx i)).map Prod.fst).filter (fun m => m.topic = x) =
      ((dispatches.filter (onTopic x)).filter (isSubscribedAt rx i)).map Prod.fst := by
  rw [List.filter_map, List.filter_filter, List.filter_filter]
  congr 1
  apply List.filter_congr
  intro e _
  exact Bool.and_comm _ _

theorem wants_eq (rx : Regex) (hr : s.responders.find i = some r) (x : Topic) :
    wants rx x (s.subscriptionsOf i) = r.isSubscribed rx x := by
  rw [subscriptionsOf, hr]
  rfl

theorem isSome_of_wants {subscriptions : Option (List Subscription)}
    (h : wants rx x subscriptions = true) : subscriptions.isSome = true := by
  cases subscriptions with
  | none => cases h
  | some subscriptions => rfl

/-- The dispatches that find more and more subscriptions, until the connection is closed, match
in one block of those on a topic. -/
theorem block_on (rx : Regex) (x : Topic)
    (h : (dispatches.map (subscriptionsAt i)).Pairwise Continues) :
    (dispatches.filter (onTopic x)).filter (isSubscribedAt rx i) <:+:
      dispatches.filter (onTopic x) := by
  have hcourse : (dispatches.filter (onTopic x)).Pairwise fun e e' =>
      Continues (subscriptionsAt i e) (subscriptionsAt i e') :=
    (List.pairwise_map.mp h).sublist List.filter_sublist
  rw [filter_isSubscribedAt]
  refine filter_block (q := fun e => (subscriptionsAt i e).isSome) ?_ ?_ ?_
  · exact hcourse.imp fun hcontinues => hcontinues.isSome
  · exact fun e _ hwants => isSome_of_wants hwants
  · exact hcourse.imp fun hcontinues hwants hsome => hcontinues.any hwants hsome

/-- Behind a time at which a topic is wanted, all of it matches until the connection is closed. -/
theorem front_on {subscriptions : Option (List Subscription)} (rx : Regex)
    (hwants : wants rx x subscriptions = true)
    (h : (subscriptions :: dispatches.map (subscriptionsAt i)).Pairwise Continues) :
    (dispatches.filter (onTopic x)).filter (isSubscribedAt rx i) <+:
      dispatches.filter (onTopic x) := by
  obtain ⟨hall, hcourse⟩ := List.pairwise_cons.mp h
  have hcourse' : (dispatches.filter (onTopic x)).Pairwise fun e e' =>
      Continues (subscriptionsAt i e) (subscriptionsAt i e') :=
    (List.pairwise_map.mp hcourse).sublist List.filter_sublist
  rw [filter_isSubscribedAt]
  refine filter_front (hcourse'.imp_of_mem fun {e e'} he he' hcontinues hlater => ?_)
  have hsome := hcontinues.isSome (isSome_of_wants hlater)
  have hmem := List.mem_map_of_mem (f := subscriptionsAt i) (List.mem_filter.mp he).1
  exact (hall _ hmem).any hwants hsome

theorem whole_on {subscriptions : Option (List Subscription)} (rx : Regex)
    (hwants : wants rx x subscriptions = true)
    (h : (subscriptions :: (dispatches.map (subscriptionsAt i) ++
      [s.subscriptionsOf i])).Pairwise Continues) (hr : s.responders.find i = some r) :
    (dispatches.filter (onTopic x)).filter (isSubscribedAt rx i) =
      dispatches.filter (onTopic x) := by
  obtain ⟨hall, hcourse⟩ := List.pairwise_cons.mp h
  rw [filter_isSubscribedAt]
  apply List.filter_eq_self.mpr
  intro e he
  have hmem := List.mem_map_of_mem (f := subscriptionsAt i) (List.mem_filter.mp he).1
  have hlast := (List.pairwise_append.mp hcourse).2.2 _ hmem (s.subscriptionsOf i)
    (List.mem_singleton.mpr rfl)
  have hsome : (s.subscriptionsOf i).isSome = true := by
    rw [subscriptionsOf, hr]
    rfl
  exact (hall _ (List.mem_append_left _ hmem)).any hwants (hlast.isSome hsome)

/-- From the time at which a topic is wanted all of it is given to a connection that is still
there, and a front part of it if the connection was closed. -/
theorem Retains.given_from (h : Retains i s t) (hnever : NeverUnsubscribes (t.handledFrom i))
    (hr : s.responders.find i = some r) (hsub : r.isSubscribed rx x = true) :
    ∃ new given, t.sent = s.sent ++ new ∧ t.matchedBy rx i = s.matchedBy rx i ++ given ∧
      given.filter (fun m => m.topic = x) <+: new.filter (fun m => m.topic = x) ∧
      ∀ r', t.responders.find i = some r' →
        given.filter (fun m => m.topic = x) = new.filter (fun m => m.topic = x) := by
  obtain ⟨new, hnew, hcourse⟩ := h.course hnever
  have hwants : wants rx x (s.subscriptionsOf i) = true := by
    rw [wants_eq rx hr]
    exact hsub
  refine ⟨new.map Prod.fst, (new.filter (isSubscribedAt rx i)).map Prod.fst, ?_, ?_, ?_,
    fun r' hr' => ?_⟩
  · rw [sent, hnew, List.map_append]
    rfl
  · rw [matchedBy, hnew, List.filter_append, List.map_append]
    rfl
  · rw [given_on, List.filter_map]
    rw [← List.cons_append] at hcourse
    exact (front_on rx hwants (List.pairwise_append.mp hcourse).1).map Prod.fst
  · rw [given_on, List.filter_map, whole_on rx hwants hcourse hr']
    rfl

end Server

/-- What matches on a topic is one block of what is sent on it. -/
theorem Hub.Lasts.block {h : Hub} {i : ResponderId} (hl : h.Lasts i) (rx : Regex)
    (hnever : NeverUnsubscribes (h.server.handledFrom i)) (x : Topic) :
    (h.server.matchedBy rx i).filter (fun m => m.topic = x) <:+:
      h.server.sent.filter (fun m => m.topic = x) := by
  obtain ⟨before, after, hall, hbefore, hafter, -⟩ := hl hnever
  have hnone : (before.filter (Server.onTopic x)).filter (Server.isSubscribedAt rx i) = [] := by
    rw [Server.filter_isSubscribedAt]
    apply List.filter_eq_nil_iff.mpr
    intro e he
    rw [hbefore e (List.mem_filter.mp he).1]
    exact nofun
  have hblock := Server.block_on rx x (List.pairwise_append.mp hafter).1
  rw [Server.matchedBy, Server.given_on, Server.sent_on, hall, List.filter_append,
    List.filter_append, hnone, List.nil_append, List.map_append]
  exact (hblock.map Prod.fst).trans (List.suffix_append _ _).isInfix

namespace Deployment

variable {rx : Regex} {hook : Hook} {d d' : Deployment} {i : ResponderId}

theorem step_hub {e : DeploymentEvent} (h : d.step rx hook e = some d') :
    ∃ es, Runs.run (Hub.step rx hook) d.hub es = some d'.hub := by
  have hone {e : HubEvent} {hub : Hub} (hhub : d.hub.step rx hook e = some hub) :
      ∃ es, Runs.run (Hub.step rx hook) d.hub es = some hub :=
    ⟨[e], Runs.run_cons.mpr ⟨hub, hhub, rfl⟩⟩
  cases e with
  | connect i autoSync =>
    obtain ⟨hub, hhub, rfl⟩ := Option.map_eq_some_iff.mp h
    exact hone hhub
  | client i e =>
    obtain ⟨-, hmap⟩ := Option.ite_none_right_eq_some.mp h
    obtain ⟨c, -, rfl⟩ := Option.map_eq_some_iff.mp hmap
    exact ⟨[], rfl⟩
  | clientInput i size ending =>
    obtain ⟨-, hmap⟩ := Option.ite_none_right_eq_some.mp h
    obtain ⟨c, -, rfl⟩ := Option.map_eq_some_iff.mp hmap
    exact ⟨[], rfl⟩
  | slotThrows i size returned =>
    obtain ⟨-, hmap⟩ := Option.ite_none_right_eq_some.mp h
    obtain ⟨c, -, rfl⟩ := Option.map_eq_some_iff.mp hmap
    exact ⟨[], rfl⟩
  | callThrows i call counts inInput unreported =>
    obtain ⟨-, hmap⟩ := Option.ite_none_right_eq_some.mp h
    obtain ⟨c, -, rfl⟩ := Option.map_eq_some_iff.mp hmap
    exact ⟨[], rfl⟩
  | serverInput i size eof =>
    simp only [Deployment.step] at h
    split at h
    next => cases h
    next r hr =>
      obtain ⟨-, hmap⟩ := Option.ite_none_right_eq_some.mp h
      obtain ⟨hub, hhub, rfl⟩ := Option.map_eq_some_iff.mp hmap
      exact hone hhub
  | server e =>
    obtain ⟨-, hmap⟩ := Option.ite_none_right_eq_some.mp h
    obtain ⟨hub, hhub, rfl⟩ := Option.map_eq_some_iff.mp hmap
    exact hone hhub

theorem run_hub {es : List DeploymentEvent}
    (h : Runs.run (Deployment.step rx hook) d es = some d') :
    ∃ es', Runs.run (Hub.step rx hook) d.hub es' = some d'.hub :=
  Runs.run_of_steps Deployment.hub (fun _ _ _ hstep => step_hub hstep) h

/-- A client that takes no subscription back is given the messages on a topic without a gap: one
block of those that are sent, and from the time at which the server knows that it wants the
topic all of them, as long as the connection is open. -/
theorem no_gaps (rx : Regex) (hook : Hook) (maxOBuf : Nat) (es later : List DeploymentEvent)
    (d d' : Deployment) (hhook : ∀ id m k, m.Encodable → hook id m = some k → k.Encodable)
    (hrun : Runs.run (Deployment.step rx hook) { hub := { server := { maxOBuf := maxOBuf } } } es =
      some d) (hlater : Runs.run (Deployment.step rx hook) d later = some d')
    (i : ResponderId) (hnever : NeverUnsubscribes (d'.clients i).accepted) (x : Topic) :
    (d'.clients i).exchange.dispatched <+: d'.hub.server.matchedBy rx i ∧
      (d'.hub.server.matchedBy rx i).filter (fun m => m.topic = x) <:+:
        d'.hub.server.sent.filter (fun m => m.topic = x) ∧
      ∀ r, d.hub.server.responders.find i = some r → r.isSubscribed rx x = true →
        ∃ new given, d'.hub.server.sent = d.hub.server.sent ++ new ∧
          d'.hub.server.matchedBy rx i = d.hub.server.matchedBy rx i ++ given ∧
          given.filter (fun m => m.topic = x) <+: new.filter (fun m => m.topic = x) ∧
          ∀ r', d'.hub.server.responders.find i = some r' →
            given.filter (fun m => m.topic = x) = new.filter (fun m => m.topic = x) := by
  obtain ⟨log, hl⟩ := (linked_new rx hook maxOBuf).run hhook hrun
  obtain ⟨more, hl'⟩ := hl.run hhook hlater
  obtain ⟨hubEvents, hhub⟩ := run_hub hrun
  obtain ⟨hubLater, hhubLater⟩ := run_hub hlater
  have hhandled : NeverUnsubscribes (d'.hub.server.handledFrom i) :=
    hnever.front (hl'.channel i).handledFront
  refine ⟨(hl'.channel i).dispatchedFront, ?_, fun r hr hsub => ?_⟩
  · have hwhole : Runs.run (Hub.step rx hook) { server := { maxOBuf := maxOBuf } }
        (hubEvents ++ hubLater) = some d'.hub := by
      rw [Runs.run_append, hhub]
      exact hhubLater
    exact (Hub.lasts_run maxOBuf i hwhole).block rx hhandled x
  · have hi : i ∈ d.hub.connected := by
      by_contra hnot
      rw [(hl.published.fresh i hnot).1] at hr
      cases hr
    exact (Hub.retains_run hl.published hi hhubLater).given_from hhandled hr hsub

/-- The server knows that client 2 wants the topic before the first message comes. -/
theorem no_gaps_leavingRun :
    ∃ d d', Runs.run (Deployment.step .literal .default) { hub := { server := { maxOBuf := 100 } } }
        (leavingRun.take 9) = some d ∧
      Runs.run (Deployment.step .literal .default) d (leavingRun.drop 9) = some d' ∧
      ∃ new given, d'.hub.server.sent = d.hub.server.sent ++ new ∧
        d'.hub.server.matchedBy .literal 2 = d.hub.server.matchedBy .literal 2 ++ given ∧
        given.filter (fun m => m.topic = { main := [0x61] }) <+:
          new.filter fun m => m.topic = { main := [0x61] } := by
  have hrun : ∃ d, Runs.run (Deployment.step .literal .default)
        { hub := { server := { maxOBuf := 100 } } } (leavingRun.take 9) = some d ∧
      (∃ r, d.hub.server.responders.find 2 = some r ∧
        r.isSubscribed .literal { main := [0x61] } = true) ∧
      ∃ d', Runs.run (Deployment.step .literal .default) d (leavingRun.drop 9) = some d' ∧
        ((d'.clients 2).accepted.all fun m => m.isUnsubscribeMessage == false) = true := by
    decide +kernel
  obtain ⟨d, hd, ⟨r, hr, hsub⟩, d', hd', hall⟩ := hrun
  obtain ⟨-, -, hlater⟩ := no_gaps .literal .default 100 (leavingRun.take 9) (leavingRun.drop 9)
    d d' (fun _ _ _ h hk => Option.some.inj hk ▸ h) hd hd' 2
    (by simpa [NeverUnsubscribes] using hall) { main := [0x61] }
  obtain ⟨new, given, hsent, hmatched, hfront, -⟩ := hlater r hr hsub
  exact ⟨d, d', hd, hd', new, given, hsent, hmatched, hfront⟩

end Deployment

end TntPub

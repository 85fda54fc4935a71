import TntPub.ToolRuns

namespace TntPub

open Framing Broadcast Lines

namespace Log

variable {log : Log} {serial : UInt64} {x : Topic} {i : ResponderId} {m : DataMessage}

/-- What a server that sends nothing by itself publishes comes from one of the connections. -/
theorem mem_published (hown : contribution log none = []) (hm : m ∈ log.published .default serial) :
    ∃ k, ∃ n ∈ contribution log (some k), n.isDataMessage = true ∧ m.topic = n.topic := by
  induction log generalizing serial with
  | nil => cases hm
  | cons entry log ih =>
    obtain ⟨source, n⟩ := entry
    cases source with
    | none =>
      rw [contribution_cons, if_pos rfl] at hown
      cases hown
    | some k =>
      rw [contribution_cons, if_neg (Option.some_ne_none k)] at hown
      have hrest {serial : UInt64} (hm : m ∈ published .default serial log) :
          ∃ k', ∃ n' ∈ contribution ((some k, n) :: log) (some k'),
            n'.isDataMessage = true ∧ m.topic = n'.topic := by
        obtain ⟨k', n', hn', hdata⟩ := ih hown hm
        refine ⟨k', n', ?_, hdata⟩
        rw [contribution_cons]
        split
        next => exact List.mem_cons_of_mem _ hn'
        next => exact hn'
      simp only [published] at hm
      split at hm
      next hdata =>
        rcases List.mem_cons.mp hm with rfl | hm
        · refine ⟨k, n, ?_, hdata, rfl⟩
          rw [contribution_cons, if_pos rfl]
          exact List.mem_cons_self
        · exact hrest hm
      next => exact hrest hm

/-- Where only one connection has messages on a topic, these are what is published on it. -/
theorem published_on (hown : contribution log none = [])
    (hothers : ∀ k, k ≠ i → ∀ m ∈ contribution log (some k), m.isDataMessage = true →
      m.topic ≠ x)
    (hall : ∀ m ∈ contribution log (some i), m.isDataMessage = true ∧ m.topic = x) :
    ((log.published .default serial).filter fun m => m.topic = x).map DataMessage.data =
      (contribution log (some i)).map DataMessage.data := by
  induction log generalizing serial with
  | nil => rfl
  | cons entry log ih =>
    obtain ⟨source, n⟩ := entry
    cases source with
    | none =>
      rw [contribution_cons, if_pos rfl] at hown
      cases hown
    | some k =>
      rw [contribution_cons, if_neg (Option.some_ne_none k)] at hown
      have hothers' : ∀ k', k' ≠ i → ∀ m ∈ contribution log (some k'), m.isDataMessage = true →
          m.topic ≠ x := by
        intro k' hk' m hm
        apply hothers k' hk'
        rw [contribution_cons]
        split
        next => exact List.mem_cons_of_mem _ hm
        next => exact hm
      by_cases hk : k = i
      · subst hk
        rw [contribution_cons, if_pos rfl] at hall ⊢
        obtain ⟨hdata, htopic⟩ := hall n List.mem_cons_self
        have hrest : ((published .default (serial + 1) log).filter fun m => m.topic = x).map
            DataMessage.data = (contribution log (some k)).map DataMessage.data :=
          ih hown hothers' fun m hm => hall m (List.mem_cons_of_mem _ hm)
        simp only [published, hdata, if_true, Hook.default, Option.toList_some,
          List.singleton_append]
        rw [List.filter_cons_of_pos (by simpa using htopic), List.map_cons, List.map_cons, hrest]
      · rw [contribution_cons, if_neg (by simpa using hk)] at hall ⊢
        have hn := hothers k hk n (by
          rw [contribution_cons, if_pos rfl]; exact List.mem_cons_self)
        simp only [published]
        split
        next hdata =>
          simp only [Hook.default, Option.toList_some, List.singleton_append]
          rw [List.filter_cons_of_neg (by simpa using hn hdata)]
          exact ih hown hothers' hall
        next => exact ih hown hothers' hall

end Log

/-- A topic that a subscription of a `tntpubRead` matches. -/
def Matches (rx : Regex) (type : SubscriptionType) (topics : List Bytes) (x : Topic) : Prop :=
  ∃ topic ∈ topics, ∃ subscription,
    Subscription.create rx { main := topic } type = .ok subscription ∧
      subscription.matchesTopic rx x = true

theorem requested_subscribe (rx : Regex) (byPrefix regex : Bool) (o : Origin) (topic : Bytes)
    (subscriptions : List Subscription) :
    (DataMessage.subscribe o { main := topic } (subscriptionTypeOf byPrefix regex) []).requested rx
        subscriptions =
      match Subscription.create rx { main := topic } (subscriptionTypeOf byPrefix regex) with
      | .ok subscription => subscriptions ++ [subscription]
      | .error _ => subscriptions := by
  cases regex with
  | true => rfl
  | false =>
    cases byPrefix with
    | true => rfl
    | false => rfl

namespace Shell

variable {rx : Regex} {s : Shell} {commands : ResponderId → Option Command} {i j : ResponderId}
  {topic stdin : Bytes} {byPrefix regex : Bool} {topics : List Bytes}

theorem Working.sending (h : Working rx commands s)
    (hsend : commands i = some (.tntpubSend topic stdin)) :
    ∃ left, s.tools i = some (.tntpubSend topic left) ∧
      Sending topic stdin left (s.deployment.clients i) := by
  obtain ⟨tool, htool, hworks⟩ := h.works i _ hsend
  cases tool with
  | tntpubRead p => exact hworks.elim
  | tntpubSend topic' left =>
    obtain ⟨rfl, hsending⟩ := hworks
    exact ⟨left, htool, hsending⟩

theorem Working.receiving (h : Working rx commands s)
    (hread : commands j = some (.tntpubRead byPrefix regex topics)) :
    ∃ p, s.tools j = some (.tntpubRead p) ∧
      Receiving (subscriptionTypeOf byPrefix regex) topics p (s.deployment.clients j) := by
  obtain ⟨tool, htool, hworks⟩ := h.works j _ hread
  cases tool with
  | tntpubSend topic left => exact hworks.elim
  | tntpubRead p => exact ⟨p, htool, hworks⟩

/-- A `tntpubRead` has no other subscriptions, and is given what they match. -/
theorem receiving_matches {maxOBuf : Nat} {es : List ShellEvent}
    (hrun : Runs.run (Shell.step rx) (Shell.start maxOBuf commands) es = some s)
    (hread : commands j = some (.tntpubRead byPrefix regex topics)) :
    (∀ r x, s.deployment.hub.server.responders.find j = some r → r.isSubscribed rx x = true →
      Matches rx (subscriptionTypeOf byPrefix regex) topics x) ∧
    ∀ m ∈ s.deployment.hub.server.matchedBy rx j,
      Matches rx (subscriptionTypeOf byPrefix regex) topics m.topic := by
  have hworking := working_run hrun
  obtain ⟨log, hl⟩ := hworking.linked
  obtain ⟨p, -, hreceiving⟩ := hworking.receiving hread
  obtain ⟨es', hdeployment⟩ := run_deployment hrun
  obtain ⟨hubEvents, hhub⟩ := Deployment.run_hub hdeployment
  obtain ⟨history, b, hhistory, habstracts, -⟩ :=
    (Hub.refines_new rx .default maxOBuf).run hhub
  let Own (subscriptions : List Subscription) : Prop := ∀ subscription ∈ subscriptions,
    ∃ topic ∈ topics, Subscription.create rx { main := topic }
      (subscriptionTypeOf byPrefix regex) = .ok subscription
  have hkeeps : ∀ m ∈ contribution b.taken (some j), ∀ subscriptions, Own subscriptions →
      Own (m.requested rx subscriptions) := by
    intro m hm subscriptions hown
    rw [habstracts.handled] at hm
    obtain ⟨o, topic, htopic, rfl⟩ :=
      hreceiving.accepted m ((hl.channel j).handledFront.subset hm)
    rw [requested_subscribe]
    split
    next subscription hcreate =>
      intro known hknown
      rcases List.mem_append.mp hknown with hknown | hknown
      · exact hown known hknown
      · obtain rfl := List.mem_singleton.mp hknown
        exact ⟨topic, htopic, hcreate⟩
    next => exact hown
  have hwanted : Brokers.Wanted (Hook.default.rules rx) j Own b :=
    Brokers.wanted_run nofun hhistory hkeeps
  refine ⟨fun r x hr hsub => ?_, fun m hm => ?_⟩
  · have hmember : b.members j = some r.subscriptions := by
      rw [habstracts.members, Server.subscriptionsOf, hr]
      rfl
    obtain ⟨subscription, hmem, hmatches⟩ := List.any_eq_true.mp hsub
    obtain ⟨topic, htopic, hcreate⟩ := hwanted.interest _ hmember subscription hmem
    exact ⟨topic, htopic, subscription, hcreate, hmatches⟩
  · rw [← habstracts.inbox] at hm
    obtain ⟨subscriptions, hown, hwants⟩ := hwanted.inbox m hm
    obtain ⟨subscription, hmem, hmatches⟩ := List.any_eq_true.mp hwants
    obtain ⟨topic, htopic, hcreate⟩ := hown subscription hmem
    exact ⟨topic, htopic, subscription, hcreate, hmatches⟩

/-- The messages of a `tntpubSend` that the server has handled are its first lines. -/
theorem handled_lines (h : Working rx commands s)
    (hsend : commands i = some (.tntpubSend topic stdin)) :
    (s.deployment.hub.server.handledFrom i).map DataMessage.data <+: linesOf newline stdin := by
  obtain ⟨log, hl⟩ := h.linked
  obtain ⟨left, -, hsending⟩ := h.sending hsend
  rw [← hsending.sent]
  exact ((hl.channel i).handledFront.map _).trans (List.prefix_append _ _)

theorem subscribe_control (byPrefix regex : Bool) (o : Origin) (topic : Topic) :
    (DataMessage.subscribe o topic (subscriptionTypeOf byPrefix regex) []).isUnsubscribeMessage =
        false ∧
      (DataMessage.subscribe o topic (subscriptionTypeOf byPrefix regex) []).isDataMessage =
        false := by
  cases regex with
  | true => exact ⟨rfl, rfl⟩
  | false =>
    cases byPrefix with
    | true => exact ⟨rfl, rfl⟩
    | false => exact ⟨rfl, rfl⟩

theorem Working.neverUnsubscribes (h : Working rx commands s)
    (hread : commands j = some (.tntpubRead byPrefix regex topics)) :
    NeverUnsubscribes (s.deployment.clients j).accepted := by
  obtain ⟨p, -, hreceiving⟩ := h.receiving hread
  intro m hm
  obtain ⟨o, topic, -, rfl⟩ := hreceiving.accepted m hm
  exact (subscribe_control byPrefix regex o _).1

/-- Nobody but one client publishes what a `tntpubRead` wants. -/
def Alone (rx : Regex) (type : SubscriptionType) (topics : List Bytes) (i : ResponderId)
    (s : Shell) : Prop :=
  ∀ k, k ≠ i → ∀ m ∈ (s.deployment.clients k).accepted, m.isDataMessage = true →
    ¬ Matches rx type topics m.topic

/-- Beside instances of `tntpubRead` only, a client is alone. -/
theorem Working.alone {type : SubscriptionType} (h : Working rx commands s)
    (hothers : ∀ k, k ≠ i → ∃ byPrefix regex topics,
      commands k = some (.tntpubRead byPrefix regex topics)) : s.Alone rx type topics i := by
  intro k hk m hm hdata
  obtain ⟨byPrefix, regex, own, hread⟩ := hothers k hk
  obtain ⟨p, -, hreceiving⟩ := h.receiving hread
  obtain ⟨o, topic, -, rfl⟩ := hreceiving.accepted m hm
  rw [(subscribe_control byPrefix regex o _).2] at hdata
  cases hdata

theorem Alone.contribution {type : SubscriptionType} {log : Log} {k : ResponderId}
    {m : DataMessage} (h : s.Alone rx type topics i) (hl : s.deployment.Linked rx .default log)
    (hk : k ≠ i) (hm : m ∈ contribution log (some k)) (hdata : m.isDataMessage = true) :
    ¬ Matches rx type topics m.topic := by
  rw [← hl.published.handled] at hm
  exact h k hk m ((hl.channel k).handledFront.subset hm) hdata

/-- On the topic of a `tntpubSend` that nobody else uses, its lines are published. -/
theorem sent_lines {log : Log} (h : Working rx commands s)
    (hl : s.deployment.Linked rx .default log)
    (hsend : commands i = some (.tntpubSend topic stdin))
    (hothers : ∀ k, k ≠ i → ∀ m ∈ contribution log (some k), m.isDataMessage = true →
      m.topic ≠ { main := topic }) :
    (s.deployment.hub.server.sent.filter fun m => m.topic = { main := topic }).map
        DataMessage.data = (s.deployment.hub.server.handledFrom i).map DataMessage.data := by
  obtain ⟨left, -, hsending⟩ := h.sending hsend
  have hown : contribution log none = [] := by rw [← hl.published.own, h.own]
  have hall : ∀ m ∈ contribution log (some i),
      m.isDataMessage = true ∧ m.topic = { main := topic } := by
    intro m hm
    rw [← hl.published.handled] at hm
    exact hsending.plain m ((hl.channel i).handledFront.subset hm)
  rw [hl.published.sent, hl.published.handled]
  exact Log.published_on hown hothers hall

/-- Then a `tntpubRead` that wants what is published there is given nothing else. -/
theorem matched_topic {maxOBuf : Nat} {es : List ShellEvent}
    (hrun : Runs.run (Shell.step rx) (Shell.start maxOBuf commands) es = some s)
    (hsend : commands i = some (.tntpubSend topic stdin))
    (hread : commands j = some (.tntpubRead byPrefix regex topics))
    (halone : s.Alone rx (subscriptionTypeOf byPrefix regex) topics i) :
    (s.deployment.hub.server.matchedBy rx j).filter (fun m => m.topic = { main := topic }) =
      s.deployment.hub.server.matchedBy rx j := by
  have hworking := working_run hrun
  obtain ⟨left, -, hsending⟩ := hworking.sending hsend
  obtain ⟨log, hl⟩ := hworking.linked
  have hown : contribution log none = [] := by rw [← hl.published.own, hworking.own]
  apply List.filter_eq_self.mpr
  intro m hm
  have hmatches := (receiving_matches hrun hread).2 m hm
  have hpublished := (Server.matchedBy_sublist rx _ j).subset hm
  rw [hl.published.sent] at hpublished
  obtain ⟨k, n, hn, hdata, htopic⟩ := Log.mem_published hown hpublished
  by_cases hk : k = i
  · subst hk
    rw [← hl.published.handled] at hn
    rw [htopic]
    simpa using (hsending.plain n ((hl.channel k).handledFront.subset hn)).2
  · exact absurd (htopic ▸ hmatches) (halone.contribution hl hk hn hdata)

theorem matched_block {maxOBuf : Nat} {es : List ShellEvent}
    (hrun : Runs.run (Shell.step rx) (Shell.start maxOBuf commands) es = some s)
    (hsend : commands i = some (.tntpubSend topic stdin))
    (hread : commands j = some (.tntpubRead byPrefix regex topics))
    (halone : s.Alone rx (subscriptionTypeOf byPrefix regex) topics i) :
    (s.deployment.hub.server.matchedBy rx j).map DataMessage.data <:+:
      linesOf newline stdin := by
  have hworking := working_run hrun
  have hfilter := matched_topic hrun hsend hread halone
  obtain ⟨log, hl⟩ := hworking.linked
  obtain ⟨es', hdeployment⟩ := run_deployment hrun
  obtain ⟨hubEvents, hhub⟩ := Deployment.run_hub hdeployment
  have hnever := (hworking.neverUnsubscribes hread).front (hl.channel j).handledFront
  have hblock := (Hub.lasts_run maxOBuf j hhub).block rx hnever { main := topic }
  rw [hfilter] at hblock
  cases hmatched : s.deployment.hub.server.matchedBy rx j with
  | nil => exact List.nil_infix
  | cons m ms =>
    have hm : m ∈ s.deployment.hub.server.matchedBy rx j := hmatched ▸ List.mem_cons_self
    have hwanted := (receiving_matches hrun hread).2 m hm
    have htopic : m.topic = { main := topic } := by
      rw [← hfilter] at hm
      simpa using (List.mem_filter.mp hm).2
    have hsent := sent_lines hworking hl hsend fun k hk n hn hdata heq =>
      halone.contribution hl hk hn hdata (heq ▸ htopic ▸ hwanted)
    have hall := hblock.map DataMessage.data
    rw [hsent, hmatched] at hall
    exact hall.trans (handled_lines hworking hsend).isInfix

/-- A `tntpubRead` that was subscribed before the first line was handled is given the first
lines, and all of those that are handled as long as the server has its connection. -/
theorem matched_first {maxOBuf : Nat} {es later : List ShellEvent} {s' : Shell} {r : Responder}
    (hrun : Runs.run (Shell.step rx) (Shell.start maxOBuf commands) es = some s)
    (hlater : Runs.run (Shell.step rx) s later = some s')
    (hsend : commands i = some (.tntpubSend topic stdin))
    (hread : commands j = some (.tntpubRead byPrefix regex topics))
    (halone : s'.Alone rx (subscriptionTypeOf byPrefix regex) topics i)
    (hr : s.deployment.hub.server.responders.find j = some r)
    (hsub : r.isSubscribed rx { main := topic } = true)
    (hnone : s.deployment.hub.server.handledFrom i = []) :
    (s'.deployment.hub.server.matchedBy rx j).map DataMessage.data <+:
        (s'.deployment.hub.server.handledFrom i).map DataMessage.data ∧
      ∀ r', s'.deployment.hub.server.responders.find j = some r' →
        (s'.deployment.hub.server.matchedBy rx j).map DataMessage.data =
          (s'.deployment.hub.server.handledFrom i).map DataMessage.data := by
  have hwhole : Runs.run (Shell.step rx) (Shell.start maxOBuf commands) (es ++ later) =
      some s' := by
    rw [Runs.run_append, hrun]
    exact hlater
  have hworking := working_run hrun
  have hworking' := working_run hwhole
  obtain ⟨log, hl⟩ := hworking.linked
  obtain ⟨esLater, hdeployment⟩ := run_deployment hlater
  obtain ⟨more, hl'⟩ := hl.run encodable_default hdeployment
  obtain ⟨hubLater, hhubLater⟩ := Deployment.run_hub hdeployment
  have hwanted := (receiving_matches hrun hread).1 r _ hr hsub
  have hothers (k : ResponderId) (hk : k ≠ i) (m : DataMessage)
      (hm : m ∈ contribution (log ++ more) (some k)) (hdata : m.isDataMessage = true) :
      m.topic ≠ { main := topic } := fun heq =>
    halone.contribution hl' hk hm hdata (heq ▸ hwanted)
  have hsent := sent_lines hworking' hl' hsend hothers
  have hbefore := sent_lines hworking hl hsend fun k hk m hm => hothers k hk m (by
    rw [contribution_append]; exact List.mem_append_left _ hm)
  rw [hnone, List.map_nil, List.map_eq_nil_iff] at hbefore
  have hi : j ∈ s.deployment.hub.connected := by
    by_contra hnot
    rw [(hl.published.fresh j hnot).1] at hr
    cases hr
  have hnever := (hworking'.neverUnsubscribes hread).front (hl'.channel j).handledFront
  obtain ⟨new, given, hnew, hgiven, hfront, hall⟩ :=
    (Hub.retains_run hl.published hi hhubLater).given_from hnever hr hsub
  -- Nothing was given before, so that what is given is all that has matched.
  have hnothing : (s.deployment.hub.server.matchedBy rx j).filter
      (fun m => m.topic = { main := topic }) = [] := by
    apply List.sublist_nil.mp
    rw [← hbefore]
    exact (Server.matchedBy_sublist rx s.deployment.hub.server j).filter _
  have hfilter := matched_topic hwhole hsend hread halone
  rw [hgiven, List.filter_append, hnothing, List.nil_append, ← hgiven] at hfilter
  rw [hnew, List.filter_append, hbefore, List.nil_append] at hsent
  rw [hfilter] at hfront hall
  rw [← hsent]
  exact ⟨hfront.map _, fun r' hr' => congrArg (List.map DataMessage.data) (hall r' hr')⟩

/-- A `tntpubRead` prints what its calls of `readMessage` return, until one of them throws. When
nobody but one `tntpubSend` publishes what it wants, these are one block of the lines that this one
was given: the first lines, if the `tntpubRead` was subscribed before any of them was handled, and
the whole text when all is done. -/
theorem prints_the_lines (rx : Regex) (maxOBuf : Nat) (commands : ResponderId → Option Command)
    (es later : List ShellEvent) (s s' : Shell)
    (hrun : Runs.run (Shell.step rx) (Shell.start maxOBuf commands) es = some s)
    (hlater : Runs.run (Shell.step rx) s later = some s') (j : ResponderId)
    (byPrefix regex : Bool) (topics : List Bytes)
    (hread : commands j = some (.tntpubRead byPrefix regex topics)) :
    ∃ p ms, s'.tools j = some (.tntpubRead p) ∧
      CallsReturn ⟨p.reads ++ [Ending.emptyRead.read], {}, {}⟩ ms .inputStreamFailed ∧
      p.stdout = printed ms ∧
      ∀ i topic stdin, commands i = some (.tntpubSend topic stdin) →
        s'.Alone rx (subscriptionTypeOf byPrefix regex) topics i →
        ms.map DataMessage.data <:+: linesOf newline stdin ∧
        ∀ r, s.deployment.hub.server.responders.find j = some r →
          r.isSubscribed rx { main := topic } = true →
          s.deployment.hub.server.handledFrom i = [] →
          ms.map DataMessage.data <+: linesOf newline stdin ∧
          ∀ r', s'.deployment.hub.server.responders.find j = some r' →
            (s'.deployment.clients j).connected = true →
            (s'.deployment.clients j).reading = true →
            s'.deployment.Settled j r' → s'.tools i = some (.tntpubSend topic []) →
            s'.deployment.hub.server.handledFrom i = (s'.deployment.clients i).accepted →
            p.stdout = terminated newline stdin := by
  have hwhole : Runs.run (Shell.step rx) (Shell.start maxOBuf commands) (es ++ later) =
      some s' := by
    rw [Runs.run_append, hrun]
    exact hlater
  have hworking := working_run hwhole
  obtain ⟨p, hp, hreceiving⟩ := hworking.receiving hread
  obtain ⟨log, hl⟩ := hworking.linked
  have hdispatched := ((hl.channel j).dispatchedFront).map DataMessage.data
  refine ⟨p, _, hp, hreceiving.returned, hreceiving.stdout, fun i topic stdin hsend halone => ?_⟩
  obtain ⟨left, htool, hsending⟩ := hworking.sending hsend
  have hblock := matched_block hwhole hsend hread halone
  refine ⟨hdispatched.isInfix.trans hblock, fun r hr hsub hnone => ?_⟩
  obtain ⟨hfirst, hall⟩ := matched_first hrun hlater hsend hread halone hr hsub hnone
  refine ⟨(hdispatched.trans hfirst).trans (handled_lines hworking hsend), ?_⟩
  intro r' hr' hc hreading hsettled hdone hhandled
  obtain ⟨-, hmatched⟩ := hl.settled encodable_default hc hreading hr' hsettled
  have hlast : left = [] := by
    rw [htool] at hdone
    cases hdone
    rfl
  have htext : (s'.deployment.clients j).exchange.dispatched.map DataMessage.data =
      linesOf newline stdin := by
    rw [← hmatched, hall r' hr', hhandled, ← hsending.sent, hlast]
    exact (List.append_nil _).symm
  rw [hreceiving.stdout, printed, htext]
  exact putLines_linesOf newline stdin

/-- Two lines, the last of them not ended, for readers of one topic. -/
def twoLines (i : ResponderId) : Option Command :=
  if i = 0 then some (.tntpubSend [0x61] [0x68, 0x69, 0x0a, 0x79, 0x6f])
  else some (.tntpubRead false false [[0x61]])

def twoLinesRun : List ShellEvent :=
  [.start 1, .subscribe 1 ⟨[], 0, 0⟩ [41] false, .other (.serverInput 1 41 false), .start 0,
    .line 0 ⟨[], 0, 0⟩ [43] false, .other (.serverInput 0 43 false),
    .line 0 ⟨[], 0, 0⟩ [20, 23] false,
    .other (.server (.output 1 43)), .other (.serverInput 0 43 false), .read 1 50 false false,
    .other (.server (.output 1 43)), .read 1 50 false false]

theorem prints_the_lines_twoLinesRun :
    ∃ s' p, Runs.run (Shell.step .literal) (Shell.start 100 twoLines) twoLinesRun = some s' ∧
      s'.tools 1 = some (.tntpubRead p) ∧ p.stdout = [0x68, 0x69, 0x0a, 0x79, 0x6f, 0x0a] := by
  have hrun : ∃ s, Runs.run (Shell.step .literal) (Shell.start 100 twoLines)
        (twoLinesRun.take 4) = some s ∧
      (∃ r, s.deployment.hub.server.responders.find 1 = some r ∧
        r.isSubscribed .literal { main := [0x61] } = true) ∧
      s.deployment.hub.server.handledFrom 0 = [] ∧
      ∃ s', Runs.run (Shell.step .literal) s (twoLinesRun.drop 4) = some s' ∧
        s'.deployment.hub.server.handledFrom 0 = (s'.deployment.clients 0).accepted ∧
        s'.tools 0 = some (.tntpubSend [0x61] []) ∧
        (s'.deployment.clients 1).connected = true ∧
        (s'.deployment.clients 1).reading = true ∧
        ∃ r', s'.deployment.hub.server.responders.find 1 = some r' ∧
          r'.deserializer.inputData ++
            (s'.deployment.clients 1).stream.drop (s'.deployment.read 1) = [] ∧
          (s'.deployment.clients 1).deserializer.inputData ++
            (s'.deployment.toClient 1 ++ r'.outputBuffer) = [] := by
    decide +kernel
  obtain ⟨s, hs, ⟨r, hr, hsub⟩, hnone, s', hs', hhandled, hdone, hc, hreading, r', hr', hup,
    hdown⟩ := hrun
  have hwhole : Runs.run (Shell.step .literal) (Shell.start 100 twoLines)
      (twoLinesRun.take 4 ++ twoLinesRun.drop 4) = some s' := by
    rw [Runs.run_append, hs]
    exact hs'
  have halone : s'.Alone .literal .typeFull [[0x61]] 0 :=
    (working_run hwhole).alone fun k hk => ⟨false, false, [[0x61]], if_neg hk⟩
  obtain ⟨p, ms, hp, -, -, hlines⟩ := prints_the_lines .literal 100 twoLines
    (twoLinesRun.take 4) (twoLinesRun.drop 4) s s' hs hs' 1 false false [[0x61]] rfl
  obtain ⟨-, hfirst⟩ := hlines 0 [0x61] [0x68, 0x69, 0x0a, 0x79, 0x6f] rfl halone
  obtain ⟨-, htext⟩ := hfirst r hr hsub hnone
  refine ⟨s', p, ?_, hp, htext r' hr' hc hreading ⟨hup, hdown⟩ hdone hhandled⟩
  rw [← hwhole, List.take_append_drop]

end Shell

end TntPub

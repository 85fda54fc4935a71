import TntPub.Broker
import TntPub.NoGaps

namespace TntPub

open Framing Broadcast Brokers

/-- The subscriptions of a connection when a message of its has been handled. -/
def DataMessage.requested (rx : Regex) (m : DataMessage) (subscriptions : List Subscription) :
    List Subscription :=
  if m.isSubscribeMessage then
    match Subscription.create rx m.topic (subscriptionType m.type) with
    | .ok subscription => subscriptions ++ [subscription]
    | .error _ => subscriptions
  else if m.isUnsubscribeMessage then
    subscriptions.eraseP fun subscription =>
      subscription.equals { main := m.topic.main } (subscriptionType m.type)
  else subscriptions

/-- What a server is for: its members are the connections, data messages are numbered and given
to everybody who has subscribed to their topic, unless the hook keeps them back. -/
def Hook.rules (rx : Regex) (hook : Hook) :
    Rules ResponderId DataMessage (List Subscription) UInt64 where
  newcomer := []
  change := DataMessage.requested rx
  publish serial source m :=
    match source with
    | none => (serial, some m)
    | some id =>
      if m.isDataMessage then (serial + 1, hook id { m with serial := serial + 1 })
      else (serial, none)
  wants subscriptions m := subscriptions.any fun subscription =>
    subscription.matchesTopic rx m.topic

abbrev Brokerage := Broker ResponderId DataMessage (List Subscription) UInt64

namespace Server

variable {rx : Regex} {hook : Hook} {s t : Server} {b b' : Brokerage} {id i : ResponderId}
  {r : Responder} {m k : DataMessage} {own : List DataMessage} {connected : List ResponderId}

/-- A broker has the history of a server. -/
structure Recorded (rx : Regex) (s : Server) (own : List DataMessage)
    (connected : List ResponderId) (b : Brokerage) : Prop where
  common : b.common = s.lastSerial
  published : b.published = s.sent
  handled : ∀ i, contribution b.taken (some i) = s.handledFrom i
  own : contribution b.taken none = own
  inbox : ∀ i, b.inbox i = s.matchedBy rx i
  arrived : b.arrived = connected

/-- It also has the members of the server. -/
structure Abstracts (rx : Regex) (s : Server) (own : List DataMessage)
    (connected : List ResponderId) (b : Brokerage) : Prop
    extends Recorded rx s own connected b where
  members : ∀ i, b.members i = s.subscriptionsOf i

/-- Whatever broker the one server is a picture of, that broker can become one that the other
server is a picture of. -/
def Follows (rx : Regex) (hook : Hook) (s t : Server) : Prop :=
  ∀ own connected b, s.Abstracts rx own connected b →
    ∃ history b', Runs.run (Brokers.step (hook.rules rx)) b history = some b' ∧
      t.Abstracts rx own connected b'

theorem follows_refl (rx : Regex) (hook : Hook) (s : Server) : s.Follows rx hook s :=
  fun _ _ b h => ⟨[], b, rfl, h⟩

theorem follows_trans {u : Server} (h : s.Follows rx hook t) (h' : t.Follows rx hook u) :
    s.Follows rx hook u := by
  intro own connected b hb
  obtain ⟨history, b', hrun, hb'⟩ := h own connected b hb
  obtain ⟨more, b'', hmore, hb''⟩ := h' own connected b' hb'
  refine ⟨history ++ more, b'', ?_, hb''⟩
  rw [Runs.run_append, hrun]
  exact hmore

theorem isSome_subscriptionsOf (s : Server) (i : ResponderId) :
    (s.subscriptionsOf i).isSome = (s.responders.find i).isSome := Option.isSome_map

/-- The members that are no longer there depart. -/
theorem Recorded.departs {slots : List ResponderId} (hook : Hook)
    (h : t.Recorded rx own connected b)
    (hnodup : slots.Nodup) (hslots : ∀ i, (b.members i).isSome = true → i ∈ slots)
    (hkept : ∀ i, t.subscriptionsOf i = none ∨ t.subscriptionsOf i = b.members i) :
    ∃ history b', Runs.run (Brokers.step (hook.rules rx)) b history = some b' ∧
      t.Abstracts rx own connected b' := by
  let isGone (i : ResponderId) : Bool := (b.members i).isSome && (t.subscriptionsOf i).isNone
  have hmem (i : ResponderId) (hi : i ∈ slots.filter isGone) :
      (b.members i).isSome = true ∧ t.subscriptionsOf i = none := by
    obtain ⟨-, hgone⟩ := List.mem_filter.mp hi
    simpa [isGone] using hgone
  have hrun := run_departs (hook.rules rx) (hnodup.filter isGone)
    fun i hi => (hmem i hi).1
  refine ⟨_, _, hrun, ⟨h.common, h.published, h.handled, h.own, h.inbox, h.arrived⟩, fun i => ?_⟩
  show (if i ∈ slots.filter isGone then none else b.members i) = t.subscriptionsOf i
  by_cases hi : i ∈ slots.filter isGone
  · rw [if_pos hi, (hmem i hi).2]
  · rw [if_neg hi]
    rcases hkept i with hnone | hkept
    · rw [hnone]
      by_contra hsome
      have hmember := Option.ne_none_iff_isSome.mp hsome
      apply hi
      refine List.mem_filter.mpr ⟨hslots i hmember, ?_⟩
      simp [isGone, hmember, hnone]
    · exact hkept.symm

theorem mem_slots_of_member (h : s.Abstracts rx own connected b) (i : ResponderId)
    (hi : (b.members i).isSome = true) : i ∈ s.responders.slots := by
  rw [h.members, isSome_subscriptionsOf] at hi
  exact (s.responders.mem_slots i).mpr hi

theorem matchedBy_dispatched (rx : Regex) (hook : Hook) (hshared : t.shared.dispatches =
      s.shared.dispatches ++ [(k, s.responders.find)]) (i : ResponderId) :
    t.matchedBy rx i = s.matchedBy rx i ++
      [k].filter fun k => (s.subscriptionsOf i).any ((hook.rules rx).wants · k) := by
  simp only [matchedBy, hshared, List.filter_append, List.map_append]
  congr 1
  have hwants : isSubscribedAt rx i (k, s.responders.find) =
      (s.subscriptionsOf i).any ((hook.rules rx).wants · k) := by
    rw [subscriptionsOf, Option.any_map]
    rfl
  cases hany : (s.subscriptionsOf i).any ((hook.rules rx).wants · k) with
  | true => simp [hwants, hany]
  | false => simp [hwants, hany]

theorem publish_serial (rx : Regex) (hook : Hook) (serial : UInt64) (source : Option ResponderId)
    (m : DataMessage) :
    ((hook.rules rx).publish serial source m).1 = Log.serialAfter serial [(source, m)] := by
  cases source with
  | none => rfl
  | some id =>
    simp only [Hook.rules, Log.serialAfter]
    split
    next => rfl
    next => rfl

theorem publish_given (rx : Regex) (hook : Hook) (serial : UInt64) (source : Option ResponderId)
    (m : DataMessage) :
    ((hook.rules rx).publish serial source m).2.toList =
      Log.published hook serial [(source, m)] := by
  cases source with
  | none => rfl
  | some id =>
    simp only [Hook.rules, Log.published]
    split
    next => exact (List.append_nil _).symm
    next => rfl

/-- One more message is handled. -/
theorem Abstracts.record {source : Option ResponderId} (h : s.Abstracts rx own connected b)
    (hpublishes : Publishes rx hook [(source, m)] s t)
    (hmatched : ∀ i, t.matchedBy rx i = s.matchedBy rx i ++
      (Log.published hook s.lastSerial [(source, m)]).filter fun k =>
        (s.subscriptionsOf i).any ((hook.rules rx).wants · k)) :
    t.Recorded rx (own ++ contribution [(source, m)] none) connected
      (b.record (hook.rules rx) source m) where
  common := by
    rw [hpublishes.lastSerial, ← publish_serial rx hook, ← h.common]
    rfl
  published := by
    rw [hpublishes.sent, ← publish_given rx hook, ← h.common, ← h.published]
    rfl
  handled i := by
    rw [hpublishes.handled, ← h.handled, ← contribution_append]
    rfl
  own := by
    rw [← h.own, ← contribution_append]
    rfl
  inbox i := by
    rw [hmatched, ← h.inbox, ← publish_given rx hook, ← h.common, ← h.members]
    rfl
  arrived := h.arrived

theorem Recorded.withMembers (h : s.Recorded rx own connected b)
    (members : ResponderId → Option (List Subscription)) :
    s.Recorded rx own connected { b with members := members } :=
  ⟨h.common, h.published, h.handled, h.own, h.inbox, h.arrived⟩

theorem Recorded.silent (h : s.Recorded rx own connected b) (hshared : t.shared = s.shared)
    (hhandled : ∀ i, t.handledFrom i = s.handledFrom i) : t.Recorded rx own connected b where
  common := h.common.trans (congrArg Shared.lastSerial hshared).symm
  published := by rw [h.published, sent, sent, hshared]
  handled i := by rw [h.handled, hhandled]
  own := h.own
  inbox i := by rw [h.inbox, matchedBy, matchedBy, hshared]
  arrived := h.arrived

/-- Nothing is handled, but connections may be closed. -/
theorem follows_silent (hshared : t.shared = s.shared)
    (hhandled : ∀ i, t.handledFrom i = s.handledFrom i)
    (hkept : ∀ i, t.subscriptionsOf i = none ∨ t.subscriptionsOf i = s.subscriptionsOf i) :
    s.Follows rx hook t := by
  intro own connected b h
  refine (h.toRecorded.silent hshared hhandled).departs hook s.responders.slots_nodup
    (mem_slots_of_member h) fun i => ?_
  rw [h.members]
  exact hkept i

theorem catchException_follows (hr : s.responders.find id = some r)
    (h : catchException id s = .ok () t) : s.Follows rx hook t := by
  simp only [catchException, hr, Option.isSome_some, if_true, closeClient_ok hr] at h
  obtain ⟨-, rfl⟩ := EStateM.Result.ok.inj h
  refine follows_silent ?_ (fun i => ?_) fun i => ?_
  · simp [shared, Event.dispatch]
  · simp [handledFrom, connection, Event.isAbout, List.filterMap_append, Event.message]
  · simp only [subscriptionsOf, Registry.find_remove]
    split
    next => exact .inl rfl
    next => exact .inr rfl

theorem modify_follows (s : Server) (id : ResponderId) {f : Responder → Responder}
    (hf : ∀ r, (f r).subscriptions = r.subscriptions) :
    s.Follows rx hook { s with responders := s.responders.modify id f } := by
  refine follows_silent rfl (fun _ => rfl) fun i => .inr ?_
  simp only [subscriptionsOf, Registry.find_modify]
  split
  next => rw [Option.map_map]; congr 1; funext r; exact hf r
  next => rfl

theorem requested_data (rx : Regex) (hm : m.isDataMessage = true)
    (subscriptions : List Subscription) : m.requested rx subscriptions = subscriptions := by
  have htype : m.type = .data ∨ m.type = .plainData := by
    simpa [DataMessage.isDataMessage] using hm
  unfold DataMessage.requested
  rcases htype with htype | htype
  · simp [DataMessage.isSubscribeMessage, DataMessage.isUnsubscribeMessage, htype]
  · simp [DataMessage.isSubscribeMessage, DataMessage.isUnsubscribeMessage, htype]

theorem requested_ok {q : Responder} (h : r.control rx m = .ok q) :
    m.requested rx r.subscriptions = q.subscriptions := by
  unfold Responder.control at h
  unfold DataMessage.requested
  split at h
  next hm =>
    rw [if_pos hm]
    split at h
    next => cases h
    next subscription hcreate =>
      obtain rfl := Except.ok.inj h
      rw [hcreate]
  next hm =>
    rw [if_neg hm]
    split at h
    next hm' =>
      obtain rfl := Except.ok.inj h
      rw [if_pos hm']
      rfl
    next hm' =>
      obtain rfl := Except.ok.inj h
      rw [if_neg hm']

theorem requested_error {e : Exception} (h : r.control rx m = .error e) :
    m.requested rx r.subscriptions = r.subscriptions := by
  unfold Responder.control at h
  unfold DataMessage.requested
  split at h
  next hm =>
    rw [if_pos hm]
    split at h
    next e' hcreate => rw [hcreate]
    next => cases h
  next hm =>
    split at h
    next => cases h
    next => cases h

/-- Offering a message leaves a connection its subscriptions, or closes it. -/
theorem offered_subscriptions (hparts : ∀ i, ∃ c : Connection,
      t.connection i = c.offer rx s.maxOBuf k i ∧ c.responder = s.responders.find i)
    (i : ResponderId) :
    t.subscriptionsOf i = none ∨ t.subscriptionsOf i = s.subscriptionsOf i := by
  obtain ⟨c, hc, hresponder⟩ := hparts i
  have hfind : t.responders.find i = (c.offer rx s.maxOBuf k i).responder :=
    congrArg Connection.responder hc
  rw [subscriptionsOf, subscriptionsOf, hfind, ← hresponder]
  unfold Connection.offer
  split
  next hnone => exact .inr rfl
  next r hr =>
    split
    next =>
      split
      next => exact .inl rfl
      next => exact .inr (by rw [hr]; rfl)
    next => exact .inr rfl

end Server

namespace HookedServer

open Server

variable {s t : Server} {id : ResponderId} {r : Responder} {m : DataMessage}

/-- A message is one action of the broker, behind which those depart whose connections were
closed because of it. -/
theorem follows_handled (rx : Regex) (hook : Hook) (hr : s.responders.find id = some r)
    (hpublishes : Publishes rx hook [(some id, m)] s t)
    (hmatched : ∀ i, t.matchedBy rx i = s.matchedBy rx i ++
      (Log.published hook s.lastSerial [(some id, m)]).filter fun k =>
        (s.subscriptionsOf i).any ((hook.rules rx).wants · k))
    (hown : t.subscriptionsOf id = none ∨
      t.subscriptionsOf id = some (m.requested rx r.subscriptions))
    (hothers : ∀ i, i ≠ id →
      t.subscriptionsOf i = none ∨ t.subscriptionsOf i = s.subscriptionsOf i) :
    s.Follows rx hook t := by
  intro own connected b h
  have hmember : b.members id = some r.subscriptions := by
    rw [h.members, subscriptionsOf, hr]
    rfl
  have hrecorded := (h.record hpublishes hmatched).withMembers
    (Function.update b.members id (some (m.requested rx r.subscriptions)))
  have hown' : own ++ contribution [(some id, m)] none = own := by
    rw [contribution_cons, if_neg (Option.some_ne_none id), contribution_nil, List.append_nil]
  rw [hown'] at hrecorded
  have hslots (i : ResponderId) (hi : (Function.update b.members id
      (some (m.requested rx r.subscriptions)) i).isSome = true) : i ∈ s.responders.slots := by
    by_cases hi' : i = id
    · rw [hi', s.responders.mem_slots, hr]
      rfl
    · rw [Function.update_of_ne hi'] at hi
      exact mem_slots_of_member h i hi
  have hkept (i : ResponderId) : t.subscriptionsOf i = none ∨ t.subscriptionsOf i =
      Function.update b.members id (some (m.requested rx r.subscriptions)) i := by
    by_cases hi' : i = id
    · subst hi'
      rw [Function.update_self]
      exact hown
    · rw [Function.update_of_ne hi', h.members]
      exact hothers i hi'
  obtain ⟨history, b', hrun, hb'⟩ :=
    hrecorded.departs hook s.responders.slots_nodup hslots hkept
  exact ⟨.take id m :: history, b', Runs.run_cons.mpr ⟨_, step_take hmember m, hrun⟩, hb'⟩

/-- Each message, whatever becomes of it, is handled as the broker does it. -/
theorem handleMessage_follows (rx : Regex) (hook : Hook) (hr : s.responders.find id = some r)
    (m : DataMessage) :
    match handleMessage rx hook id m s with
    | .ok _ t => s.Follows rx hook t
    | .error (.exception _) t => s.Follows rx hook t
    | .error .useAfterFree _ => True := by
  have hpublishes := handleMessage_publishes rx hook hr m
  cases hm : m.isDataMessage with
  | true =>
    have hsame := requested_data rx hm r.subscriptions
    have hsub : s.subscriptionsOf id = some r.subscriptions := by
      rw [subscriptionsOf, hr]
      rfl
    rw [handleMessage_data rx hook s id hm] at hpublishes ⊢
    let s' : Server :=
      { s with events := s.events ++ [.received id m], lastSerial := s.lastSerial + 1 }
    cases hhook : hook id { m with serial := s.lastSerial + 1 } with
    | none =>
      simp only [processMessage, hhook] at hpublishes ⊢
      refine follows_handled rx hook hr hpublishes (fun i => ?_) (.inr ?_) fun i _ => .inr rfl
      · simp [matchedBy, shared, Event.dispatch, Log.published, hm, hhook]
      · rw [hsame]
        exact hsub
    | some k =>
      obtain ⟨t, ht, hshared, hparts⟩ := doSendMessage_spec rx k s'
      simp only [processMessage, hhook] at hpublishes ⊢
      rw [ht] at hpublishes ⊢
      have hkept := offered_subscriptions (s := s) fun i => ⟨s'.connection i, hparts i, rfl⟩
      refine follows_handled rx hook hr hpublishes (fun i => ?_) ?_ fun i _ => hkept i
      · have hdispatches : t.shared.dispatches =
            s.shared.dispatches ++ [(k, s.responders.find)] := by
          rw [hshared]
          simp [s', shared, Event.dispatch]
        rw [matchedBy_dispatched rx hook hdispatches]
        simp [Log.published, hm, hhook]
      · have hown := hkept id
        rw [hsub] at hown
        rw [hsame]
        exact hown
  | false =>
    rw [handleMessage_control rx hook s id hm] at hpublishes ⊢
    have hspec := Server.handleMessage_control rx hr hm
    have hmatched {t : Server} (hshared : t.shared = s.shared) (i : ResponderId) :
        t.matchedBy rx i = s.matchedBy rx i ++
          (Log.published hook s.lastSerial [(some id, m)]).filter fun k =>
            (s.subscriptionsOf i).any ((hook.rules rx).wants · k) := by
      simp [matchedBy, hshared, Log.published, hm]
    cases hc : r.control rx m with
    | ok r' =>
      rw [hc] at hspec
      obtain ⟨t, ht, hshared, hparts⟩ := hspec
      rw [ht] at hpublishes ⊢
      have hfind (i : ResponderId) := congrArg Connection.responder (hparts i)
      refine follows_handled rx hook hr hpublishes (hmatched hshared) (.inr ?_)
        fun i hi => .inr ?_
      · have hown := hfind id
        rw [if_pos rfl, connection_responder] at hown
        rw [requested_ok hc, subscriptionsOf, hown]
        rfl
      · have hother := hfind i
        rw [if_neg hi, connection_responder] at hother
        rw [subscriptionsOf, hother]
        rfl
    | error e =>
      rw [hc] at hspec
      obtain ⟨t, ht, hshared, hparts⟩ := hspec
      rw [ht] at hpublishes ⊢
      have hfind (i : ResponderId) := congrArg Connection.responder (hparts i)
      refine follows_handled rx hook hr hpublishes.1 (hmatched hshared) (.inr ?_)
        fun i hi => .inr ?_
      · have hown := hfind id
        rw [if_pos rfl, connection_responder] at hown
        rw [requested_error hc, subscriptionsOf, hown]
        rfl
      · have hother := hfind i
        rw [if_neg hi, connection_responder] at hother
        rw [subscriptionsOf, hother]
        rfl

theorem keeps_follows (rx : Regex) (hook : Hook) (id : ResponderId) :
    Keeps rx hook id (Follows rx hook) where
  refl := follows_refl rx hook
  trans _ _ _ := follows_trans
  handle _ _ m hr := handleMessage_follows rx hook hr m
  close _ _ _ := catchException_follows
  read s d := modify_follows s id (f := fun r => { r with deserializer := d }) fun _ => rfl

end HookedServer

end TntPub

import TntPub.Dispatch
import TntPub.Runs
import Mathlib.Data.Multiset.AddSub

namespace TntPub

/-- What a subscription is asked for and given up by: main topic, subtopic and type. -/
structure Key where
  topic : Topic
  type : SubscriptionType
deriving DecidableEq

namespace Key

def create (rx : Regex) (k : Key) : Except Exception Subscription :=
  Subscription.create rx k.topic k.type

def matchesTopic (rx : Regex) (k : Key) (x : Topic) : Bool :=
  match k.create rx with
  | .ok subscription => subscription.matchesTopic rx x
  | .error _ => false

end Key

def SubscriptionImpl.key : SubscriptionImpl → Key
  | fullTopic data => ⟨data, .typeFull⟩
  | prefixTopic data => ⟨data, .typePrefix⟩
  | regexTopic data => ⟨data, .typeRegex⟩
  | regexTopicReversed data => ⟨data, .typeRegexReversed⟩

def Subscription.key (s : Subscription) : Option Key := s.impl.map SubscriptionImpl.key

namespace DataMessage

def key (m : DataMessage) : Key := ⟨m.topic, subscriptionType m.type⟩

/-- A request to subscribe or unsubscribe of one of the types Full, Prefix and Regex. -/
def isRequest (m : DataMessage) : Bool :=
  m.type == .subscribeFull || m.type == .subscribePrefix || m.type == .subscribeRegex
    || m.type == .unsubscribeFull || m.type == .unsubscribePrefix || m.type == .unsubscribeRegex

end DataMessage

/-- The subscriptions of a client as it may think of them. -/
abbrev Table := Multiset Key

namespace Table

/-- A subscribe request counts its key up, an unsubscribe request counts it down. -/
def handle (table : Table) (m : DataMessage) : Table :=
  if m.isSubscribeMessage then m.key ::ₘ table
  else if m.isUnsubscribeMessage then table.erase m.key
  else table

def isSubscribed (rx : Regex) (table : Table) (x : Topic) : Prop :=
  ∃ k, 0 < table.count k ∧ k.matchesTopic rx x = true

end Table

def tableOf (subscriptions : List Subscription) : Table :=
  (subscriptions.filterMap Subscription.key : List Key)

def Created (rx : Regex) (subscriptions : List Subscription) : Prop :=
  ∀ subscription ∈ subscriptions, ∃ k, subscription.key = some k ∧ k.create rx = .ok subscription

section Tables

variable {rx : Regex} {subscriptions : List Subscription} {m : DataMessage}

theorem Key.matchesTopic_eq {k : Key} {s : Subscription} (h : k.create rx = .ok s) (x : Topic) :
    k.matchesTopic rx x = s.matchesTopic rx x := by
  simp only [matchesTopic, h]

theorem mem_tableOf {k : Key} :
    k ∈ tableOf subscriptions ↔ ∃ s ∈ subscriptions, s.key = some k := by
  simp [tableOf]

theorem any_matchesTopic_iff (hcreated : Created rx subscriptions) (x : Topic) :
    (subscriptions.any fun s => s.matchesTopic rx x) = true ↔
      (tableOf subscriptions).isSubscribed rx x := by
  simp only [List.any_eq_true, Table.isSubscribed, Multiset.count_pos, mem_tableOf]
  constructor
  · rintro ⟨s, hs, hx⟩
    obtain ⟨k, hk, hcreate⟩ := hcreated s hs
    exact ⟨k, ⟨s, hs, hk⟩, by rw [Key.matchesTopic_eq hcreate, hx]⟩
  · rintro ⟨k, ⟨s, hs, hk⟩, hx⟩
    obtain ⟨k', hk', hcreate⟩ := hcreated s hs
    have hkk : k = k' := Option.some.inj (hk.symm.trans hk')
    rw [hkk, Key.matchesTopic_eq hcreate] at hx
    exact ⟨s, hs, hx⟩

/-- `equals` compares the main topic and the type only. -/
theorem equals_iff {s : Subscription} {k : Key} (hk : s.key = some k) (main : Bytes)
    (type : SubscriptionType) :
    s.equals { main := main } type = true ↔ k.type = type ∧ k.topic.main = main := by
  obtain ⟨impl, himpl, rfl⟩ := Option.map_eq_some_iff.mp hk
  simp only [Subscription.equals, himpl]
  cases impl <;>
    simp only [SubscriptionImpl.is, SubscriptionImpl.data, SubscriptionImpl.key, Bool.and_eq_true,
      beq_iff_eq] <;> exact and_congr_left fun _ => eq_comm

/-- The comparison in the loop of `unsubscribeMessageReceived`. -/
def DataMessage.erases (m : DataMessage) (s : Subscription) : Bool :=
  s.equals { main := m.topic.main } (subscriptionType m.type)

/-- The loop takes the requested key from the table exactly if the first subscription it
finds has it. -/
theorem tableOf_eraseP_iff (hcreated : Created rx subscriptions) :
    tableOf (subscriptions.eraseP m.erases) = (tableOf subscriptions).erase m.key ↔
      ∀ s ∈ subscriptions.find? m.erases, s.key = some m.key := by
  induction subscriptions with
  | nil => simp [tableOf]
  | cons s rest ih =>
    obtain ⟨k, hk, -⟩ := hcreated s List.mem_cons_self
    have hrest : Created rx rest := fun a ha => hcreated a (List.mem_cons_of_mem s ha)
    have hequals := equals_iff hk m.topic.main (DataMessage.subscriptionType m.type)
    have hcons : ∀ l, tableOf (s :: l) = k ::ₘ tableOf l := fun l => by
      simp [tableOf, hk]
    by_cases he : m.erases s = true
    · rw [List.eraseP_cons_of_pos he, hcons, List.find?_cons_of_pos he]
      simp only [Option.mem_def, Option.some.injEq, forall_eq', hk]
      constructor
      · intro h
        by_contra hne
        have hcount := congrArg (Multiset.count k) h
        rw [Multiset.count_erase_of_ne hne, Multiset.count_cons_self] at hcount
        omega
      · rintro rfl
        rw [Multiset.erase_cons_head]
    · have hne : k ≠ m.key := by
        rintro rfl
        exact he (hequals.mpr ⟨rfl, rfl⟩)
      rw [List.eraseP_cons_of_neg he, hcons, hcons, Multiset.erase_cons_tail _ hne,
        Multiset.cons_inj_right, ih hrest, List.find?_cons_of_neg he]

theorem Created.eraseP (hcreated : Created rx subscriptions)
    (p : Subscription → Bool) : Created rx (subscriptions.eraseP p) :=
  fun s hs => hcreated s (List.mem_of_mem_eraseP hs)

theorem create_key {k : Key} {s : Subscription} (htype : k.type ≠ .typeNull)
    (h : k.create rx = .ok s) : s.key = some k := by
  obtain ⟨topic, type⟩ := k
  cases type with
  | typeNull => exact absurd rfl htype
  | typeFull => cases h; rfl
  | typePrefix => cases h; rfl
  | typeRegex =>
    simp only [Key.create, Subscription.create] at h
    split at h
    next => cases h; rfl
    next => cases h
  | typeRegexReversed =>
    simp only [Key.create, Subscription.create] at h
    split at h
    next => cases h; rfl
    next => cases h

end Tables

section Histories

variable {rx : Regex} {s t : Server} {id : ResponderId} {r r' : Responder} {m : DataMessage}

def Represents (rx : Regex) (r : Responder) (table : Table) : Prop :=
  Created rx r.subscriptions ∧ tableOf r.subscriptions = table

theorem Represents.isSubscribed_iff {table : Table} (h : Represents rx r table) (x : Topic) :
    r.isSubscribed rx x = true ↔ table.isSubscribed rx x := by
  obtain ⟨hcreated, rfl⟩ := h
  exact any_matchesTopic_iff hcreated x

theorem Represents.subscribe {table : Table} (h : Represents rx r table)
    (hsub : m.isSubscribeMessage = true) (hc : r.control rx m = .ok r') :
    Represents rx r' (table.handle m) := by
  have htype : m.key.type ≠ .typeNull := by
    simp only [DataMessage.isSubscribeMessage, Bool.or_eq_true, beq_iff_eq] at hsub
    rcases hsub with ((h | h) | h) | h <;> simp [DataMessage.key, h, DataMessage.subscriptionType]
  simp only [Responder.control, hsub, if_true] at hc
  cases hcreate : Subscription.create rx m.topic (DataMessage.subscriptionType m.type) with
  | error e => rw [hcreate] at hc; cases hc
  | ok subscription =>
    rw [hcreate] at hc
    cases hc
    have hkey := create_key (k := m.key) htype hcreate
    refine ⟨?_, ?_⟩
    · intro a ha
      rcases List.mem_append.mp ha with ha | ha
      · exact h.1 a ha
      · have ha : a = subscription := by simpa using ha
        exact ⟨m.key, by rw [ha, hkey], by rw [ha]; exact hcreate⟩
    · simp only [Table.handle, hsub, if_true, ← h.2, tableOf, List.filterMap_append]
      rw [← Multiset.coe_add, Multiset.add_comm]
      simp [hkey]

theorem Represents.unsubscribe {table : Table} (h : Represents rx r table)
    (hmeant : ∀ s ∈ r.subscriptions.find? m.erases, s.key = some m.key) :
    Represents rx (r.unsubscribe m) (table.erase m.key) :=
  ⟨h.1.eraseP _, by rw [← h.2]; exact (tableOf_eraseP_iff h.1).mpr hmeant⟩

theorem isRequest_cases (hm : m.isRequest = true) :
    m.isDataMessage = false ∧ (m.isSubscribeMessage = true ∨
      m.isSubscribeMessage = false ∧ m.isUnsubscribeMessage = true) := by
  simp only [DataMessage.isRequest, Bool.or_eq_true, beq_iff_eq] at hm
  rcases hm with ((((h | h) | h) | h) | h) | h <;>
    simp [DataMessage.isDataMessage, DataMessage.isSubscribeMessage,
      DataMessage.isUnsubscribeMessage, h]

/-- One message handled by a responder, as a step of a history. -/
def handled (rx : Regex) (id : ResponderId) (s : Server) (m : DataMessage) : Option Server :=
  match Server.handleMessage rx id m s with
  | .ok _ t => some t
  | .error _ _ => none

theorem handled_control (hr : s.responders.find id = some r) (hm : m.isDataMessage = false)
    (h : handled rx id s m = some t) :
    ∃ r', r.control rx m = .ok r' ∧ t.responders.find id = some r' := by
  have hspec := Server.handleMessage_control rx hr hm
  cases hc : r.control rx m with
  | error e =>
    rw [hc] at hspec
    obtain ⟨u, hu, -⟩ := hspec
    simp only [handled, hu] at h
    cases h
  | ok r' =>
    rw [hc] at hspec
    obtain ⟨u, hu, -, hparts⟩ := hspec
    simp only [handled, hu] at h
    cases h
    have hown := hparts id
    rw [if_pos rfl] at hown
    exact ⟨r', rfl, congrArg Connection.responder hown⟩

/-- If the request is to unsubscribe, the first subscription of its main topic and type has
its subtopic too, unless there is none. -/
def ErasesMeant (id : ResponderId) (s : Server) (m : DataMessage) : Prop :=
  m.isUnsubscribeMessage = true → ∀ r ∈ s.responders.find id,
    ∀ subscription ∈ r.subscriptions.find? m.erases, subscription.key = some m.key

theorem handled_represents {table : Table} (hm : m.isRequest = true)
    (hmeant : ErasesMeant id s m)
    (h : ∃ r, s.responders.find id = some r ∧ Represents rx r table)
    (hstep : handled rx id s m = some t) :
    ∃ r, t.responders.find id = some r ∧ Represents rx r (table.handle m) := by
  obtain ⟨r, hr, hrep⟩ := h
  obtain ⟨hdata, hkind⟩ := isRequest_cases hm
  obtain ⟨r', hc, hr'⟩ := handled_control hr hdata hstep
  refine ⟨r', hr', ?_⟩
  rcases hkind with hsub | ⟨hsub, hun⟩
  · exact hrep.subscribe hsub hc
  · simp only [Responder.control, hsub, hun, if_true, Bool.false_eq_true, if_false] at hc
    cases hc
    simp only [Table.handle, hsub, hun, if_true, Bool.false_eq_true, if_false]
    exact hrep.unsubscribe (hmeant hun r hr)

/-- In every history in which each unsubscribe request finds the subscription it means, the
responder is subscribed to what its table of requests says. -/
theorem isSubscribed_iff_table (rx : Regex) (id : ResponderId) (s s' : Server) (r : Responder)
    (ms : List DataMessage) (hr : s.responders.find id = some r) (hnone : r.subscriptions = [])
    (hrequests : ∀ m ∈ ms, m.isRequest = true)
    (hmeant : Runs.Meets (handled rx id) (ErasesMeant id) s ms)
    (hrun : Runs.run (handled rx id) s ms = some s') :
    ∃ r', s'.responders.find id = some r' ∧
      ∀ x, r'.isSubscribed rx x = true ↔ (ms.foldl Table.handle 0).isSubscribed rx x := by
  have hstart : ∃ r, s.responders.find id = some r ∧ Represents rx r 0 :=
    ⟨r, hr, by simp [hnone, Created], by simp [hnone, tableOf]⟩
  obtain ⟨r', hr', hrep⟩ := Runs.simulation_of_meets
    (R := fun u table => ∃ r, u.responders.find id = some r ∧ Represents rx r table)
    (fun _ _ m _ hmem hmeant h hstep => handled_represents (hrequests m hmem) hmeant h hstep)
    hstart hmeant hrun
  exact ⟨r', hr', hrep.isSubscribed_iff⟩

def fooBar : Topic := { main := [0x66, 0x6f, 0x6f], sub := [0x62, 0x61, 0x72] }

def fooBaz : Topic := { main := [0x66, 0x6f, 0x6f], sub := [0x62, 0x61, 0x7a] }

/-- Two subtopics of one main topic are subscribed, then one is given up. -/
def twoSubtopics (givenUp : Topic) : List DataMessage :=
  [.subscribe ⟨[], 0, 0⟩ fooBar .typeFull [], .subscribe ⟨[], 0, 0⟩ fooBaz .typeFull [],
    .unsubscribe ⟨[], 0, 0⟩ givenUp .typeFull]

theorem isSubscribed_iff_table_first :
    ∃ s' r', Runs.run (handled .literal 0) .oneClient (twoSubtopics fooBar) = some s' ∧
      s'.responders.find 0 = some r' ∧
      ∀ x, r'.isSubscribed .literal x = true ↔
        ((twoSubtopics fooBar).foldl Table.handle 0).isSubscribed .literal x := by
  have hmeant : Runs.Meets (handled .literal 0) (ErasesMeant 0) .oneClient
      (twoSubtopics fooBar) := by
    refine ⟨fun h => absurd h (by decide), fun s hs => ?_⟩
    refine ⟨fun h => absurd h (by decide), fun t ht => ?_⟩
    obtain rfl := Option.some.inj hs
    obtain rfl := Option.some.inj ht
    refine ⟨fun _ r hr subscription hfound => ?_, fun _ _ => trivial⟩
    obtain rfl := Option.some.inj hr
    obtain rfl := Option.some.inj hfound
    rfl
  obtain ⟨r', hr', hx⟩ := isSubscribed_iff_table .literal 0 .oneClient _ {} (twoSubtopics fooBar)
    rfl rfl (by decide) hmeant rfl
  exact ⟨_, r', rfl, hr', hx⟩

/-- The second subtopic is given up, and the first is lost. -/
theorem not_isSubscribed_iff_table :
    ¬ ∀ rx id s s' r ms, s.responders.find id = some r → r.subscriptions = [] →
      (∀ m ∈ ms, m.isRequest = true) → Runs.run (handled rx id) s ms = some s' →
      ∃ r', s'.responders.find id = some r' ∧
        ∀ x, r'.isSubscribed rx x = true ↔ (ms.foldl Table.handle 0).isSubscribed rx x := by
  intro h
  obtain ⟨r', hr', hx⟩ :=
    h .literal 0 .oneClient _ {} (twoSubtopics fooBaz) rfl rfl (by decide) rfl
  obtain rfl := Option.some.inj hr'
  have htable : ((twoSubtopics fooBaz).foldl Table.handle 0).isSubscribed .literal fooBar :=
    ⟨⟨fooBar, .typeFull⟩, by decide, by decide⟩
  exact absurd ((hx fooBar).mpr htable) (by decide)

end Histories

end TntPub

import TntPub.Ownership

namespace TntPub

namespace Storage

variable {Address : Type} [DecidableEq Address]

section Operations

variable {rt : Runtime Address} {rx : Regex} {s t : Storage Address} {m : DataMessage}
variable {a : Address} {h : SubscriptionHandle Address}

theorem delete_allocated (ha : a ∈ s.heap.slots) :
    delete (some a) s = .ok () { s with heap := s.heap.remove a } := by
  have hsome := (s.heap.mem_slots a).mp ha
  simp only [delete, hsome, if_true]

theorem destroyAll_moved {hs : List (SubscriptionHandle Address)}
    (hmoved : ∀ h ∈ hs, h.impl = none) : destroyAll hs s = .ok () s := by
  induction hs with
  | nil => rfl
  | cons h hs ih =>
    have hdelete : delete h.impl s = .ok () s := by
      rw [hmoved h List.mem_cons_self]
      rfl
    rw [destroyAll, Call.bind_ok hdelete]
    exact ih fun k hk => hmoved k (List.mem_cons_of_mem h hk)

/-- Relocation hands every implementation on. -/
theorem relocate_eq : relocate rt s = .ok () { s with capacity := rt.growth s.capacity } := by
  have hsame : (s.subscriptions.map fun h => h.moveConstruct.1) = s.subscriptions :=
    List.map_id s.subscriptions
  rw [relocate, hsame]
  apply destroyAll_moved
  intro h hh
  obtain ⟨k, -, rfl⟩ := List.mem_map.mp hh
  rfl

theorem reserveNext_eq (rt : Runtime Address) (s : Storage Address) :
    ∃ capacity, reserveNext rt s = .ok () { s with capacity := capacity } := by
  by_cases hfull : s.subscriptions.length = s.capacity
  · refine ⟨rt.growth s.capacity, ?_⟩
    rw [reserveNext, if_pos hfull, relocate_eq]
  · refine ⟨s.capacity, ?_⟩
    rw [reserveNext, if_neg hfull]

theorem emplaceBack_error {topic : Topic} {type : SubscriptionType} {e : Exception}
    (hcreate : Subscription.create rx topic type = .error e) :
    emplaceBack rt rx topic type s = .error (.exception e) s := by
  apply Call.bind_error
  simp only [create, hcreate]

theorem create_impl {topic : Topic} {type : SubscriptionType} {subscription : Subscription}
    (hcreate : Subscription.create rx topic type = .ok subscription) :
    ∃ impl, subscription = ⟨some impl⟩ := by
  cases type <;> simp only [Subscription.create] at hcreate
  case typeRegex | typeRegexReversed =>
    split at hcreate
    · cases hcreate
      exact ⟨_, rfl⟩
    · cases hcreate
  all_goals
    cases hcreate
    exact ⟨_, rfl⟩

theorem emplaceBack_ok (rt : Runtime Address) (s : Storage Address) {topic : Topic}
    {type : SubscriptionType} {impl : SubscriptionImpl}
    (hcreate : Subscription.create rx topic type = .ok ⟨some impl⟩) :
    ∃ capacity, emplaceBack rt rx topic type s =
      .ok () ⟨s.heap.insert (rt.address s.heap.slots) impl,
        s.subscriptions ++ [⟨some (rt.address s.heap.slots)⟩], capacity⟩ := by
  have hnew : create rt rx topic type s = .ok ⟨some (rt.address s.heap.slots)⟩
      { s with heap := s.heap.insert (rt.address s.heap.slots) impl } := by
    simp only [create, hcreate]
  obtain ⟨capacity, hreserve⟩ := reserveNext_eq rt
    ({ s with heap := s.heap.insert (rt.address s.heap.slots) impl })
  refine ⟨capacity, ?_⟩
  rw [emplaceBack, Call.bind_ok hnew, Call.bind_ok hreserve]
  rfl

theorem erase_last {front : List (SubscriptionHandle Address)} (ha : a ∈ s.heap.slots)
    (hs : s.subscriptions = front ++ [⟨some a⟩]) :
    erase front.length s =
      .ok () { s with heap := s.heap.remove a, subscriptions := front } := by
  have herase : erase front.length s = delete (some a) { s with subscriptions := front } := by
    simp [erase, hs, SubscriptionHandle.shiftDown]
  rw [herase]
  exact delete_allocated (s := { s with subscriptions := front }) ha

/-- Erased in front of others, a subscription is not destroyed. -/
theorem erase_front {front rest : List (SubscriptionHandle Address)} (hrest : rest ≠ [])
    (hs : s.subscriptions = front ++ h :: rest) :
    erase front.length s = .ok () { s with subscriptions := front ++ rest } := by
  simp [erase, hs, SubscriptionHandle.shiftDown_eq, hrest, delete]

/-- All a message can do, and what the call results in. -/
inductive Handled (rt : Runtime Address) (rx : Regex) (m : DataMessage) (s : Storage Address) :
    EStateM.Result Interrupt (Storage Address) Unit → Prop
  | rejected {e : Exception} (hsubscribe : m.isSubscribeMessage = true)
      (hcreate : Subscription.create rx m.topic (DataMessage.subscriptionType m.type) =
        .error e) : Handled rt rx m s (.error (.exception e) s)
  | subscribed {impl : SubscriptionImpl} (capacity : Nat)
      (hsubscribe : m.isSubscribeMessage = true)
      (hcreate : Subscription.create rx m.topic (DataMessage.subscriptionType m.type) =
        .ok ⟨some impl⟩) :
      Handled rt rx m s (.ok () ⟨s.heap.insert (rt.address s.heap.slots) impl,
        s.subscriptions ++ [⟨some (rt.address s.heap.slots)⟩], capacity⟩)
  | notFound (hunsubscribe : m.isUnsubscribeMessage = true)
      (hnone : ∀ h ∈ s.subscriptions, m.erases (s.deref h) = false) :
      Handled rt rx m s (.ok () s)
  | erasedLast {front : List (SubscriptionHandle Address)} {a : Address}
      (hunsubscribe : m.isUnsubscribeMessage = true)
      (hs : s.subscriptions = front ++ [⟨some a⟩])
      (hfront : ∀ k ∈ front, m.erases (s.deref k) = false)
      (herases : m.erases (s.deref ⟨some a⟩) = true) :
      Handled rt rx m s (.ok () { s with heap := s.heap.remove a, subscriptions := front })
  | erasedFront {front rest : List (SubscriptionHandle Address)} {a : Address}
      (hunsubscribe : m.isUnsubscribeMessage = true) (hrest : rest ≠ [])
      (hs : s.subscriptions = front ++ ⟨some a⟩ :: rest)
      (hfront : ∀ k ∈ front, m.erases (s.deref k) = false)
      (herases : m.erases (s.deref ⟨some a⟩) = true) :
      Handled rt rx m s (.ok () { s with subscriptions := front ++ rest })
  | ignored (hsubscribe : m.isSubscribeMessage = false)
      (hunsubscribe : m.isUnsubscribeMessage = false) : Handled rt rx m s (.ok () s)

theorem not_isSubscribeMessage (h : m.isUnsubscribeMessage = true) :
    m.isSubscribeMessage = false := by
  cases htype : m.type <;>
    simp_all [DataMessage.isUnsubscribeMessage, DataMessage.isSubscribeMessage]

theorem Valid.handled (hv : s.Valid) (rt : Runtime Address) (rx : Regex) (m : DataMessage) :
    Handled rt rx m s (handleMessage rt rx m s) := by
  cases hsubscribe : m.isSubscribeMessage with
  | true =>
    simp only [handleMessage, hsubscribe, if_true]
    cases hcreate : Subscription.create rx m.topic (DataMessage.subscriptionType m.type) with
    | error e =>
      rw [emplaceBack_error hcreate]
      exact .rejected hsubscribe hcreate
    | ok subscription =>
      obtain ⟨impl, rfl⟩ := create_impl hcreate
      obtain ⟨capacity, hrun⟩ := emplaceBack_ok rt s hcreate
      rw [hrun]
      exact .subscribed capacity hsubscribe hcreate
  | false =>
    cases hunsubscribe : m.isUnsubscribeMessage with
    | false =>
      simp only [handleMessage, hsubscribe, hunsubscribe, if_false, Bool.false_eq_true]
      exact .ignored hsubscribe hunsubscribe
    | true =>
      have hfound {index : Option Nat} {t : Storage Address}
          (hrun : findEqual m s.subscriptions s = .ok index t) :
          handleMessage rt rx m s = index.elim (pure ()) erase t := by
        simp only [handleMessage, hsubscribe, hunsubscribe, if_true, if_false,
          Bool.false_eq_true]
        refine (Call.bind_ok hrun).trans ?_
        cases index with
        | none => rfl
        | some index => rfl
      rcases findEqual_cases hv.allocated m with
        ⟨hnone, hrun⟩ | ⟨front, h, rest, hs, hfront, herases, hrun⟩
      · rw [hfound hrun]
        exact .notFound hunsubscribe hnone
      · rw [hfound hrun]
        obtain ⟨a, ha, himpl⟩ := hv.allocated h (by simp [hs])
        obtain rfl : h = ⟨some a⟩ := by
          cases h
          cases himpl
          rfl
        cases rest with
        | nil =>
          show Handled rt rx m s (erase front.length s)
          rw [erase_last ha hs]
          exact .erasedLast hunsubscribe hs hfront herases
        | cons k rest =>
          show Handled rt rx m s (erase front.length s)
          rw [erase_front (List.cons_ne_nil k rest) hs]
          exact .erasedFront hunsubscribe (List.cons_ne_nil k rest) hs hfront herases

end Operations

end Storage

end TntPub

import TntPub.SubscriptionTable
import TntPub.Runs
import Mathlib.Algebra.Order.BigOperators.Group.List

namespace TntPub

/-- `Subscription` as its one member, a pointer to an implementation. -/
structure SubscriptionHandle (Address : Type) where
  impl : Option Address := none
deriving DecidableEq

namespace SubscriptionHandle

variable {Address : Type}

/-- The move constructor: the new subscription and what is left of `src`. -/
def moveConstruct (src : SubscriptionHandle Address) :
    SubscriptionHandle Address × SubscriptionHandle Address :=
  (⟨src.impl⟩, ⟨none⟩)

/-- The move assignment: what becomes of the assigned one and of `src`. The pointer that was
there before is overwritten. -/
def moveAssign (_ src : SubscriptionHandle Address) :
    SubscriptionHandle Address × SubscriptionHandle Address :=
  (⟨src.impl⟩, ⟨none⟩)

/-- `erase` of a vector moves each element behind the erased one a place down. -/
def shiftDown (erased : SubscriptionHandle Address) :
    List (SubscriptionHandle Address) → List (SubscriptionHandle Address)
  | [] => [erased]
  | next :: rest => (moveAssign erased next).1 :: shiftDown (moveAssign erased next).2 rest

/-- The elements behind the erased one keep their implementations; in the end the last one has
none, unless it is the erased one itself. -/
theorem shiftDown_eq (erased : SubscriptionHandle Address)
    (rest : List (SubscriptionHandle Address)) :
    shiftDown erased rest = rest ++ [if rest = [] then erased else ⟨none⟩] := by
  induction rest generalizing erased with
  | nil => rfl
  | cons next rest ih =>
    show next :: shiftDown ⟨none⟩ rest = _
    rw [ih]
    simp

end SubscriptionHandle

/-- What the language leaves open: the addresses `new` returns and how a vector grows. -/
structure Runtime (Address : Type) where
  address : List Address → Address
  address_not_mem : ∀ as, address as ∉ as
  growth : Nat → Nat

/-- The heap of `Subscription::Impl` objects and the vector `_subscriptions` of a responder. -/
structure Storage (Address : Type) where
  heap : Registry Address SubscriptionImpl := .empty
  subscriptions : List (SubscriptionHandle Address) := []
  capacity : Nat := 0

namespace Storage

variable {Address : Type}

/-- What the pointer of a subscription leads to. -/
def deref (s : Storage Address) (h : SubscriptionHandle Address) : Subscription :=
  ⟨h.impl.bind s.heap.find⟩

def view (s : Storage Address) : List Subscription := s.subscriptions.map s.deref

def pointers (s : Storage Address) : List Address := s.subscriptions.filterMap (·.impl)

structure Valid (s : Storage Address) : Prop where
  allocated : ∀ h ∈ s.subscriptions, ∃ a ∈ s.heap.slots, h.impl = some a
  nodup : s.pointers.Nodup

/-- The objects on the heap are those the subscriptions point to, one each. -/
structure Owned (s : Storage Address) : Prop where
  nodup : s.pointers.Nodup
  mem_slots : ∀ a, a ∈ s.heap.slots ↔ a ∈ s.pointers

theorem mem_pointers {s : Storage Address} {a : Address} :
    a ∈ s.pointers ↔ ⟨some a⟩ ∈ s.subscriptions := by
  simp only [pointers, List.mem_filterMap]
  constructor
  · rintro ⟨⟨impl⟩, hmem, rfl⟩
    exact hmem
  · intro hmem
    exact ⟨⟨some a⟩, hmem, rfl⟩

def equals (h : SubscriptionHandle Address) (topic : Topic) (type : SubscriptionType) :
    Call (Storage Address) Bool := fun s =>
  match h.impl with
  | none => .ok topic.main.isEmpty s
  | some a =>
    match s.heap.find a with
    | none => .error .useAfterFree s
    | some impl => .ok (impl.is type && impl.data.main == topic.main) s

/-- The loop of `unsubscribeMessageReceived` up to the subscription to erase. -/
def findEqual (m : DataMessage) :
    List (SubscriptionHandle Address) → Call (Storage Address) (Option Nat)
  | [] => pure none
  | h :: hs => do
    if ← equals h { main := m.topic.main } (DataMessage.subscriptionType m.type) then
      pure (some 0)
    else
      let index ← findEqual m hs
      pure (index.map (· + 1))

section Reading

variable {s : Storage Address} {h : SubscriptionHandle Address}

theorem deref_of_find {t : Storage Address} {a : Address}
    (himpl : h.impl = some a) (hfind : t.heap.find a = s.heap.find a) : t.deref h = s.deref h := by
  rw [deref, deref, himpl, Option.bind_some, Option.bind_some, hfind]

theorem view_append {front rest : List (SubscriptionHandle Address)}
    (hs : s.subscriptions = front ++ rest) :
    s.view = front.map s.deref ++ rest.map s.deref := by
  rw [view, hs, List.map_append]

/-- The first equal subscription is the one that `eraseP` takes out. -/
theorem eraseP_view {m : DataMessage} {front rest : List (SubscriptionHandle Address)}
    (hs : s.subscriptions = front ++ h :: rest)
    (hfront : ∀ k ∈ front, m.erases (s.deref k) = false) (herases : m.erases (s.deref h) = true) :
    s.view.eraseP m.erases = front.map s.deref ++ rest.map s.deref := by
  rw [view_append hs, List.eraseP_append_right, List.map_cons, List.eraseP_cons_of_pos herases]
  intro subscription hmem
  obtain ⟨k, hk, rfl⟩ := List.mem_map.mp hmem
  rw [hfront k hk]
  exact Bool.false_ne_true

theorem equals_eq (ha : ∃ a ∈ s.heap.slots, h.impl = some a) (topic : Topic)
    (type : SubscriptionType) : equals h topic type s = .ok ((s.deref h).equals topic type) s := by
  obtain ⟨a, ha, himpl⟩ := ha
  obtain ⟨impl, hfind⟩ := Option.isSome_iff_exists.mp ((s.heap.mem_slots a).mp ha)
  simp only [equals, deref, himpl, hfind, Option.bind_some, Subscription.equals]

theorem findEqual_cases {hs : List (SubscriptionHandle Address)}
    (hallocated : ∀ h ∈ hs, ∃ a ∈ s.heap.slots, h.impl = some a) (m : DataMessage) :
    ((∀ h ∈ hs, m.erases (s.deref h) = false) ∧ findEqual m hs s = .ok none s) ∨
    ∃ front h rest, hs = front ++ h :: rest ∧ (∀ k ∈ front, m.erases (s.deref k) = false) ∧
      m.erases (s.deref h) = true ∧ findEqual m hs s = .ok (some front.length) s := by
  induction hs with
  | nil => exact Or.inl ⟨by simp, rfl⟩
  | cons h hs ih =>
    have hequals := equals_eq (hallocated h List.mem_cons_self) { main := m.topic.main }
      (DataMessage.subscriptionType m.type)
    have hunfold : findEqual m (h :: hs) s =
        (if m.erases (s.deref h) then pure (some 0)
          else findEqual m hs >>= fun index => pure (index.map (· + 1))) s := by
      rw [findEqual, Call.bind_ok hequals]
      rfl
    cases herases : m.erases (s.deref h) with
    | true =>
      right
      refine ⟨[], h, hs, rfl, by simp, herases, ?_⟩
      rw [hunfold, herases]
      rfl
    | false =>
      rw [herases] at hunfold
      rcases ih fun k hk => hallocated k (List.mem_cons_of_mem h hk) with
        ⟨hnone, hrun⟩ | ⟨front, k, rest, rfl, hfront, hk, hrun⟩
      · left
        refine ⟨?_, ?_⟩
        · intro k hk
          rcases List.mem_cons.mp hk with rfl | hk
          · exact herases
          · exact hnone k hk
        · rw [hunfold]
          exact Call.bind_ok hrun
      · right
        refine ⟨h :: front, k, rest, rfl, ?_, hk, ?_⟩
        · intro l hl
          rcases List.mem_cons.mp hl with rfl | hl
          · exact herases
          · exact hfront l hl
        · rw [hunfold]
          exact Call.bind_ok hrun

/-- The erased subscription's implementation stays on the heap, and nothing points to it. -/
theorem Valid.erasedFront (hv : s.Valid)
    {front rest : List (SubscriptionHandle Address)} {a : Address}
    (hs : s.subscriptions = front ++ ⟨some a⟩ :: rest) :
    let t : Storage Address := { s with subscriptions := front ++ rest }
    t.Valid ∧ ¬ t.Owned := by
  intro t
  have hpointers : s.pointers.Perm (a :: t.pointers) := by
    simp only [t, pointers, hs, List.filterMap_append, List.filterMap_cons]
    exact List.perm_middle
  have hnodup := List.nodup_cons.mp (hpointers.nodup_iff.mp hv.nodup)
  refine ⟨⟨fun h hh => ?_, hnodup.2⟩, fun howned => ?_⟩
  · apply hv.allocated h
    rw [hs]
    exact List.mem_append.mpr ((List.mem_append.mp hh).imp_right (List.mem_cons_of_mem _))
  · obtain ⟨b, hb, hab⟩ := hv.allocated ⟨some a⟩ (by simp [hs])
    cases hab
    exact hnodup.1 ((howned.mem_slots a).mp hb)

theorem valid_empty : ({} : Storage Address).Valid where
  allocated h hh := by cases hh
  nodup := List.nodup_nil

theorem owned_empty : ({} : Storage Address).Owned where
  nodup := List.nodup_nil
  mem_slots _ := Iff.rfl

end Reading

variable [DecidableEq Address]

/-- `delete impl`, as in the destructor of a subscription. -/
def delete (impl : Option Address) : Call (Storage Address) Unit := fun s =>
  match impl with
  | none => .ok () s
  | some a =>
    if (s.heap.find a).isSome then .ok () { s with heap := s.heap.remove a }
    else .error .useAfterFree s

def destroyAll : List (SubscriptionHandle Address) → Call (Storage Address) Unit
  | [] => pure ()
  | h :: hs => do
    delete h.impl
    destroyAll hs

/-- The constructor of a subscription; an implementation that throws is no object. -/
def create (rt : Runtime Address) (rx : Regex) (topic : Topic) (type : SubscriptionType) :
    Call (Storage Address) (SubscriptionHandle Address) := fun s =>
  match Subscription.create rx topic type with
  | .error e => .error (.exception e) s
  | .ok subscription =>
    match subscription.impl with
    | none => .ok ⟨none⟩ s
    | some impl =>
      .ok ⟨some (rt.address s.heap.slots)⟩
        { s with heap := s.heap.insert (rt.address s.heap.slots) impl }

/-- The elements are moved to a larger storage, and what is left of them is destroyed. -/
def relocate (rt : Runtime Address) : Call (Storage Address) Unit := fun s =>
  destroyAll (s.subscriptions.map fun h => h.moveConstruct.2)
    { s with
      subscriptions := s.subscriptions.map fun h => h.moveConstruct.1
      capacity := rt.growth s.capacity }

def reserveNext (rt : Runtime Address) : Call (Storage Address) Unit := fun s =>
  if s.subscriptions.length = s.capacity then relocate rt s else .ok () s

/-- `_subscriptions.emplace_back(topic, type)`. The new element is built before the others
are moved. -/
def emplaceBack (rt : Runtime Address) (rx : Regex) (topic : Topic) (type : SubscriptionType) :
    Call (Storage Address) Unit := do
  let subscription ← create rt rx topic type
  reserveNext rt
  modify fun s => { s with subscriptions := s.subscriptions ++ [subscription] }

/-- `_subscriptions.erase(it)`: the last element is destroyed once all others are moved. -/
def erase (index : Nat) : Call (Storage Address) Unit := fun s =>
  match s.subscriptions.drop index with
  | [] => .ok () s
  | erased :: rest =>
    let shifted := erased.shiftDown rest
    match shifted.getLast? with
    | none => .ok () s
    | some last =>
      delete last.impl
        { s with subscriptions := s.subscriptions.take index ++ shifted.dropLast }

/-- A message that is no data message, as the callback of `Responder::onInput` handles it. -/
def handleMessage (rt : Runtime Address) (rx : Regex) (m : DataMessage) :
    Call (Storage Address) Unit := do
  if m.isSubscribeMessage then
    emplaceBack rt rx m.topic (DataMessage.subscriptionType m.type)
  else if m.isUnsubscribeMessage then
    let s ← get
    match ← findEqual m s.subscriptions with
    | none => pure ()
    | some index => erase index
  else pure ()

/-- The destruction of the responder destroys the vector with its elements. -/
def destruct : Call (Storage Address) Unit := fun s =>
  destroyAll s.subscriptions { s with subscriptions := [] }

end Storage

end TntPub

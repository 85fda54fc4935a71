import TntPub.StorageOperations

namespace TntPub

namespace Storage

variable {Address : Type} [DecidableEq Address]

section Steps

variable {rt : Runtime Address} {rx : Regex} {s t : Storage Address} {m : DataMessage}

/-- An exception leaves the vector as it was; after an access to a destroyed object there is
no next state. -/
def step (rt : Runtime Address) (rx : Regex) (s : Storage Address) (m : DataMessage) :
    Option (Storage Address) :=
  match handleMessage rt rx m s with
  | .ok _ t => some t
  | .error (.exception _) t => some t
  | .error .useAfterFree _ => none

/-- An unsubscribe message finds its subscription in the last place, or none. -/
def ErasesLast (s : Storage Address) (m : DataMessage) : Prop :=
  m.isUnsubscribeMessage = true →
    ∀ h ∈ s.subscriptions.dropLast, m.erases (s.deref h) = false

theorem Valid.subscribed (hv : s.Valid) (rt : Runtime Address) (impl : SubscriptionImpl)
    (capacity : Nat) :
    let t : Storage Address := ⟨s.heap.insert (rt.address s.heap.slots) impl,
      s.subscriptions ++ [⟨some (rt.address s.heap.slots)⟩], capacity⟩
    t.Valid ∧ (s.Owned → t.Owned) := by
  intro t
  have hslots : t.heap.slots = s.heap.slots ++ [rt.address s.heap.slots] :=
    Registry.slots_insert (Registry.find_eq_none (rt.address_not_mem _)) impl
  have hpointers : t.pointers = s.pointers ++ [rt.address s.heap.slots] := by
    simp [t, pointers]
  have hnodup : t.pointers.Nodup := by
    rw [hpointers]
    refine List.nodup_append.mpr ⟨hv.nodup, List.nodup_singleton _, ?_⟩
    intro a ha b hb
    obtain ⟨c, hc, hac⟩ := hv.allocated ⟨some a⟩ (mem_pointers.mp ha)
    cases hac
    rintro rfl
    rw [List.mem_singleton.mp hb] at hc
    exact rt.address_not_mem _ hc
  refine ⟨⟨fun h hh => ?_, hnodup⟩, fun howned => ⟨hnodup, fun a => ?_⟩⟩
  · rcases List.mem_append.mp hh with hh | hh
    · obtain ⟨a, ha, himpl⟩ := hv.allocated h hh
      exact ⟨a, by rw [hslots]; exact List.mem_append_left _ ha, himpl⟩
    · rw [List.mem_singleton.mp hh]
      exact ⟨_, by rw [hslots]; simp, rfl⟩
  · rw [hslots, hpointers, List.mem_append, List.mem_append, howned.mem_slots]

theorem Valid.erasedLast (hv : s.Valid) {front : List (SubscriptionHandle Address)}
    {a : Address} (hs : s.subscriptions = front ++ [⟨some a⟩]) :
    let t : Storage Address := { s with heap := s.heap.remove a, subscriptions := front }
    t.Valid ∧ (s.Owned → t.Owned) := by
  intro t
  have hpointers : s.pointers = t.pointers ++ [a] := by simp [t, pointers, hs]
  have hnodup := hv.nodup
  rw [hpointers] at hnodup
  obtain ⟨hnodup, -, hdisjoint⟩ := List.nodup_append.mp hnodup
  have hne : ∀ b ∈ t.pointers, b ≠ a := fun b hb => hdisjoint b hb a (List.mem_singleton_self a)
  refine ⟨⟨fun h hh => ?_, hnodup⟩, fun howned => ⟨hnodup, fun b => ?_⟩⟩
  · obtain ⟨b, hb, himpl⟩ := hv.allocated h (by rw [hs]; exact List.mem_append_left _ hh)
    have hmem : b ∈ t.pointers := List.mem_filterMap.mpr ⟨h, hh, himpl⟩
    exact ⟨b, (Registry.mem_slots_remove s.heap a b).mpr ⟨hne b hmem, hb⟩, himpl⟩
  · show b ∈ (s.heap.remove a).slots ↔ _
    rw [Registry.mem_slots_remove, howned.mem_slots, hpointers, List.mem_append,
      List.mem_singleton]
    constructor
    · rintro ⟨hba, hb | hb⟩
      · exact hb
      · exact absurd hb hba
    · intro hb
      exact ⟨hne b hb, Or.inl hb⟩

/-- A step keeps the vector valid, and the implementations owned exactly if it erases no
subscription in front of others. -/
theorem Valid.step (hv : s.Valid) (rt : Runtime Address) (rx : Regex) (m : DataMessage) :
    ∃ t, step rt rx s m = some t ∧ t.Valid ∧ (s.Owned → (t.Owned ↔ ErasesLast s m)) := by
  have hhandled := hv.handled rt rx m
  rw [Storage.step]
  generalize handleMessage rt rx m s = result at hhandled
  have hexclusive : m.isSubscribeMessage = true → ErasesLast s m := fun hsubscribe hun => by
    rw [not_isSubscribeMessage hun] at hsubscribe
    cases hsubscribe
  cases hhandled with
  | rejected hsubscribe =>
    exact ⟨s, rfl, hv, fun howned => ⟨fun _ => hexclusive hsubscribe, fun _ => howned⟩⟩
  | @subscribed impl capacity hsubscribe =>
    obtain ⟨ht, hkeeps⟩ := hv.subscribed rt impl capacity
    exact ⟨_, rfl, ht, fun howned => ⟨fun _ => hexclusive hsubscribe, fun _ => hkeeps howned⟩⟩
  | notFound hunsubscribe hnone =>
    refine ⟨s, rfl, hv, fun howned => ⟨fun _ _ h hh => ?_, fun _ => howned⟩⟩
    exact hnone h (List.mem_of_mem_dropLast hh)
  | erasedLast hunsubscribe hs hfront =>
    obtain ⟨ht, hkeeps⟩ := hv.erasedLast hs
    refine ⟨_, rfl, ht, fun howned => ⟨fun _ _ h hh => ?_, fun _ => hkeeps howned⟩⟩
    rw [hs, List.dropLast_concat] at hh
    exact hfront h hh
  | @erasedFront front rest a hunsubscribe hrest hs hfront herases =>
    obtain ⟨ht, hlost⟩ := hv.erasedFront hs
    refine ⟨_, rfl, ht, fun _ => ⟨fun h => absurd h hlost, fun hlast => ?_⟩⟩
    have hmem : (⟨some a⟩ : SubscriptionHandle Address) ∈ s.subscriptions.dropLast := by
      rw [hs, List.dropLast_append_of_ne_nil (List.cons_ne_nil _ _),
        List.dropLast_cons_of_ne_nil hrest]
      simp
    have hfalse := hlast hunsubscribe _ hmem
    rw [herases] at hfalse
    cases hfalse
  | ignored _ hunsubscribe =>
    refine ⟨s, rfl, hv, fun howned => ⟨fun _ hun => ?_, fun _ => howned⟩⟩
    rw [hunsubscribe] at hun
    cases hun

/-- What a responder's subscriptions are after a message, an exception leaving them alone. -/
def controlled (rx : Regex) (r : Responder) (m : DataMessage) : Responder :=
  match r.control rx m with
  | .ok r' => r'
  | .error _ => r

theorem controlled_unsubscribe (r : Responder) (h : m.isUnsubscribeMessage = true) :
    (controlled rx r m).subscriptions = r.subscriptions.eraseP m.erases := by
  simp only [controlled, Responder.control, not_isSubscribeMessage h, h, if_true, if_false,
    Bool.false_eq_true]
  rfl

theorem Valid.subscribed_view (hv : s.Valid) (rt : Runtime Address) (impl : SubscriptionImpl)
    (capacity : Nat) :
    view ⟨s.heap.insert (rt.address s.heap.slots) impl,
      s.subscriptions ++ [⟨some (rt.address s.heap.slots)⟩], capacity⟩ =
        s.view ++ [⟨some impl⟩] := by
  have hnew := Registry.find_insert (Registry.find_eq_none (rt.address_not_mem s.heap.slots))
  rw [view_append rfl]
  congr 1
  · apply List.map_congr_left
    intro h hh
    obtain ⟨a, ha, himpl⟩ := hv.allocated h hh
    apply deref_of_find himpl
    rw [hnew, if_neg]
    rintro rfl
    exact rt.address_not_mem _ ha
  · simp [deref, hnew]

theorem Valid.erasedLast_view (hv : s.Valid) {front : List (SubscriptionHandle Address)}
    {a : Address} (hs : s.subscriptions = front ++ [⟨some a⟩]) :
    view { s with heap := s.heap.remove a, subscriptions := front } = front.map s.deref := by
  apply List.map_congr_left
  intro h hh
  obtain ⟨b, hb, himpl⟩ := (hv.erasedLast hs).1.allocated h hh
  apply deref_of_find himpl
  exact if_neg ((Registry.mem_slots_remove s.heap a b).mp hb).1

/-- Read through its pointers the vector is the list of subscriptions of the responder. -/
theorem Valid.step_view {r : Responder} (hv : s.Valid) (hr : s.view = r.subscriptions)
    (hstep : Storage.step rt rx s m = some t) : t.view = (controlled rx r m).subscriptions := by
  have hhandled := hv.handled rt rx m
  rw [Storage.step] at hstep
  generalize handleMessage rt rx m s = result at hhandled hstep
  cases hhandled with
  | rejected hsubscribe hcreate =>
    cases hstep
    simp only [controlled, Responder.control, hsubscribe, if_true, hcreate, hr]
  | @subscribed impl capacity hsubscribe hcreate =>
    cases hstep
    simp only [controlled, Responder.control, hsubscribe, if_true, hcreate, ← hr]
    exact hv.subscribed_view rt impl capacity
  | notFound hunsubscribe hnone =>
    cases hstep
    rw [controlled_unsubscribe r hunsubscribe, ← hr, List.eraseP_of_forall_not]
    intro subscription hmem
    obtain ⟨h, hh, rfl⟩ := List.mem_map.mp hmem
    rw [hnone h hh]
    exact Bool.false_ne_true
  | erasedLast hunsubscribe hs hfront herases =>
    cases hstep
    rw [controlled_unsubscribe r hunsubscribe, ← hr, eraseP_view hs hfront herases,
      List.map_nil, List.append_nil]
    exact hv.erasedLast_view hs
  | erasedFront hunsubscribe hrest hs hfront herases =>
    cases hstep
    rw [controlled_unsubscribe r hunsubscribe, ← hr, eraseP_view hs hfront herases]
    exact view_append rfl
  | ignored hsubscribe hunsubscribe =>
    cases hstep
    simp only [controlled, Responder.control, hsubscribe, hunsubscribe, if_false,
      Bool.false_eq_true, hr]

theorem destroyAll_valid {hs : List (SubscriptionHandle Address)}
    (hallocated : ∀ h ∈ hs, ∃ a ∈ s.heap.slots, h.impl = some a)
    (hnodup : (hs.filterMap (·.impl)).Nodup) :
    ∃ t, destroyAll hs s = .ok () t ∧
      ∀ a, a ∈ t.heap.slots ↔ a ∈ s.heap.slots ∧ a ∉ hs.filterMap (·.impl) := by
  induction hs generalizing s with
  | nil => exact ⟨s, rfl, by simp⟩
  | cons h hs ih =>
    obtain ⟨a, ha, himpl⟩ := hallocated h List.mem_cons_self
    rw [List.filterMap_cons_some himpl] at hnodup
    obtain ⟨hnot, hnodup⟩ := List.nodup_cons.mp hnodup
    have hdelete : delete h.impl s = .ok () { s with heap := s.heap.remove a } := by
      rw [himpl]
      exact delete_allocated ha
    obtain ⟨t, hrun, hslots⟩ := ih (s := { s with heap := s.heap.remove a })
      (fun k hk => by
        obtain ⟨b, hb, hkb⟩ := hallocated k (List.mem_cons_of_mem h hk)
        have hba : b ≠ a := by
          rintro rfl
          exact hnot (List.mem_filterMap.mpr ⟨k, hk, hkb⟩)
        exact ⟨b, (Registry.mem_slots_remove s.heap a b).mpr ⟨hba, hb⟩, hkb⟩) hnodup
    refine ⟨t, (Call.bind_ok hdelete).trans hrun, fun b => ?_⟩
    rw [hslots, Registry.mem_slots_remove, List.filterMap_cons_some himpl, List.mem_cons]
    tauto

/-- The destruction deletes nothing twice, and leaves nothing behind exactly if all
implementations were owned. -/
theorem Valid.destruct (hv : s.Valid) :
    ∃ u, destruct s = .ok () u ∧ (u.heap.slots = [] ↔ s.Owned) := by
  obtain ⟨u, hu, hslots⟩ := destroyAll_valid (s := { s with subscriptions := [] })
    hv.allocated hv.nodup
  refine ⟨u, hu, fun hempty => ⟨hv.nodup, fun a => ?_⟩, fun howned => ?_⟩
  · constructor
    · intro ha
      by_contra hnot
      have hmem := (hslots a).mpr ⟨ha, hnot⟩
      rw [hempty] at hmem
      cases hmem
    · intro ha
      obtain ⟨b, hb, hab⟩ := hv.allocated ⟨some a⟩ (mem_pointers.mp ha)
      cases hab
      exact hb
  · apply List.eq_nil_iff_forall_not_mem.mpr
    intro a ha
    obtain ⟨hheap, hnot⟩ := (hslots a).mp ha
    exact hnot ((howned.mem_slots a).mp hheap)

theorem valid_of_run {ms : List DataMessage} (h : Runs.run (step rt rx) {} ms = some t) :
    t.Valid := by
  refine Runs.invariant (fun s m s' hv hs' => ?_) valid_empty h
  obtain ⟨u, hu, hvalid, -⟩ := hv.step rt rx m
  cases Option.some.inj (hu.symm.trans hs')
  exact hvalid

/-- No run comes to an access to a destroyed object, and neither does the destruction after it. -/
theorem exists_destruct (rt : Runtime Address) (rx : Regex) (hv : s.Valid)
    (ms : List DataMessage) :
    ∃ t u, Runs.run (step rt rx) s ms = some t ∧ destruct t = .ok () u := by
  induction ms generalizing s with
  | nil =>
    obtain ⟨u, hu, -⟩ := hv.destruct
    exact ⟨s, u, rfl, hu⟩
  | cons m ms ih =>
    obtain ⟨t, ht, hvalid, -⟩ := hv.step rt rx m
    obtain ⟨t', u, hrun, hu⟩ := ih hvalid
    exact ⟨t', u, Runs.run_cons.mpr ⟨t, ht, hrun⟩, hu⟩

/-- The vector of pointers and the list of subscriptions go through every run together. -/
theorem view_of_run {r : Responder} (hv : s.Valid) (hr : s.view = r.subscriptions)
    {ms : List DataMessage} (h : Runs.run (step rt rx) s ms = some t) :
    t.view = (ms.foldl (controlled rx) r).subscriptions := by
  induction ms generalizing s r with
  | nil =>
    cases Option.some.inj h
    exact hr
  | cons m ms ih =>
    obtain ⟨s', hs', hrest⟩ := Runs.run_cons.mp h
    obtain ⟨u, hu, hvalid, -⟩ := hv.step rt rx m
    cases Option.some.inj (hu.symm.trans hs')
    exact ih hvalid (hv.step_view hr hs') hrest

/-- In every run nothing is deleted twice; and each implementation has exactly one owner in
every state, and none is left after the destruction, exactly if the run erases no subscription
in front of others. -/
theorem owned_iff_erasesLast (rt : Runtime Address) (rx : Regex) (ms : List DataMessage) :
    (∀ n, ∃ t u, Runs.run (step rt rx) {} (ms.take n) = some t ∧ destruct t = .ok () u) ∧
    ((∀ n t u, Runs.run (step rt rx) {} (ms.take n) = some t → destruct t = .ok () u →
      t.Owned ∧ u.heap.slots = []) ↔ Runs.Meets (step rt rx) ErasesLast {} ms) := by
  refine ⟨fun n => exists_destruct rt rx valid_empty (ms.take n), ?_⟩
  have halways := Runs.always_iff_meets Valid Owned
    (fun s m hv howned => by
      obtain ⟨t, ht, hvalid, hiff⟩ := hv.step rt rx m
      exact ⟨t, ht, hvalid, hiff howned⟩) valid_empty owned_empty ms
  rw [← halways]
  constructor
  · intro h n t ht
    obtain ⟨u, hu, -⟩ := (valid_of_run ht).destruct
    exact (h n t u ht hu).1
  · intro h n t u ht hu
    obtain ⟨u', hu', hempty⟩ := (valid_of_run ht).destruct
    have howned := h n t ht
    cases hu.symm.trans hu'
    exact ⟨howned, hempty.mpr howned⟩

end Steps

/-- Each address is higher than all that are in use. -/
def counting : Runtime Nat where
  address as := as.sum + 1
  address_not_mem _ h := Nat.not_succ_le_self _ (List.le_sum_of_mem h)
  growth n := max 1 (2 * n)

/-- Two subtopics are subscribed and the first is given up: its implementation is never
deleted. -/
theorem not_owned :
    ¬ ∀ (rt : Runtime Nat) (rx : Regex) (ms : List DataMessage) (t u : Storage Nat),
      Runs.run (step rt rx) {} ms = some t → destruct t = .ok () u →
        t.Owned ∧ u.heap.slots = [] := by
  intro h
  obtain ⟨t, u, ht, hu⟩ := exists_destruct counting .literal valid_empty (twoSubtopics fooBar)
  have hstate : (Runs.run (step counting .literal) {} (twoSubtopics fooBar)).map
      (fun t => (t.heap.slots, t.pointers)) = some ([1, 2], [2]) := by rfl
  rw [ht] at hstate
  obtain ⟨hslots, hpointers⟩ := Prod.mk.inj (Option.some.inj hstate)
  have howned := (h counting .literal (twoSubtopics fooBar) t u ht hu).1
  have hmem := (howned.mem_slots 1).mp (by rw [hslots]; simp)
  rw [hpointers] at hmem
  exact absurd hmem (by decide)

end Storage

end TntPub


import Mathlib.Data.List.Basic
import Mathlib.Data.List.Nodup
import Mathlib.Tactic.Cases

/-- Live objects under their identifiers, with the order in which they were
connected as slots of a signal. -/
structure Registry (ι α : Type*) where
  find : ι → Option α
  slots : List ι
  slots_nodup : slots.Nodup
  mem_slots : ∀ i, i ∈ slots ↔ (find i).isSome

namespace Registry

variable {ι α : Type*}

def empty : Registry ι α where
  find _ := none
  slots := []
  slots_nodup := List.nodup_nil
  mem_slots := by simp

theorem find_eq_none {r : Registry ι α} {i : ι} (h : i ∉ r.slots) : r.find i = none := by
  rw [r.mem_slots, Option.not_isSome_iff_eq_none] at h
  exact h

variable [DecidableEq ι]

def modify (r : Registry ι α) (i : ι) (f : α → α) : Registry ι α where
  find j := if j = i then (r.find j).map f else r.find j
  slots := r.slots
  slots_nodup := r.slots_nodup
  mem_slots j := by
    by_cases h : j = i
    · simp [h, r.mem_slots]
    · simp [h, r.mem_slots]

/-- The object is destroyed and its slot disconnected. -/
def remove (r : Registry ι α) (i : ι) : Registry ι α where
  find j := if j = i then none else r.find j
  slots := r.slots.erase i
  slots_nodup := r.slots_nodup.erase i
  mem_slots j := by
    by_cases h : j = i
    · simp [h, r.slots_nodup.not_mem_erase]
    · simp [h, List.mem_erase_of_ne h, r.mem_slots]

/-- A new object is connected behind the others; a used identifier is left alone. -/
def insert (r : Registry ι α) (i : ι) (a : α) : Registry ι α :=
  if h : (r.find i).isSome then r
  else
    { find := fun j => if j = i then some a else r.find j
      slots := r.slots ++ [i]
      slots_nodup := by
        have hi : i ∉ r.slots := by simpa [r.mem_slots] using h
        exact List.nodup_append.mpr ⟨r.slots_nodup, by simp, fun x hx y hy => by
          have hyi : y = i := by simpa using hy
          rintro rfl
          exact hi (hyi ▸ hx)⟩
      mem_slots := fun j => by
        by_cases hj : j = i
        · simp [hj]
        · simp [hj, r.mem_slots] }

@[simp] theorem find_modify (r : Registry ι α) (i j : ι) (f : α → α) :
    (r.modify i f).find j = if j = i then (r.find j).map f else r.find j := rfl

@[simp] theorem slots_modify (r : Registry ι α) (i : ι) (f : α → α) :
    (r.modify i f).slots = r.slots := rfl

@[simp] theorem find_remove (r : Registry ι α) (i j : ι) :
    (r.remove i).find j = if j = i then none else r.find j := rfl

theorem find_insert {r : Registry ι α} {i : ι} (h : r.find i = none) (a : α) (j : ι) :
    (r.insert i a).find j = if j = i then some a else r.find j := by
  simp [insert, h]

theorem slots_insert {r : Registry ι α} {i : ι} (h : r.find i = none) (a : α) :
    (r.insert i a).slots = r.slots ++ [i] := by
  simp [insert, h]

theorem mem_slots_remove (r : Registry ι α) (i j : ι) :
    j ∈ (r.remove i).slots ↔ j ≠ i ∧ j ∈ r.slots :=
  r.slots_nodup.mem_erase_iff

section Emission

variable {ι σ ε : Type} [DecidableEq ι]

/-- Emission of a signal: the slots connected at the start are called in order, those
disconnected meanwhile are passed over. -/
def emit (connected : σ → ι → Bool) (slot : ι → EStateM ε σ Unit) : List ι → EStateM ε σ Unit
  | [] => pure ()
  | i :: is => fun s =>
    if connected s i then (slot i >>= fun _ => emit connected slot is) s
    else emit connected slot is s

/-- When a slot touches only its own part of the state, each part after the emission
depends on that part alone, whatever happened to the others. -/
theorem emit_local {γ : Type} (view : σ → ι → γ) (isConnected : γ → Bool) (Inv : σ → Prop)
    {slot : ι → EStateM ε σ Unit} (effect : ι → γ → γ)
    (hslot : ∀ i s, Inv s → isConnected (view s i) → ∃ s', slot i s = .ok () s' ∧ Inv s' ∧
      ∀ j, view s' j = if j = i then effect i (view s i) else view s j)
    {is : List ι} (hnodup : is.Nodup) {s : σ} (hs : Inv s) :
    ∃ s', emit (fun t i => isConnected (view t i)) slot is s = .ok () s' ∧ Inv s' ∧
      ∀ j, view s' j =
        if j ∈ is ∧ isConnected (view s j) then effect j (view s j) else view s j := by
  induction is generalizing s with
  | nil => exact ⟨s, rfl, hs, by simp⟩
  | cons i is ih =>
    obtain ⟨hi, hnodup'⟩ := List.nodup_cons.mp hnodup
    by_cases hc : isConnected (view s i)
    · obtain ⟨t, ht, hinv, hview⟩ := hslot i s hs hc
      obtain ⟨u, hu, hinv', hview'⟩ := ih hnodup' hinv
      refine ⟨u, ?_, hinv', ?_⟩
      · simp only [emit, hc, if_true, bind, EStateM.bind, ht]
        exact hu
      · intro j
        rw [hview' j, hview j]
        by_cases hj : j = i
        · subst hj
          simp [hi, hc]
        · simp [hj]
    · obtain ⟨u, hu, hinv', hview'⟩ := ih hnodup' hs
      refine ⟨u, ?_, hinv', ?_⟩
      · simp only [emit, hc, if_false, Bool.false_eq_true]
        exact hu
      · intro j
        rw [hview' j]
        by_cases hj : j = i
        · subst hj
          simp [hc]
        · simp [hj]

end Emission

end Registry

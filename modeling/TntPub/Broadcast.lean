import Mathlib.Data.List.Nodup

/-! Logs that several sources write and several readers see parts of. -/

namespace Broadcast

section Order

variable {α : Type*} [DecidableEq α] {xs ys zs : List α}

/-- A part of a list without duplicates is determined by its members. -/
theorem eq_filter_of_sublist (h : xs.Sublist zs) (hnodup : zs.Nodup) :
    xs = zs.filter (· ∈ xs) := by
  have hall : xs.filter (· ∈ xs) = xs := List.filter_eq_self.mpr fun a ha => decide_eq_true ha
  have hsub : xs.Sublist (zs.filter (· ∈ xs)) := by
    have hfilter := h.filter (· ∈ xs)
    rwa [hall] at hfilter
  have hmem : zs.filter (· ∈ xs) ⊆ xs := fun a ha => by simpa using (List.mem_filter.mp ha).2
  exact hsub.eq_of_length_le ((hnodup.filter _).length_le_of_subset hmem)

/-- Two readers of one log see what they have in common in the same order. -/
theorem common_order (hx : xs.Sublist zs) (hy : ys.Sublist zs) (hnodup : zs.Nodup) :
    xs.filter (· ∈ ys) = ys.filter (· ∈ xs) := by
  have hxs := eq_filter_of_sublist hx hnodup
  have hys := eq_filter_of_sublist hy hnodup
  calc xs.filter (· ∈ ys) = (zs.filter (· ∈ xs)).filter (· ∈ ys) := by rw [← hxs]
    _ = (zs.filter (· ∈ ys)).filter (· ∈ xs) := by
      rw [List.filter_filter, List.filter_filter]
      exact List.filter_congr fun a _ => Bool.and_comm _ _
    _ = ys.filter (· ∈ xs) := by rw [← hys]

end Order

section Contribution

variable {ι α : Type*} [DecidableEq ι]

/-- What one source has written to the log. -/
def contribution (log : List (ι × α)) (i : ι) : List α :=
  (log.filter fun entry => entry.1 = i).map Prod.snd

variable {log more : List (ι × α)} {i j : ι} {a : α} {n : ℕ}

@[simp] theorem contribution_nil (i : ι) : contribution ([] : List (ι × α)) i = [] := rfl

@[simp] theorem contribution_append (log more : List (ι × α)) (i : ι) :
    contribution (log ++ more) i = contribution log i ++ contribution more i := by
  simp [contribution]

theorem contribution_cons (i j : ι) (a : α) (log : List (ι × α)) :
    contribution ((j, a) :: log) i =
      if j = i then a :: contribution log i else contribution log i := by
  by_cases h : j = i
  · simp [contribution, h]
  · simp [contribution, h]

/-- The entries of one source are its contribution, and nothing of another one's. -/
theorem contribution_map (i j : ι) (as : List α) :
    contribution (as.map fun a => (j, a)) i = if j = i then as else [] := by
  induction as with
  | nil => simp
  | cons a as ih =>
    rw [List.map_cons, contribution_cons, ih]
    split <;> rfl

theorem mem_contribution : a ∈ contribution log i ↔ (i, a) ∈ log := by
  simp only [contribution, List.mem_map, List.mem_filter, decide_eq_true_eq]
  constructor
  · rintro ⟨⟨j, b⟩, ⟨hmem, rfl⟩, rfl⟩
    exact hmem
  · intro hmem
    exact ⟨(i, a), ⟨hmem, rfl⟩, rfl⟩

/-- An entry that has all of the earlier contribution of its source before it is later than
the whole earlier log. -/
theorem length_le_of_contribution (hentry : (log ++ more)[n]? = some (i, a))
    (hbefore : (contribution log i).length ≤ (contribution ((log ++ more).take n) i).length) :
    log.length ≤ n := by
  by_contra hlt
  have hn : n < log.length := by omega
  have hget : log[n]? = some (i, a) := by rwa [List.getElem?_append_left hn] at hentry
  have htake : (log ++ more).take n = log.take n := List.take_append_of_le_length (by omega)
  obtain ⟨hb, hval⟩ := List.getElem?_eq_some_iff.mp hget
  have hsplit : log = log.take n ++ (i, a) :: log.drop (n + 1) := by
    rw [← hval, ← List.drop_eq_getElem_cons hn, List.take_append_drop]
  have hlength : (contribution log i).length =
      (contribution (log.take n) i).length + 1 +
        (contribution (log.drop (n + 1)) i).length := by
    conv_lhs => rw [hsplit]
    rw [contribution_append, contribution_cons, if_pos rfl, List.length_append, List.length_cons]
    omega
  rw [htake, hlength] at hbefore
  omega

end Contribution

section Blocks

variable {α : Type*} {p q : α → Bool} {xs : List α}

/-- What holds from some place on selects a suffix. -/
theorem filter_back (h : xs.Pairwise fun a b => p a = true → p b = true) :
    xs.filter p <:+ xs := by
  induction xs with
  | nil => exact List.suffix_rfl
  | cons a xs ih =>
    obtain ⟨ha, hxs⟩ := List.pairwise_cons.mp h
    cases hp : p a with
    | true =>
      have hall : (a :: xs).filter p = a :: xs := by
        apply List.filter_eq_self.mpr
        intro b hb
        rcases List.mem_cons.mp hb with rfl | hb
        · exact hp
        · exact ha b hb hp
      exact ⟨[], by rw [hall, List.nil_append]⟩
    | false =>
      rw [List.filter_cons_of_neg (by simp [hp])]
      exact (ih hxs).trans (List.suffix_cons a xs)

/-- What holds up to some place selects a prefix. -/
theorem filter_front (h : xs.Pairwise fun a b => p b = true → p a = true) :
    xs.filter p <+: xs := by
  induction xs with
  | nil => exact List.prefix_rfl
  | cons a xs ih =>
    obtain ⟨ha, hxs⟩ := List.pairwise_cons.mp h
    cases hp : p a with
    | true =>
      rw [List.filter_cons_of_pos hp]
      exact List.cons_prefix_cons.mpr ⟨rfl, ih hxs⟩
    | false =>
      have hnone : (a :: xs).filter p = [] := by
        apply List.filter_eq_nil_iff.mpr
        intro b hb hpb
        rcases List.mem_cons.mp hb with rfl | hb
        · rw [hp] at hpb
          cases hpb
        · rw [ha b hb hpb] at hp
          cases hp
      rw [hnone]
      exact List.nil_prefix

/-- What holds from some place on as long as something lasts selects a block. -/
theorem filter_block (hlasts : xs.Pairwise fun a b => q b = true → q a = true)
    (hp : ∀ a ∈ xs, p a = true → q a = true)
    (h : xs.Pairwise fun a b => p a = true → q b = true → p b = true) :
    xs.filter p <:+: xs := by
  have hboth : xs.filter p = (xs.filter q).filter p := by
    rw [List.filter_filter]
    apply List.filter_congr
    intro a ha
    cases hpa : p a with
    | true => simp [hp a ha hpa]
    | false => rfl
  have hlast : (xs.filter q).Pairwise fun a b => p a = true → p b = true := by
    apply (h.sublist List.filter_sublist).imp_of_mem
    intro a b _ hb hab hpa
    exact hab hpa (List.mem_filter.mp hb).2
  rw [hboth]
  exact (filter_back hlast).isInfix.trans (filter_front hlasts).isInfix

end Blocks

section Records

variable {α β : Type*} {R : β → β → Prop} {b c : β} {xs ys : List β}

/-- Two courses of events, the second of which begins where the first one ends. -/
theorem pairwise_join (htrans : ∀ a b c, R a b → R b c → R a c)
    (h : (xs ++ [b]).Pairwise R) (h' : (b :: (ys ++ [c])).Pairwise R) :
    (xs ++ ys ++ [c]).Pairwise R := by
  obtain ⟨hb, hrest⟩ := List.pairwise_cons.mp h'
  have hall : (xs ++ [b] ++ (ys ++ [c])).Pairwise R := by
    refine List.pairwise_append.mpr ⟨h, hrest, fun x hx y hy => ?_⟩
    rcases List.mem_append.mp hx with hx | hx
    · exact htrans x b y ((List.pairwise_append.mp h).2.2 x hx b (List.mem_singleton.mpr rfl))
        (hb y hy)
    · obtain rfl := List.mem_singleton.mp hx
      exact hb y hy
  refine hall.sublist ?_
  rw [List.append_assoc, List.append_assoc]
  exact (List.Sublist.refl _).append (List.sublist_append_right _ _)

/-- The later record begins with the earlier one as long as there is one. -/
def Continues (a b : Option (List α)) : Prop := ∀ later, b = some later →
  ∃ earlier, a = some earlier ∧ earlier <+: later

theorem continues_refl (a : Option (List α)) : Continues a a := fun later h =>
  ⟨later, h, List.prefix_rfl⟩

theorem continues_trans (a b c : Option (List α)) (h : Continues a b) (h' : Continues b c) :
    Continues a c := by
  intro later hlater
  obtain ⟨middle, hmiddle, hfront⟩ := h' later hlater
  obtain ⟨earlier, hearlier, hfront'⟩ := h middle hmiddle
  exact ⟨earlier, hearlier, hfront'.trans hfront⟩

theorem Continues.isSome {a b : Option (List α)} (h : Continues a b) (hb : b.isSome = true) :
    a.isSome = true := by
  obtain ⟨later, hlater⟩ := Option.isSome_iff_exists.mp hb
  obtain ⟨earlier, hearlier, -⟩ := h later hlater
  rw [hearlier]
  rfl

theorem Continues.any {q : α → Bool} {a b : Option (List α)} (h : Continues a b)
    (ha : a.any (List.any · q) = true) (hb : b.isSome = true) : b.any (List.any · q) = true := by
  obtain ⟨later, rfl⟩ := Option.isSome_iff_exists.mp hb
  obtain ⟨earlier, rfl, hfront⟩ := h later rfl
  obtain ⟨x, hx, hq⟩ := List.any_eq_true.mp ha
  exact List.any_eq_true.mpr ⟨x, hfront.subset hx, hq⟩

end Records

end Broadcast

import TntPub.Framing
import Mathlib.Data.List.TakeWhile

namespace Framing

variable {α μ ε : Type*}

namespace Framer

variable (F : Framer α μ ε)

/-- A frame is recognised by its own elements alone. -/
def Exact : Prop :=
  ∀ {xs m n}, F.front xs = .frame m n → F.front (xs.take n) = .frame m n

/-- The number of elements the first `k` frames take. -/
def span : Nat → List α → Nat
  | 0, _ => 0
  | k + 1, xs =>
    match F.front xs with
    | .frame _ n => n + span k (xs.drop n)
    | _ => 0

/-- The frames before the first one that does not satisfy `p` or is malformed. -/
def leading (p : μ → Bool) (xs : List α) : List μ := (F.drain xs).messages.takeWhile p

/-- The number of elements these take. -/
def leadingSpan (p : μ → Bool) (xs : List α) : Nat := F.span (F.leading p xs).length xs

/-- The first frame that does not satisfy `p`. -/
def offending (p : μ → Bool) (xs : List α) : Option μ := ((F.drain xs).messages.dropWhile p).head?

/-- No more input makes the leading frames more. -/
def Stopped (p : μ → Bool) (xs : List α) : Prop :=
  (F.drain xs).error ≠ none ∨ F.offending p xs ≠ none

variable {F} {p : μ → Bool} {xs ys : List α}

theorem span_frame {m : μ} {n : Nat} (h : F.front xs = .frame m n) (k : Nat) :
    F.span (k + 1) xs = n + F.span k (xs.drop n) := by
  rw [span, h]

theorem span_le (k : Nat) (xs : List α) : F.span k xs ≤ xs.length := by
  induction k generalizing xs with
  | zero => exact Nat.zero_le _
  | succ k ih =>
    rw [span]
    split
    next m n h =>
      have hle := F.frame_le h
      have hrest := ih (xs.drop n)
      rw [List.length_drop] at hrest
      omega
    next => exact Nat.zero_le _

/-- The elements of the first frames are these frames and nothing else. -/
theorem drain_take_span (exact : F.Exact) {k : Nat} (hk : k ≤ (F.drain xs).messages.length) :
    F.drain (xs.take (F.span k xs)) = ⟨(F.drain xs).messages.take k, [], none⟩ := by
  induction k generalizing xs with
  | zero => rw [span, List.take_zero, List.take_zero, drain_nil]
  | succ k ih =>
    cases hf : F.front xs with
    | incomplete =>
      rw [drain_of_incomplete hf] at hk
      exact absurd hk (Nat.not_succ_le_zero k)
    | fail e =>
      rw [drain_of_fail hf] at hk
      exact absurd hk (Nat.not_succ_le_zero k)
    | frame m n =>
      have hle := F.frame_le hf
      rw [drain_of_frame hf, Drained.prepend_messages, List.singleton_append,
        List.length_cons] at hk
      have hrest := ih (by omega : k ≤ (F.drain (xs.drop n)).messages.length)
      have htake : xs.take (n + F.span k (xs.drop n)) =
          xs.take n ++ (xs.drop n).take (F.span k (xs.drop n)) := List.take_add
      have hfront := F.frame_append ((xs.drop n).take (F.span k (xs.drop n))) (exact hf)
      have hlen : (xs.take n).length = n := List.length_take_of_le hle
      rw [span_frame hf, htake, drain_of_frame hfront, List.drop_left' hlen, hrest,
        drain_of_frame hf]
      rfl

theorem messages_append_of_ok (h : (F.drain xs).error = none) (ys : List α) :
    F.drain (xs ++ ys) = (F.drain ((F.drain xs).rest ++ ys)).prepend (F.drain xs).messages := by
  rw [drain_append, h]

theorem messages_prefix (xs ys : List α) :
    (F.drain xs).messages <+: (F.drain (xs ++ ys)).messages := by
  rw [drain_append]
  split
  next => exact List.prefix_append _ _
  next => exact List.prefix_rfl

theorem takeWhile_eq_nil_of_prefix {l m : List μ} (h : l <+: m) (hm : m.takeWhile p = []) :
    l.takeWhile p = [] := by
  obtain ⟨rest, rfl⟩ := h
  cases l with
  | nil => rfl
  | cons x xs =>
    rw [List.cons_append, List.takeWhile_cons] at hm
    rw [List.takeWhile_cons]
    split at hm
    next => cases hm
    next h => rw [if_neg h]

/-- The elements of the leading frames are these frames and nothing else. -/
theorem drain_take_leading (exact : F.Exact) (p : μ → Bool) (xs : List α) :
    F.drain (xs.take (F.leadingSpan p xs)) = ⟨F.leading p xs, [], none⟩ := by
  have hprefix : F.leading p xs <+: (F.drain xs).messages := List.takeWhile_prefix p
  rw [leadingSpan, drain_take_span exact hprefix.length_le, ← List.prefix_iff_eq_take.mp hprefix]

/-- Up to the end of the leading frames all that is received belongs to them. -/
theorem drain_of_lt_leadingSpan (exact : F.Exact)
    (h : xs.length < F.leadingSpan p (xs ++ ys)) :
    (F.drain xs).error = none ∧ F.leading p xs = (F.drain xs).messages := by
  have hle : F.leadingSpan p (xs ++ ys) ≤ (xs ++ ys).length := span_le _ _
  have hwhole := drain_take_leading exact p (xs ++ ys)
  have htake : (xs ++ ys).take (F.leadingSpan p (xs ++ ys)) =
      xs ++ ys.take (F.leadingSpan p (xs ++ ys) - xs.length) := by
    rw [List.take_append, List.take_of_length_le h.le]
  rw [htake, drain_append] at hwhole
  cases herr : (F.drain xs).error with
  | some e =>
    rw [herr] at hwhole
    cases congrArg Drained.error hwhole
  | none =>
    rw [herr] at hwhole
    have hmessages := congrArg Drained.messages hwhole
    simp only [Drained.prepend_messages] at hmessages
    refine ⟨rfl, List.takeWhile_eq_self_iff.mpr fun m hm => ?_⟩
    have hmem : m ∈ F.leading p (xs ++ ys) := by
      rw [← hmessages]
      exact List.mem_append_left _ hm
    exact List.mem_takeWhile_imp hmem

/-- Once the leading frames are received they are known. -/
theorem leading_of_leadingSpan_le (exact : F.Exact)
    (h : F.leadingSpan p (xs ++ ys) ≤ xs.length) :
    F.drain (xs.take (F.leadingSpan p (xs ++ ys))) = ⟨F.leading p (xs ++ ys), [], none⟩ ∧
      F.leading p xs = F.leading p (xs ++ ys) := by
  have hwhole := drain_take_leading exact p (xs ++ ys)
  rw [List.take_append_of_le_length h] at hwhole
  refine ⟨hwhole, ?_⟩
  have herr : (F.drain (xs.take (F.leadingSpan p (xs ++ ys)))).error = none := by rw [hwhole]
  have hsplit (zs : List α) : (F.drain (xs ++ zs)).messages = F.leading p (xs ++ ys) ++
      (F.drain (xs.drop (F.leadingSpan p (xs ++ ys)) ++ zs)).messages := by
    have hdrain := drain_append (F := F) (xs.take (F.leadingSpan p (xs ++ ys)))
      (xs.drop (F.leadingSpan p (xs ++ ys)) ++ zs)
    rw [← List.append_assoc, List.take_append_drop, herr, hwhole] at hdrain
    rw [hdrain]
    rfl
  have hfirst := hsplit []
  rw [List.append_nil, List.append_nil] at hfirst
  have hall : ∀ m ∈ F.leading p (xs ++ ys), p m = true := fun m hm => List.mem_takeWhile_imp hm
  have hmaximal : ((F.drain (xs.drop (F.leadingSpan p (xs ++ ys)) ++ ys)).messages).takeWhile p =
      [] := by
    have hleading : F.leading p (xs ++ ys) = _ := congrArg (List.takeWhile p) (hsplit ys)
    rw [List.takeWhile_append_of_pos hall] at hleading
    simpa using hleading
  have hprefix := messages_prefix (F := F) (xs.drop (F.leadingSpan p (xs ++ ys))) ys
  show ((F.drain xs).messages).takeWhile p = _
  rw [hfirst, List.takeWhile_append_of_pos hall, takeWhile_eq_nil_of_prefix hprefix hmaximal,
    List.append_nil]

/-- The part of a received input that belongs to the leading frames of the whole input. -/
theorem drain_take_received (exact : F.Exact) (p : μ → Bool) (xs ys : List α) :
    ∃ rest, F.drain (xs.take (F.leadingSpan p (xs ++ ys))) = ⟨F.leading p xs, rest, none⟩ ∧
      (F.leadingSpan p (xs ++ ys) ≤ xs.length → rest = []) := by
  rcases Nat.lt_or_ge xs.length (F.leadingSpan p (xs ++ ys)) with hlt | hle
  · obtain ⟨herr, hleading⟩ := drain_of_lt_leadingSpan exact hlt
    refine ⟨(F.drain xs).rest, ?_, fun hle => by omega⟩
    rw [List.take_of_length_le hlt.le, hleading]
    exact Drained.ext rfl rfl herr
  · obtain ⟨hdrain, hleading⟩ := leading_of_leadingSpan_le exact hle
    exact ⟨[], by rw [hdrain, hleading], fun _ => rfl⟩

theorem leading_of_not_stopped (h : ¬ F.Stopped p xs) :
    (F.drain xs).error = none ∧ F.leading p xs = (F.drain xs).messages := by
  obtain ⟨herr, hoffending⟩ := not_or.mp h
  have hnone : ((F.drain xs).messages.dropWhile p).head? = none := not_not.mp hoffending
  have hall := List.dropWhile_eq_nil_iff.mp (List.head?_eq_none_iff.mp hnone)
  exact ⟨not_not.mp herr, List.takeWhile_eq_self_iff.mpr hall⟩

theorem leadingSpan_le_of_stopped (exact : F.Exact) (h : F.Stopped p xs) (ys : List α) :
    F.leadingSpan p (xs ++ ys) ≤ xs.length := by
  by_contra hgt
  obtain ⟨herr, hleading⟩ := drain_of_lt_leadingSpan exact (Nat.lt_of_not_le hgt)
  have hall := List.takeWhile_eq_self_iff.mp hleading
  have hnone : F.offending p xs = none := by
    rw [offending, List.dropWhile_eq_nil_iff.mpr hall, List.head?_nil]
  rcases h with h | h
  · exact h herr
  · exact h hnone

theorem Stopped.nothing_left (exact : F.Exact) (h : F.Stopped p xs) (ys : List α) :
    F.leadingSpan p (xs ++ ys) - xs.length = 0 ∧
      (F.drain (xs.take (F.leadingSpan p (xs ++ ys)))).rest = [] := by
  have hle := leadingSpan_le_of_stopped exact h ys
  obtain ⟨rest, hdrain, hnil⟩ := drain_take_received exact p xs ys
  rw [hdrain]
  exact ⟨Nat.sub_eq_zero_of_le hle, hnil hle⟩

/-- What stopped stays as it is. -/
theorem Stopped.append (h : F.Stopped p xs) (ys : List α) :
    F.Stopped p (xs ++ ys) ∧ F.leading p (xs ++ ys) = F.leading p xs ∧
      F.offending p (xs ++ ys) = F.offending p xs := by
  have hdrain := drain_append (F := F) xs ys
  cases herr : (F.drain xs).error with
  | some e =>
    rw [herr] at hdrain
    refine ⟨.inl ?_, ?_, ?_⟩
    · rw [hdrain]
      exact Option.some_ne_none e
    · rw [leading, hdrain, leading]
    · rw [offending, hdrain, offending]
  | none =>
    have hoffending : F.offending p xs ≠ none := h.resolve_left (not_not.mpr herr)
    have hmessages := congrArg Drained.messages (messages_append_of_ok herr ys)
    rw [Drained.prepend_messages] at hmessages
    cases hdrop : (F.drain xs).messages.dropWhile p with
    | nil =>
      rw [offending, hdrop] at hoffending
      exact absurd List.head?_nil hoffending
    | cons m ms =>
      have hsame : F.offending p (xs ++ ys) = F.offending p xs := by
        simp only [offending, hmessages, List.dropWhile_append, hdrop, List.isEmpty_cons,
          Bool.false_eq_true, if_false, List.cons_append, List.head?_cons]
      have hshort : ((F.drain xs).messages.takeWhile p).length ≠ (F.drain xs).messages.length := by
        have hsplit := congrArg List.length
          (List.takeWhile_append_dropWhile (p := p) (l := (F.drain xs).messages))
        rw [hdrop, List.length_append, List.length_cons] at hsplit
        omega
      refine ⟨.inr (hsame ▸ hoffending), ?_, hsame⟩
      rw [leading, hmessages, List.takeWhile_append, if_neg hshort, leading]

theorem leading_append (h : ¬ F.Stopped p xs) (ys : List α) :
    F.leading p (xs ++ ys) =
      F.leading p xs ++ (F.drain ((F.drain xs).rest ++ ys)).messages.takeWhile p := by
  obtain ⟨herr, hleading⟩ := leading_of_not_stopped h
  have hall := List.takeWhile_eq_self_iff.mp hleading
  rw [leading, messages_append_of_ok herr, Drained.prepend_messages,
    List.takeWhile_append_of_pos hall, hleading]

theorem stopped_append (h : ¬ F.Stopped p xs) (ys : List α) :
    (F.drain (xs ++ ys)).error = (F.drain ((F.drain xs).rest ++ ys)).error ∧
      F.offending p (xs ++ ys) =
        ((F.drain ((F.drain xs).rest ++ ys)).messages.dropWhile p).head? := by
  obtain ⟨herr, hleading⟩ := leading_of_not_stopped h
  have hall := List.takeWhile_eq_self_iff.mp hleading
  rw [offending, messages_append_of_ok herr, Drained.prepend_messages, Drained.prepend_error,
    List.dropWhile_append_of_pos hall]
  exact ⟨rfl, rfl⟩

/-- A further part of the input, cut where the leading frames end, holds the leading frames of
that part. -/
theorem drain_take_next (exact : F.Exact) (h : ¬ F.Stopped p xs) (ys zs : List α) :
    F.drain ((F.drain (xs.take (F.leadingSpan p (xs ++ (ys ++ zs))))).rest ++
        ys.take (F.leadingSpan p (xs ++ (ys ++ zs)) - xs.length)) =
      ⟨(F.drain ((F.drain xs).rest ++ ys)).messages.takeWhile p,
        (F.drain ((xs ++ ys).take (F.leadingSpan p (xs ++ (ys ++ zs))))).rest, none⟩ := by
  obtain ⟨first, hfirst, -⟩ := drain_take_received exact p xs (ys ++ zs)
  obtain ⟨both, hboth, -⟩ := drain_take_received exact p (xs ++ ys) zs
  rw [List.append_assoc] at hboth
  have hdrain := drain_append (F := F) (xs.take (F.leadingSpan p (xs ++ (ys ++ zs))))
    (ys.take (F.leadingSpan p (xs ++ (ys ++ zs)) - xs.length))
  rw [← List.take_append, hboth, hfirst, leading_append h] at hdrain
  rw [hboth, hfirst]
  refine Drained.ext ?_ ?_ ?_
  · exact (List.append_cancel_left (congrArg Drained.messages hdrain)).symm
  · exact (congrArg Drained.rest hdrain).symm
  · exact (congrArg Drained.error hdrain).symm

theorem length_take_next (exact : F.Exact) (xs ys zs : List α) :
    ((F.drain (xs.take (F.leadingSpan p (xs ++ (ys ++ zs))))).rest ++
        ys.take (F.leadingSpan p (xs ++ (ys ++ zs)) - xs.length)).length ≤
      ((F.drain xs).rest ++ ys).length := by
  obtain ⟨rest, hdrain, hnil⟩ := drain_take_received exact p xs (ys ++ zs)
  rcases Nat.le_total (F.leadingSpan p (xs ++ (ys ++ zs))) xs.length with hle | hge
  · rw [hdrain, hnil hle, Nat.sub_eq_zero_of_le hle, List.take_zero]
    exact Nat.zero_le _
  · rw [List.take_of_length_le hge, List.length_append, List.length_append]
    have hcut := List.length_take_le' (F.leadingSpan p (xs ++ (ys ++ zs)) - xs.length) ys
    omega

end Framer

end Framing

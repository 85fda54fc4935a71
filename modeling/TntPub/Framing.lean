import Mathlib.Data.List.Basic
import Mathlib.Data.List.Infix
import Mathlib.Tactic.Cases

namespace Framing

variable {α μ ε : Type*}

/-- What the front of an input is: too short to tell, malformed, or one whole
frame that takes the first `length` elements. -/
inductive Front (μ ε : Type*)
  | incomplete
  | fail (error : ε)
  | frame (message : μ) (length : Nat)

/-- A front classifier that makes progress and whose verdicts are final: more
input behind a frame or behind an error changes neither. -/
structure Framer (α μ ε : Type*) where
  front : List α → Front μ ε
  front_nil : front [] = .incomplete
  frame_pos : ∀ {xs m n}, front xs = .frame m n → 0 < n
  frame_le : ∀ {xs m n}, front xs = .frame m n → n ≤ xs.length
  frame_append : ∀ {xs m n} (ys), front xs = .frame m n → front (xs ++ ys) = .frame m n
  fail_append : ∀ {xs e} (ys), front xs = .fail e → front (xs ++ ys) = .fail e

/-- The result of taking frames off the front until no whole one is left. On an
error `rest` starts at the malformed frame. -/
@[ext] structure Drained (α μ ε : Type*) where
  messages : List μ
  rest : List α
  error : Option ε

def Drained.prepend (ms : List μ) (d : Drained α μ ε) : Drained α μ ε :=
  { d with messages := ms ++ d.messages }

@[simp] theorem Drained.prepend_messages (ms : List μ) (d : Drained α μ ε) :
    (d.prepend ms).messages = ms ++ d.messages := rfl

@[simp] theorem Drained.prepend_rest (ms : List μ) (d : Drained α μ ε) :
    (d.prepend ms).rest = d.rest := rfl

@[simp] theorem Drained.prepend_error (ms : List μ) (d : Drained α μ ε) :
    (d.prepend ms).error = d.error := rfl

@[simp] theorem Drained.prepend_nil (d : Drained α μ ε) : d.prepend [] = d := rfl

theorem Drained.prepend_prepend (ms ns : List μ) (d : Drained α μ ε) :
    (d.prepend ns).prepend ms = d.prepend (ms ++ ns) := by
  simp [Drained.prepend]

def drainFuel (front : List α → Front μ ε) : Nat → List α → Drained α μ ε
  | 0, xs => ⟨[], xs, none⟩
  | fuel + 1, xs =>
    match front xs with
    | .incomplete => ⟨[], xs, none⟩
    | .fail e => ⟨[], xs, some e⟩
    | .frame m n => (drainFuel front fuel (xs.drop n)).prepend [m]

theorem drainFuel_congr {front front' : List α → Front μ ε} {fuel : Nat} {xs : List α}
    (agree : ∀ n, front (xs.drop n) = front' (xs.drop n)) :
    drainFuel front fuel xs = drainFuel front' fuel xs := by
  induction fuel generalizing xs with
  | zero => rfl
  | succ fuel ih =>
    have h0 : front xs = front' xs := by simpa using agree 0
    simp only [drainFuel, h0]
    split
    · rfl
    · rfl
    · next n _ =>
      rw [ih]
      intro k
      simpa only [List.drop_drop] using agree (n + k)

/-- When each frame takes at least `cost` elements, the number of frames is bounded. -/
theorem drainFuel_cost {front : List α → Front μ ε} {cost : Nat}
    (hcost : ∀ xs m n, front xs = .frame m n → cost ≤ n ∧ n ≤ xs.length) (fuel : Nat)
    (xs : List α) : cost * (drainFuel front fuel xs).messages.length ≤ xs.length := by
  induction fuel generalizing xs with
  | zero => exact Nat.zero_le _
  | succ fuel ih =>
    rw [drainFuel]
    split
    next => exact Nat.zero_le _
    next => exact Nat.zero_le _
    next m n hf =>
      obtain ⟨hle, hlen⟩ := hcost xs m n hf
      have hrest := ih (xs.drop n)
      rw [List.length_drop] at hrest
      rw [Drained.prepend_messages, List.length_append, List.length_singleton, Nat.mul_add]
      omega

namespace Framer

variable (F : Framer α μ ε)

/-- Every frame takes at least one element, so the length bounds the iterations. -/
def drain (xs : List α) : Drained α μ ε :=
  drainFuel F.front (xs.length + 1) xs

variable {F}

theorem drainFuel_stable {fuel fuel' : Nat} {xs : List α}
    (h : xs.length < fuel) (h' : xs.length < fuel') :
    drainFuel F.front fuel xs = drainFuel F.front fuel' xs := by
  induction fuel generalizing fuel' xs with
  | zero => omega
  | succ fuel ih =>
    cases fuel' with
    | zero => omega
    | succ fuel' =>
      simp only [drainFuel]
      split
      · rfl
      · rfl
      · next m n hf =>
        have hpos := F.frame_pos hf
        have hle := F.frame_le hf
        have hlen : (xs.drop n).length = xs.length - n := List.length_drop
        rw [ih (by omega) (by omega : (xs.drop n).length < fuel')]

theorem drain_of_incomplete {xs : List α} (h : F.front xs = .incomplete) :
    F.drain xs = ⟨[], xs, none⟩ := by
  simp [drain, drainFuel, h]

theorem drain_of_fail {xs : List α} {e : ε} (h : F.front xs = .fail e) :
    F.drain xs = ⟨[], xs, some e⟩ := by
  simp [drain, drainFuel, h]

theorem drain_of_frame {xs : List α} {m : μ} {n : Nat} (h : F.front xs = .frame m n) :
    F.drain xs = (F.drain (xs.drop n)).prepend [m] := by
  have hpos := F.frame_pos h
  have hle := F.frame_le h
  have hlen : (xs.drop n).length = xs.length - n := List.length_drop
  rw [drain, drainFuel, h]
  simp only [drain]
  rw [drainFuel_stable (by omega) (by omega : (xs.drop n).length < (xs.drop n).length + 1)]

theorem front_drop_length {xs : List α} {m : μ} {n : Nat} (h : F.front xs = .frame m n) :
    (xs.drop n).length < xs.length := by
  have hpos := F.frame_pos h
  have hle := F.frame_le h
  simp only [List.length_drop]
  omega

/-- Induction along the drain loop: one case for each verdict on the front. -/
theorem drain_induction {motive : List α → Prop}
    (incomplete : ∀ xs, F.front xs = .incomplete → motive xs)
    (fail : ∀ xs e, F.front xs = .fail e → motive xs)
    (frame : ∀ xs m n, F.front xs = .frame m n → motive (xs.drop n) → motive xs)
    (xs : List α) : motive xs := by
  induction hlen : xs.length using Nat.strongRecOn generalizing xs with
  | _ k ih =>
    cases hf : F.front xs with
    | incomplete => exact incomplete xs hf
    | fail e => exact fail xs e hf
    | frame m n =>
      have hlt := front_drop_length hf
      exact frame xs m n hf (ih _ (by omega) _ rfl)

@[simp] theorem drain_nil : F.drain [] = ⟨[], [], none⟩ :=
  drain_of_incomplete F.front_nil

/-- The loop stops exactly where the front is no whole frame, for the reason it gives. -/
theorem front_drain_rest (xs : List α) :
    F.front (F.drain xs).rest =
      match (F.drain xs).error with
      | none => .incomplete
      | some e => .fail e := by
  induction xs using drain_induction (F := F) with
  | incomplete xs h => simpa [drain_of_incomplete h] using h
  | fail xs e h => simpa [drain_of_fail h] using h
  | frame xs m n h ih => simpa [drain_of_frame h] using ih

theorem front_drain_rest_of_ok {xs : List α} (h : (F.drain xs).error = none) :
    F.front (F.drain xs).rest = .incomplete := by
  simpa [h] using front_drain_rest (F := F) xs

theorem drain_rest_suffix (xs : List α) : (F.drain xs).rest <:+ xs := by
  induction xs using drain_induction (F := F) with
  | incomplete xs h => simp [drain_of_incomplete h]
  | fail xs e h => simp [drain_of_fail h]
  | frame xs m n h ih =>
    rw [drain_of_frame h]
    exact ih.trans (List.drop_suffix n xs)

/-- Input that arrives later only continues the loop: the frames of the first part
come first, and an error in it is final. -/
theorem drain_append (xs ys : List α) :
    F.drain (xs ++ ys) =
      match (F.drain xs).error with
      | none => (F.drain ((F.drain xs).rest ++ ys)).prepend (F.drain xs).messages
      | some e => ⟨(F.drain xs).messages, (F.drain xs).rest ++ ys, some e⟩ := by
  induction xs using drain_induction (F := F) with
  | incomplete xs h => simp [drain_of_incomplete h]
  | fail xs e h => simp [drain_of_fail h, drain_of_fail (F.fail_append ys h)]
  | frame xs m n h ih =>
    rw [drain_of_frame (F.frame_append ys h), List.drop_append_of_le_length (F.frame_le h), ih,
      drain_of_frame h]
    simp only [Drained.prepend_error, Drained.prepend_rest, Drained.prepend_messages]
    split
    · exact Drained.prepend_prepend _ _ _
    · rfl

end Framer

structure Codec (α μ ε : Type*) extends Framer α μ ε where
  Encodable : μ → Prop
  encode : μ → List α
  front_encode : ∀ {m}, Encodable m → front (encode m) = .frame m (encode m).length
  front_cut : ∀ {m xs}, Encodable m → xs <+: encode m → xs.length < (encode m).length →
    front xs = .incomplete

namespace Codec

variable (C : Codec α μ ε)

def encodeAll (ms : List μ) : List α := (ms.map C.encode).flatten

variable {C}

@[simp] theorem encodeAll_nil : C.encodeAll [] = [] := rfl

@[simp] theorem encodeAll_cons (m : μ) (ms : List μ) :
    C.encodeAll (m :: ms) = C.encode m ++ C.encodeAll ms := by
  simp [encodeAll]

theorem drain_encode_append {m : μ} (hm : C.Encodable m) (ys : List α) :
    C.drain (C.encode m ++ ys) = (C.drain ys).prepend [m] := by
  have hf := C.frame_append ys (C.front_encode hm)
  rw [Framer.drain_of_frame hf, List.drop_left]

theorem drain_encodeAll_append {ms : List μ} (hms : ∀ m ∈ ms, C.Encodable m) (ys : List α) :
    C.drain (C.encodeAll ms ++ ys) = (C.drain ys).prepend ms := by
  induction ms with
  | nil => simp
  | cons m ms ih =>
    have hrest := ih fun k hk => hms k (List.mem_cons_of_mem m hk)
    rw [encodeAll_cons, List.append_assoc, drain_encode_append (hms m List.mem_cons_self), hrest,
      Drained.prepend_prepend, List.singleton_append]

theorem drain_encodeAll {ms : List μ} (hms : ∀ m ∈ ms, C.Encodable m) :
    C.drain (C.encodeAll ms) = ⟨ms, [], none⟩ := by
  have h := drain_encodeAll_append hms []
  simpa [Drained.prepend] using h

/-- The front of any beginning of a stream of frames is the first frame, or a part of it. -/
theorem front_of_prefix {ms : List μ} {xs : List α} (hms : ∀ m ∈ ms, C.Encodable m)
    (h : xs <+: C.encodeAll ms) :
    C.front xs = .incomplete ∧ (∀ m ms', ms = m :: ms' → xs.length < (C.encode m).length) ∨
      ∃ m ms' ys, ms = m :: ms' ∧ xs = C.encode m ++ ys ∧ ys <+: C.encodeAll ms' ∧
        C.front xs = .frame m (C.encode m).length := by
  cases ms with
  | nil =>
    have hx : xs = [] := by simpa using h
    subst hx
    exact .inl ⟨C.front_nil, nofun⟩
  | cons m ms =>
    have hm := hms m List.mem_cons_self
    rw [encodeAll_cons] at h
    by_cases hlen : xs.length < (C.encode m).length
    · have hcut : xs <+: C.encode m :=
        List.prefix_of_prefix_length_le h (List.prefix_append _ _) hlen.le
      refine .inl ⟨C.front_cut hm hcut hlen, ?_⟩
      intro k ks heq
      rw [← (List.cons.inj heq).1]
      exact hlen
    · have hwhole : C.encode m <+: xs :=
        List.prefix_of_prefix_length_le (List.prefix_append _ _) h (by omega)
      obtain ⟨ys, rfl⟩ := hwhole
      have hys : ys <+: C.encodeAll ms := (List.prefix_append_right_inj _).mp h
      exact .inr ⟨m, ms, ys, rfl, rfl, hys, C.frame_append ys (C.front_encode hm)⟩

/-- Any beginning of a stream of frames splits into whole frames and a cut one, and
the drain loop finds exactly that split. -/
theorem split_of_prefix {ms : List μ} {xs : List α} (hms : ∀ m ∈ ms, C.Encodable m)
    (h : xs <+: C.encodeAll ms) :
    ∃ taken left rest, ms = taken ++ left ∧ xs = C.encodeAll taken ++ rest ∧
      C.front rest = .incomplete ∧ C.drain xs = ⟨taken, rest, none⟩ := by
  induction ms generalizing xs with
  | nil =>
    have hx : xs = [] := by simpa using h
    subst hx
    exact ⟨[], [], [], rfl, rfl, C.front_nil, Framer.drain_nil⟩
  | cons m ms ih =>
    rcases front_of_prefix hms h with ⟨hf, -⟩ | ⟨k, ks, ys, heq, rfl, hys, hf⟩
    · exact ⟨[], m :: ms, xs, rfl, by simp, hf, Framer.drain_of_incomplete hf⟩
    · obtain ⟨rfl, rfl⟩ := List.cons.inj heq
      obtain ⟨taken, left, rest, hsplit, hbytes, hrest, hdrain⟩ :=
        ih (fun k hk => hms k (List.mem_cons_of_mem m hk)) hys
      refine ⟨m :: taken, left, rest, by simp [hsplit], by simp [hbytes], hrest, ?_⟩
      rw [drain_encode_append (hms m List.mem_cons_self), hdrain]
      rfl

/-- The first `k` frames lie within a beginning of the stream if so many are found in it. -/
theorem encodeAll_take_le_iff {ms : List μ} {xs : List α} (hms : ∀ m ∈ ms, C.Encodable m)
    (h : xs <+: C.encodeAll ms) {k : Nat} (hk : k ≤ ms.length) :
    (C.encodeAll (ms.take k)).length ≤ xs.length ↔ k ≤ (C.drain xs).messages.length := by
  induction ms generalizing xs k with
  | nil =>
    obtain rfl : k = 0 := by simpa using hk
    simp
  | cons m ms ih =>
    cases k with
    | zero => simp
    | succ k =>
      rw [List.take_succ_cons, encodeAll_cons, List.length_append]
      rcases front_of_prefix hms h with ⟨hf, hshort⟩ | ⟨m', ms', ys, heq, rfl, hys, hf⟩
      · have hlt := hshort m ms rfl
        rw [Framer.drain_of_incomplete hf]
        simp only [List.length_nil]
        omega
      · obtain ⟨rfl, rfl⟩ := List.cons.inj heq
        have hrest := ih (fun k hk => hms k (List.mem_cons_of_mem m hk)) hys
          (by simpa using hk : k ≤ ms.length)
        rw [drain_encode_append (hms m List.mem_cons_self), Drained.prepend_messages,
          List.length_append, List.length_append, List.length_singleton]
        omega

theorem encodeAll_append (ms ns : List μ) :
    C.encodeAll (ms ++ ns) = C.encodeAll ms ++ C.encodeAll ns := by
  simp [encodeAll]

/-- How far a stream of frames was read: `done` are the messages taken from it, `rest` is a
part of a frame that was read as well, and `count` is the number of elements read. -/
structure Reading (C : Codec α μ ε) (all done : List μ) (rest : List α) (count : ℕ) : Prop where
  cut : C.front rest = .incomplete
  waiting : ∃ left, all = done ++ left ∧ C.encodeAll left = rest ++ (C.encodeAll all).drop count
  count_le : count ≤ (C.encodeAll all).length

theorem reading_start (all : List μ) : Reading C all [] [] 0 :=
  ⟨C.front_nil, ⟨all, rfl, rfl⟩, Nat.zero_le _⟩

variable {all done new : List μ} {rest xs : List α} {count : ℕ}

theorem Reading.more (h : Reading C all done rest count) (new : List μ) :
    Reading C (all ++ new) done rest count := by
  obtain ⟨left, hall, hleft⟩ := h.waiting
  refine ⟨h.cut, ⟨left ++ new, by rw [hall, List.append_assoc], ?_⟩, ?_⟩
  · rw [encodeAll_append, hleft, encodeAll_append, List.drop_append_of_le_length h.count_le,
      List.append_assoc]
  · rw [encodeAll_append, List.length_append]
    have hle := h.count_le
    omega

/-- Elements that come next complete some frames. -/
theorem Reading.next (h : Reading C all done rest count) (hall : ∀ m ∈ all, C.Encodable m)
    (hxs : xs <+: (C.encodeAll all).drop count) :
    ∃ taken rest', C.drain (rest ++ xs) = ⟨taken, rest', none⟩ ∧
      (∃ left, all = done ++ taken ++ left) ∧
      Reading C all (done ++ taken) rest' (count + xs.length) := by
  obtain ⟨left, hsplit, hleft⟩ := h.waiting
  obtain ⟨more, hmore⟩ := hxs
  have hms : ∀ m ∈ left, C.Encodable m := fun m hm =>
    hall m (by rw [hsplit]; exact List.mem_append_right _ hm)
  have hprefix : rest ++ xs <+: C.encodeAll left := ⟨more, by
    rw [hleft, ← hmore, List.append_assoc]⟩
  obtain ⟨taken, left', rest', rfl, hbytes, hcut, hdrain⟩ := split_of_prefix hms hprefix
  have hnext : all = done ++ taken ++ left' := by rw [hsplit, List.append_assoc]
  refine ⟨taken, rest', hdrain, ⟨left', hnext⟩, hcut, ⟨left', hnext, ?_⟩, ?_⟩
  · have hwhole : C.encodeAll taken ++ C.encodeAll left' =
        C.encodeAll taken ++ (rest' ++ more) := by
      rw [← encodeAll_append, hleft, ← hmore, ← List.append_assoc, ← List.append_assoc, hbytes]
    rw [List.append_cancel_left hwhole, ← List.drop_drop, ← hmore, List.drop_left]
  · have hlength := congrArg List.length hmore
    rw [List.length_append, List.length_drop] at hlength
    have hle := h.count_le
    omega

/-- A stream of frames is not a part of its first frame. -/
theorem eq_nil_of_incomplete {ms : List μ} (hms : ∀ m ∈ ms, C.Encodable m)
    (h : C.front (C.encodeAll ms) = .incomplete) : ms = [] := by
  rcases front_of_prefix hms (List.prefix_rfl : C.encodeAll ms <+: C.encodeAll ms) with
    ⟨-, hshort⟩ | ⟨m, ms', ys, -, -, -, hframe⟩
  · cases ms with
    | nil => rfl
    | cons m ms =>
      have hlt := hshort m ms rfl
      rw [encodeAll_cons, List.length_append] at hlt
      omega
  · rw [h] at hframe
    cases hframe

end Codec

end Framing

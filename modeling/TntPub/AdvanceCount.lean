import TntPub.Progress
import TntPub.Runs

namespace TntPub

open Framing

section Counting

variable {σ : Type} {messageReceived message : DataMessage → Call σ Unit} {s t : σ}
  {k k' : Nat}

theorem announce_counted {m : DataMessage} {a : Unit}
    (h : announce (counted messageReceived) (uncounted message) m (k, s) = .ok a (k', t)) :
    k' = k + 1 := by
  simp only [announce, bind, EStateM.bind, counted] at h
  cases hr : messageReceived m s with
  | error e u =>
    rw [hr] at h
    cases h
  | ok b u =>
    rw [hr] at h
    simp only [uncounted] at h
    cases hm : message m u with
    | error e v =>
      rw [hm] at h
      cases h
    | ok c v =>
      rw [hm] at h
      cases h
      rfl

theorem deliver_counts {ms : List DataMessage} {a : Unit}
    (h : deliver (counted messageReceived) (uncounted message) ms (k, s) = .ok a (k', t)) :
    k' = k + ms.length := by
  induction ms generalizing k s with
  | nil =>
    cases h
    rfl
  | cons m ms ih =>
    obtain ⟨_, ⟨k1, u⟩, hone, hrest⟩ := Call.bind_eq_ok.mp h
    have hstep := announce_counted hone
    have hcount := ih hrest
    rw [List.length_cons]
    omega

theorem receive_counts {d : Drained UInt8 DataMessage Exception} {rest : Bytes}
    (h : receive (counted messageReceived) (uncounted message) d (k, s) = .ok rest (k', t)) :
    d.error = none ∧ rest = d.rest ∧ k' = k + d.messages.length := by
  obtain ⟨_, ⟨k1, u⟩, hdeliver, hrest⟩ := Call.bind_eq_ok.mp h
  have hcount := deliver_counts hdeliver
  cases herr : d.error with
  | some e =>
    rw [herr] at hrest
    cases hrest
  | none =>
    rw [herr] at hrest
    cases hrest
    exact ⟨rfl, rfl, hcount⟩

end Counting

namespace Deserializer

variable {σ : Type} {messageReceived message : DataMessage → Call σ Unit} {d d' : Deserializer}
  {s t : σ} {k k' : Nat}

theorem processMessage_counts {more : Bool}
    (h : processMessage (counted messageReceived) (uncounted message) (d, k, s) =
      .ok more (d', k', t)) : k' = if more then k + 1 else k := by
  cases hf : frontUnsigned d.version1Flag d.inputData with
  | incomplete =>
    rw [processMessage_incomplete hf] at h
    cases h
    rfl
  | fail e =>
    rw [processMessage_fail hf] at h
    cases h
  | frame m n =>
    rw [processMessage_frame hf] at h
    cases ha : announce (counted messageReceived) (uncounted message) m (k, s) with
    | error e u =>
      rw [ha] at h
      cases h
    | ok a u =>
      rw [ha] at h
      cases h
      exact announce_counted ha

/-- The loop over the collected input counts each message it delivers. -/
theorem processMessages_counts {fuel count : Nat}
    (h : processMessages (counted messageReceived) (uncounted message) fuel (d, k, s) =
      .ok count (d', k', t)) : k' = k + count := by
  induction fuel generalizing d k s count with
  | zero =>
    cases h
    rfl
  | succ fuel ih =>
    obtain ⟨more, ⟨d1, k1, s1⟩, hone, hrest⟩ := Call.bind_eq_ok.mp h
    have hstep := processMessage_counts hone
    cases more with
    | false =>
      cases hrest
      exact hstep
    | true =>
      obtain ⟨n, ⟨d2, k2, s2⟩, hloop, hlast⟩ := Call.bind_eq_ok.mp hrest
      cases hlast
      have hcount := ih hloop
      simp only [if_true] at hstep
      omega

theorem advanceInput_counts {input : Bytes} {bufsize count : Nat}
    (h : advanceInput (counted messageReceived) (uncounted message) input bufsize (d, k, s) =
      .ok count (d', k', t)) : k' = k + count := by
  simp only [advanceInput] at h
  split at h
  next => exact processMessages_counts h
  next =>
    cases h
    rfl

/-- With nothing collected the messages that lie whole in the given buffer are not counted. The
counter of the others is an `unsigned`. -/
def CountsAll (d : Deserializer) (chunk : Bytes) : Prop :=
  if d.inputData = [] then ∀ m n, (framer d.version1Flag).front chunk ≠ .frame m n
  else (d.drained chunk).messages.length < 2 ^ 32

theorem messages_eq_nil_iff (version1Flag : Bool) (chunk : Bytes) :
    ((framer version1Flag).drain chunk).messages = [] ↔
      ∀ m n, (framer version1Flag).front chunk ≠ .frame m n := by
  cases hf : (framer version1Flag).front chunk with
  | incomplete =>
    rw [Framer.drain_of_incomplete hf]
    exact ⟨fun _ => by simp, fun _ => rfl⟩
  | fail e =>
    rw [Framer.drain_of_fail hf]
    exact ⟨fun _ => by simp, fun _ => rfl⟩
  | frame m n =>
    rw [Framer.drain_of_frame hf]
    simp

theorem advance_delivers {chunk : Bytes} {count : Nat} (hsize : chunk.length < 2 ^ 32)
    (h : advance (counted messageReceived) (uncounted message) chunk chunk.length (d, k, s) =
      .ok count (d', k', t)) : k' = k + (d.drained chunk).messages.length := by
  have houtcome : outcome (advance (counted messageReceived) (uncounted message) chunk
    chunk.length (d, k, s)) = _ := outcome_advance hsize
  rw [h] at houtcome
  obtain ⟨rest, ⟨k1, s1⟩, hreceive, hlast⟩ := Call.bind_eq_ok.mp houtcome.symm
  cases hlast
  exact (receive_counts hreceive).2.2

theorem advance_count_of_empty {chunk : Bytes} {count : Nat} {x : Deserializer × σ}
    (hnil : d.inputData = []) (hsize : chunk.length < 2 ^ 32)
    (h : advance messageReceived message chunk chunk.length (d, s) = .ok count x) : count = 0 := by
  rw [advance_of_empty hnil hsize] at h
  cases hr : receive messageReceived message ((framer d.version1Flag).drain chunk) s with
  | error e u =>
    rw [hr] at h
    cases h
  | ok rest u =>
    rw [hr] at h
    cases h
    rfl

/-- One call counts at most what it delivers, and all of it exactly under that condition. -/
theorem advance_counts {chunk : Bytes} {count : Nat} (hsize : chunk.length < 2 ^ 32)
    (h : advance (counted messageReceived) (uncounted message) chunk chunk.length (d, k, s) =
      .ok count (d', k', t)) :
    k + toUnsigned count ≤ k' ∧ (k + toUnsigned count = k' ↔ d.CountsAll chunk) := by
  have hdelivers := advance_delivers hsize h
  by_cases hnil : d.inputData = []
  · have hdrained : d.drained chunk = (framer d.version1Flag).drain chunk := by
      rw [drained, hnil]
      rfl
    obtain rfl := advance_count_of_empty hnil hsize h
    rw [CountsAll, if_pos hnil, ← messages_eq_nil_iff, ← List.length_eq_zero_iff, ← hdrained,
      toUnsigned]
    omega
  · have hne : d.inputData.isEmpty = false := by simpa using hnil
    simp only [advance, hne, Bool.false_eq_true, if_false] at h
    have hcount := advanceInput_counts h
    have hmod := Nat.mod_le count (2 ^ 32)
    have hlt : count % 2 ^ 32 = count ↔ count < 2 ^ 32 :=
      ⟨fun heq => heq ▸ Nat.mod_lt _ (by decide), Nat.mod_eq_of_lt⟩
    rw [CountsAll, if_neg hnil, toUnsigned]
    omega

variable (messageReceived message)

/-- The calls of `advance` for the parts of a stream, with the sum of what they return, each as
an `unsigned`. -/
def advanceTotal : List Bytes → Call (Deserializer × σ) Nat
  | [] => pure 0
  | c :: cs => do
    let count ← advance messageReceived message c c.length
    let rest ← advanceTotal cs
    pure (toUnsigned count + rest)

def advanceStep (x : Deserializer × σ) (chunk : Bytes) : Option (Deserializer × σ) :=
  match advance messageReceived message chunk chunk.length x with
  | .ok _ y => some y
  | .error _ _ => none

variable {messageReceived message}

theorem advanceStep_eq_some {x y : Deserializer × σ} {chunk : Bytes} :
    advanceStep messageReceived message x chunk = some y ↔
      ∃ count, advance messageReceived message chunk chunk.length x = .ok count y := by
  unfold advanceStep
  cases advance messageReceived message chunk chunk.length x with
  | ok count z => simp
  | error e z => simp

/-- The counts of all calls together. -/
theorem advanceTotal_counts {chunks : List Bytes} {total : Nat}
    (hsize : ∀ c ∈ chunks, c.length < 2 ^ 32)
    (h : advanceTotal (counted messageReceived) (uncounted message) chunks (d, k, s) =
      .ok total (d', k', t)) :
    k + total ≤ k' ∧ (k + total = k' ↔
      Runs.Meets (advanceStep (counted messageReceived) (uncounted message))
        (fun x c => x.1.CountsAll c) (d, k, s) chunks) := by
  induction chunks generalizing d k s total with
  | nil =>
    cases h
    exact ⟨le_rfl, fun _ => trivial, fun _ => rfl⟩
  | cons c cs ih =>
    obtain ⟨count, ⟨d1, k1, s1⟩, hone, hrest⟩ := Call.bind_eq_ok.mp h
    obtain ⟨rest, ⟨d2, k2, s2⟩, hloop, hlast⟩ := Call.bind_eq_ok.mp hrest
    cases hlast
    obtain ⟨hle, hiff⟩ := advance_counts (hsize c List.mem_cons_self) hone
    obtain ⟨hle', hiff'⟩ := ih (fun a ha => hsize a (List.mem_cons_of_mem c ha)) hloop
    refine ⟨by omega, fun htotal => ⟨hiff.mp (by omega), fun y hy => ?_⟩, fun hmeets => ?_⟩
    · obtain ⟨n, hn⟩ := advanceStep_eq_some.mp hy
      obtain ⟨-, rfl⟩ := EStateM.Result.ok.inj (hone.symm.trans hn)
      exact hiff'.mp (by omega)
    · have hfirst := hiff.mpr hmeets.1
      have hothers := hiff'.mpr (hmeets.2 _ (advanceStep_eq_some.mpr ⟨count, hone⟩))
      omega

theorem advanceChunks_of_advanceTotal {chunks : List Bytes} {total : Nat}
    {x y : Deserializer × σ}
    (h : advanceTotal messageReceived message chunks x = .ok total y) :
    advanceChunks messageReceived message chunks x = .ok () y := by
  induction chunks generalizing x total with
  | nil =>
    cases h
    rfl
  | cons c cs ih =>
    obtain ⟨count, z, hone, hrest⟩ := Call.bind_eq_ok.mp h
    obtain ⟨rest, w, hloop, hlast⟩ := Call.bind_eq_ok.mp hrest
    cases hlast
    rw [advanceChunks, Call.bind_ok hone]
    exact ih hloop

/-- However a stream is cut, all its messages are delivered. -/
theorem delivered_of_advanceTotal {chunks : List Bytes} {total : Nat} {ms : List DataMessage}
    (hms : ∀ m ∈ ms, m.Encodable) (hstream : d.inputData ++ chunks.flatten = frames ms)
    (hwait : (framer d.version1Flag).front d.inputData = .incomplete)
    (hbelow : StaysBelow d.version1Flag d.inputData chunks)
    (h : advanceTotal (counted messageReceived) (uncounted message) chunks (d, k, s) =
      .ok total (d', k', t)) : k' = k + ms.length := by
  have houtcome : outcome (advanceChunks (counted messageReceived) (uncounted message) chunks
    (d, k, s)) = _ := outcome_advanceChunks hwait hbelow
  rw [advanceChunks_of_advanceTotal h, hstream, drain_frames d.version1Flag hms] at houtcome
  obtain ⟨rest, ⟨k1, s1⟩, hreceive, hlast⟩ := Call.bind_eq_ok.mp houtcome.symm
  cases hlast
  exact (receive_counts hreceive).2.2

/-- A call of `advance` returns the number of messages it delivered, and so do all calls for a
stream together, exactly if no call with nothing collected is given a whole message first. -/
theorem advanceTotal_counts_iff (messageReceived message : DataMessage → Call σ Unit)
    (d d' : Deserializer) (s t : σ) (chunks : List Bytes) (total delivered : Nat)
    (hsize : ∀ c ∈ chunks, c.length < 2 ^ 32)
    (h : advanceTotal (counted messageReceived) (uncounted message) chunks (d, 0, s) =
      .ok total (d', delivered, t)) :
    (∀ chunk count d1 k1 s1, chunk.length < 2 ^ 32 →
      advance (counted messageReceived) (uncounted message) chunk chunk.length (d, 0, s) =
        .ok count (d1, k1, s1) → (toUnsigned count = k1 ↔ d.CountsAll chunk)) ∧
    (total = delivered ↔ Runs.Meets (advanceStep (counted messageReceived) (uncounted message))
      (fun x c => x.1.CountsAll c) (d, 0, s) chunks) ∧
    (∀ ms : List DataMessage, (∀ m ∈ ms, m.Encodable) →
      d.inputData ++ chunks.flatten = frames ms →
      (framer d.version1Flag).front d.inputData = .incomplete →
      StaysBelow d.version1Flag d.inputData chunks → delivered = ms.length) := by
  refine ⟨fun chunk count d1 k1 s1 hchunk hone => ?_, ?_, fun ms hms hstream hwait hbelow => ?_⟩
  · have hcounts := advance_counts hchunk hone
    rw [Nat.zero_add] at hcounts
    exact hcounts.2
  · have hcounts := advanceTotal_counts hsize h
    rw [Nat.zero_add] at hcounts
    exact hcounts.2
  · have hdelivered := delivered_of_advanceTotal hms hstream hwait hbelow h
    omega

/-- A message in two parts is counted. -/
theorem advanceTotal_counts_twoParts :
    ∃ total x, advanceTotal (counted record) (uncounted noSlots)
        [DataMessage.greeting.frame.take 33, DataMessage.greeting.frame.drop 33] ({}, 0, []) =
          .ok total x ∧
      (total = x.2.1 ↔ Runs.Meets (advanceStep (counted record) (uncounted noSlots))
        (fun x c => x.1.CountsAll c) ({}, 0, [])
        [DataMessage.greeting.frame.take 33, DataMessage.greeting.frame.drop 33]) := by
  have hrun : advanceTotal (counted record) (uncounted noSlots)
      [DataMessage.greeting.frame.take 33, DataMessage.greeting.frame.drop 33] ({}, 0, []) =
        .ok 1 ({}, 1, [.greeting]) := by rfl
  refine ⟨1, ({}, 1, [.greeting]), hrun, ?_⟩
  exact (advanceTotal_counts_iff record noSlots {} {} [] [.greeting]
    [DataMessage.greeting.frame.take 33, DataMessage.greeting.frame.drop 33] 1 1
    (by decide +kernel) hrun).2.1

set_option maxRecDepth 4000 in
/-- A message that comes whole is delivered and not counted. -/
theorem not_advanceTotal_counts :
    ¬ ∀ (σ : Type) (messageReceived message : DataMessage → Call σ Unit) (d d' : Deserializer)
        (s t : σ) (chunk : Bytes) (count delivered : Nat), chunk.length < 2 ^ 32 →
      advance (counted messageReceived) (uncounted message) chunk chunk.length (d, 0, s) =
        .ok count (d', delivered, t) → toUnsigned count = delivered := by
  intro h
  have hrun : advance (counted record) (uncounted noSlots) DataMessage.greeting.frame
      DataMessage.greeting.frame.length ({}, 0, []) = .ok 0 ({}, 1, [.greeting]) := by rfl
  have hcount := h (List DataMessage) record noSlots {} {} [] [.greeting]
    DataMessage.greeting.frame 0 1 (by decide +kernel) hrun
  cases hcount

end Deserializer

end TntPub

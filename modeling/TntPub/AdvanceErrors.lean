import TntPub.Chunking
import TntPub.Leading

namespace TntPub

open Framing

section Delivering

variable {σ : Type} (messageReceived message : DataMessage → Call σ Unit)

/-- How many of the messages are completely delivered, up to the first callback that throws. -/
def completed : List DataMessage → σ → Nat
  | [], _ => 0
  | m :: ms, s =>
    match announce messageReceived message m s with
    | .ok _ t => completed ms t + 1
    | .error _ _ => 0

/-- What is left of an input when the completely delivered frames are taken away. -/
def undelivered (version1Flag : Bool) (input : Bytes) (s : σ) : Bytes :=
  input.drop ((framer version1Flag).span
    (completed messageReceived message ((framer version1Flag).drain input).messages s) input)

variable {messageReceived message} {version1Flag : Bool} {input : Bytes} {s t : σ}

theorem undelivered_fail {e : Exception} (h : (framer version1Flag).front input = .fail e) :
    undelivered messageReceived message version1Flag input s = input := by
  rw [undelivered, Framer.drain_of_fail h]
  rfl

theorem undelivered_frame {m : DataMessage} {n : Nat}
    (h : (framer version1Flag).front input = .frame m n) :
    undelivered messageReceived message version1Flag input s =
      match announce messageReceived message m s with
      | .ok _ t => undelivered messageReceived message version1Flag (input.drop n) t
      | .error _ _ => input := by
  rw [undelivered, Framer.drain_of_frame h, Drained.prepend_messages, List.singleton_append,
    completed]
  cases announce messageReceived message m s with
  | ok a t =>
    dsimp only
    rw [Framer.span_frame h, undelivered, List.drop_drop]
  | error e t => rfl

/-- Where a call throws, something is left that was not delivered. -/
theorem undelivered_ne_nil {e : Interrupt}
    (h : receive messageReceived message ((framer version1Flag).drain input) s = .error e t) :
    undelivered messageReceived message version1Flag input s ≠ [] := by
  induction input using Framer.drain_induction (F := framer version1Flag) generalizing s with
  | incomplete input hf =>
    rw [Framer.drain_of_incomplete hf] at h
    cases h
  | fail input e' hf =>
    rw [undelivered_fail hf]
    rintro rfl
    rw [(framer version1Flag).front_nil] at hf
    cases hf
  | frame input m n hf ih =>
    rw [Framer.drain_of_frame hf, receive_prepend] at h
    rw [undelivered_frame hf]
    cases ha : announce messageReceived message m s with
    | error e' u =>
      rintro rfl
      rw [(framer version1Flag).front_nil] at hf
      cases hf
    | ok a u =>
      have hone : deliver messageReceived message [m] s = .ok () u := by
        rw [deliver, Call.bind_ok ha]
        rfl
      rw [Call.bind_ok hone] at h
      exact ih h

end Delivering

namespace Deserializer

variable {σ : Type} {messageReceived message : DataMessage → Call σ Unit} {d d' : Deserializer}
  {s t : σ} {e : Interrupt}

/-- The loop over the collected input removes each frame after it is delivered. -/
theorem processMessages_error {fuel : Nat} (hsize : d.inputData.length < 2 ^ 32)
    (h : processMessages messageReceived message fuel (d, s) = .error e (d', t)) :
    d' = ⟨undelivered messageReceived message d.version1Flag d.inputData s,
      d.version1Flag⟩ := by
  induction fuel generalizing d s with
  | zero => cases h
  | succ fuel ih =>
    have hfront : frontUnsigned d.version1Flag d.inputData =
        (framer d.version1Flag).front d.inputData := by
      rw [frontUnsigned, toUnsigned, Nat.mod_eq_of_lt hsize, framer_front]
    cases hf : (framer d.version1Flag).front d.inputData with
    | incomplete =>
      rw [processMessages, Call.bind_ok (processMessage_incomplete (hfront.trans hf))] at h
      cases h
    | fail e' =>
      rw [processMessages, Call.bind_error (processMessage_fail (hfront.trans hf))] at h
      obtain ⟨-, hpair⟩ := EStateM.Result.error.inj h
      obtain ⟨rfl, -⟩ := Prod.mk.inj hpair
      rw [undelivered_fail hf]
    | frame m n =>
      have hstep : processMessage messageReceived message (d, s) = _ :=
        processMessage_frame (hfront.trans hf)
      rw [undelivered_frame hf]
      cases ha : announce messageReceived message m s with
      | error e' u =>
        rw [ha] at hstep
        rw [processMessages, Call.bind_error hstep] at h
        obtain ⟨-, hpair⟩ := EStateM.Result.error.inj h
        obtain ⟨rfl, -⟩ := Prod.mk.inj hpair
        rfl
      | ok a u =>
        rw [ha] at hstep
        rw [processMessages, Call.bind_ok hstep, if_pos rfl] at h
        have hrest : (d.inputData.drop n).length < 2 ^ 32 := by
          rw [List.length_drop]
          omega
        cases hloop : processMessages messageReceived message fuel
            ({ d with inputData := d.inputData.drop n }, u) with
        | ok count v =>
          rw [Call.bind_ok hloop] at h
          cases h
        | error e' v =>
          rw [Call.bind_error hloop] at h
          obtain ⟨rfl, rfl⟩ := EStateM.Result.error.inj h
          exact ih hrest hloop

theorem advanceInput_error {input : Bytes} (hsize : (d.inputData ++ input).length < 2 ^ 32)
    (h : advanceInput messageReceived message input input.length (d, s) = .error e (d', t)) :
    d' = ⟨undelivered messageReceived message d.version1Flag (d.inputData ++ input) s,
      d.version1Flag⟩ := by
  simp only [advanceInput, addData_all] at h
  split at h
  next => exact processMessages_error hsize h
  next => cases h

/-- An exception in the loop over the given buffer: nothing of the buffer is collected. -/
theorem advance_error_of_empty {chunk : Bytes} (hnil : d.inputData = [])
    (hsize : chunk.length < 2 ^ 32)
    (h : advance messageReceived message chunk chunk.length (d, s) = .error e (d', t)) :
    d' = d ∧ receive messageReceived message ((framer d.version1Flag).drain chunk) s =
      .error e t := by
  rw [advance_of_empty hnil hsize] at h
  cases hr : receive messageReceived message ((framer d.version1Flag).drain chunk) s with
  | ok rest u =>
    rw [hr] at h
    cases h
  | error e' u =>
    rw [hr] at h
    obtain ⟨rfl, hpair⟩ := EStateM.Result.error.inj h
    obtain ⟨rfl, rfl⟩ := Prod.mk.inj hpair
    exact ⟨rfl, rfl⟩

/-- What was found corrupt is found corrupt again with any bytes behind it. -/
theorem advance_rejects {more : Bytes} {e : Exception}
    (hfail : (framer d.version1Flag).front d.inputData = .fail e) (hmore : more ≠ [])
    (hsize : (d.inputData ++ more).length < 2 ^ 32) :
    advance messageReceived message more more.length (d, s) =
      .error (.exception e) (⟨d.inputData ++ more, d.version1Flag⟩, s) := by
  have hne : d.inputData.isEmpty = false := by
    cases hnil : d.inputData with
    | nil =>
      rw [hnil, (framer d.version1Flag).front_nil] at hfail
      cases hfail
    | cons b bs => rfl
  have hpos : more.length > 0 := List.length_pos_iff.mpr hmore
  have hfront : frontUnsigned d.version1Flag (d.inputData ++ more) = .fail e := by
    rw [frontUnsigned, toUnsigned, Nat.mod_eq_of_lt hsize]
    exact (framer d.version1Flag).fail_append more hfail
  simp only [advance, hne, Bool.false_eq_true, if_false, advanceInput, hpos, if_true, addData_all]
  rw [processMessages, Call.bind_error (processMessage_fail hfront)]

/-- After an exception: what is collected is what came without the completely delivered frames,
and when that is corrupt the stream stays rejected. -/
structure KeepsUndelivered (messageReceived message : DataMessage → Call σ Unit)
    (d : Deserializer) (chunk : Bytes) (s : σ) (d' : Deserializer) : Prop where
  inputData : d'.inputData =
    undelivered messageReceived message d.version1Flag (d.inputData ++ chunk) s
  version1Flag : d'.version1Flag = d.version1Flag
  rejects : ∀ e, (framer d.version1Flag).front
      (undelivered messageReceived message d.version1Flag (d.inputData ++ chunk) s) = .fail e →
    ∀ more t, more ≠ [] → (d'.inputData ++ more).length < 2 ^ 32 →
      advance messageReceived message more more.length (d', t) =
        .error (.exception e) (⟨d'.inputData ++ more, d'.version1Flag⟩, t)

theorem keepsUndelivered_iff (messageReceived message : DataMessage → Call σ Unit)
    (d d' : Deserializer) (chunk : Bytes) (s t : σ) (e : Interrupt)
    (hsize : (d.inputData ++ chunk).length < 2 ^ 32)
    (h : advance messageReceived message chunk chunk.length (d, s) = .error e (d', t)) :
    KeepsUndelivered messageReceived message d chunk s d' ↔ d.inputData ≠ [] := by
  constructor
  · rintro hkeeps hnil
    have hinput := hkeeps.inputData
    rw [hnil, List.nil_append] at hinput hsize
    obtain ⟨rfl, hreceive⟩ := advance_error_of_empty hnil hsize h
    exact undelivered_ne_nil hreceive (hinput.symm.trans hnil)
  · intro hne
    have hnot : d.inputData.isEmpty = false := by simpa using hne
    simp only [advance, hnot, Bool.false_eq_true, if_false] at h
    obtain rfl := advanceInput_error hsize h
    exact ⟨rfl, rfl, fun e' hfail more u hmore hmoresize => advance_rejects hfail hmore hmoresize⟩

/-- A message in two parts, and a callback that throws on it. -/
theorem keepsUndelivered_pending :
    KeepsUndelivered (fun _ => throw (.exception .failedToCreate)) (fun _ => pure ())
      ⟨DataMessage.greeting.frame.take 33, false⟩ (DataMessage.greeting.frame.drop 33) ()
      ⟨DataMessage.greeting.frame, false⟩ :=
  (keepsUndelivered_iff (fun _ => throw (.exception .failedToCreate)) (fun _ => pure ())
    ⟨DataMessage.greeting.frame.take 33, false⟩ ⟨DataMessage.greeting.frame, false⟩
    (DataMessage.greeting.frame.drop 33) () () (.exception .failedToCreate)
    (by decide +kernel) (by rfl)).mpr (by decide +kernel)

/-- Garbage at the start is rejected and forgotten. -/
theorem not_keepsUndelivered :
    ¬ ∀ (σ : Type) (messageReceived message : DataMessage → Call σ Unit) (d d' : Deserializer)
        (chunk : Bytes) (s t : σ) (e : Interrupt), (d.inputData ++ chunk).length < 2 ^ 32 →
      advance messageReceived message chunk chunk.length (d, s) = .error e (d', t) →
      KeepsUndelivered messageReceived message d chunk s d' := by
  intro h
  have hkeeps := h Unit (fun _ => pure ()) (fun _ => pure ()) {} {} (List.replicate 40 0x41) () ()
    (.exception .invalidMessageReceived) (by decide) (by rfl)
  have hinput := congrArg List.length hkeeps.inputData
  revert hinput
  decide +kernel

end Deserializer

end TntPub

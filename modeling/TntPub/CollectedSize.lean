import TntPub.Chunking
import Mathlib.Tactic.NormNum

namespace TntPub

open Framing

namespace Deserializer

/-- The frame at the front is delivered and its bytes are removed, whatever the callbacks do. -/
def FindsFrame (d : Deserializer) (m : DataMessage) (more : Bytes) : Prop :=
  ∀ (σ : Type) (messageReceived message : DataMessage → Call σ Unit) (s : σ),
    processMessage messageReceived message (d, s) =
      match announce messageReceived message m s with
      | .ok _ t => .ok true ({ d with inputData := more }, t)
      | .error e t => .error e (d, t)

variable {d : Deserializer} {m : DataMessage} {frame more : Bytes}

theorem frontUnsigned_take (version1Flag : Bool) (input : Bytes) :
    frontUnsigned version1Flag input =
      (framer version1Flag).front (input.take (toUnsigned input.length)) := by
  have hle : toUnsigned input.length ≤ input.length := Nat.mod_le _ _
  have hlen : (input.take (toUnsigned input.length)).length = toUnsigned input.length :=
    List.length_take_of_le hle
  have hlocal : parseMessage version1Flag (input.take (toUnsigned input.length) ++ _) _ = _ :=
    parseMessage_local (input.drop (toUnsigned input.length))
  rw [List.take_append_drop, hlen] at hlocal
  rw [frontUnsigned, hlocal, framer_front, hlen]

/-- A frame that the given size covers is recognised. -/
theorem frontUnsigned_whole (hcontent : d.inputData = frame ++ more)
    (hframe : (framer d.version1Flag).front frame = .frame m frame.length)
    (hsize : frame.length ≤ toUnsigned d.inputData.length) :
    frontUnsigned d.version1Flag d.inputData = .frame m frame.length := by
  have htake : d.inputData.take (toUnsigned d.inputData.length) =
      frame ++ more.take (toUnsigned d.inputData.length - frame.length) := by
    rw [hcontent, List.take_append, ← hcontent, List.take_of_length_le hsize]
  rw [frontUnsigned_take, htake]
  exact (framer d.version1Flag).frame_append _ hframe

/-- A frame that is longer than the given size is waited for. -/
theorem frontUnsigned_short (hcontent : d.inputData = frame ++ more)
    (hframe : (framer d.version1Flag).front frame = .frame m frame.length)
    (hsize : toUnsigned d.inputData.length < frame.length) :
    frontUnsigned d.version1Flag d.inputData = .incomplete := by
  have htake : d.inputData.take (toUnsigned d.inputData.length) =
      frame.take (toUnsigned d.inputData.length) := by
    rw [hcontent, List.take_append_of_le_length (hcontent ▸ hsize.le)]
  have hsplit := List.take_append_drop (toUnsigned d.inputData.length) frame
  rw [frontUnsigned_take, htake]
  cases hfront : (framer d.version1Flag).front (frame.take (toUnsigned d.inputData.length)) with
  | incomplete => rfl
  | fail e =>
    have hfail := (framer d.version1Flag).fail_append
      (frame.drop (toUnsigned d.inputData.length)) hfront
    rw [hsplit, hframe] at hfail
    cases hfail
  | frame m' n =>
    have hle := (framer d.version1Flag).frame_le hfront
    have hwhole := (framer d.version1Flag).frame_append
      (frame.drop (toUnsigned d.inputData.length)) hfront
    rw [hsplit, hframe] at hwhole
    obtain ⟨-, rfl⟩ := Front.frame.inj hwhole
    have hcut := List.length_take_le (toUnsigned d.inputData.length) frame
    omega

theorem processMessage_short {σ : Type} {messageReceived message : DataMessage → Call σ Unit}
    (hcontent : d.inputData = frame ++ more)
    (hframe : (framer d.version1Flag).front frame = .frame m frame.length)
    (hsize : toUnsigned d.inputData.length < frame.length) (s : σ) :
    processMessage messageReceived message (d, s) = .ok false (d, s) :=
  processMessage_incomplete (frontUnsigned_short hcontent hframe hsize)

theorem not_findsFrame_of_short (hcontent : d.inputData = frame ++ more)
    (hframe : (framer d.version1Flag).front frame = .frame m frame.length)
    (hsize : toUnsigned d.inputData.length < frame.length) : ¬ d.FindsFrame m more := by
  intro hfinds
  have htrue := hfinds Unit (fun _ => pure ()) (fun _ => pure ()) ()
  rw [processMessage_short hcontent hframe hsize] at htrue
  cases htrue

/-- A frame at the front is found exactly if the size of what is collected, as an `unsigned`,
covers it. -/
theorem findsFrame_iff (d : Deserializer) (m : DataMessage) (frame more : Bytes)
    (hcontent : d.inputData = frame ++ more)
    (hframe : parseMessage d.version1Flag frame frame.length = .frame m frame.length) :
    (d.FindsFrame m more ↔ frame.length ≤ toUnsigned d.inputData.length) ∧
      (toUnsigned d.inputData.length < frame.length →
        ∀ (σ : Type) (messageReceived message : DataMessage → Call σ Unit) (s : σ),
          processMessage messageReceived message (d, s) = .ok false (d, s)) := by
  refine ⟨⟨fun hfinds => ?_, fun hsize σ messageReceived message s => ?_⟩,
    fun hsize σ messageReceived message s => processMessage_short hcontent hframe hsize s⟩
  · by_contra hsize
    exact not_findsFrame_of_short hcontent hframe (Nat.lt_of_not_le hsize) hfinds
  · have hdrop : d.inputData.drop frame.length = more := by
      rw [hcontent, List.drop_left]
    have hrun : processMessage messageReceived message (d, s) = _ :=
      processMessage_frame (frontUnsigned_whole hcontent hframe hsize)
    rw [hdrop] at hrun
    exact hrun

theorem findsFrame_greeting :
    FindsFrame ⟨DataMessage.greeting.frame ++ [0x32, 0x75], false⟩ .greeting [0x32, 0x75] :=
  (findsFrame_iff ⟨DataMessage.greeting.frame ++ [0x32, 0x75], false⟩ .greeting
    DataMessage.greeting.frame [0x32, 0x75] rfl
    (DataMessage.Encodable.parseMessage_frame (by decide) false)).1.mpr (by decide +kernel)

/-- The collected input after some calls of `addData`. -/
def collected (version1Flag : Bool) (chunks : List Bytes) : Deserializer :=
  chunks.foldl (fun d c => d.addData c c.length) ⟨[], version1Flag⟩

theorem not_findsFrame :
    ¬ ∀ (version1Flag : Bool) (chunks : List Bytes) (m : DataMessage) (frame more : Bytes),
      (∀ c ∈ chunks, c.length < 2 ^ 32) →
      (collected version1Flag chunks).inputData = frame ++ more →
      parseMessage version1Flag frame frame.length = .frame m frame.length →
      (collected version1Flag chunks).FindsFrame m more := by
  intro h
  have hlength : DataMessage.greeting.frame.length = 43 := by decide +kernel
  obtain ⟨zeros, hzeros⟩ : ∃ zeros : Bytes, zeros.length = 2 ^ 32 - 43 :=
    ⟨List.replicate (2 ^ 32 - 43) 0, List.length_replicate⟩
  have hcollected : collected false [DataMessage.greeting.frame, zeros] =
      ⟨DataMessage.greeting.frame ++ zeros, false⟩ := by
    simp only [collected, List.foldl_cons, List.foldl_nil, addData_all, List.nil_append]
  have hparse : parseMessage false DataMessage.greeting.frame DataMessage.greeting.frame.length =
      .frame .greeting DataMessage.greeting.frame.length :=
    DataMessage.Encodable.parseMessage_frame (by decide) false
  have hshort : toUnsigned (DataMessage.greeting.frame ++ zeros).length <
      DataMessage.greeting.frame.length := by
    rw [List.length_append, hlength, hzeros]
    decide
  have hsizes : ∀ c ∈ [DataMessage.greeting.frame, zeros], c.length < 2 ^ 32 := by
    intro c hc
    rcases List.mem_cons.mp hc with rfl | hc
    · omega
    · rw [List.mem_singleton.mp hc]
      omega
  generalize DataMessage.greeting.frame = frame at *
  have hcontent : (collected false [frame, zeros]).inputData = frame ++ zeros := by
    rw [hcollected]
  have hfinds := h false [frame, zeros] .greeting frame zeros hsizes hcontent hparse
  rw [hcollected] at hfinds
  exact not_findsFrame_of_short (d := ⟨frame ++ zeros, false⟩) rfl hparse hshort hfinds

end Deserializer

end TntPub

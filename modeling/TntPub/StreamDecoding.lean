import TntPub.Chunking

namespace TntPub

open Framing

def record (m : DataMessage) : Call (List DataMessage) Unit := modify (· ++ [m])

/-- The emission of a signal without slots. -/
def noSlots {σ : Type} (_ : DataMessage) : Call σ Unit := pure ()

theorem deliver_record (ms log : List DataMessage) :
    deliver record noSlots ms log = .ok () (log ++ ms) := by
  induction ms generalizing log with
  | nil => rw [List.append_nil]; rfl
  | cons m ms ih =>
    have hone : announce record noSlots m log = .ok () (log ++ [m]) := rfl
    rw [deliver, Call.bind_ok hone, ih, List.append_assoc, List.singleton_append]

theorem receive_record {d : Drained UInt8 DataMessage Exception} (herr : d.error = none)
    (log : List DataMessage) :
    receive record noSlots d log = .ok d.rest (log ++ d.messages) := by
  rw [receive, Call.bind_ok (deliver_record d.messages log), herr]
  rfl

/-- With a recording callback the outcome is what the input holds, if it holds no error. -/
theorem advanceChunks_record_iff {version1Flag : Bool} {chunks : List Bytes}
    (hbelow : Deserializer.StaysBelow version1Flag [] chunks) {d : Deserializer}
    {ms : List DataMessage} :
    outcome (Deserializer.advanceChunks record noSlots chunks (⟨[], version1Flag⟩, [])) =
        .ok d ms ↔
      (framer version1Flag).drain chunks.flatten = ⟨ms, d.inputData, none⟩ ∧
        d.version1Flag = version1Flag := by
  rw [Deserializer.outcome_advanceChunks (framer version1Flag).front_nil hbelow, List.nil_append]
  constructor
  · intro h
    obtain ⟨rest, t, hr, hd⟩ := Call.bind_eq_ok.mp h
    obtain ⟨rfl, rfl⟩ := EStateM.Result.ok.inj hd
    cases herr : ((framer version1Flag).drain chunks.flatten).error with
    | some e =>
      obtain ⟨_, u, -, hu⟩ := Call.bind_eq_ok.mp hr
      rw [herr] at hu
      cases hu
    | none =>
      rw [receive_record herr] at hr
      obtain ⟨rfl, rfl⟩ := EStateM.Result.ok.inj hr
      exact ⟨Drained.ext rfl rfl herr, rfl⟩
  · rintro ⟨hdrain, rfl⟩
    rw [hdrain, Call.bind_ok (receive_record rfl [])]
    rfl

/-- The cut of the input into chunks, and which of the two ways to feed them is taken, make
no difference to the callbacks, to the exception or to what is left collected. -/
theorem chunking_independence {σ : Type} (messageReceived message : DataMessage → Call σ Unit)
    (version1Flag : Bool) (chunks : List Bytes) (hsize : chunks.flatten.length < 2 ^ 32) (s : σ) :
    outcome (Deserializer.advanceChunks messageReceived message chunks (⟨[], version1Flag⟩, s)) =
        outcome (Deserializer.advance messageReceived message chunks.flatten chunks.flatten.length
          (⟨[], version1Flag⟩, s)) ∧
      outcome (Deserializer.collectChunks messageReceived message chunks
          (⟨[], version1Flag⟩, s)) =
        outcome (Deserializer.advance messageReceived message chunks.flatten chunks.flatten.length
          (⟨[], version1Flag⟩, s)) ∧
      ∀ d t, outcome (Deserializer.advance messageReceived message chunks.flatten
          chunks.flatten.length (⟨[], version1Flag⟩, s)) = .ok d t →
        d.inputData <:+ chunks.flatten := by
  have hwait : (framer version1Flag).front [] = .incomplete := (framer version1Flag).front_nil
  have hbelow : Deserializer.StaysBelow version1Flag [] chunks :=
    Deserializer.staysBelow_of_total hsize
  have hwhole : outcome (Deserializer.advance messageReceived message chunks.flatten
      chunks.flatten.length (⟨[], version1Flag⟩, s)) = _ := Deserializer.outcome_advance hsize
  have hdrained : Deserializer.drained ⟨[], version1Flag⟩ chunks.flatten =
      (framer version1Flag).drain chunks.flatten := rfl
  rw [hdrained] at hwhole
  refine ⟨?_, ?_, ?_⟩
  · rw [Deserializer.outcome_advanceChunks hwait hbelow, hwhole]
    rfl
  · rw [Deserializer.outcome_collectChunks hwait hbelow, hwhole]
    rfl
  · intro d t hd
    rw [hwhole] at hd
    obtain ⟨rest, u, hr, hpure⟩ := Call.bind_eq_ok.mp hd
    obtain ⟨rfl, -⟩ := EStateM.Result.ok.inj hpure
    obtain ⟨_, v, -, hv⟩ := Call.bind_eq_ok.mp hr
    have hsuffix := Framer.drain_rest_suffix (F := framer version1Flag) chunks.flatten
    cases herr : ((framer version1Flag).drain chunks.flatten).error with
    | some e => rw [herr] at hv; cases hv
    | none =>
      rw [herr] at hv
      obtain ⟨rfl, -⟩ := EStateM.Result.ok.inj hv
      exact hsuffix

/-- A frame cut inside its header, with the beginning of another one behind it. -/
theorem chunking_independence_cut :
    outcome (Deserializer.collectChunks record noSlots
        [DataMessage.greeting.frame.take 33, DataMessage.greeting.frame.drop 33, [], [0x32, 0x75]]
        ({}, [])) =
      outcome (Deserializer.advance record noSlots (DataMessage.greeting.frame ++ [0x32, 0x75])
        (DataMessage.greeting.frame ++ [0x32, 0x75]).length ({}, [])) :=
  (chunking_independence record noSlots false
    [DataMessage.greeting.frame.take 33, DataMessage.greeting.frame.drop 33, [], [0x32, 0x75]]
    (by decide +kernel) []).2.1

theorem frame_length_le_frames {ms : List DataMessage} {m : DataMessage} (hm : m ∈ ms) :
    m.frame.length ≤ (frames ms).length := by
  obtain ⟨before, after, rfl⟩ := List.append_of_mem hm
  simp only [frames_append, frames_cons, List.length_append]
  omega

theorem advanceChunks_frames {version1Flag : Bool} {ms : List DataMessage} {chunks : List Bytes}
    (hms : ∀ m ∈ ms, m.Encodable) (hchunks : chunks.flatten = frames ms)
    (hbelow : Deserializer.StaysBelow version1Flag [] chunks) :
    outcome (Deserializer.advanceChunks record noSlots chunks (⟨[], version1Flag⟩, [])) =
      .ok ⟨[], version1Flag⟩ ms := by
  have hdrain := drain_frames version1Flag hms
  rw [← hchunks] at hdrain
  exact (advanceChunks_record_iff hbelow).mpr ⟨hdrain, rfl⟩

theorem collectChunks_frames {version1Flag : Bool} {ms : List DataMessage} {chunks : List Bytes}
    (hms : ∀ m ∈ ms, m.Encodable) (hchunks : chunks.flatten = frames ms)
    (hbelow : Deserializer.StaysBelow version1Flag [] chunks) :
    outcome (Deserializer.collectChunks record noSlots chunks (⟨[], version1Flag⟩, [])) =
      .ok ⟨[], version1Flag⟩ ms := by
  have hdrain := drain_frames version1Flag hms
  rw [Deserializer.outcome_collectChunks (framer version1Flag).front_nil hbelow, List.nil_append,
    hchunks, hdrain, Call.bind_ok (receive_record rfl [])]
  rfl

theorem createFromBuffer_frame {version1Flag : Bool} {m : DataMessage} (hm : m.Encodable) :
    createFromBuffer m.frame m.frame.length version1Flag = .ok m := by
  have hpos : m.frame.length ≠ 0 := by
    have hlen := hm.frame_length
    have hsize := m.sizeof_le_messageLength
    rw [Header.sizeof] at hsize
    omega
  obtain ⟨k, hk⟩ := Nat.exists_eq_succ_of_ne_zero hpos
  have hframe := hm.parseMessage_frame version1Flag
  rw [hk] at hframe
  simp only [createFromBuffer, hk, Deserializer.processBuffer_frame hframe]
  rfl

theorem createFromBuffer_cut {version1Flag : Bool} {m : DataMessage} (hm : m.Encodable)
    {k : Nat} (hk : k < m.frame.length) :
    createFromBuffer (m.frame.take k) k version1Flag =
      .error (.exception .failedToCreate) := by
  have hlen : (m.frame.take k).length = k := List.length_take_of_le hk.le
  have hcut := hm.parseMessage_cut version1Flag (List.take_prefix k m.frame) (by omega)
  rw [hlen] at hcut
  simp only [createFromBuffer, processBuffer, hcut, pure, EStateM.pure]

/-- Decoding undoes encoding over whole streams, and `createFromBuffer` undoes it for each
message and takes nothing less than its frame. -/
theorem decode_undoes_encode (version1Flag : Bool) (p : Bytes) (ms : List DataMessage)
    (htypes : ∀ m ∈ ms, isValidType m.type = true) (hparts : ∀ m ∈ ms, m.PartsFit)
    (htotal : (frames ms).length < 2 ^ 32) :
    ∃ appended, ms.foldl (fun buffer m => m.appendTo buffer) p = p ++ appended ∧
      (∀ chunks, chunks.flatten = appended →
        outcome (Deserializer.advanceChunks record noSlots chunks (⟨[], version1Flag⟩, [])) =
            .ok ⟨[], version1Flag⟩ ms ∧
          outcome (Deserializer.collectChunks record noSlots chunks (⟨[], version1Flag⟩, [])) =
            .ok ⟨[], version1Flag⟩ ms) ∧
      ∀ m ∈ ms, createFromBuffer m.frame m.frame.length version1Flag = .ok m ∧
        ∀ k < m.frame.length, createFromBuffer (m.frame.take k) k version1Flag =
          .error (.exception .failedToCreate) := by
  have hms : ∀ m ∈ ms, m.Encodable := by
    intro m hm
    have hlen := (hparts m hm).frame_length
    have hle := frame_length_le_frames hm
    exact ⟨⟨hparts m hm, by omega⟩, htypes m hm⟩
  refine ⟨frames ms, foldl_appendTo p ms, ?_, ?_⟩
  · intro chunks hchunks
    have hbelow : Deserializer.StaysBelow version1Flag [] chunks :=
      Deserializer.staysBelow_of_total (by rw [hchunks, List.nil_append]; exact htotal)
    exact ⟨advanceChunks_frames hms hchunks hbelow, collectChunks_frames hms hchunks hbelow⟩
  · intro m hm
    exact ⟨createFromBuffer_frame (hms m hm), fun k hk => createFromBuffer_cut (hms m hm) hk⟩

theorem decode_undoes_encode_greeting :
    ∃ appended, [DataMessage.greeting, .greeting].foldl (fun buffer m => m.appendTo buffer) [0x70] =
        [0x70] ++ appended ∧
      (∀ chunks, chunks.flatten = appended →
        outcome (Deserializer.advanceChunks record noSlots chunks ({}, [])) =
            .ok {} [.greeting, .greeting] ∧
          outcome (Deserializer.collectChunks record noSlots chunks ({}, [])) =
            .ok {} [.greeting, .greeting]) ∧
      ∀ m ∈ [DataMessage.greeting, .greeting],
        createFromBuffer m.frame m.frame.length false = .ok m ∧
          ∀ k < m.frame.length, createFromBuffer (m.frame.take k) k false =
            .error (.exception .failedToCreate) :=
  decode_undoes_encode false [0x70] [.greeting, .greeting] (by decide) (by decide)
    (by decide +kernel)

end TntPub

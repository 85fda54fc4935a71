import TntPub.StreamDecoding

namespace TntPub

open Framing

/-- The fields that carry what was sent. -/
structure DataMessage.SameContent (m m' : DataMessage) : Prop where
  topic : m.topic = m'.topic
  source : m.source = m'.source
  data : m.data = m'.data

theorem readString_length_le (buffer : Bytes) (offset length : UInt32) :
    (readString buffer offset length).length ≤ length.toNat := by
  simp only [readString, List.length_take]
  omega

section Accepted

variable {version1Flag : Bool} {buffer : Bytes} {bufsize n : Nat} {m : DataMessage}

theorem Header.message_fits {header : Header} {type : MessageType}
    (hle : header.dataOffset ≤ header.messageLength) :
    (header.message type buffer).FitsHeader := by
  have hlt := header.messageLength.toNat_lt
  have hoff := UInt32.le_iff_toNat_le.mp hle
  have hdata := header.dataLength_toNat hle
  have b1 := header.topicLength.toNat_lt
  have b2 := header.subtopicLength.toNat_lt
  have b3 := header.sourceLength.toNat_lt
  have h1 := readString_length_le buffer header.topicOffset header.topicLength.toUInt32
  have h2 := readString_length_le buffer header.subtopicOffset header.subtopicLength.toUInt32
  have h3 := readString_length_le buffer header.sourceOffset header.sourceLength.toUInt32
  have h4 := readString_length_le buffer header.dataOffset header.dataLength
  rw [UInt16.toNat_toUInt32] at h1 h2 h3
  rw [header.dataOffset_toNat] at hoff hdata
  refine ⟨⟨by simp only [message]; omega, by simp only [message]; omega,
    by simp only [message]; omega⟩, ?_⟩
  simp only [DataMessage.messageLength, message, sizeof]
  omega

theorem Header1.message_fits {header : Header1} {type : MessageType}
    (hle : header.dataOffset ≤ header.messageLength) :
    (header.message type buffer).FitsHeader := by
  have hlt := header.messageLength.toNat_lt
  have hoff := UInt32.le_iff_toNat_le.mp hle
  have hdata := header.dataLength_toNat hle
  have b1 := header.topicLength.toNat_lt
  have h1 := readString_length_le buffer header.topicOffset header.topicLength.toUInt32
  have h4 := readString_length_le buffer header.dataOffset header.dataLength
  rw [UInt16.toNat_toUInt32] at h1
  rw [header.dataOffset_toNat] at hoff hdata
  refine ⟨⟨by simp only [message]; omega, by simp [message], by simp [message]⟩, ?_⟩
  simp only [DataMessage.messageLength, message, Header.sizeof, List.length_nil]
  omega

/-- Whatever bytes are accepted, the message read from them fits a header. -/
theorem parseMessage_fits (h : parseMessage version1Flag buffer bufsize = .frame m n) :
    m.FitsHeader := by
  unfold parseMessage at h
  split at h
  next => cases h
  next =>
    split at h
    next =>
      obtain ⟨type, -, hc, -, -, rfl⟩ := parseCurrent_eq_frame.mp h
      exact Header.message_fits (checkHeader_eq_some.mp hc).2.2
    next =>
      split at h
      next =>
        obtain ⟨type, hc, -, -, rfl⟩ := parseOld_eq_frame.mp h
        exact Header1.message_fits (checkHeader_eq_some.mp hc).2.2
      next => cases h

theorem drain_fits (buffer : Bytes) :
    ∀ m ∈ ((framer version1Flag).drain buffer).messages, m.FitsHeader := by
  induction buffer using Framer.drain_induction (F := framer version1Flag) with
  | incomplete buffer h => simp [Framer.drain_of_incomplete h]
  | fail buffer e h => simp [Framer.drain_of_fail h]
  | frame buffer m n h ih =>
    rw [Framer.drain_of_frame h]
    intro k hk
    rcases List.mem_cons.mp hk with rfl | hk
    · exact parseMessage_fits h
    · exact ih k hk

/-- Bytes that are waited with leave room for one more. -/
theorem length_of_incomplete (h : (framer version1Flag).front buffer = .incomplete) :
    buffer.length + 1 < 2 ^ 32 := by
  rw [framer_front] at h
  unfold parseMessage at h
  split at h
  next hs => rw [Header1.sizeof] at hs; omega
  next =>
    split at h
    next =>
      unfold parseCurrent at h
      split at h
      next hs => rw [Header.sizeof] at hs; omega
      next =>
        have hlt := (Header.ofBuffer buffer).messageLength.toNat_lt
        dsimp only at h
        split at h
        next => cases h
        next =>
          split at h
          next => omega
          next => cases h
    next =>
      split at h
      next =>
        unfold parseOld at h
        have hlt := (Header1.ofBuffer buffer).messageLength.toNat_lt
        dsimp only at h
        split at h
        next => cases h
        next =>
          split at h
          next => omega
          next => cases h
      next => cases h

/-- Input that comes byte by byte never outgrows an `unsigned`. -/
theorem staysBelow_singletons {pending : Bytes} (bytes : Bytes)
    (hwait : (framer version1Flag).front pending = .incomplete) :
    Deserializer.StaysBelow version1Flag pending (bytes.map fun b => [b]) := by
  induction bytes generalizing pending with
  | nil => trivial
  | cons b bytes ih =>
    have hlen := length_of_incomplete hwait
    refine ⟨by simpa using hlen, fun herr => ih (Framer.front_drain_rest_of_ok herr)⟩

end Accepted

namespace DataMessage

variable {version1Flag : Bool} {m m' : DataMessage} {buffer : Bytes}

theorem SameContent.fitsHeader (h : m'.SameContent m) (hfits : m'.FitsHeader) : m.FitsHeader := by
  have hlen : m'.messageLength = m.messageLength := by
    simp only [messageLength, h.topic, h.source, h.data]
  obtain ⟨⟨h1, h2, h3⟩, h4⟩ := hfits
  rw [h.topic] at h1 h2
  rw [h.source] at h3
  rw [hlen] at h4
  exact ⟨⟨h1, h2, h3⟩, h4⟩

/-- `appendTo` leaves the buffer as it is, or what it appends is decoded, however it arrives,
to one message with the content of the given one. -/
def IsSafelyAppended (version1Flag : Bool) (m : DataMessage) (buffer : Bytes) : Prop :=
  m.appendTo buffer = buffer ∨ ∃ appended, m.appendTo buffer = buffer ++ appended ∧
    ∀ chunks, chunks.flatten = appended → Deserializer.StaysBelow version1Flag [] chunks →
      ∃ m', outcome (Deserializer.advanceChunks record noSlots chunks (⟨[], version1Flag⟩, [])) =
        .ok ⟨[], version1Flag⟩ [m'] ∧ m'.SameContent m

theorem length_le_writeAt (memory : Bytes) (offset : Nat) (src : Bytes) :
    memory.length ≤ (writeAt memory offset src).length := by
  simp only [writeAt, List.length_append, List.length_take, List.length_drop]
  omega

theorem messageLength_le_frame (m : DataMessage) : m.messageLength ≤ m.frame.length := by
  have hzero : m.messageLength ≤ (List.replicate m.messageLength (0 : UInt8)).length :=
    List.length_replicate.ge
  have hheader := hzero.trans (length_le_writeAt _ 0 m.header.toBytes)
  have hmain := hheader.trans (length_le_writeAt _ m.header.topicOffset.toNat m.topic.main)
  have hsub := hmain.trans (length_le_writeAt _ m.header.subtopicOffset.toNat m.topic.sub)
  have hsource := hsub.trans (length_le_writeAt _ m.header.sourceOffset.toNat m.source)
  exact hsource.trans (length_le_writeAt _ m.header.dataOffset.toNat m.data)

theorem IsSafelyAppended.fitsHeader (h : m.IsSafelyAppended version1Flag buffer) :
    m.FitsHeader := by
  rcases h with h | ⟨appended, happend, hall⟩
  · have hnil : m.frame = [] := by simpa [appendTo] using h
    have hsize := m.sizeof_le_messageLength
    have hlen := m.messageLength_le_frame
    rw [hnil, List.length_nil] at hlen
    rw [Header.sizeof] at hsize
    omega
  · have hbelow := staysBelow_singletons appended (framer version1Flag).front_nil
    have hflatten : (appended.map fun b => [b]).flatten = appended := by
      rw [← List.flatMap_def, List.flatMap_singleton']
    obtain ⟨m', hok, hsame⟩ := hall _ hflatten hbelow
    obtain ⟨hdrain, -⟩ := (advanceChunks_record_iff hbelow).mp hok
    have hmem : m' ∈
        ((framer version1Flag).drain (appended.map fun b => [b]).flatten).messages := by
      rw [hdrain]
      exact List.mem_singleton_self m'
    exact hsame.fitsHeader (drain_fits _ m' hmem)

theorem Encodable.isSafelyAppended (h : m.Encodable) : m.IsSafelyAppended version1Flag buffer := by
  refine .inr ⟨m.frame, rfl, fun chunks hchunks hbelow => ⟨m, ?_, rfl, rfl, rfl⟩⟩
  have hdrain := drain_frame_append version1Flag h []
  rw [List.append_nil, Framer.drain_nil] at hdrain
  refine (advanceChunks_record_iff hbelow).mpr ⟨?_, rfl⟩
  rw [hchunks, hdrain]
  rfl

/-- The message is sent as it is exactly if the fields of the header can hold its sizes. -/
theorem isSafelyAppended_iff (version1Flag : Bool) (m : DataMessage) (buffer : Bytes)
    (hvalid : isValidType m.type = true) :
    m.IsSafelyAppended version1Flag buffer ↔ m.FitsHeader :=
  ⟨fun h => h.fitsHeader, fun h => Encodable.isSafelyAppended ⟨h, hvalid⟩⟩

theorem isSafelyAppended_greeting : greeting.IsSafelyAppended false [] ↔ greeting.FitsHeader :=
  isSafelyAppended_iff false greeting [] rfl

/-- A topic of 65536 bytes leaves a header that says zero. -/
theorem not_isSafelyAppended :
    ¬ ∀ (version1Flag : Bool) (m : DataMessage) (buffer : Bytes), isValidType m.type = true →
      m.IsSafelyAppended version1Flag buffer := by
  intro h
  have hsafe := h false (createPlain ⟨[], 0, 0⟩ { main := List.replicate 65536 0x61 } []) [] rfl
  have hle := hsafe.fitsHeader.main_le
  simp only [createPlain, ofOrigin, List.length_replicate] at hle
  omega

end DataMessage

end TntPub

import TntPub.HeaderLayout

namespace TntPub

open Framing

/-- The variable parts whose sizes the 16-bit header fields can hold. -/
structure DataMessage.PartsFit (m : DataMessage) : Prop where
  main_le : m.topic.main.length ≤ 65535
  sub_le : m.topic.sub.length ≤ 65535
  source_le : m.source.length ≤ 65535

structure DataMessage.FitsHeader (m : DataMessage) : Prop extends m.PartsFit where
  length_lt : m.messageLength < 2 ^ 32

/-- The messages that fit the header and have a type the receiver knows. -/
structure DataMessage.Encodable (m : DataMessage) : Prop extends m.FitsHeader where
  validType : isValidType m.type = true

instance (m : DataMessage) : Decidable m.PartsFit :=
  decidable_of_iff
    (m.topic.main.length ≤ 65535 ∧ m.topic.sub.length ≤ 65535 ∧ m.source.length ≤ 65535)
    ⟨fun ⟨h1, h2, h3⟩ => ⟨h1, h2, h3⟩, fun h => ⟨h.main_le, h.sub_le, h.source_le⟩⟩

instance (m : DataMessage) : Decidable m.FitsHeader :=
  decidable_of_iff (m.PartsFit ∧ m.messageLength < 2 ^ 32)
    ⟨fun ⟨h1, h2⟩ => ⟨h1, h2⟩, fun h => ⟨h.toPartsFit, h.length_lt⟩⟩

instance (m : DataMessage) : Decidable m.Encodable :=
  decidable_of_iff (m.FitsHeader ∧ isValidType m.type = true)
    ⟨fun ⟨h1, h2⟩ => ⟨h1, h2⟩, fun h => ⟨h.toFitsHeader, h.validType⟩⟩

namespace DataMessage

theorem PartsFit.header_lengths {m : DataMessage} (h : m.PartsFit) :
    m.header.topicLength.toNat = m.topic.main.length ∧
      m.header.subtopicLength.toNat = m.topic.sub.length ∧
      m.header.sourceLength.toNat = m.source.length := by
  have h1 := h.main_le
  have h2 := h.sub_le
  have h3 := h.source_le
  simp only [header, UInt16.toNat_ofNat']
  omega

theorem FitsHeader.header_messageLength {m : DataMessage} (h : m.FitsHeader) :
    m.header.messageLength.toNat = m.messageLength := by
  simp only [header, UInt32.toNat_ofNat', Nat.mod_eq_of_lt h.length_lt]

theorem PartsFit.frame_eq {m : DataMessage} (h : m.PartsFit) :
    m.frame = m.header.toBytes ++ m.topic.main ++ m.topic.sub ++ m.source ++ m.data := by
  obtain ⟨h1, h2, h3⟩ := h.header_lengths
  have hh : m.header.toBytes.length = 40 := m.header.toBytes_length
  have hzero : List.replicate m.messageLength (0 : UInt8) =
      [] ++ (List.replicate 40 0 ++ (List.replicate m.topic.main.length 0 ++
        (List.replicate m.topic.sub.length 0 ++ (List.replicate m.source.length 0 ++
          (List.replicate m.data.length 0 ++ []))))) := by
    simp only [messageLength, Header.sizeof, Nat.add_assoc, List.replicate_add, List.nil_append,
      List.append_nil]
  simp only [frame]
  have hstart : 0 = ([] : Bytes).length := rfl
  rw [hzero, writeAt_part hstart (by rw [hh, List.length_replicate]), List.nil_append,
    writeAt_part (by simp [hh, Header.topicOffset_toNat]) (by simp),
    ← List.append_assoc m.header.toBytes,
    writeAt_part (by simp [hh, Header.subtopicOffset_toNat, h1]) (by simp),
    ← List.append_assoc _ m.topic.sub,
    writeAt_part (by simp [hh, Header.sourceOffset_toNat, h1, h2, Nat.add_assoc]) (by simp),
    ← List.append_assoc _ m.source,
    writeAt_part (by simp [hh, Header.dataOffset_toNat, h1, h2, h3, Nat.add_assoc]) (by simp),
    List.append_nil, List.append_assoc _ m.source]

theorem PartsFit.frame_length {m : DataMessage} (h : m.PartsFit) :
    m.frame.length = m.messageLength := by
  simp only [h.frame_eq, List.length_append, Header.toBytes_length, messageLength]

theorem sizeof_le_messageLength (m : DataMessage) : Header.sizeof ≤ m.messageLength := by
  simp only [messageLength]
  omega

theorem FitsHeader.dataOffset_add {m : DataMessage} (h : m.FitsHeader) :
    m.header.dataOffset.toNat + m.data.length = m.header.messageLength.toNat := by
  obtain ⟨h1, h2, h3⟩ := h.header_lengths
  rw [Header.dataOffset_toNat, h1, h2, h3, h.header_messageLength, messageLength, Header.sizeof]

end DataMessage

section Verdicts

theorem checkHeader_eq_some {type : UInt8} {messageLength dataOffset : UInt32} {t : MessageType} :
    checkHeader type messageLength dataOffset = some t ↔
      MessageType.ofChar type = some t ∧ isValidType t = true ∧ dataOffset ≤ messageLength := by
  unfold checkHeader
  cases MessageType.ofChar type with
  | none => simp
  | some u =>
    dsimp only
    split
    next hbad =>
      simp only [Option.some.injEq, reduceCtorEq, false_iff, not_and]
      rintro rfl hu hle
      simp [hu, UInt32.not_lt.mpr hle] at hbad
    next hok =>
      simp only [Bool.or_eq_true, decide_eq_true_eq, not_or, UInt32.not_lt] at hok
      simp only [Option.some.injEq]
      constructor
      · rintro rfl
        exact ⟨rfl, by simpa using hok.2, hok.1⟩
      · exact fun h => h.1

variable {version1Flag : Bool} {buffer : Bytes} {bufsize n : Nat} {m : DataMessage}

theorem parseCurrent_eq_frame : parseCurrent buffer bufsize = .frame m n ↔
    ∃ type, Header.sizeof ≤ bufsize ∧
      checkHeader (Header.ofBuffer buffer).type (Header.ofBuffer buffer).messageLength
        (Header.ofBuffer buffer).dataOffset = some type ∧
      n ≤ bufsize ∧ n = (Header.ofBuffer buffer).messageLength.toNat ∧
      m = (Header.ofBuffer buffer).message type buffer := by
  unfold parseCurrent
  split
  next h => simp; omega
  next h =>
    dsimp only
    split
    next hc => simp [hc]
    next type hc =>
      split
      next hs => simp [hc]; omega
      next hs =>
        simp only [Front.frame.injEq, hc, Option.some.injEq]
        constructor
        · rintro ⟨rfl, rfl⟩
          exact ⟨type, by omega, rfl, by omega, rfl, rfl⟩
        · rintro ⟨_, _, rfl, _, rfl, rfl⟩
          exact ⟨rfl, rfl⟩

theorem parseOld_eq_frame : parseOld buffer bufsize = .frame m n ↔
    ∃ type, checkHeader (Header1.ofBuffer buffer).type (Header1.ofBuffer buffer).messageLength
        (Header1.ofBuffer buffer).dataOffset = some type ∧
      n ≤ bufsize ∧ n = (Header1.ofBuffer buffer).messageLength.toNat ∧
      m = (Header1.ofBuffer buffer).message type buffer := by
  unfold parseOld
  dsimp only
  split
  next hc => simp [hc]
  next type hc =>
    split
    next hs => simp [hc]; omega
    next hs =>
      simp only [Front.frame.injEq, hc, Option.some.injEq]
      constructor
      · rintro ⟨rfl, rfl⟩
        exact ⟨type, rfl, by omega, rfl, rfl⟩
      · rintro ⟨_, rfl, _, rfl, rfl⟩
        exact ⟨rfl, rfl⟩

theorem parseMessage_frame_bounds (h : parseMessage version1Flag buffer bufsize = .frame m n) :
    Header.sizeof ≤ n ∧ n ≤ bufsize := by
  unfold parseMessage at h
  split at h
  next => simp at h
  next =>
    split at h
    next =>
      obtain ⟨type, -, hc, hn, rfl, -⟩ := parseCurrent_eq_frame.mp h
      have hoff := UInt32.le_iff_toNat_le.mp (checkHeader_eq_some.mp hc).2.2
      rw [Header.dataOffset_toNat] at hoff
      exact ⟨by rw [Header.sizeof]; omega, hn⟩
    next =>
      split at h
      next =>
        obtain ⟨type, hc, hn, rfl, -⟩ := parseOld_eq_frame.mp h
        have hoff := UInt32.le_iff_toNat_le.mp (checkHeader_eq_some.mp hc).2.2
        rw [Header1.dataOffset_toNat] at hoff
        exact ⟨by rw [Header.sizeof]; omega, hn⟩
      next => simp at h

theorem Header.message_append {header : Header} {type : MessageType} (more : Bytes)
    (hle : header.dataOffset ≤ header.messageLength)
    (hn : header.messageLength.toNat ≤ buffer.length) :
    header.message type (buffer ++ more) = header.message type buffer := by
  have hoff := UInt32.le_iff_toNat_le.mp hle
  have hdata := header.dataLength_toNat hle
  rw [header.dataOffset_toNat] at hoff
  have h1 := readString_append header.topicOffset header.topicLength.toUInt32 buffer more
    (by rw [header.topicOffset_toNat, UInt16.toNat_toUInt32]; omega)
  have h2 := readString_append header.subtopicOffset header.subtopicLength.toUInt32 buffer more
    (by rw [header.subtopicOffset_toNat, UInt16.toNat_toUInt32]; omega)
  have h3 := readString_append header.sourceOffset header.sourceLength.toUInt32 buffer more
    (by rw [header.sourceOffset_toNat, UInt16.toNat_toUInt32]; omega)
  have h4 := readString_append header.dataOffset header.dataLength buffer more
    (by rw [hdata, header.dataOffset_toNat]; omega)
  simp only [message, h1, h2, h3, h4]

theorem Header1.message_append {header : Header1} {type : MessageType} (more : Bytes)
    (hle : header.dataOffset ≤ header.messageLength)
    (hn : header.messageLength.toNat ≤ buffer.length) :
    header.message type (buffer ++ more) = header.message type buffer := by
  have hoff := UInt32.le_iff_toNat_le.mp hle
  have hdata := header.dataLength_toNat hle
  rw [header.dataOffset_toNat] at hoff
  have h1 := readString_append header.topicOffset header.topicLength.toUInt32 buffer more
    (by rw [header.topicOffset_toNat, UInt16.toNat_toUInt32]; omega)
  have h2 := readString_append header.dataOffset header.dataLength buffer more
    (by rw [hdata, header.dataOffset_toNat]; omega)
  simp only [message, h1, h2]

theorem parseCurrent_append_frame (more : Bytes)
    (h : parseCurrent buffer buffer.length = .frame m n) :
    parseCurrent (buffer ++ more) (buffer ++ more).length = .frame m n := by
  obtain ⟨type, hsize, hc, hn, rfl, rfl⟩ := parseCurrent_eq_frame.mp h
  have hle := (checkHeader_eq_some.mp hc).2.2
  have hh := Header.ofBuffer_append more hsize
  have hlen : (buffer ++ more).length = buffer.length + more.length := List.length_append
  refine parseCurrent_eq_frame.mpr ⟨type, by omega, by rw [hh]; exact hc, by omega, by rw [hh], ?_⟩
  rw [hh, Header.message_append more hle hn]

theorem parseOld_append_frame (more : Bytes) (hsize : Header1.sizeof ≤ buffer.length)
    (h : parseOld buffer buffer.length = .frame m n) :
    parseOld (buffer ++ more) (buffer ++ more).length = .frame m n := by
  obtain ⟨type, hc, hn, rfl, rfl⟩ := parseOld_eq_frame.mp h
  have hle := (checkHeader_eq_some.mp hc).2.2
  have hh := Header1.ofBuffer_append more hsize
  have hlen : (buffer ++ more).length = buffer.length + more.length := List.length_append
  refine parseOld_eq_frame.mpr ⟨type, by rw [hh]; exact hc, by omega, by rw [hh], ?_⟩
  rw [hh, Header1.message_append more hle hn]

theorem parseCurrent_eq_fail {e : Exception} : parseCurrent buffer bufsize = .fail e ↔
    Header.sizeof ≤ bufsize ∧
      checkHeader (Header.ofBuffer buffer).type (Header.ofBuffer buffer).messageLength
        (Header.ofBuffer buffer).dataOffset = none ∧ e = .corruptMessage := by
  unfold parseCurrent
  split
  next h => simp; omega
  next h =>
    dsimp only
    split
    next hc => simp [hc, eq_comm]; omega
    next type hc => split <;> simp [hc]

theorem parseOld_eq_fail {e : Exception} : parseOld buffer bufsize = .fail e ↔
    checkHeader (Header1.ofBuffer buffer).type (Header1.ofBuffer buffer).messageLength
      (Header1.ofBuffer buffer).dataOffset = none ∧ e = .corruptMessage := by
  unfold parseOld
  dsimp only
  split
  next hc => simp [hc, eq_comm]
  next type hc => split <;> simp [hc]

theorem parseCurrent_local (more : Bytes) :
    parseCurrent (buffer ++ more) buffer.length = parseCurrent buffer buffer.length := by
  unfold parseCurrent
  split
  next => rfl
  next hsize =>
    have hh := Header.ofBuffer_append more (by omega : Header.sizeof ≤ buffer.length)
    simp only [hh]
    split
    next => rfl
    next type hc =>
      split
      next => rfl
      next hn =>
        rw [Header.message_append more (checkHeader_eq_some.mp hc).2.2 (by omega)]

theorem parseOld_local (more : Bytes) (hsize : Header1.sizeof ≤ buffer.length) :
    parseOld (buffer ++ more) buffer.length = parseOld buffer buffer.length := by
  unfold parseOld
  have hh := Header1.ofBuffer_append more hsize
  simp only [hh]
  split
  next => rfl
  next type hc =>
    split
    next => rfl
    next hn => rw [Header1.message_append more (checkHeader_eq_some.mp hc).2.2 (by omega)]

/-- The parser reads nothing behind the size it is given. -/
theorem parseMessage_local (more : Bytes) :
    parseMessage version1Flag (buffer ++ more) buffer.length =
      parseMessage version1Flag buffer buffer.length := by
  unfold parseMessage
  split
  next => rfl
  next hsize =>
    have hmagic := Header.magic_ofBuffer_append more
      (by rw [Header1.sizeof] at hsize; omega : 4 ≤ buffer.length)
    rw [hmagic, parseCurrent_local, parseOld_local more (by omega)]

/-- No more than the bytes of a frame are needed to recognise it. -/
theorem parseMessage_take (hbufsize : bufsize ≤ buffer.length)
    (h : parseMessage version1Flag buffer bufsize = .frame m n) :
    parseMessage version1Flag (buffer.take n) n = .frame m n := by
  obtain ⟨hsize, hle⟩ := parseMessage_frame_bounds h
  have hlen : (buffer.take n).length = n := List.length_take_of_le (by omega)
  have hlocal : parseMessage version1Flag (buffer.take n ++ buffer.drop n)
      (buffer.take n).length = _ := parseMessage_local (buffer.drop n)
  rw [List.take_append_drop, hlen] at hlocal
  rw [← hlocal]
  rw [Header.sizeof] at hsize
  unfold parseMessage at h ⊢
  rw [if_neg (by rw [Header1.sizeof]; omega)]
  split at h
  next => cases h
  next =>
    split at h
    next hmagic =>
      rw [if_pos hmagic]
      obtain ⟨type, -, hc, -, hn, hm⟩ := parseCurrent_eq_frame.mp h
      exact parseCurrent_eq_frame.mpr ⟨type, by rw [Header.sizeof]; omega, hc, le_rfl, hn, hm⟩
    next hmagic =>
      rw [if_neg hmagic]
      split at h
      next hversion =>
        rw [if_pos hversion]
        obtain ⟨type, hc, -, hn, hm⟩ := parseOld_eq_frame.mp h
        exact parseOld_eq_frame.mpr ⟨type, hc, le_rfl, hn, hm⟩
      next => cases h

theorem parseMessage_append_frame (more : Bytes)
    (h : parseMessage version1Flag buffer buffer.length = .frame m n) :
    parseMessage version1Flag (buffer ++ more) (buffer ++ more).length = .frame m n := by
  have hlen : (buffer ++ more).length = buffer.length + more.length := List.length_append
  unfold parseMessage at h ⊢
  split at h
  next => simp at h
  next hsize =>
    have hmagic := Header.magic_ofBuffer_append more
      (by rw [Header1.sizeof] at hsize; omega : 4 ≤ buffer.length)
    rw [if_neg (by omega), hmagic]
    split at h
    next hm => rw [if_pos hm]; exact parseCurrent_append_frame more h
    next hm =>
      rw [if_neg hm]
      split at h
      next hv => rw [if_pos hv]; exact parseOld_append_frame more (by omega) h
      next => simp at h

theorem parseMessage_append_fail {e : Exception} (more : Bytes)
    (h : parseMessage version1Flag buffer buffer.length = .fail e) :
    parseMessage version1Flag (buffer ++ more) (buffer ++ more).length = .fail e := by
  have hlen : (buffer ++ more).length = buffer.length + more.length := List.length_append
  unfold parseMessage at h ⊢
  split at h
  next => simp at h
  next hsize =>
    have hmagic := Header.magic_ofBuffer_append more
      (by rw [Header1.sizeof] at hsize; omega : 4 ≤ buffer.length)
    rw [if_neg (by omega), hmagic]
    split at h
    next hm =>
      rw [if_pos hm]
      obtain ⟨hs, hc, he⟩ := parseCurrent_eq_fail.mp h
      have hh := Header.ofBuffer_append more hs
      exact parseCurrent_eq_fail.mpr ⟨by omega, by rw [hh]; exact hc, he⟩
    next hm =>
      rw [if_neg hm]
      split at h
      next hv =>
        rw [if_pos hv]
        obtain ⟨hc, he⟩ := parseOld_eq_fail.mp h
        exact parseOld_eq_fail.mpr
          ⟨by rw [Header1.ofBuffer_append more (by omega)]; exact hc, he⟩
      next hv => rw [if_neg hv]; exact h

end Verdicts

namespace DataMessage

variable {version1Flag : Bool} {m : DataMessage}

theorem PartsFit.ofBuffer_frame (h : m.PartsFit) : Header.ofBuffer m.frame = m.header := by
  rw [h.frame_eq, List.append_assoc, List.append_assoc, List.append_assoc,
    Header.ofBuffer_toBytes]

theorem FitsHeader.message_frame (h : m.FitsHeader) : m.header.message m.type m.frame = m := by
  obtain ⟨h1, h2, h3⟩ := h.header_lengths
  have hh : m.header.toBytes.length = 40 := m.header.toBytes_length
  have hoff := h.dataOffset_add
  have hle : m.header.dataOffset ≤ m.header.messageLength := UInt32.le_iff_toNat_le.mpr (by omega)
  have hdata := m.header.dataLength_toNat hle
  have hmain : readString m.frame m.header.topicOffset m.header.topicLength.toUInt32 =
      m.topic.main := by
    have hsplit : m.frame =
        m.header.toBytes ++ m.topic.main ++ (m.topic.sub ++ m.source ++ m.data) := by
      rw [h.frame_eq]; simp only [List.append_assoc]
    rw [hsplit]
    exact readString_part (by rw [Header.topicOffset_toNat, hh]) (by simp [h1])
  have hsub : readString m.frame m.header.subtopicOffset m.header.subtopicLength.toUInt32 =
      m.topic.sub := by
    have hsplit : m.frame =
        m.header.toBytes ++ m.topic.main ++ m.topic.sub ++ (m.source ++ m.data) := by
      rw [h.frame_eq]; simp only [List.append_assoc]
    rw [hsplit]
    exact readString_part (by rw [Header.subtopicOffset_toNat, List.length_append, hh, h1])
      (by simp [h2])
  have hsource : readString m.frame m.header.sourceOffset m.header.sourceLength.toUInt32 =
      m.source := by
    rw [h.frame_eq]
    exact readString_part
      (by rw [Header.sourceOffset_toNat, List.length_append, List.length_append, hh, h1, h2])
      (by simp [h3])
  have hbody : readString m.frame m.header.dataOffset m.header.dataLength = m.data := by
    rw [h.frame_eq, ← List.append_nil (_ ++ m.data)]
    exact readString_part
      (by rw [Header.dataOffset_toNat, List.length_append, List.length_append, List.length_append,
        hh, h1, h2, h3])
      (by omega)
  simp only [Header.message, hmain, hsub, hsource, hbody]
  rfl

theorem Encodable.checkHeader_header (h : m.Encodable) :
    checkHeader m.header.type m.header.messageLength m.header.dataOffset = some m.type := by
  have hoff := h.dataOffset_add
  exact checkHeader_eq_some.mpr
    ⟨MessageType.ofChar_toChar m.type, h.validType, UInt32.le_iff_toNat_le.mpr (by omega)⟩

theorem Encodable.parseMessage_frame (h : m.Encodable) (version1Flag : Bool) :
    parseMessage version1Flag m.frame m.frame.length = .frame m m.frame.length := by
  have hsize := sizeof_le_messageLength m
  have hlen := h.frame_length
  have hhead := h.ofBuffer_frame
  have hmlen := h.header_messageLength
  rw [Header.sizeof] at hsize
  unfold parseMessage
  have hmagic : m.header.magic = Header.magicNumber := rfl
  rw [if_neg (by rw [Header1.sizeof]; omega), hhead, if_pos hmagic]
  refine parseCurrent_eq_frame.mpr ⟨m.type, by rw [Header.sizeof]; omega, ?_, le_rfl, ?_, ?_⟩
  · rw [hhead]; exact h.checkHeader_header
  · rw [hhead]; omega
  · rw [hhead]; exact h.message_frame.symm

/-- A cut frame is waited for, wherever the cut is. -/
theorem Encodable.parseMessage_cut (h : m.Encodable) (version1Flag : Bool) {xs : Bytes}
    (hcut : xs <+: m.frame) (hshort : xs.length < m.frame.length) :
    parseMessage version1Flag xs xs.length = .incomplete := by
  obtain ⟨more, hmore⟩ := hcut
  have hlen := h.frame_length
  have hmlen := h.header_messageLength
  unfold parseMessage
  split
  next => rfl
  next hsize =>
    have hmagic := Header.magic_ofBuffer_append more
      (by rw [Header1.sizeof] at hsize; omega : 4 ≤ xs.length)
    rw [hmore, h.ofBuffer_frame] at hmagic
    rw [← hmagic, if_pos (show m.header.magic = Header.magicNumber from rfl)]
    unfold parseCurrent
    split
    next => rfl
    next hfull =>
      have hhead := Header.ofBuffer_append more (by omega : Header.sizeof ≤ xs.length)
      rw [hmore, h.ofBuffer_frame] at hhead
      simp only [← hhead, h.checkHeader_header]
      rw [if_pos (by omega)]

end DataMessage

theorem parseMessage_nil (version1Flag : Bool) :
    parseMessage version1Flag [] ([] : Bytes).length = .incomplete := rfl

theorem parseMessage_frame_pos {version1Flag : Bool} {buffer : Bytes} {m : DataMessage}
    {n : Nat} (h : parseMessage version1Flag buffer buffer.length = .frame m n) : 0 < n := by
  have hsize := (parseMessage_frame_bounds h).1
  rw [Header.sizeof] at hsize
  omega

def framer (version1Flag : Bool) : Framer UInt8 DataMessage Exception where
  front buffer := parseMessage version1Flag buffer buffer.length
  front_nil := parseMessage_nil version1Flag
  frame_pos h := parseMessage_frame_pos h
  frame_le h := (parseMessage_frame_bounds h).2
  frame_append more h := parseMessage_append_frame more h
  fail_append more h := parseMessage_append_fail more h

/-- The parser with `appendTo` as its encoder. -/
def codec (version1Flag : Bool) : Codec UInt8 DataMessage Exception where
  toFramer := framer version1Flag
  Encodable := DataMessage.Encodable
  encode := DataMessage.frame
  front_encode h := h.parseMessage_frame version1Flag
  front_cut h hcut hshort := h.parseMessage_cut version1Flag hcut hshort

@[simp] theorem framer_front (version1Flag : Bool) (buffer : Bytes) :
    (framer version1Flag).front buffer = parseMessage version1Flag buffer buffer.length := rfl

def frames (ms : List DataMessage) : Bytes := (ms.map DataMessage.frame).flatten

@[simp] theorem frames_nil : frames [] = [] := rfl

@[simp] theorem frames_cons (m : DataMessage) (ms : List DataMessage) :
    frames (m :: ms) = m.frame ++ frames ms := by
  simp [frames]

@[simp] theorem frames_append (ms ns : List DataMessage) :
    frames (ms ++ ns) = frames ms ++ frames ns := by
  simp [frames]

theorem drain_frame_append (version1Flag : Bool) {m : DataMessage} (hm : m.Encodable)
    (more : Bytes) :
    (framer version1Flag).drain (m.frame ++ more) =
      ((framer version1Flag).drain more).prepend [m] :=
  Codec.drain_encode_append (C := codec version1Flag) hm more

theorem drain_frames (version1Flag : Bool) {ms : List DataMessage}
    (hms : ∀ m ∈ ms, m.Encodable) :
    (framer version1Flag).drain (frames ms) = ⟨ms, [], none⟩ :=
  Codec.drain_encodeAll (C := codec version1Flag) hms

theorem foldl_appendTo (buffer : Bytes) (ms : List DataMessage) :
    ms.foldl (fun b m => m.appendTo b) buffer = buffer ++ frames ms := by
  induction ms generalizing buffer with
  | nil => simp
  | cons m ms ih => rw [List.foldl_cons, ih, DataMessage.appendTo, frames_cons, List.append_assoc]

end TntPub

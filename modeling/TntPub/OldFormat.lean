import TntPub.StreamDecoding

namespace TntPub

open Framing

/-- The members written at their offsets, with the padding at the end. -/
def Header1.toBytes (h : Header1) (padding : Bytes) : Bytes :=
  LittleEndian.encode 4 h.messageLength.toNat ++ LittleEndian.encode 4 h.createDateJulian.toNat
    ++ LittleEndian.encode 8 h.createTimeUSecs.toNat ++ LittleEndian.encode 8 h.serial.toNat
    ++ LittleEndian.encode 2 h.topicLength.toNat ++ [h.type] ++ padding

theorem Header1.ofBuffer_toBytes (h : Header1) (padding more : Bytes) :
    ofBuffer (h.toBytes padding ++ more) = h := by
  have b1 := h.messageLength.toNat_lt
  have b2 := h.createDateJulian.toNat_lt
  have b3 := h.createTimeUSecs.toNat_lt
  have b4 := h.serial.toNat_lt
  have b5 := h.topicLength.toNat_lt
  simp (disch := omega) only [ofBuffer, toBytes, List.append_assoc, List.cons_append,
    List.nil_append, readField_skip_encode, readField_encode, readField_byte, Nat.reduceSub,
    UInt32.ofNat_toNat, UInt64.ofNat_toNat, UInt16.ofNat_toNat, UInt8.ofNat_toNat]

theorem Header1.magic_toBytes (h : Header1) (padding more : Bytes) :
    (Header.ofBuffer (h.toBytes padding ++ more)).magic = h.messageLength := by
  have b1 := h.messageLength.toNat_lt
  simp (disch := omega) only [Header.ofBuffer, toBytes, List.append_assoc, readField_encode,
    UInt32.ofNat_toNat]

/-- A frame of the old format: the header with the topic and the data directly behind it. -/
structure OldFrame where
  topic : Bytes
  type : MessageType
  serial : UInt64
  createDateTime : UtcDateTime
  data : Bytes
  padding : Bytes
  topic_le : topic.length ≤ 65535
  validType : isValidType type = true
  padding_length : padding.length = 5
  length_lt : Header1.sizeof + topic.length + data.length < 2 ^ 32
  length_ne : Header1.sizeof + topic.length + data.length ≠ Header.magicNumber.toNat

namespace OldFrame

variable (f : OldFrame)

def message : DataMessage where
  type := f.type
  topic := { main := f.topic }
  serial := f.serial
  createDateTime := f.createDateTime
  data := f.data

def header : Header1 where
  messageLength := UInt32.ofNat (Header1.sizeof + f.topic.length + f.data.length)
  createDateJulian := f.createDateTime.julian
  createTimeUSecs := f.createDateTime.totalUSecs
  serial := f.serial
  topicLength := UInt16.ofNat f.topic.length
  type := f.type.toChar

def bytes : Bytes := f.header.toBytes f.padding ++ f.topic ++ f.data

/-- What is read from the frame: the topic begins eight bytes too late. -/
def shifted : DataMessage :=
  { f.message with
    topic := { main := ((f.topic ++ f.data).drop 8).take f.topic.length }
    data := f.data.drop 8 }

variable {f}

theorem header_messageLength :
    f.header.messageLength.toNat = Header1.sizeof + f.topic.length + f.data.length := by
  simp only [header, UInt32.toNat_ofNat', Nat.mod_eq_of_lt f.length_lt]

theorem header_topicLength : f.header.topicLength.toNat = f.topic.length := by
  have h := f.topic_le
  simp only [header, UInt16.toNat_ofNat']
  omega

theorem toBytes_length : (f.header.toBytes f.padding).length = Header1.sizeof := by
  simp [Header1.toBytes, f.padding_length, Header1.sizeof]

theorem bytes_length : f.bytes.length = Header1.sizeof + f.topic.length + f.data.length := by
  simp only [bytes, List.length_append, toBytes_length]

theorem ofBuffer_bytes : Header1.ofBuffer f.bytes = f.header := by
  rw [bytes, List.append_assoc, Header1.ofBuffer_toBytes]

theorem magic_bytes : (Header.ofBuffer f.bytes).magic ≠ Header.magicNumber := by
  rw [bytes, List.append_assoc, Header1.magic_toBytes]
  intro h
  exact f.length_ne (header_messageLength.symm.trans (congrArg UInt32.toNat h))

theorem dataOffset_toNat : f.header.dataOffset.toNat = 40 + f.topic.length := by
  rw [Header1.dataOffset_toNat, header_topicLength]

/-- The data offset is computed as if the header had the size of the current format. -/
theorem dataOffset_le_iff : f.header.dataOffset ≤ f.header.messageLength ↔ 8 ≤ f.data.length := by
  rw [UInt32.le_iff_toNat_le, dataOffset_toNat, header_messageLength, Header1.sizeof]
  omega

theorem drop_bytes (n : Nat) : f.bytes.drop (40 + n) = (f.topic ++ f.data).drop (8 + n) := by
  have hlen : (f.header.toBytes f.padding).length = 32 := toBytes_length
  rw [bytes, List.append_assoc, List.drop_append, List.drop_eq_nil_of_le (by omega),
    List.nil_append, hlen]
  congr 1
  omega

theorem message_bytes (h : 8 ≤ f.data.length) : f.header.message f.type f.bytes = f.shifted := by
  have hdata := f.header.dataLength_toNat (dataOffset_le_iff.mpr h)
  rw [dataOffset_toNat, header_messageLength, Header1.sizeof] at hdata
  have htopic : readString f.bytes f.header.topicOffset f.header.topicLength.toUInt32 =
      ((f.topic ++ f.data).drop 8).take f.topic.length := by
    rw [readString, Header1.topicOffset_toNat, UInt16.toNat_toUInt32, header_topicLength]
    exact congrArg (List.take _) (drop_bytes 0)
  have hbody : readString f.bytes f.header.dataOffset f.header.dataLength = f.data.drop 8 := by
    rw [readString, dataOffset_toNat, drop_bytes, Nat.add_comm 8, ← List.drop_drop, List.drop_left]
    exact List.take_of_length_le (by rw [List.length_drop]; omega)
  simp only [Header1.message, htopic, hbody]
  rfl

theorem checkHeader_header : checkHeader f.header.type f.header.messageLength f.header.dataOffset =
    if 8 ≤ f.data.length then some f.type else none := by
  have htype : MessageType.ofChar f.header.type = some f.type := MessageType.ofChar_toChar f.type
  split
  next h => exact checkHeader_eq_some.mpr ⟨htype, f.validType, dataOffset_le_iff.mpr h⟩
  next h =>
    cases hc : checkHeader f.header.type f.header.messageLength f.header.dataOffset with
    | none => rfl
    | some t => exact absurd (dataOffset_le_iff.mp (checkHeader_eq_some.mp hc).2.2) h

/-- The parser takes the whole frame for the shifted message, or rejects it. -/
theorem parseMessage_bytes (f : OldFrame) : parseMessage true f.bytes f.bytes.length =
    if 8 ≤ f.data.length then .frame f.shifted f.bytes.length else .fail .corruptMessage := by
  have hlen : f.bytes.length = _ := bytes_length
  have hcheck : checkHeader f.header.type _ _ = _ := checkHeader_header
  have hmlen : f.header.messageLength.toNat = _ := header_messageLength
  rw [parseMessage, if_neg (by omega), if_neg magic_bytes, if_pos rfl]
  split
  next h =>
    rw [if_pos h] at hcheck
    exact parseOld_eq_frame.mpr ⟨f.type, by rw [ofBuffer_bytes]; exact hcheck, le_rfl,
      by rw [ofBuffer_bytes]; omega, by rw [ofBuffer_bytes, message_bytes h]⟩
  next h =>
    rw [if_neg h] at hcheck
    exact parseOld_eq_fail.mpr ⟨by rw [ofBuffer_bytes]; exact hcheck, rfl⟩

theorem shifted_ne_message (h : 8 ≤ f.data.length) : f.shifted ≠ f.message := by
  intro heq
  have hlen := congrArg (fun m => m.data.length) heq
  simp only [shifted, message, List.length_drop] at hlen
  omega

def stream (fs : List OldFrame) : Bytes := (fs.map bytes).flatten

theorem drain_bytes (f : OldFrame) (more : Bytes) : (framer true).drain (f.bytes ++ more) =
    if 8 ≤ f.data.length then ((framer true).drain more).prepend [f.shifted]
    else ⟨[], f.bytes ++ more, some .corruptMessage⟩ := by
  split
  next h =>
    have hframe : (framer true).front f.bytes = .frame f.shifted f.bytes.length := by
      rw [framer_front, parseMessage_bytes, if_pos h]
    rw [Framer.drain_of_frame ((framer true).frame_append more hframe), List.drop_left]
  next h =>
    have hfail : (framer true).front f.bytes = .fail .corruptMessage := by
      rw [framer_front, parseMessage_bytes, if_neg h]
    exact Framer.drain_of_fail ((framer true).fail_append more hfail)

theorem processBuffer_ne (f : OldFrame) :
    processBuffer true record noSlots f.bytes f.bytes.length [] ≠
      .ok f.bytes.length [f.message] := by
  intro h
  have hparse := parseMessage_bytes f
  by_cases hdata : 8 ≤ f.data.length
  · rw [if_pos hdata] at hparse
    rw [Deserializer.processBuffer_frame hparse] at h
    have hmessages : [f.shifted] = [f.message] := (EStateM.Result.ok.inj h).2
    exact shifted_ne_message hdata (List.cons.inj hmessages).1
  · rw [if_neg hdata] at hparse
    simp only [processBuffer, hparse] at h
    cases h

theorem drain_stream_ne (f : OldFrame) (fs : List OldFrame) (rest : Bytes) :
    (framer true).drain (stream (f :: fs)) ≠ ⟨(f :: fs).map message, rest, none⟩ := by
  have hstream : stream (f :: fs) = f.bytes ++ stream fs := by simp [stream]
  rw [hstream, drain_bytes]
  intro h
  by_cases hdata : 8 ≤ f.data.length
  · rw [if_pos hdata] at h
    have hmessages := congrArg Drained.messages h
    exact shifted_ne_message hdata (List.cons.inj hmessages).1
  · rw [if_neg hdata] at h
    exact absurd (congrArg Drained.error h) (by simp)

/-- No frame of the old format is decoded as it was meant, alone or before others. -/
theorem not_decoded (f : OldFrame) (fs : List OldFrame) :
    processBuffer true record noSlots f.bytes f.bytes.length [] ≠
        .ok f.bytes.length [f.message] ∧
      ∀ chunks d, chunks.flatten = stream (f :: fs) → Deserializer.StaysBelow true [] chunks →
        outcome (Deserializer.advanceChunks record noSlots chunks (⟨[], true⟩, [])) ≠
          .ok d ((f :: fs).map message) := by
  refine ⟨processBuffer_ne f, fun chunks d hchunks hbelow h => ?_⟩
  obtain ⟨hdrain, -⟩ := (advanceChunks_record_iff hbelow).mp h
  rw [hchunks] at hdrain
  exact drain_stream_ne f fs d.inputData hdrain

/-- The data "hello world" to the topic "a". -/
def sample : OldFrame where
  topic := [0x61]
  type := .plainData
  serial := 0
  createDateTime := ⟨0, 0⟩
  data := [0x68, 0x65, 0x6c, 0x6c, 0x6f, 0x20, 0x77, 0x6f, 0x72, 0x6c, 0x64]
  padding := [0, 0, 0, 0, 0]
  topic_le := by decide
  validType := rfl
  padding_length := rfl
  length_lt := by decide
  length_ne := by decide

theorem not_decoded_sample :
    outcome (Deserializer.advanceChunks record noSlots [sample.bytes] (⟨[], true⟩, [])) ≠
      .ok ⟨[], true⟩ [sample.message] :=
  (not_decoded sample []).2 [sample.bytes] ⟨[], true⟩ rfl
    (Deserializer.staysBelow_of_total (by decide +kernel))

/-- The topic of the sample is read as "o" and its data as "rld". -/
theorem not_forall_decoded :
    ¬ ∀ f : OldFrame, processBuffer true record noSlots f.bytes f.bytes.length [] =
      .ok f.bytes.length [f.message] := by
  intro h
  have hsample : processBuffer true record noSlots sample.bytes sample.bytes.length [] =
      .ok 44 [{ sample.message with topic := { main := [0x6f] }, data := [0x72, 0x6c, 0x64] }] := by
    rfl
  rw [h sample] at hsample
  exact absurd (EStateM.Result.ok.inj hsample).2 (by decide)

end OldFrame

end TntPub

import TntPub.Deserializer
import Mathlib.Data.List.Infix

namespace TntPub

theorem readField_append {width offset : Nat} {buffer : Bytes} (more : Bytes)
    (h : offset + width ≤ buffer.length) :
    readField width (buffer ++ more) offset = readField width buffer offset := by
  have hdrop : offset ≤ buffer.length := by omega
  have htake : width ≤ (buffer.drop offset).length := by simp only [List.length_drop]; omega
  rw [readField, readField, List.drop_append_of_le_length hdrop,
    List.take_append_of_le_length htake]

theorem readField_skip {width offset : Nat} (pre : Bytes) {post : Bytes}
    (h : pre.length ≤ offset) :
    readField width (pre ++ post) offset = readField width post (offset - pre.length) := by
  rw [readField, readField, List.drop_append, List.drop_eq_nil_of_le h, List.nil_append]

theorem readField_skip_encode {width offset skipped n : Nat} {post : Bytes}
    (h : skipped ≤ offset) :
    readField width (LittleEndian.encode skipped n ++ post) offset =
      readField width post (offset - skipped) := by
  have hlen := LittleEndian.encode_length skipped n
  rw [readField_skip _ (by omega), hlen]

theorem readField_skip_byte {width offset : Nat} {b : UInt8} {post : Bytes} (h : 1 ≤ offset) :
    readField width (b :: post) offset = readField width post (offset - 1) :=
  readField_skip [b] h

theorem readField_encode {width n : Nat} {post : Bytes} (h : n < 256 ^ width) :
    readField width (LittleEndian.encode width n ++ post) 0 = n := by
  have hlen : (LittleEndian.encode width n).length = width := LittleEndian.encode_length width n
  rw [readField, List.drop_zero, List.take_left' hlen, LittleEndian.decode_encode_of_lt h]

theorem readField_byte {b : UInt8} {post : Bytes} : readField 1 (b :: post) 0 = b.toNat := by
  simp [readField, LittleEndian.decode]

theorem readString_append (offset length : UInt32) (buffer more : Bytes)
    (h : offset.toNat + length.toNat ≤ buffer.length) :
    readString (buffer ++ more) offset length = readString buffer offset length := by
  have hdrop : offset.toNat ≤ buffer.length := by omega
  have htake : length.toNat ≤ (buffer.drop offset.toNat).length := by
    simp only [List.length_drop]; omega
  rw [readString, readString, List.drop_append_of_le_length hdrop,
    List.take_append_of_le_length htake]

theorem readString_part {pre part post : Bytes} {offset length : UInt32}
    (ho : offset.toNat = pre.length) (hl : length.toNat = part.length) :
    readString (pre ++ part ++ post) offset length = part := by
  rw [readString, ho, hl, List.append_assoc, List.drop_left, List.take_left]

theorem writeAt_part {pre old post src : Bytes} {offset : Nat}
    (ho : offset = pre.length) (hl : src.length = old.length) :
    writeAt (pre ++ (old ++ post)) offset src = pre ++ (src ++ post) := by
  subst ho
  rw [writeAt, List.take_left, hl, ← List.append_assoc pre old post,
    ← List.length_append, List.drop_left, List.append_assoc]

namespace Header

@[simp] theorem toBytes_length (h : Header) : h.toBytes.length = sizeof := by
  simp [toBytes, sizeof]

theorem topicOffset_toNat (h : Header) : h.topicOffset.toNat = 40 := rfl

theorem subtopicOffset_toNat (h : Header) :
    h.subtopicOffset.toNat = 40 + h.topicLength.toNat := by
  have h1 := h.topicLength.toNat_lt
  simp only [subtopicOffset, UInt32.toNat_add, topicOffset_toNat, UInt16.toNat_toUInt32]
  omega

theorem sourceOffset_toNat (h : Header) :
    h.sourceOffset.toNat = 40 + h.topicLength.toNat + h.subtopicLength.toNat := by
  have h1 := h.topicLength.toNat_lt
  have h2 := h.subtopicLength.toNat_lt
  simp only [sourceOffset, UInt32.toNat_add, subtopicOffset_toNat, UInt16.toNat_toUInt32]
  omega

/-- None of the offset computations wraps: three 16-bit lengths stay far below 32 bits. -/
theorem dataOffset_toNat (h : Header) :
    h.dataOffset.toNat =
      40 + h.topicLength.toNat + h.subtopicLength.toNat + h.sourceLength.toNat := by
  have h1 := h.topicLength.toNat_lt
  have h2 := h.subtopicLength.toNat_lt
  have h3 := h.sourceLength.toNat_lt
  simp only [dataOffset, UInt32.toNat_add, sourceOffset_toNat, UInt16.toNat_toUInt32]
  omega

theorem dataLength_toNat {h : Header} (hle : h.dataOffset ≤ h.messageLength) :
    h.dataLength.toNat = h.messageLength.toNat - h.dataOffset.toNat :=
  UInt32.toNat_sub_of_le _ _ hle

theorem ofBuffer_append {buffer : Bytes} (more : Bytes) (h : sizeof ≤ buffer.length) :
    ofBuffer (buffer ++ more) = ofBuffer buffer := by
  simp only [sizeof] at h
  simp only [ofBuffer, readField_append more (by omega : 0 + 4 ≤ buffer.length),
    readField_append more (by omega : 4 + 4 ≤ buffer.length),
    readField_append more (by omega : 8 + 4 ≤ buffer.length),
    readField_append more (by omega : 16 + 8 ≤ buffer.length),
    readField_append more (by omega : 24 + 8 ≤ buffer.length),
    readField_append more (by omega : 32 + 2 ≤ buffer.length),
    readField_append more (by omega : 34 + 2 ≤ buffer.length),
    readField_append more (by omega : 36 + 2 ≤ buffer.length),
    readField_append more (by omega : 38 + 1 ≤ buffer.length)]

theorem magic_ofBuffer_append {buffer : Bytes} (more : Bytes) (h : 4 ≤ buffer.length) :
    (ofBuffer (buffer ++ more)).magic = (ofBuffer buffer).magic := by
  simp only [ofBuffer, readField_append more (by omega : 0 + 4 ≤ buffer.length)]

theorem ofBuffer_toBytes (h : Header) (more : Bytes) : ofBuffer (h.toBytes ++ more) = h := by
  have b1 := h.magic.toNat_lt
  have b2 := h.messageLength.toNat_lt
  have b3 := h.createDateJulian.toNat_lt
  have b4 := h.createTimeUSecs.toNat_lt
  have b5 := h.serial.toNat_lt
  have b6 := h.topicLength.toNat_lt
  have b7 := h.subtopicLength.toNat_lt
  have b8 := h.sourceLength.toNat_lt
  simp (disch := omega) only [ofBuffer, toBytes, List.append_assoc, List.cons_append,
    List.nil_append, readField_skip_encode, readField_skip_byte, readField_encode, readField_byte,
    Nat.reduceSub, UInt32.ofNat_toNat, UInt64.ofNat_toNat, UInt16.ofNat_toNat, UInt8.ofNat_toNat]

end Header

namespace Header1

theorem topicOffset_toNat (h : Header1) : h.topicOffset.toNat = 40 := rfl

theorem dataOffset_toNat (h : Header1) : h.dataOffset.toNat = 40 + h.topicLength.toNat := by
  have h1 := h.topicLength.toNat_lt
  simp only [dataOffset, UInt32.toNat_add, topicOffset_toNat, UInt16.toNat_toUInt32]
  omega

theorem dataLength_toNat {h : Header1} (hle : h.dataOffset ≤ h.messageLength) :
    h.dataLength.toNat = h.messageLength.toNat - h.dataOffset.toNat :=
  UInt32.toNat_sub_of_le _ _ hle

theorem ofBuffer_append {buffer : Bytes} (more : Bytes) (h : sizeof ≤ buffer.length) :
    ofBuffer (buffer ++ more) = ofBuffer buffer := by
  simp only [sizeof] at h
  simp only [ofBuffer, readField_append more (by omega : 0 + 4 ≤ buffer.length),
    readField_append more (by omega : 4 + 4 ≤ buffer.length),
    readField_append more (by omega : 8 + 8 ≤ buffer.length),
    readField_append more (by omega : 16 + 8 ≤ buffer.length),
    readField_append more (by omega : 24 + 2 ≤ buffer.length),
    readField_append more (by omega : 26 + 1 ≤ buffer.length)]

end Header1

end TntPub

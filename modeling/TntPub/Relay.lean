import TntPub.FrameLimits
import TntPub.OnInput

namespace TntPub

theorem MessageType.toChar_of_ofChar {c : UInt8} {t : MessageType} (h : ofChar c = some t) :
    t.toChar = c := by
  have hall : ∀ n < 256, (ofChar (UInt8.ofNat n)).all fun t => t.toChar == UInt8.ofNat n := by
    decide +kernel
  have hc := hall c.toNat c.toNat_lt
  rw [UInt8.ofNat_toNat, h] at hc
  simpa using hc

/-- The bytes between two offsets of a buffer. -/
def slice (buffer : Bytes) (offset width : Nat) : Bytes := (buffer.drop offset).take width

section Slices

variable {buffer : Bytes} {offset width n : Nat}

theorem slice_length (h : offset + width ≤ buffer.length) :
    (slice buffer offset width).length = width := by
  simp only [slice, List.length_take, List.length_drop]
  omega

theorem slice_add (buffer : Bytes) (offset width width' : Nat) :
    slice buffer offset (width + width') =
      slice buffer offset width ++ slice buffer (offset + width) width' := by
  rw [slice, slice, slice, List.take_add, List.drop_drop]

theorem readField_lt (width : Nat) (buffer : Bytes) (offset : Nat) :
    readField width buffer offset < 256 ^ width := by
  have hlt := LittleEndian.decode_lt ((buffer.drop offset).take width)
  have hle : ((buffer.drop offset).take width).length ≤ width := by
    simp only [List.length_take]
    omega
  exact hlt.trans_le (Nat.pow_le_pow_right (by omega) hle)

theorem encode_readField (h : offset + width ≤ buffer.length) :
    LittleEndian.encode width (readField width buffer offset) = slice buffer offset width := by
  have hlen : ((buffer.drop offset).take width).length = width := slice_length h
  have hencode := LittleEndian.encode_decode ((buffer.drop offset).take width)
  rw [hlen] at hencode
  exact hencode

end Slices

namespace Header

def clearPadding (bytes : Bytes) : Bytes := writeAt (writeAt bytes 12 [0, 0, 0, 0]) 39 [0]

def setSerial (serial : UInt64) (bytes : Bytes) : Bytes :=
  writeAt bytes 24 (LittleEndian.encode 8 serial.toNat)

theorem clearPadding_take {buffer : Bytes} {n : Nat} (hn : 40 ≤ n) (hlen : n ≤ buffer.length) :
    clearPadding (buffer.take n) =
      slice buffer 0 12 ++ [0, 0, 0, 0] ++ slice buffer 16 23 ++ [0] ++
        slice buffer 40 (n - 40) := by
  have hsplit : buffer.take n =
      slice buffer 0 12 ++ (slice buffer 12 4 ++
        (slice buffer 16 23 ++ (slice buffer 39 1 ++ slice buffer 40 (n - 40)))) := by
    have hwhole : buffer.take n = slice buffer 0 n := rfl
    rw [hwhole, ← slice_add buffer 39, ← slice_add buffer 16, ← slice_add buffer 12,
      ← slice_add buffer 0]
    congr 1
    omega
  have h12 : (slice buffer 0 12).length = 12 := slice_length (by omega)
  have h4 : (slice buffer 12 4).length = 4 := slice_length (by omega)
  have h23 : (slice buffer 16 23).length = 23 := slice_length (by omega)
  have h1 : (slice buffer 39 1).length = 1 := slice_length (by omega)
  rw [clearPadding, hsplit, writeAt_part h12.symm (by rw [h4]; rfl), ← List.append_assoc,
    ← List.append_assoc, writeAt_part (by simp [h12, h23]) (by rw [h1]; rfl)]
  simp only [List.append_assoc]

/-- Writing the fields back gives the bytes they were read from, but for the padding. -/
theorem toBytes_ofBuffer {buffer : Bytes} (hlen : 40 ≤ buffer.length) :
    (ofBuffer buffer).toBytes =
      slice buffer 0 12 ++ [0, 0, 0, 0] ++ slice buffer 16 23 ++ [0] := by
  have h12 : slice buffer 0 12 = slice buffer 0 4 ++ slice buffer 4 4 ++ slice buffer 8 4 := by
    rw [← slice_add buffer 0, ← slice_add buffer 0]
  have h23 : slice buffer 16 23 = slice buffer 16 8 ++ slice buffer 24 8 ++ slice buffer 32 2 ++
      slice buffer 34 2 ++ slice buffer 36 2 ++ slice buffer 38 1 := by
    rw [← slice_add buffer 16, ← slice_add buffer 16, ← slice_add buffer 16, ← slice_add buffer 16,
      ← slice_add buffer 16]
  have htype : LittleEndian.encode 1 (readField 1 buffer 38) = slice buffer 38 1 :=
    encode_readField (by omega)
  have hbyte : [UInt8.ofNat (readField 1 buffer 38)] =
      LittleEndian.encode 1 (readField 1 buffer 38) := rfl
  have f32 (offset : Nat) : (UInt32.ofNat (readField 4 buffer offset)).toNat =
      readField 4 buffer offset :=
    UInt32.toNat_ofNat_of_lt' (readField_lt 4 buffer offset)
  have f64 (offset : Nat) : (UInt64.ofNat (readField 8 buffer offset)).toNat =
      readField 8 buffer offset :=
    UInt64.toNat_ofNat_of_lt' (readField_lt 8 buffer offset)
  have f16 (offset : Nat) : (UInt16.ofNat (readField 2 buffer offset)).toNat =
      readField 2 buffer offset :=
    UInt16.toNat_ofNat_of_lt' (readField_lt 2 buffer offset)
  rw [h12, h23]
  simp (disch := omega) only [toBytes, ofBuffer, f32, f64, f16, encode_readField, hbyte,
    htype, List.append_assoc]

end Header

namespace DataMessage

variable {version1Flag : Bool} {buffer : Bytes} {bufsize n : Nat} {m : DataMessage}

/-- The parts of an accepted frame lie one behind the other, up to its end. -/
theorem parts_of_parseCurrent (h : parseCurrent buffer bufsize = .frame m n)
    (hbufsize : bufsize ≤ buffer.length) :
    m.topic.main ++ m.topic.sub ++ m.source ++ m.data = slice buffer 40 (n - 40) ∧
      m.header = { Header.ofBuffer buffer with magic := Header.magicNumber } ∧
      m.messageLength = n := by
  obtain ⟨type, -, hc, hnle, hn, hm⟩ := parseCurrent_eq_frame.mp h
  obtain ⟨htype, -, hle⟩ := checkHeader_eq_some.mp hc
  generalize Header.ofBuffer buffer = header at *
  have hoff := UInt32.le_iff_toNat_le.mp hle
  have hdata := header.dataLength_toNat hle
  rw [header.dataOffset_toNat, ← hn] at hoff hdata
  have htopicPart : m.topic.main = slice buffer 40 header.topicLength.toNat := by
    rw [hm, ← UInt16.toNat_toUInt32]
    rfl
  have hsubPart : m.topic.sub =
      slice buffer (40 + header.topicLength.toNat) header.subtopicLength.toNat := by
    rw [hm, ← header.subtopicOffset_toNat, ← UInt16.toNat_toUInt32]
    rfl
  have hsourcePart : m.source =
      slice buffer (40 + header.topicLength.toNat + header.subtopicLength.toNat)
        header.sourceLength.toNat := by
    rw [hm, ← header.sourceOffset_toNat, ← UInt16.toNat_toUInt32]
    rfl
  have hdataPart : m.data =
      slice buffer (40 + header.topicLength.toNat + header.subtopicLength.toNat +
        header.sourceLength.toNat) header.dataLength.toNat := by
    rw [hm, ← header.dataOffset_toNat]
    rfl
  have h1 : m.topic.main.length = header.topicLength.toNat := by
    rw [htopicPart, slice_length (by omega)]
  have h2 : m.topic.sub.length = header.subtopicLength.toNat := by
    rw [hsubPart, slice_length (by omega)]
  have h3 : m.source.length = header.sourceLength.toNat := by
    rw [hsourcePart, slice_length (by omega)]
  have h4 : m.data.length = header.dataLength.toNat := by
    rw [hdataPart, slice_length (by omega)]
  have hlength : m.messageLength = n := by
    rw [messageLength, h1, h2, h3, h4, hdata, Header.sizeof]
    omega
  refine ⟨?_, ?_, hlength⟩
  · rw [htopicPart, hsubPart, hsourcePart, hdataPart, ← slice_add, Nat.add_assoc 40, ← slice_add,
      Nat.add_assoc 40, ← slice_add]
    congr 1
    omega
  · have htypeChar : m.type.toChar = header.type := by
      rw [hm]
      exact MessageType.toChar_of_ofChar htype
    simp only [DataMessage.header, hlength, h1, h2, h3, htypeChar, hn, UInt32.ofNat_toNat,
      UInt16.ofNat_toNat]
    rw [hm]
    rfl

theorem frame_of_parseMessage (h : parseMessage version1Flag buffer bufsize = .frame m n)
    (hmagic : (Header.ofBuffer buffer).magic = Header.magicNumber)
    (hbufsize : bufsize ≤ buffer.length) :
    m.frame.length = n ∧ m.frame = Header.clearPadding (buffer.take n) := by
  have hfits := parseMessage_fits h
  obtain ⟨hn40, hnle⟩ := parseMessage_frame_bounds h
  rw [Header.sizeof] at hn40
  have hparse : parseCurrent buffer bufsize = .frame m n := by
    rw [parseMessage, if_neg (by rw [Header1.sizeof]; omega), if_pos hmagic] at h
    exact h
  obtain ⟨hparts, hheader, hlength⟩ := parts_of_parseCurrent hparse hbufsize
  rw [← hmagic] at hheader
  refine ⟨hfits.frame_length.trans hlength, ?_⟩
  have hframe : m.frame =
      m.header.toBytes ++ (m.topic.main ++ m.topic.sub ++ m.source ++ m.data) := by
    rw [hfits.frame_eq]
    simp only [List.append_assoc]
  rw [hframe, Header.clearPadding_take hn40 (by omega), hparts, hheader]
  exact congrArg (· ++ _) (Header.toBytes_ofBuffer (by omega))

theorem PartsFit.frame_setSerial (h : m.PartsFit) (serial : UInt64) :
    ({ m with serial := serial } : DataMessage).frame = Header.setSerial serial m.frame := by
  have hparts : ({ m with serial := serial } : DataMessage).PartsFit :=
    ⟨h.main_le, h.sub_le, h.source_le⟩
  have hsplit : m.frame =
      (LittleEndian.encode 4 m.header.magic.toNat
          ++ LittleEndian.encode 4 m.header.messageLength.toNat
          ++ LittleEndian.encode 4 m.header.createDateJulian.toNat ++ [0, 0, 0, 0]
          ++ LittleEndian.encode 8 m.header.createTimeUSecs.toNat)
        ++ (LittleEndian.encode 8 m.header.serial.toNat
          ++ (LittleEndian.encode 2 m.header.topicLength.toNat
            ++ LittleEndian.encode 2 m.header.subtopicLength.toNat
            ++ LittleEndian.encode 2 m.header.sourceLength.toNat ++ [m.header.type] ++ [0]
            ++ m.topic.main ++ m.topic.sub ++ m.source ++ m.data)) := by
    rw [h.frame_eq, Header.toBytes]
    simp only [List.append_assoc]
  rw [Header.setSerial, hsplit, writeAt_part (by simp) (by simp), hparts.frame_eq, Header.toBytes]
  simp only [List.append_assoc]
  rfl

end DataMessage

theorem Connection.offer_outputBuffer {rx : Regex} {maxOBuf : Nat} {m : DataMessage}
    {id : ResponderId} {c : Connection} {r r' : Responder} (hr : c.responder = some r)
    (hr' : (c.offer rx maxOBuf m id).responder = some r') :
    r'.outputBuffer = r.outputBuffer ++ if r.isSubscribed rx m.topic then m.frame else [] := by
  simp only [offer, hr] at hr'
  split at hr'
  next hsub =>
    rw [if_pos hsub]
    split at hr'
    next => cases hr'
    next =>
      obtain rfl := Option.some.inj hr'
      rfl
  next hsub =>
    rw [if_neg hsub, List.append_nil]
    rw [hr] at hr'
    obtain rfl := Option.some.inj hr'
    rfl

namespace DataMessage

/-- Encoding gives back the bytes of any accepted frame with the padding cleared, so no message
has two frames, and the server relays the frame with only its own serial number put in. -/
theorem appendTo_of_parseMessage (version1Flag : Bool) (buffer : Bytes) (bufsize n : Nat)
    (m : DataMessage) (h : parseMessage version1Flag buffer bufsize = .frame m n)
    (hmagic : (Header.ofBuffer buffer).magic = Header.magicNumber)
    (hbufsize : bufsize ≤ buffer.length) :
    (m.appendTo []).length = n ∧ m.appendTo [] = Header.clearPadding (buffer.take n) ∧
      (∀ version1Flag' buffer' bufsize' n',
        parseMessage version1Flag' buffer' bufsize' = .frame m n' →
        (Header.ofBuffer buffer').magic = Header.magicNumber → bufsize' ≤ buffer'.length →
        Header.clearPadding (buffer'.take n') = Header.clearPadding (buffer.take n)) ∧
      (m.isDataMessage = true → ∀ rx s id, ∃ t, Server.handleMessage rx id m s = .ok () t ∧
        t.lastSerial = s.lastSerial + 1 ∧
        ∀ j r r', s.responders.find j = some r → t.responders.find j = some r' →
          r'.outputBuffer = r.outputBuffer ++
            if r.isSubscribed rx m.topic then
              Header.setSerial (s.lastSerial + 1) (Header.clearPadding (buffer.take n))
            else []) := by
  obtain ⟨hlength, hframe⟩ := frame_of_parseMessage h hmagic hbufsize
  refine ⟨hlength, hframe, fun _ _ _ _ h' hmagic' hbufsize' => ?_, fun hm rx s id => ?_⟩
  · rw [← hframe, ← (frame_of_parseMessage h' hmagic' hbufsize').2]
  · obtain ⟨t, ht, hshared, hparts⟩ := Server.handleMessage_data rx s id hm
    refine ⟨t, ht, congrArg Shared.lastSerial hshared, fun j r r' hr hr' => ?_⟩
    have hbefore : (if j = id then (s.connection j).log (.received id m)
        else s.connection j).responder = some r := by split <;> exact hr
    have hafter := (congrArg Connection.responder (hparts j)).symm.trans hr'
    have hout := Connection.offer_outputBuffer hbefore hafter
    rwa [(parseMessage_fits h).frame_setSerial, hframe] at hout

theorem appendTo_of_parseMessage_greeting :
    greeting.appendTo [] =
      Header.clearPadding ((writeAt greeting.frame 39 [0xff] ++ [0x32, 0x75]).take 43) :=
  (appendTo_of_parseMessage false (writeAt greeting.frame 39 [0xff] ++ [0x32, 0x75]) 45 43 greeting
    (by rfl) (by decide +kernel) (by decide +kernel)).2.1

end DataMessage

end TntPub

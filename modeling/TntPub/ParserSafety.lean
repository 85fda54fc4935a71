import TntPub.Chunking
import TntPub.Loops

namespace TntPub

open Framing

/-- What the parser must never do. -/
inductive Fault
  | outOfBounds (offset width : Nat)
  | wrapped
deriving DecidableEq

/-- A computation that stops at the first fault. -/
abbrev Checked := Except Fault

def checkedAdd (a b : UInt32) : Checked UInt32 :=
  if a.toNat + b.toNat < 2 ^ 32 then .ok (a + b) else .error .wrapped

def checkedSub (a b : UInt32) : Checked UInt32 :=
  if b ≤ a then .ok (a - b) else .error .wrapped

section Reads

variable (buffer : Bytes) (bufsize : UInt32)

/-- Bytes of the buffer, of which `bufsize` may be read. -/
def checkedBytes (offset width : Nat) : Checked Bytes :=
  if offset + width ≤ bufsize.toNat then .ok ((buffer.drop offset).take width)
  else .error (.outOfBounds offset width)

def checkedField (width offset : Nat) : Checked Nat := do
  let bytes ← checkedBytes buffer bufsize offset width
  pure (LittleEndian.decode bytes)

def checkedUInt8 (offset : Nat) : Checked UInt8 :=
  UInt8.ofNat <$> checkedField buffer bufsize 1 offset

def checkedUInt16 (offset : Nat) : Checked UInt16 :=
  UInt16.ofNat <$> checkedField buffer bufsize 2 offset

def checkedUInt32 (offset : Nat) : Checked UInt32 :=
  UInt32.ofNat <$> checkedField buffer bufsize 4 offset

def checkedUInt64 (offset : Nat) : Checked UInt64 :=
  UInt64.ofNat <$> checkedField buffer bufsize 8 offset

def checkedString (offset length : UInt32) : Checked Bytes :=
  checkedBytes buffer bufsize offset.toNat length.toNat

namespace Header

def checkedSubtopicOffset : Checked UInt32 := do
  let topicLength ← checkedUInt16 buffer bufsize 32
  checkedAdd (UInt32.ofNat sizeof) topicLength.toUInt32

def checkedSourceOffset : Checked UInt32 := do
  let subtopicOffset ← checkedSubtopicOffset buffer bufsize
  let subtopicLength ← checkedUInt16 buffer bufsize 34
  checkedAdd subtopicOffset subtopicLength.toUInt32

def checkedDataOffset : Checked UInt32 := do
  let sourceOffset ← checkedSourceOffset buffer bufsize
  let sourceLength ← checkedUInt16 buffer bufsize 36
  checkedAdd sourceOffset sourceLength.toUInt32

def checkedDataLength : Checked UInt32 := do
  let messageLength ← checkedUInt32 buffer bufsize 4
  let dataOffset ← checkedDataOffset buffer bufsize
  checkedSub messageLength dataOffset

def checkedMessage (type : MessageType) : Checked DataMessage := do
  let topicLength ← checkedUInt16 buffer bufsize 32
  let main ← checkedString buffer bufsize (UInt32.ofNat sizeof) topicLength.toUInt32
  let subtopicOffset ← checkedSubtopicOffset buffer bufsize
  let subtopicLength ← checkedUInt16 buffer bufsize 34
  let sub ← checkedString buffer bufsize subtopicOffset subtopicLength.toUInt32
  let sourceOffset ← checkedSourceOffset buffer bufsize
  let sourceLength ← checkedUInt16 buffer bufsize 36
  let source ← checkedString buffer bufsize sourceOffset sourceLength.toUInt32
  let julian ← checkedUInt32 buffer bufsize 8
  let totalUSecs ← checkedUInt64 buffer bufsize 16
  let dataOffset ← checkedDataOffset buffer bufsize
  let dataLength ← checkedDataLength buffer bufsize
  let data ← checkedString buffer bufsize dataOffset dataLength
  let serial ← checkedUInt64 buffer bufsize 24
  pure
    { type := type
      topic := { main := main, sub := sub }
      source := source
      serial := serial
      createDateTime := ⟨julian, totalUSecs⟩
      data := data }

end Header

namespace Header1

def checkedDataOffset : Checked UInt32 := do
  let topicLength ← checkedUInt16 buffer bufsize 24
  checkedAdd (UInt32.ofNat Header.sizeof) topicLength.toUInt32

def checkedDataLength : Checked UInt32 := do
  let messageLength ← checkedUInt32 buffer bufsize 0
  let dataOffset ← checkedDataOffset buffer bufsize
  checkedSub messageLength dataOffset

def checkedMessage (type : MessageType) : Checked DataMessage := do
  let topicLength ← checkedUInt16 buffer bufsize 24
  let main ← checkedString buffer bufsize (UInt32.ofNat Header.sizeof) topicLength.toUInt32
  let julian ← checkedUInt32 buffer bufsize 4
  let totalUSecs ← checkedUInt64 buffer bufsize 8
  let dataOffset ← checkedDataOffset buffer bufsize
  let dataLength ← checkedDataLength buffer bufsize
  let data ← checkedString buffer bufsize dataOffset dataLength
  let serial ← checkedUInt64 buffer bufsize 16
  pure
    { type := type
      topic := { main := main }
      source := []
      serial := serial
      createDateTime := ⟨julian, totalUSecs⟩
      data := data }

end Header1

/-- The end both formats share: `remaining -= messageLength`, then `bufsize - remaining`. -/
def checkedUsed (messageLength : UInt32) : Checked Nat := do
  let remaining ← checkedSub bufsize messageLength
  let used ← checkedSub bufsize remaining
  pure used.toNat

/-- A corrupt header is also dumped into the log. -/
def checkedParseCurrent : Checked (Front DataMessage Exception) :=
  if bufsize.toNat < Header.sizeof then pure .incomplete
  else do
    let dataOffset ← Header.checkedDataOffset buffer bufsize
    let messageLength ← checkedUInt32 buffer bufsize 4
    let type ← checkedUInt8 buffer bufsize 38
    match checkHeader type messageLength dataOffset with
    | none =>
      let _ ← checkedBytes buffer bufsize 0 Header.sizeof
      pure (.fail .corruptMessage)
    | some type =>
      if bufsize < messageLength then pure .incomplete
      else
        let m ← Header.checkedMessage buffer bufsize type
        let used ← checkedUsed bufsize messageLength
        pure (.frame m used)

def checkedParseOld : Checked (Front DataMessage Exception) := do
  let dataOffset ← Header1.checkedDataOffset buffer bufsize
  let messageLength ← checkedUInt32 buffer bufsize 0
  let type ← checkedUInt8 buffer bufsize 26
  match checkHeader type messageLength dataOffset with
  | none => pure (.fail .corruptMessage)
  | some type =>
    if bufsize < messageLength then pure .incomplete
    else
      let m ← Header1.checkedMessage buffer bufsize type
      let used ← checkedUsed bufsize messageLength
      pure (.frame m used)

/-- `processMessage` up to the callback, with every access and every computation checked. -/
def checkedParseMessage (version1Flag : Bool) : Checked (Front DataMessage Exception) := do
  let _ ← checkedBytes buffer bufsize 0 bufsize.toNat
  if bufsize.toNat < Header1.sizeof then pure .incomplete
  else
    let magic ← checkedUInt32 buffer bufsize 0
    if magic = Header.magicNumber then checkedParseCurrent buffer bufsize
    else if version1Flag then checkedParseOld buffer bufsize
    else pure (.fail .invalidMessageReceived)

end Reads

section Faultless

variable {buffer : Bytes} {bufsize : UInt32}

theorem checkedBytes_ok {offset width : Nat} (h : offset + width ≤ bufsize.toNat) :
    checkedBytes buffer bufsize offset width = .ok ((buffer.drop offset).take width) := if_pos h

theorem checkedField_ok {offset width : Nat} (h : offset + width ≤ bufsize.toNat) :
    checkedField buffer bufsize width offset = .ok (readField width buffer offset) := by
  rw [checkedField, checkedBytes_ok h]
  rfl

theorem checkedUInt8_ok {offset : Nat} (h : offset + 1 ≤ bufsize.toNat) :
    checkedUInt8 buffer bufsize offset = .ok (UInt8.ofNat (readField 1 buffer offset)) := by
  rw [checkedUInt8, checkedField_ok h]
  rfl

theorem checkedUInt16_ok {offset : Nat} (h : offset + 2 ≤ bufsize.toNat) :
    checkedUInt16 buffer bufsize offset = .ok (UInt16.ofNat (readField 2 buffer offset)) := by
  rw [checkedUInt16, checkedField_ok h]
  rfl

theorem checkedUInt32_ok {offset : Nat} (h : offset + 4 ≤ bufsize.toNat) :
    checkedUInt32 buffer bufsize offset = .ok (UInt32.ofNat (readField 4 buffer offset)) := by
  rw [checkedUInt32, checkedField_ok h]
  rfl

theorem checkedUInt64_ok {offset : Nat} (h : offset + 8 ≤ bufsize.toNat) :
    checkedUInt64 buffer bufsize offset = .ok (UInt64.ofNat (readField 8 buffer offset)) := by
  rw [checkedUInt64, checkedField_ok h]
  rfl

theorem checkedString_ok {offset length : UInt32}
    (h : offset.toNat + length.toNat ≤ bufsize.toNat) :
    checkedString buffer bufsize offset length = .ok (readString buffer offset length) :=
  checkedBytes_ok h

theorem checkedAdd_ok {a b : UInt32} (h : a.toNat + b.toNat < 2 ^ 32) :
    checkedAdd a b = .ok (a + b) := if_pos h

theorem checkedSub_ok {a b : UInt32} (h : b ≤ a) : checkedSub a b = .ok (a - b) := if_pos h

theorem checkedUsed_ok {messageLength : UInt32} (h : messageLength ≤ bufsize) :
    checkedUsed bufsize messageLength = .ok messageLength.toNat := by
  have hle := UInt32.le_iff_toNat_le.mp h
  have hremaining : (bufsize - messageLength).toNat = bufsize.toNat - messageLength.toNat :=
    UInt32.toNat_sub_of_le _ _ h
  have hback : bufsize - messageLength ≤ bufsize := by
    rw [UInt32.le_iff_toNat_le, hremaining]
    omega
  rw [checkedUsed, checkedSub_ok h]
  dsimp only [bind, Except.bind]
  rw [checkedSub_ok hback]
  dsimp only [pure, Except.pure]
  rw [UInt32.toNat_sub_of_le _ _ hback, hremaining]
  congr 1
  omega

theorem checked_bind {α β : Type} (a : α) (f : α → Checked β) : (.ok a >>= f) = f a := rfl

namespace Header

theorem checkedSubtopicOffset_ok (hsize : 40 ≤ bufsize.toNat) :
    checkedSubtopicOffset buffer bufsize = .ok (ofBuffer buffer).subtopicOffset := by
  have hlt := (ofBuffer buffer).topicLength.toNat_lt
  have htopic : (UInt32.ofNat sizeof).toNat = 40 := rfl
  rw [checkedSubtopicOffset, checkedUInt16_ok (by omega), checked_bind]
  apply checkedAdd_ok
  rw [htopic, UInt16.toNat_toUInt32]
  change 40 + (ofBuffer buffer).topicLength.toNat < 2 ^ 32
  omega

theorem checkedSourceOffset_ok (hsize : 40 ≤ bufsize.toNat) :
    checkedSourceOffset buffer bufsize = .ok (ofBuffer buffer).sourceOffset := by
  have h1 := (ofBuffer buffer).topicLength.toNat_lt
  have h2 := (ofBuffer buffer).subtopicLength.toNat_lt
  rw [checkedSourceOffset, checkedSubtopicOffset_ok hsize, checked_bind,
    checkedUInt16_ok (by omega), checked_bind]
  apply checkedAdd_ok
  rw [subtopicOffset_toNat, UInt16.toNat_toUInt32]
  change 40 + (ofBuffer buffer).topicLength.toNat + (ofBuffer buffer).subtopicLength.toNat < 2 ^ 32
  omega

theorem checkedDataOffset_ok (hsize : 40 ≤ bufsize.toNat) :
    checkedDataOffset buffer bufsize = .ok (ofBuffer buffer).dataOffset := by
  have h1 := (ofBuffer buffer).topicLength.toNat_lt
  have h2 := (ofBuffer buffer).subtopicLength.toNat_lt
  have h3 := (ofBuffer buffer).sourceLength.toNat_lt
  rw [checkedDataOffset, checkedSourceOffset_ok hsize, checked_bind,
    checkedUInt16_ok (by omega), checked_bind]
  apply checkedAdd_ok
  rw [sourceOffset_toNat, UInt16.toNat_toUInt32]
  change 40 + (ofBuffer buffer).topicLength.toNat + (ofBuffer buffer).subtopicLength.toNat +
    (ofBuffer buffer).sourceLength.toNat < 2 ^ 32
  omega

theorem checkedDataLength_ok (hsize : 40 ≤ bufsize.toNat)
    (hle : (ofBuffer buffer).dataOffset ≤ (ofBuffer buffer).messageLength) :
    checkedDataLength buffer bufsize = .ok (ofBuffer buffer).dataLength := by
  rw [checkedDataLength, checkedUInt32_ok (by omega), checked_bind, checkedDataOffset_ok hsize,
    checked_bind]
  exact checkedSub_ok hle

/-- The parts of the message end where the message ends. -/
theorem checkedMessage_ok (type : MessageType) (hsize : 40 ≤ bufsize.toNat)
    (hle : (ofBuffer buffer).dataOffset ≤ (ofBuffer buffer).messageLength)
    (hwhole : (ofBuffer buffer).messageLength ≤ bufsize) :
    checkedMessage buffer bufsize type = .ok ((ofBuffer buffer).message type buffer) := by
  have hoff := UInt32.le_iff_toNat_le.mp hle
  have hend := UInt32.le_iff_toNat_le.mp hwhole
  have hdata := dataLength_toNat hle
  have hread : ∀ offset length : UInt32, offset.toNat + length.toNat ≤ bufsize.toNat →
      checkedString buffer bufsize offset length = .ok (readString buffer offset length) :=
    fun _ _ => checkedString_ok
  have hmain := hread (ofBuffer buffer).topicOffset (ofBuffer buffer).topicLength.toUInt32
  have hsub := hread (ofBuffer buffer).subtopicOffset (ofBuffer buffer).subtopicLength.toUInt32
  have hsource := hread (ofBuffer buffer).sourceOffset (ofBuffer buffer).sourceLength.toUInt32
  have hbody := hread (ofBuffer buffer).dataOffset (ofBuffer buffer).dataLength
  rw [dataOffset_toNat] at hoff
  rw [topicOffset_toNat, UInt16.toNat_toUInt32] at hmain
  rw [subtopicOffset_toNat, UInt16.toNat_toUInt32] at hsub
  rw [sourceOffset_toNat, UInt16.toNat_toUInt32] at hsource
  rw [hdata, dataOffset_toNat] at hbody
  have h1 : checkedUInt16 buffer bufsize 32 = .ok (ofBuffer buffer).topicLength :=
    checkedUInt16_ok (by omega)
  have h2 : checkedUInt16 buffer bufsize 34 = .ok (ofBuffer buffer).subtopicLength :=
    checkedUInt16_ok (by omega)
  have h3 : checkedUInt16 buffer bufsize 36 = .ok (ofBuffer buffer).sourceLength :=
    checkedUInt16_ok (by omega)
  have h4 : checkedUInt32 buffer bufsize 8 = .ok (ofBuffer buffer).createDateJulian :=
    checkedUInt32_ok (by omega)
  have h5 : checkedUInt64 buffer bufsize 16 = .ok (ofBuffer buffer).createTimeUSecs :=
    checkedUInt64_ok (by omega)
  have h6 : checkedUInt64 buffer bufsize 24 = .ok (ofBuffer buffer).serial :=
    checkedUInt64_ok (by omega)
  have htopicOffset : UInt32.ofNat sizeof = (ofBuffer buffer).topicOffset := rfl
  simp only [checkedMessage, htopicOffset, h1, h2, h3, h4, h5, h6, checkedSubtopicOffset_ok hsize,
    checkedSourceOffset_ok hsize, checkedDataOffset_ok hsize, checkedDataLength_ok hsize hle,
    hmain (by omega), hsub (by omega), hsource (by omega), hbody (by omega), checked_bind]
  rfl

end Header

namespace Header1

theorem checkedDataOffset_ok (hsize : 32 ≤ bufsize.toNat) :
    checkedDataOffset buffer bufsize = .ok (ofBuffer buffer).dataOffset := by
  have hlt := (ofBuffer buffer).topicLength.toNat_lt
  have htopic : (UInt32.ofNat Header.sizeof).toNat = 40 := rfl
  rw [checkedDataOffset, checkedUInt16_ok (by omega), checked_bind]
  apply checkedAdd_ok
  rw [htopic, UInt16.toNat_toUInt32]
  change 40 + (ofBuffer buffer).topicLength.toNat < 2 ^ 32
  omega

theorem checkedDataLength_ok (hsize : 32 ≤ bufsize.toNat)
    (hle : (ofBuffer buffer).dataOffset ≤ (ofBuffer buffer).messageLength) :
    checkedDataLength buffer bufsize = .ok (ofBuffer buffer).dataLength := by
  rw [checkedDataLength, checkedUInt32_ok (by omega), checked_bind, checkedDataOffset_ok hsize,
    checked_bind]
  exact checkedSub_ok hle

theorem checkedMessage_ok (type : MessageType) (hsize : 32 ≤ bufsize.toNat)
    (hle : (ofBuffer buffer).dataOffset ≤ (ofBuffer buffer).messageLength)
    (hwhole : (ofBuffer buffer).messageLength ≤ bufsize) :
    checkedMessage buffer bufsize type = .ok ((ofBuffer buffer).message type buffer) := by
  have hoff := UInt32.le_iff_toNat_le.mp hle
  have hend := UInt32.le_iff_toNat_le.mp hwhole
  have hdata := dataLength_toNat hle
  have hread : ∀ offset length : UInt32, offset.toNat + length.toNat ≤ bufsize.toNat →
      checkedString buffer bufsize offset length = .ok (readString buffer offset length) :=
    fun _ _ => checkedString_ok
  have hmain := hread (ofBuffer buffer).topicOffset (ofBuffer buffer).topicLength.toUInt32
  have hbody := hread (ofBuffer buffer).dataOffset (ofBuffer buffer).dataLength
  rw [dataOffset_toNat] at hoff
  rw [topicOffset_toNat, UInt16.toNat_toUInt32] at hmain
  rw [hdata, dataOffset_toNat] at hbody
  have h1 : checkedUInt16 buffer bufsize 24 = .ok (ofBuffer buffer).topicLength :=
    checkedUInt16_ok (by omega)
  have h2 : checkedUInt32 buffer bufsize 4 = .ok (ofBuffer buffer).createDateJulian :=
    checkedUInt32_ok (by omega)
  have h3 : checkedUInt64 buffer bufsize 8 = .ok (ofBuffer buffer).createTimeUSecs :=
    checkedUInt64_ok (by omega)
  have h4 : checkedUInt64 buffer bufsize 16 = .ok (ofBuffer buffer).serial :=
    checkedUInt64_ok (by omega)
  have htopicOffset : UInt32.ofNat Header.sizeof = (ofBuffer buffer).topicOffset := rfl
  simp only [checkedMessage, htopicOffset, h1, h2, h3, h4, checkedDataOffset_ok hsize,
    checkedDataLength_ok hsize hle, hmain (by omega), hbody (by omega), checked_bind]
  rfl

end Header1

theorem checkedParseCurrent_ok :
    checkedParseCurrent buffer bufsize = .ok (parseCurrent buffer bufsize.toNat) := by
  unfold checkedParseCurrent parseCurrent
  split
  next => rfl
  next hsize =>
    rw [Header.sizeof] at hsize
    have hlength : checkedUInt32 buffer bufsize 4 = .ok (Header.ofBuffer buffer).messageLength :=
      checkedUInt32_ok (by omega)
    have htype : checkedUInt8 buffer bufsize 38 = .ok (Header.ofBuffer buffer).type :=
      checkedUInt8_ok (by omega)
    rw [Header.checkedDataOffset_ok (by omega), checked_bind, hlength, checked_bind, htype,
      checked_bind]
    dsimp only
    cases hc : checkHeader (Header.ofBuffer buffer).type (Header.ofBuffer buffer).messageLength
        (Header.ofBuffer buffer).dataOffset with
    | none =>
      dsimp only
      rw [checkedBytes_ok (by rw [Header.sizeof]; omega), checked_bind]
      rfl
    | some type =>
      have hle := (checkHeader_eq_some.mp hc).2.2
      dsimp only
      by_cases hshort : bufsize < (Header.ofBuffer buffer).messageLength
      · rw [if_pos hshort, if_pos (UInt32.lt_iff_toNat_lt.mp hshort)]
        rfl
      · have hwhole := UInt32.not_lt.mp hshort
        rw [if_neg hshort, if_neg (mt UInt32.lt_iff_toNat_lt.mpr hshort),
          Header.checkedMessage_ok type (by omega) hle hwhole, checked_bind,
          checkedUsed_ok hwhole, checked_bind]
        rfl

theorem checkedParseOld_ok (hsize : 32 ≤ bufsize.toNat) :
    checkedParseOld buffer bufsize = .ok (parseOld buffer bufsize.toNat) := by
  unfold checkedParseOld parseOld
  have hlength : checkedUInt32 buffer bufsize 0 = .ok (Header1.ofBuffer buffer).messageLength :=
    checkedUInt32_ok (by omega)
  have htype : checkedUInt8 buffer bufsize 26 = .ok (Header1.ofBuffer buffer).type :=
    checkedUInt8_ok (by omega)
  rw [Header1.checkedDataOffset_ok hsize, checked_bind, hlength, checked_bind, htype, checked_bind]
  dsimp only
  cases hc : checkHeader (Header1.ofBuffer buffer).type (Header1.ofBuffer buffer).messageLength
      (Header1.ofBuffer buffer).dataOffset with
  | none => rfl
  | some type =>
    have hle := (checkHeader_eq_some.mp hc).2.2
    dsimp only
    by_cases hshort : bufsize < (Header1.ofBuffer buffer).messageLength
    · rw [if_pos hshort, if_pos (UInt32.lt_iff_toNat_lt.mp hshort)]
      rfl
    · have hwhole := UInt32.not_lt.mp hshort
      rw [if_neg hshort, if_neg (mt UInt32.lt_iff_toNat_lt.mpr hshort),
        Header1.checkedMessage_ok type hsize hle hwhole, checked_bind, checkedUsed_ok hwhole,
        checked_bind]
      rfl

/-- The parser never faults, whatever the bytes are, and computes what the unchecked one does. -/
theorem checkedParseMessage_ok (version1Flag : Bool) :
    checkedParseMessage buffer bufsize version1Flag =
      .ok (parseMessage version1Flag buffer bufsize.toNat) := by
  unfold checkedParseMessage parseMessage
  rw [checkedBytes_ok (by omega), checked_bind]
  split
  next => rfl
  next hsize =>
    rw [Header1.sizeof] at hsize
    have hmagic : checkedUInt32 buffer bufsize 0 = .ok (Header.ofBuffer buffer).magic :=
      checkedUInt32_ok (by omega)
    rw [hmagic, checked_bind]
    split
    next => exact checkedParseCurrent_ok
    next =>
      split
      next => exact checkedParseOld_ok (by omega)
      next => rfl

end Faultless

end TntPub

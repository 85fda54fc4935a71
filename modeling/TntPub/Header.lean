import TntPub.DataMessage

namespace TntPub

/-- The number in `width` bytes of a buffer, the way a struct member is read through
`reinterpret_cast` on a little-endian machine. -/
def readField (width : Nat) (buffer : Bytes) (offset : Nat) : Nat :=
  LittleEndian.decode ((buffer.drop offset).take width)

/-- `std::string(buffer + offset, length)`. -/
def readString (buffer : Bytes) (offset length : UInt32) : Bytes :=
  (buffer.drop offset.toNat).take length.toNat

/-- `DataMessage::Header`, the layout of the current format. -/
structure Header where
  magic : UInt32
  messageLength : UInt32
  createDateJulian : UInt32
  createTimeUSecs : UInt64
  serial : UInt64
  topicLength : UInt16
  subtopicLength : UInt16
  sourceLength : UInt16
  type : UInt8
deriving DecidableEq

namespace Header

/-- "tpu2". -/
def magicNumber : UInt32 := 0x74707532

/-- The size of the struct: four bytes of padding before `_createTimeUSecs` and one at the end. -/
def sizeof : Nat := 40

/-- The members at their offsets on x86-64. -/
def ofBuffer (buffer : Bytes) : Header where
  magic := UInt32.ofNat (readField 4 buffer 0)
  messageLength := UInt32.ofNat (readField 4 buffer 4)
  createDateJulian := UInt32.ofNat (readField 4 buffer 8)
  createTimeUSecs := UInt64.ofNat (readField 8 buffer 16)
  serial := UInt64.ofNat (readField 8 buffer 24)
  topicLength := UInt16.ofNat (readField 2 buffer 32)
  subtopicLength := UInt16.ofNat (readField 2 buffer 34)
  sourceLength := UInt16.ofNat (readField 2 buffer 36)
  type := UInt8.ofNat (readField 1 buffer 38)

/-- The members written into zeroed memory; the padding stays zero. -/
def toBytes (h : Header) : Bytes :=
  LittleEndian.encode 4 h.magic.toNat ++ LittleEndian.encode 4 h.messageLength.toNat
    ++ LittleEndian.encode 4 h.createDateJulian.toNat ++ [0, 0, 0, 0]
    ++ LittleEndian.encode 8 h.createTimeUSecs.toNat ++ LittleEndian.encode 8 h.serial.toNat
    ++ LittleEndian.encode 2 h.topicLength.toNat ++ LittleEndian.encode 2 h.subtopicLength.toNat
    ++ LittleEndian.encode 2 h.sourceLength.toNat ++ [h.type] ++ [0]

def topicOffset (_ : Header) : UInt32 := UInt32.ofNat sizeof

def subtopicOffset (h : Header) : UInt32 := h.topicOffset + h.topicLength.toUInt32

def sourceOffset (h : Header) : UInt32 := h.subtopicOffset + h.subtopicLength.toUInt32

def dataOffset (h : Header) : UInt32 := h.sourceOffset + h.sourceLength.toUInt32

def dataLength (h : Header) : UInt32 := h.messageLength - h.dataOffset

def createDateTime (h : Header) : UtcDateTime := ⟨h.createDateJulian, h.createTimeUSecs⟩

end Header

/-- `DataMessage::Header1`, the layout of the old format. -/
structure Header1 where
  messageLength : UInt32
  createDateJulian : UInt32
  createTimeUSecs : UInt64
  serial : UInt64
  topicLength : UInt16
  type : UInt8
deriving DecidableEq

namespace Header1

/-- The size of the struct, with five bytes of padding at the end. -/
def sizeof : Nat := 32

def ofBuffer (buffer : Bytes) : Header1 where
  messageLength := UInt32.ofNat (readField 4 buffer 0)
  createDateJulian := UInt32.ofNat (readField 4 buffer 4)
  createTimeUSecs := UInt64.ofNat (readField 8 buffer 8)
  serial := UInt64.ofNat (readField 8 buffer 16)
  topicLength := UInt16.ofNat (readField 2 buffer 24)
  type := UInt8.ofNat (readField 1 buffer 26)

/-- The source has the size of the other struct here. -/
def topicOffset (_ : Header1) : UInt32 := UInt32.ofNat Header.sizeof

def dataOffset (h : Header1) : UInt32 := h.topicOffset + h.topicLength.toUInt32

def dataLength (h : Header1) : UInt32 := h.messageLength - h.dataOffset

def createDateTime (h : Header1) : UtcDateTime := ⟨h.createDateJulian, h.createTimeUSecs⟩

end Header1

/-- `src.copy(ptr + offset, src.size())` into allocated memory. -/
def writeAt (memory : Bytes) (offset : Nat) (src : Bytes) : Bytes :=
  memory.take offset ++ src ++ memory.drop (offset + src.length)

namespace DataMessage

/-- The length `appendTo` reserves, a `size_t`. -/
def messageLength (m : DataMessage) : Nat :=
  Header.sizeof + m.topic.main.length + m.topic.sub.length + m.source.length + m.data.length

/-- The header `appendTo` fills in; sizes that do not fit a member are cut off. -/
def header (m : DataMessage) : Header where
  magic := Header.magicNumber
  messageLength := UInt32.ofNat m.messageLength
  createDateJulian := m.createDateTime.julian
  createTimeUSecs := m.createDateTime.totalUSecs
  serial := m.serial
  topicLength := UInt16.ofNat m.topic.main.length
  subtopicLength := UInt16.ofNat m.topic.sub.length
  sourceLength := UInt16.ofNat m.source.length
  type := m.type.toChar

/-- The bytes `appendTo` leaves behind the old end of the buffer. -/
def frame (m : DataMessage) : Bytes :=
  let memory := List.replicate m.messageLength 0
  let memory := writeAt memory 0 m.header.toBytes
  let memory := writeAt memory m.header.topicOffset.toNat m.topic.main
  let memory := writeAt memory m.header.subtopicOffset.toNat m.topic.sub
  let memory := writeAt memory m.header.sourceOffset.toNat m.source
  writeAt memory m.header.dataOffset.toNat m.data

/-- `appendTo`: `resize` keeps the old content and zeroes the new. -/
def appendTo (m : DataMessage) (buffer : Bytes) : Bytes := buffer ++ m.frame

end DataMessage

end TntPub

import FileHopZ.Library.Buffer
import FileHopZ.Library.LittleEndian
import FileHopZ.Protohopz.Packet

/-! # `FTProto::Packet`

The packets of the file transfer, which the stream carries as its chunks: a
packed header and as many bytes of `data` as `header.size` says.
-/
namespace FileHopZ
namespace FTProto

/-- `FTProto::PacketType`, with the values that have no name. -/
inductive PacketType
  | confirm
  | confirmFailed
  | createDirectory
  | createFile
  | fileData
  | endFile
  | endTransfer
  | createSymlink
  | unnamed (code : UInt8)
  deriving DecidableEq, Repr

namespace PacketType

def toByte : PacketType → UInt8
  | confirm => 0
  | confirmFailed => 1
  | createDirectory => 2
  | createFile => 3
  | fileData => 4
  | endFile => 5
  | endTransfer => 6
  | createSymlink => 7
  | unnamed code => code

def ofByte (b : UInt8) : PacketType :=
  if b = 0 then confirm else if b = 1 then confirmFailed else if b = 2 then createDirectory
  else if b = 3 then createFile else if b = 4 then fileData else if b = 5 then endFile
  else if b = 6 then endTransfer else if b = 7 then createSymlink else unnamed b

end PacketType

/-- `FTProto::PacketHeader`. -/
structure PacketHeader where
  type : PacketType
  flags : UInt8 := 0
  size : UInt16
  fileId : UInt32
  deriving DecidableEq, Repr

/-- `sizeof(FTProto::PacketHeader)`. -/
def headerSize : Nat := 8
/-- `FTProto::PACKET_SIZE`. -/
def packetSize : Nat := packetPayloadSize - headerSize

namespace PacketHeader

/-- The packed header. -/
def toBytes (h : PacketHeader) : Bytes :=
  h.type.toByte :: h.flags ::
    (LittleEndian.encode 2 h.size.toNat ++ LittleEndian.encode 4 h.fileId.toNat)

/-- The header at the start of a buffer. -/
def ofBytes (b : Bytes) : PacketHeader where
  type := .ofByte (b.getD 0 0)
  flags := b.getD 1 0
  size := .ofNat (LittleEndian.decode ((b.drop 2).take 2))
  fileId := .ofNat (LittleEndian.decode ((b.drop 4).take 4))

@[simp] theorem length_toBytes (h : PacketHeader) : h.toBytes.length = headerSize := by
  simp [toBytes, headerSize]

/-- **A header survives the stream**, whatever follows it. -/
theorem ofBytes_toBytes {h : PacketHeader} (ht : PacketType.ofByte h.type.toByte = h.type)
    (rest : Bytes) : ofBytes (h.toBytes ++ rest) = h := by
  obtain ⟨type, flags, size, fileId⟩ := h
  have hsize := LittleEndian.decode_at (k := 2) size.toNat_lt [type.toByte, flags]
    (LittleEndian.encode 4 fileId.toNat ++ rest)
  have hid := LittleEndian.decode_at (k := 4) fileId.toNat_lt
    (type.toByte :: flags :: LittleEndian.encode 2 size.toNat) rest
  simp only [ofBytes, toBytes, PacketHeader.mk.injEq, List.append_assoc, List.cons_append]
  refine ⟨ht, rfl, ?_, ?_⟩
  · exact (congrArg UInt16.ofNat hsize).trans UInt16.ofNat_toNat
  · simp only [List.length_cons, LittleEndian.length_encode, List.cons_append] at hid
    exact (congrArg UInt32.ofNat hid).trans UInt32.ofNat_toNat

end PacketHeader

/-- `FTProto::Packet`. -/
structure Packet where
  header : PacketHeader
  data : Bytes
  data_length : data.length = packetSize

namespace Packet

/-- `serialized_size`. -/
def serializedSize (p : Packet) : Nat := headerSize + p.header.size.toNat

/-- `get_payload_size`. -/
def getPayloadSize (p : Packet) : Nat := p.header.size.toNat

/-- The bytes of `data` that `header.size` announces: what the code reads at
`get_payload()` for `get_payload_size()` bytes. -/
def payload (p : Packet) : Bytes := p.data.take p.header.size.toNat

/-- `as_bytes`. -/
def asBytes (p : Packet) : Bytes := (p.header.toBytes ++ p.data).take p.serializedSize

/-- A copy into `data` leaves its size as it is. -/
theorem length_copied (p : Packet) (src : Bytes) :
    (Buffer.overlay p.data src).length = packetSize := by
  rw [Buffer.length_overlay, p.data_length]

/-- `set_payload`: the packet after it, and what it returns. -/
def setPayload (p : Packet) (src : Bytes) : Packet × Option Error :=
  if packetSize < src.length then (p, some (.filehopz .packetTooLarge))
  else
    ({ p with
        header := { p.header with size := .ofNat src.length }
        data := Buffer.overlay p.data src
        data_length := p.length_copied src }, none)

theorem asBytes_eq (p : Packet) : p.asBytes = p.header.toBytes ++ p.payload := by
  rw [asBytes, serializedSize, ← p.header.length_toBytes, List.take_length_add_append, payload]

theorem length_payload {p : Packet} (h : p.header.size.toNat ≤ packetSize) :
    p.payload.length = p.header.size.toNat := by
  rw [payload, List.length_take, p.data_length, Nat.min_eq_left h]

end Packet
end FTProto
end FileHopZ

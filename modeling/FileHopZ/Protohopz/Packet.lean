import FileHopZ.Library.Buffer
import FileHopZ.Library.LittleEndian
import FileHopZ.Utils.CryptoContext
import Mathlib.Data.Rat.Defs

/-! # `PHZ::Packet` and its wire form

A datagram is the packed header followed by as many bytes of the payload region
as `header.size` says.  A received datagram is written over whatever the receive
buffer held, so a short datagram leaves older bytes in the fields it does not
reach: `receiveFrom` keeps the old buffer as an argument.
-/
namespace FileHopZ

/-- `PHZ::CRYPT_OVERHEAD`. -/
def cryptOverhead : Nat := nonceLen + tagLen
/-- `PHZ::PACKET_PAYLOAD_SIZE`. -/
def packetPayloadSize : Nat := 1400
/-- `PHZ::PACKET_SIZE`. -/
def packetSize : Nat := packetPayloadSize + cryptOverhead
/-- `PHZ::TIMEOUT`, in milliseconds. -/
def timeout : Nat := 128
/-- `PHZ::IDLE_TIMEOUT`, in milliseconds. -/
def idleTimeout : Nat := 60000
/-- `PHZ::INITIAL_CWND`. -/
def initialCwnd : ℚ := 64
/-- `PHZ::MAX_CWND`. -/
def maxCwnd : ℚ := 1024
/-- `PHZ::MAX_IN_FLIGHT`. -/
def maxInFlight : Nat := 1024
/-- `PHZ::MAX_PACKETS_BUFFER`. -/
def maxPacketsBuffer : Nat := 65536
/-- `sizeof(PHZ::PacketHeader)`. -/
def headerSize : Nat := 8

/-- `PHZ::PacketType`.  The field is one byte that comes from the network, so it
can also hold a value without a name. -/
inductive PacketType
  | keepAlive
  | data
  | handshake
  | ack
  | endTransfer
  | unnamed (code : UInt8)
  deriving DecidableEq, Repr

namespace PacketType

def toByte : PacketType → UInt8
  | keepAlive => 0
  | data => 1
  | handshake => 2
  | ack => 3
  | endTransfer => 4
  | unnamed code => code

def ofByte (b : UInt8) : PacketType :=
  if b = 0 then keepAlive else if b = 1 then data else if b = 2 then handshake
  else if b = 3 then ack else if b = 4 then endTransfer else unnamed b

end PacketType

/-- `PHZ::PacketHeader`. -/
structure PacketHeader where
  type : PacketType
  flags : UInt8 := 0
  size : UInt16
  sequence : UInt32
  deriving DecidableEq, Repr

namespace PacketHeader

/-- The packed header. -/
def toBytes (h : PacketHeader) : Bytes :=
  h.type.toByte :: h.flags ::
    (LittleEndian.encode 2 h.size.toNat ++ LittleEndian.encode 4 h.sequence.toNat)

/-- The header at the start of a buffer. -/
def ofBytes (b : Bytes) : PacketHeader where
  type := .ofByte (b.getD 0 0)
  flags := b.getD 1 0
  size := .ofNat (LittleEndian.decode ((b.drop 2).take 2))
  sequence := .ofNat (LittleEndian.decode ((b.drop 4).take 4))

@[simp] theorem length_toBytes (h : PacketHeader) : h.toBytes.length = headerSize := by
  simp [toBytes, headerSize]

/-- **A header survives the wire**, whatever follows it in the buffer. -/
theorem ofBytes_toBytes {h : PacketHeader} (ht : PacketType.ofByte h.type.toByte = h.type)
    (rest : Bytes) : ofBytes (h.toBytes ++ rest) = h := by
  obtain ⟨type, flags, size, sequence⟩ := h
  have hsize := LittleEndian.decode_at (k := 2) size.toNat_lt [type.toByte, flags]
    (LittleEndian.encode 4 sequence.toNat ++ rest)
  have hseq := LittleEndian.decode_at (k := 4) sequence.toNat_lt
    (type.toByte :: flags :: LittleEndian.encode 2 size.toNat) rest
  simp only [ofBytes, toBytes, PacketHeader.mk.injEq, List.append_assoc, List.cons_append]
  refine ⟨ht, rfl, ?_, ?_⟩
  · rw [← List.append_assoc, List.append_assoc]
    exact (congrArg UInt16.ofNat hsize).trans UInt16.ofNat_toNat
  · simp only [List.length_cons, LittleEndian.length_encode, List.cons_append] at hseq
    exact (congrArg UInt32.ofNat hseq).trans UInt32.ofNat_toNat

/-- The number survives the wire, whatever the type. -/
theorem sequence_ofBytes_toBytes (h : PacketHeader) (rest : Bytes) :
    (ofBytes (h.toBytes ++ rest)).sequence = h.sequence := by
  obtain ⟨type, flags, size, sequence⟩ := h
  have hseq := LittleEndian.decode_at (k := 4) sequence.toNat_lt
    (type.toByte :: flags :: LittleEndian.encode 2 size.toNat) rest
  simp only [List.length_cons, LittleEndian.length_encode, List.cons_append] at hseq
  simp only [ofBytes, toBytes, List.append_assoc, List.cons_append]
  exact (congrArg UInt32.ofNat hseq).trans UInt32.ofNat_toNat

end PacketHeader

/-- `PHZ::Packet`.  `payload` is the region of `payload` and `crypt_info`, which
lie side by side. -/
structure Packet where
  header : PacketHeader
  payload : Bytes
  payload_length : payload.length = packetSize

namespace Packet

/-- A packet with a cleared payload region. -/
def blank (header : PacketHeader) : Packet where
  header := header
  payload := List.replicate packetSize 0
  payload_length := List.length_replicate

/-- `memcpy` to the start of the payload region. -/
def copyIn (p : Packet) (bytes : Bytes) : Packet where
  header := { p.header with size := .ofNat bytes.length }
  payload := Buffer.overlay p.payload bytes
  payload_length := by rw [Buffer.length_overlay, p.payload_length]

/-- The packet under another sequence number. -/
def withSequence (p : Packet) (sequence : UInt32) : Packet :=
  { p with header := { p.header with sequence := sequence } }

/-- The bytes of the payload region that `header.size` announces. -/
def data (p : Packet) : Bytes := p.payload.take p.header.size.toNat

/-- The memory of the packet. -/
def toBytes (p : Packet) : Bytes := p.header.toBytes ++ p.payload

/-- What `async_send_to` puts on the wire: the header and `header.size` bytes. -/
def datagram (p : Packet) : Bytes := p.toBytes.take (headerSize + p.header.size.toNat)

theorem length_toBytes (p : Packet) : p.toBytes.length = headerSize + packetSize := by
  rw [toBytes, List.length_append, p.header.length_toBytes, p.payload_length]

/-- The memory of `buffer` after `async_receive_from` wrote a datagram to it. -/
def receiveFrom (buffer : Packet) (datagram : Bytes) : Packet where
  header := .ofBytes (Buffer.overlay buffer.toBytes datagram)
  payload := (Buffer.overlay buffer.toBytes datagram).drop headerSize
  payload_length := by
    rw [List.length_drop, Buffer.length_overlay, length_toBytes, Nat.add_sub_cancel_left]

@[simp] theorem copyIn_type (p : Packet) (b : Bytes) :
    (p.copyIn b).header.type = p.header.type := rfl
@[simp] theorem copyIn_sequence (p : Packet) (b : Bytes) :
    (p.copyIn b).header.sequence = p.header.sequence := rfl
@[simp] theorem withSequence_type (p : Packet) (s : UInt32) :
    (p.withSequence s).header.type = p.header.type := rfl
@[simp] theorem withSequence_sequence (p : Packet) (s : UInt32) :
    (p.withSequence s).header.sequence = s := rfl
@[simp] theorem withSequence_size (p : Packet) (s : UInt32) :
    (p.withSequence s).header.size = p.header.size := rfl
@[simp] theorem withSequence_data (p : Packet) (s : UInt32) : (p.withSequence s).data = p.data :=
  rfl
@[simp] theorem blank_header (h : PacketHeader) : (blank h).header = h := rfl

theorem copyIn_size {p : Packet} {b : Bytes} (h : b.length ≤ packetSize) :
    (p.copyIn b).header.size.toNat = b.length := by
  have : packetSize < 65536 := by decide
  show (UInt16.ofNat b.length).toNat = b.length
  rw [UInt16.toNat_ofNat_of_lt']
  exact Nat.lt_of_le_of_lt h this

/-- **What was copied in is what the packet carries.** -/
theorem copyIn_data {p : Packet} {b : Bytes} (h : b.length ≤ packetSize) :
    (p.copyIn b).data = b := by
  rw [data, copyIn_size h]
  exact Buffer.take_overlay (by rw [p.payload_length]; exact h)

theorem length_data {p : Packet} (h : p.header.size.toNat ≤ packetSize) :
    p.data.length = p.header.size.toNat := by
  rw [data, List.length_take, p.payload_length, Nat.min_eq_left h]

theorem datagram_eq (p : Packet) : p.datagram = p.header.toBytes ++ p.data := by
  rw [datagram, toBytes, ← p.header.length_toBytes, List.take_length_add_append, data]

theorem sequence_ofBytes_datagram (p : Packet) :
    (PacketHeader.ofBytes p.datagram).sequence = p.header.sequence := by
  rw [p.datagram_eq, PacketHeader.sequence_ofBytes_toBytes]

/-- A header followed by bytes that fit is received as such: the header and
the bytes, over whatever the buffer held. -/
theorem receiveFrom_append (buffer : Packet) {h : PacketHeader} {body : Bytes}
    (ht : PacketType.ofByte h.type.toByte = h.type) (hb : body.length ≤ packetSize) :
    (receiveFrom buffer (h.toBytes ++ body)).header = h ∧
      (receiveFrom buffer (h.toBytes ++ body)).payload.take body.length = body := by
  have hlen : (h.toBytes ++ body).length ≤ buffer.toBytes.length := by
    rw [length_toBytes, List.length_append, h.length_toBytes]
    omega
  have hover : Buffer.overlay buffer.toBytes (h.toBytes ++ body) =
      h.toBytes ++ (body ++ buffer.toBytes.drop (h.toBytes ++ body).length) := by
    rw [Buffer.overlay, ← List.append_assoc]
    refine List.take_of_length_le (Nat.le_of_eq ?_)
    rw [List.length_append, List.length_drop]
    omega
  constructor
  · show PacketHeader.ofBytes _ = h
    rw [hover, PacketHeader.ofBytes_toBytes ht]
  · show ((Buffer.overlay _ _).drop headerSize).take body.length = body
    rw [hover, ← h.length_toBytes, List.drop_left, List.take_left]

/-- **A packet survives the wire**: its header and the bytes it carries do not
depend on what the receive buffer held. -/
theorem receiveFrom_datagram {buffer p : Packet}
    (ht : PacketType.ofByte p.header.type.toByte = p.header.type)
    (hs : p.header.size.toNat ≤ packetSize) :
    (receiveFrom buffer p.datagram).header = p.header ∧
      (receiveFrom buffer p.datagram).data = p.data := by
  have hlen := length_data hs
  obtain ⟨hh, hd⟩ := receiveFrom_append buffer ht (by rw [hlen]; exact hs)
  rw [datagram_eq]
  exact ⟨hh, by rw [data, hh, ← hlen, hd]⟩

end Packet
end FileHopZ

import FileHopZ.FtpPacket
import FileHopZ.Protohopz.ProtoStream

/-! # How `Receiver` makes a packet of a chunk

`transfer_confirmation` and `start_transfer` copy the header out of the chunk,
check that the chunk is as long as the header says, and copy the payload into
`packet.data`.  Neither compares `header.size` with the size of that array: they
rely on what the stream delivers.
-/
namespace FileHopZ
namespace Receiver

/-- The bytes at `chunk.data_`. -/
def chunkBytes (chunk : Chunk) : Bytes := chunk.data.getD []

/-- The checks before the payload copy, in `start_transfer`: the header if they
pass. -/
def startTransferHeader (chunk : Chunk) : Except Error FTProto.PacketHeader :=
  if chunk.size < FTProto.headerSize then .error (.filehopz .malformedPacket)
  else
    let header := FTProto.PacketHeader.ofBytes (chunkBytes chunk)
    if chunk.size < FTProto.headerSize + header.size.toNat then
      .error (.filehopz .malformedPacket)
    else .ok header

/-- `sizeof(uint64_t)`, the size of the announcement. -/
def announcementSize : Nat := 8

/-- The checks before the payload copy, in `transfer_confirmation`. -/
def transferConfirmationHeader (chunk : Chunk) : Except Error FTProto.PacketHeader :=
  if chunk.empty then .error (.filehopz .malformedPacket)
  else do
    let header ← startTransferHeader chunk
    if header.size.toNat < announcementSize then .error (.filehopz .malformedPacket)
    else .ok header

/-- The payload copy; `memory` is what the local packet held. -/
def copyPayload (memory : FTProto.Packet) (chunk : Chunk) (header : FTProto.PacketHeader) :
    FTProto.Packet where
  header := header
  data := Buffer.overlay memory.data
    (((chunkBytes chunk).drop FTProto.headerSize).take header.size.toNat)
  data_length := memory.length_copied _

/-- The packet `start_transfer` makes of a chunk. -/
def startTransferPacket (memory : FTProto.Packet) (chunk : Chunk) : Except Error FTProto.Packet :=
  (startTransferHeader chunk).map (copyPayload memory chunk)

/-- The packet `transfer_confirmation` makes of a chunk. -/
def transferConfirmationPacket (memory : FTProto.Packet) (chunk : Chunk) :
    Except Error FTProto.Packet :=
  (transferConfirmationHeader chunk).map (copyPayload memory chunk)

/-- The header fits in the chunk when the checks of `start_transfer` pass. -/
theorem size_of_startTransferHeader {chunk : Chunk} {header : FTProto.PacketHeader}
    (h : startTransferHeader chunk = .ok header) :
    FTProto.headerSize + header.size.toNat ≤ chunk.size := by
  simp only [startTransferHeader] at h
  split_ifs at h with hshort hlong
  obtain rfl := Except.ok.inj h
  exact not_lt.mp hlong

/-- `transfer_confirmation` makes the checks of `start_transfer`, and more. -/
theorem startTransferHeader_of_confirmation {chunk : Chunk} {header : FTProto.PacketHeader}
    (h : transferConfirmationHeader chunk = .ok header) :
    startTransferHeader chunk = .ok header ∧ announcementSize ≤ header.size.toNat := by
  simp only [transferConfirmationHeader, bind, Except.bind] at h
  split_ifs at h
  split at h
  · cases h
  · rename_i header' hheader
    split_ifs at h with hsize
    obtain rfl := Except.ok.inj h
    exact ⟨hheader, not_lt.mp hsize⟩

/-- **The payload copy stays inside `packet.data`** when the chunk is no larger than a
payload of the stream. -/
theorem copy_in_bounds {chunk : Chunk} (hchunk : chunk.size ≤ packetPayloadSize)
    {header : FTProto.PacketHeader}
    (h : startTransferHeader chunk = .ok header ∨ transferConfirmationHeader chunk = .ok header) :
    header.size.toNat ≤ FTProto.packetSize := by
  have hstart : startTransferHeader chunk = .ok header :=
    h.elim id fun h => (startTransferHeader_of_confirmation h).1
  have hsize := size_of_startTransferHeader hstart
  unfold FTProto.packetSize
  omega

end Receiver
end FileHopZ

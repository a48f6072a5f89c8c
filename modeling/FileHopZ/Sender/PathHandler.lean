import FileHopZ.FtpPacket

/-! # `Sender::path_handler`

It sends one entry of the tree: a directory or a link in one packet, a file in a packet with
its path, packets with its contents and a packet that ends it.  What the system says of the
entry, what the calls of `send` run into and what the local packets hold before they are
written to are arguments.
-/
namespace FileHopZ

/-- What `symlink_status` says of an entry, with what is read of it. -/
inductive FileStatus
  | directory
  /-- `none` if it does not open. -/
  | regular (contents : Option Bytes)
  | symlink (target : Bytes)
  | other

/-- The fields of `Sender`. -/
structure Sender where
  bytesToTransfer : UInt64 := 0
  fileIdCounter : UInt32 := 0

namespace Sender

/-! ## Sending -/

/-- What a call of `ProtoStream::send` runs into. -/
inductive Sending
  /-- `start_loops` fails. -/
  | unstarted (ec : Error)
  /-- The transport returns. -/
  | forwarded (ec : Option Error)

/-- `ProtoStream::send` of `as_bytes(packet)`: what it gives to the transport, and what it
returns. -/
def send (sending : Sending) (packet : FTProto.Packet) : List Bytes × Option Error :=
  match sending with
  | .unstarted ec => ([], some ec)
  | .forwarded ec =>
      if packetPayloadSize < packet.serializedSize then
        ([], some (.filehopz .streamPayloadTooLarge))
      else ([packet.asBytes], ec)

/-- One packet after the other, up to the first error; `k` counts the calls of `send`. -/
def sendAll (sending : Nat → Sending) : Nat → List FTProto.Packet → List Bytes × Option Error
  | _, [] => ([], none)
  | k, packet :: packets =>
      match send (sending k) packet with
      | (sent, some ec) => (sent, some ec)
      | (sent, none) =>
          let rest := sendAll sending (k + 1) packets
          (sent ++ rest.1, rest.2)

/-! ## The packets -/

/-- The payload of `CREATE_SYMLINK`: the length of the path, the path and the target. -/
def symlinkPayload (relativePath target : Bytes) : Bytes :=
  LittleEndian.encode 2 relativePath.length ++ relativePath ++ target

/-- A packet with this header and with `payload` copied to the start of its `data`. -/
def filled (memory : FTProto.Packet) (header : FTProto.PacketHeader) (payload : Bytes) :
    FTProto.Packet where
  header := header
  data := Buffer.overlay memory.data payload
  data_length := memory.length_copied payload

/-- `CREATE_SYMLINK`. -/
def symlinkPacket (memory : FTProto.Packet) (relativePath target : Bytes) : FTProto.Packet :=
  filled memory
    { type := .createSymlink, size := .ofNat (2 + relativePath.length + target.length), fileId := 0 }
    (symlinkPayload relativePath target)

/-- `CREATE_DIRECTORY`; what `set_payload` returns is not looked at. -/
def directoryPacket (memory : FTProto.Packet) (fileId : UInt32) (relativePath : Bytes) :
    FTProto.Packet :=
  ({ memory with header := { type := .createDirectory, size := 0, fileId := fileId } }.setPayload
    relativePath).1

/-- `CREATE_FILE`; `set_payload` comes first, and `header.size` is not set before it. -/
def filePacket (memory : FTProto.Packet) (fileId : UInt32) (relativePath : Bytes) :
    FTProto.Packet :=
  let packet := (memory.setPayload relativePath).1
  { packet with header := { packet.header with type := .createFile, flags := 0, fileId := fileId } }

/-- `FILE_DATA`, with the bytes read. -/
def dataPacket (memory : FTProto.Packet) (fileId : UInt32) (read : Bytes) : FTProto.Packet :=
  filled memory { type := .fileData, size := .ofNat read.length, fileId := fileId } read

/-- `END_FILE`. -/
def endFilePacket (memory : FTProto.Packet) (fileId : UInt32) : FTProto.Packet :=
  { memory with header := { type := .endFile, size := 0, fileId := fileId } }

/-- The loop over the contents: it goes on while it reads a whole packet. -/
def dataPackets (memory : Nat → FTProto.Packet) (fileId : UInt32) (k : Nat) (contents : Bytes) :
    List FTProto.Packet :=
  let read := contents.take FTProto.packetSize
  if read.length = FTProto.packetSize then
    dataPacket (memory k) fileId read ::
      dataPackets memory fileId (k + 1) (contents.drop FTProto.packetSize)
  else [dataPacket (memory k) fileId read]
termination_by contents.length
decreasing_by
  have hread : (contents.take FTProto.packetSize).length = FTProto.packetSize := by assumption
  have hpos : 0 < FTProto.packetSize := by decide
  rw [List.length_take] at hread
  rw [List.length_drop]
  omega

/-- `path_handler`: what is given to the transport, and what it returns.  The `k`-th local
packet is in `memory k` before it is written to. -/
def pathHandler (memory : Nat → FTProto.Packet) (sending : Nat → Sending) (relativePath : Bytes)
    (status : FileStatus) (s : Sender) : Sender × List Bytes × Option Error :=
  let fileId := s.fileIdCounter
  let next := { s with fileIdCounter := fileId + 1 }
  match status with
  | .symlink target =>
      if FTProto.packetSize < 2 + relativePath.length + target.length then
        (s, [], some (.filehopz .symlinkPayloadTooLarge))
      else (s, send (sending 0) (symlinkPacket (memory 0) relativePath target))
  | .directory => (next, send (sending 0) (directoryPacket (memory 0) fileId relativePath))
  | .regular none => (s, [], some (.filehopz .fileOpenFailed))
  | .regular (some contents) =>
      let data := dataPackets memory fileId 1 contents
      (next, sendAll sending 0 (filePacket (memory 0) fileId relativePath ::
        (data ++ [endFilePacket (memory (data.length + 1)) fileId])))
  | .other => (s, [], some (.filehopz .unsupportedFileType))

end Sender
end FileHopZ

import FileHopZ.Receiver.Parse
import FileHopZ.Library.Run
import FileHopZ.Utils.FileBuilder

/-! # `Receiver`

`start` waits for the announcement of the sender, asks the user, answers the sender,
handles packet after packet until `END_TRANSFER`, and commits what it has built.

A step of `start` goes from one suspension to the next; what the stream delivers, what
the user types, how the calls of the system fail and what lies in memory behind a packet
are part of the event.  The progress that is printed is left out: `print_progress`
never fails.
-/
namespace FileHopZ

/-- The bytes the code reads at `get_payload()`: those past `data` are what `beyond`
holds. -/
def FTProto.Packet.read (beyond : Nat → UInt8) (p : FTProto.Packet) : Bytes :=
  p.payload ++ (List.range (p.header.size.toNat - FTProto.packetSize)).map beyond

theorem FTProto.Packet.length_read (beyond : Nat → UInt8) (p : FTProto.Packet) :
    (p.read beyond).length = p.getPayloadSize := by
  simp only [read, payload, getPayloadSize, List.length_append, List.length_take, p.data_length,
    List.length_map, List.length_range]
  omega

theorem FTProto.Packet.read_eq_payload {p : FTProto.Packet}
    (h : p.header.size.toNat ≤ FTProto.packetSize) (beyond : Nat → UInt8) :
    p.read beyond = p.payload := by
  rw [read, Nat.sub_eq_zero_of_le h]
  simp

/-- Where `start` is. -/
inductive ReceiverFrame
  /-- in `receive`, for the announcement -/
  | announcing
  /-- reading a line of the user -/
  | asking
  /-- in `send`, of `CONFIRM` -/
  | confirming
  /-- in `send`, of `CONFIRM_FAILED` -/
  | refusing
  /-- in `receive`, in the loop of `start_transfer` -/
  | transferring
  | closing
  | returned (ec : Option Error)
  deriving DecidableEq

/-- The fields of `Receiver`, the disk it works on, and where `start` is. -/
structure Receiver where
  bytesToTransfer : UInt64 := 0
  bytesRemaining : UInt64 := 0
  endTransferFlag : Bool := false
  fileBuilder : FileBuilder
  disk : Disk
  frame : ReceiverFrame := .announcing

namespace Receiver

/-- What a step shows. -/
inductive Observation
  /-- `File_builder::write` succeeded with these bytes. -/
  | wrote (fileId : UInt32) (data : Bytes)
  /-- A packet without payload was given to the stream. -/
  | sends (header : FTProto.PacketHeader)

/-! ## `handle_packet` -/

/-- `extract_symlink`: the path of the link and its target. -/
def extractSymlink (payload : Bytes) : Except Error (Bytes × Bytes) :=
  if payload.length < 2 then .error (.filehopz .malformedSymlinkPayload)
  else
    let linkPathSize := LittleEndian.decode (payload.take 2)
    if payload.length - 2 < linkPathSize then .error (.filehopz .malformedSymlinkPayload)
    else .ok ((payload.drop 2).take linkPathSize, (payload.drop 2).drop linkPathSize)

/-- How the calls of `handle_packet` fail, and how much of what it has a stream puts on the
disk. -/
structure PacketFaults where
  directory : FileSystem.Fault := none
  file : FileBuilder.FileFaults := {}
  symlink : FileBuilder.SymlinkFaults := {}
  put : Nat := 0
  write : Option Bytes := none
  close : Option Nat := none

/-- None of them fails.  A destructor that does tells nobody. -/
def PacketFaults.Absent (faults : PacketFaults) : Prop :=
  ∃ count replaced, faults = { put := count, file := { replaced := replaced } }

/-- `handle_packet`. -/
def handlePacket (faults : PacketFaults) (beyond : Nat → UInt8) (packet : FTProto.Packet)
    (r : Receiver) : Receiver × Option Error × List Observation :=
  let payload := packet.read beyond
  match packet.header.type with
  | .createDirectory =>
      let made := r.fileBuilder.createDirectory faults.directory payload r.disk
      ({ r with disk := made.1 }, made.2, [])
  | .createFile =>
      let made := r.fileBuilder.createFile faults.file payload packet.header.fileId r.disk
      ({ r with fileBuilder := made.1, disk := made.2.1 }, made.2.2, [])
  | .createSymlink =>
      match extractSymlink payload with
      | .error ec => (r, some ec, [])
      | .ok (relativePath, target) =>
          let made := r.fileBuilder.createSymlink faults.symlink relativePath target r.disk
          ({ r with disk := made.1 }, made.2, [])
  | .fileData =>
      if packet.getPayloadSize ≤ r.bytesRemaining.toNat then
        match r.fileBuilder.write faults.put faults.write payload packet.header.fileId r.disk with
        | (fileBuilder, disk, some ec) =>
            ({ r with fileBuilder := fileBuilder, disk := disk }, some ec, [])
        | (fileBuilder, disk, none) =>
            ({ r with
                fileBuilder := fileBuilder
                disk := disk
                bytesRemaining := r.bytesRemaining - .ofNat packet.getPayloadSize }, none,
              [.wrote packet.header.fileId payload])
      else (r, some (.filehopz .transferSizeExceeded), [])
  | .endFile =>
      let closed := r.fileBuilder.closeFile faults.close packet.header.fileId r.disk
      ({ r with fileBuilder := closed.1, disk := closed.2.1 }, closed.2.2, [])
  | .endTransfer =>
      if r.bytesRemaining ≠ 0 then (r, some (.filehopz .prematureEndTransfer), [])
      else ({ r with endTransferFlag := true }, none, [])
  | _ => (r, some (.filehopz .unknownPacketType), [])

/-- `handle_packet` only builds. -/
theorem keeps_handlePacket (faults : PacketFaults) (beyond : Nat → UInt8)
    (packet : FTProto.Packet) (r : Receiver) :
    r.fileBuilder.Keeps r.disk (r.handlePacket faults beyond packet).1.fileBuilder
        (r.handlePacket faults beyond packet).1.disk ∧
      (r.handlePacket faults beyond packet).1.frame = r.frame := by
  unfold handlePacket
  dsimp only
  split
  · exact ⟨r.fileBuilder.keeps_createDirectory r.disk _ _, rfl⟩
  · exact ⟨r.fileBuilder.keeps_createFile r.disk _ _ _, rfl⟩
  · split
    · exact ⟨FileBuilder.keeps_same (.refl r.disk), rfl⟩
    · exact ⟨r.fileBuilder.keeps_createSymlink r.disk _ _ _, rfl⟩
  · have hwrite := r.fileBuilder.keeps_write r.disk faults.put faults.write
      (packet.read beyond) packet.header.fileId
    split_ifs
    · split
      · rename_i heq
        rw [heq] at hwrite
        exact ⟨hwrite, rfl⟩
      · rename_i heq
        rw [heq] at hwrite
        exact ⟨hwrite, rfl⟩
    · exact ⟨FileBuilder.keeps_same (.refl r.disk), rfl⟩
  · exact ⟨r.fileBuilder.keeps_closeFile r.disk _ _, rfl⟩
  · split_ifs
    · exact ⟨FileBuilder.keeps_same (.refl r.disk), rfl⟩
    · exact ⟨FileBuilder.keeps_same (.refl r.disk), rfl⟩
  · exact ⟨FileBuilder.keeps_same (.refl r.disk), rfl⟩

/-! ## `start` -/

/-- The constructor. -/
def construct (outputDirectory : List (FileSystem.Component Bytes)) (name : Nat → Bytes)
    (directories : FileSystem.Fault) (fault : Nat → Option FileSystem.Errno) (disk : Disk) :
    Receiver :=
  let built := FileBuilder.construct outputDirectory name directories fault disk
  { fileBuilder := built.1, disk := built.2 }

/-- What can happen when `start` goes on with what `receive` has returned. -/
structure Arrival where
  result : Except Error Chunk
  /-- What the local packet held. -/
  memory : FTProto.Packet
  beyond : Nat → UInt8 := fun _ => 0
  faults : PacketFaults := {}
  close : FileBuilder.CloseFaults := {}
  removeAll : FileBuilder.RemoveFault := none
  commit : FileBuilder.CommitFaults := {}

inductive Event
  | received (arrival : Arrival)
  | answered (line : String)
  | sent (ec : Option Error)
  | closed (ec : Option Error)

/-- `transfer_confirmation` goes on with the announcement. -/
def announced (arrival : Arrival) (r : Receiver) : Receiver :=
  match arrival.result >>= transferConfirmationPacket arrival.memory with
  | .error ec => { r with frame := .returned (some ec) }
  | .ok packet =>
      let total := UInt64.ofNat
        (LittleEndian.decode ((packet.read arrival.beyond).take announcementSize))
      { r with bytesToTransfer := total, bytesRemaining := total, frame := .asking }

/-- The packet by which the user's answer is sent. -/
def answerHeader (type : FTProto.PacketType) : FTProto.PacketHeader :=
  { type := type, flags := 0, size := 0, fileId := 0 }

/-- `transfer_confirmation` goes on with a line of the user. -/
def answered (line : String) (r : Receiver) : Receiver × List Observation :=
  if line = "Y" ∨ line = "y" then
    ({ r with frame := .confirming }, [.sends (answerHeader .confirm)])
  else if line = "n" ∨ line = "N" then
    ({ r with frame := .refusing }, [.sends (answerHeader .confirmFailed)])
  else (r, [])

/-- An error in the loop of `start_transfer`: the staging directory is removed. -/
def abandon (arrival : Arrival) (ec : Error) (r : Receiver) : Receiver :=
  let cleaned := r.fileBuilder.cleanup arrival.close arrival.removeAll r.disk
  { r with fileBuilder := cleaned.1, disk := cleaned.2, frame := .returned (some ec) }

/-- `start_transfer` after its loop, to its call of `close`. -/
def finishTransfer (arrival : Arrival) (r : Receiver) : Receiver :=
  match r.fileBuilder.commit arrival.commit r.disk with
  | (fileBuilder, disk, ec) =>
      { r with
        fileBuilder := fileBuilder
        disk := disk
        frame := match ec with
          | some ec => .returned (some ec)
          | none => .closing }

/-- `start_transfer` goes on with what `receive` has returned. -/
def transferred (arrival : Arrival) (r : Receiver) : Receiver × List Observation :=
  match arrival.result >>= startTransferPacket arrival.memory with
  | .error ec => (r.abandon arrival ec, [])
  | .ok packet =>
      match r.handlePacket arrival.faults arrival.beyond packet with
      | (r, some ec, out) => (r.abandon arrival ec, out)
      | (r, none, out) => (if r.endTransferFlag then r.finishTransfer arrival else r, out)

/-- The step function of `start`. -/
def step (r : Receiver) (e : Event) : Option (Receiver × List Observation) :=
  match r.frame, e with
  | .announcing, .received arrival => some (r.announced arrival, [])
  | .asking, .answered line => some (r.answered line)
  | .confirming, .sent (some ec) => some ({ r with frame := .returned (some ec) }, [])
  | .confirming, .sent none => some ({ r with frame := .transferring }, [])
  | .refusing, .sent ec => some ({ r with frame := .returned ec }, [])
  | .transferring, .received arrival => some (r.transferred arrival)
  | .closing, .closed ec => some ({ r with frame := .returned ec }, [])
  | _, _ => none

/-! ## A receiver to run -/

/-- An output directory `o` with a staging directory `s`. -/
def sampleDisk : Disk :=
  (FileSystem.FileTree.bare.graft [[111]] .directory).graft [[111], [115]] .directory

def sampleReceiver : Receiver where
  fileBuilder := { root := [[111]], stagingRoot := some [[111], [115]] }
  disk := sampleDisk

/-- A packet with zeros behind its payload. -/
def samplePacket (type : FTProto.PacketType) (fileId : UInt32) (payload : Bytes) :
    FTProto.Packet where
  header := { type := type, size := .ofNat payload.length, fileId := fileId }
  data := Buffer.overlay (List.replicate FTProto.packetSize 0) payload
  data_length := by rw [Buffer.length_overlay, List.length_replicate]

end Receiver
end FileHopZ

import FileHopZ.Sender.Transfer

/-! # `Sender` from one suspension to the next

`start` is suspended in its calls of `send`, `receive` and `close`.  A step goes from one of them
to the next; what the call returns, and what the local packets hold before they are written to,
are part of the event.  The source stays as it is, and the progress that is printed is left out:
`print_progress` never fails.
-/
namespace FileHopZ
open FileSystem FileBuilder

/-- Where `start` is. -/
inductive SenderFrame
  /-- in `send`, of the announcement -/
  | announcing (packet : FTProto.Packet)
  /-- in `receive`, for the answer -/
  | confirming
  /-- in `send`, in `path_handler`, which has more packets to send -/
  | handling (packet : FTProto.Packet) (left : List FTProto.Packet)
  /-- in `send`, of `END_TRANSFER` -/
  | ending (packet : FTProto.Packet)
  | closing
  | returned (ec : Option Error)

/-- The fields of `Sender`, its walker, and where `start` is. -/
structure SenderProcess where
  sender : Sender := {}
  walker : FileWalker
  frame : SenderFrame

namespace SenderProcess

/-- What a call returns; `memory` is what lies where the next local packets will be. -/
inductive Event
  | sent (ec : Option Error) (memory : Nat → FTProto.Packet)
  | received (result : Except Error Chunk) (memory : Nat → FTProto.Packet)
  | closed (ec : Option Error)

/-- `path_handler`: the packets that it is going to send, or the error with which it returns at
once. -/
def pathPackets (memory : Nat → FTProto.Packet) (relativePath : Bytes) (status : FileStatus)
    (s : Sender) : Sender × Except Error (FTProto.Packet × List FTProto.Packet) :=
  let fileId := s.fileIdCounter
  let next := { s with fileIdCounter := fileId + 1 }
  match status with
  | .symlink target =>
      if FTProto.packetSize < 2 + relativePath.length + target.length then
        (s, .error (.filehopz .symlinkPayloadTooLarge))
      else (s, .ok (Sender.symlinkPacket (memory 0) relativePath target, []))
  | .directory => (next, .ok (Sender.directoryPacket (memory 0) fileId relativePath, []))
  | .regular none => (s, .error (.filehopz .fileOpenFailed))
  | .regular (some contents) =>
      let data := Sender.dataPackets memory fileId 1 contents
      (next, .ok (Sender.filePacket (memory 0) fileId relativePath,
        data ++ [Sender.endFilePacket (memory (data.length + 1)) fileId]))
  | .other => (s, .error (.filehopz .unsupportedFileType))

/-- The loop of `start_transfer` goes on. -/
def goOn (sys : System) (memory : Nat → FTProto.Packet) (p : SenderProcess) : SenderProcess :=
  match p.walker.next sys with
  | (w, false) => { p with walker := w, frame := .ending (Sender.endTransferPacket (memory 0)) }
  | (w, true) =>
      match pathPackets memory (FsPath.joined w.relativePath) (sys.symlinkStatus w.current)
        p.sender with
      | (s, .error ec) => { sender := s, walker := w, frame := .returned (some ec) }
      | (s, .ok (packet, left)) => { sender := s, walker := w, frame := .handling packet left }

/-- `transfer_confirmation` goes on with the answer. -/
def answered (sys : System) (memory : Nat → FTProto.Packet) (chunk : Chunk) (p : SenderProcess) :
    SenderProcess :=
  if chunk.size < FTProto.headerSize then
    { p with frame := .returned (some (.filehopz .malformedPacket)) }
  else if (FTProto.PacketHeader.ofBytes (Receiver.chunkBytes chunk)).type = .confirm then
    p.goOn sys memory
  else { p with frame := .returned (some (.filehopz .receiverRefusedTransfer)) }

/-- The step function of `start`. -/
def step (sys : System) (p : SenderProcess) (e : Event) : Option SenderProcess :=
  match p.frame, e with
  | .announcing _, .sent (some ec) _ => some { p with frame := .returned (some ec) }
  | .announcing _, .sent none _ => some { p with frame := .confirming }
  | .confirming, .received (.error ec) _ => some { p with frame := .returned (some ec) }
  | .confirming, .received (.ok chunk) memory => some (p.answered sys memory chunk)
  | .handling _ _, .sent (some ec) _ => some { p with frame := .returned (some ec) }
  | .handling _ (packet :: left), .sent none _ => some { p with frame := .handling packet left }
  | .handling _ [], .sent none memory => some (p.goOn sys memory)
  | .ending _, .sent (some ec) _ => some { p with frame := .returned (some ec) }
  | .ending _, .sent none _ => some { p with frame := .closing }
  | .closing, .closed ec => some { p with frame := .returned ec }
  | _, _ => none

/-- The possible steps. -/
inductive Step (sys : System) (p : SenderProcess) : Event → SenderProcess → Prop
  | failed (packet : FTProto.Packet) (ec : Error) (memory : Nat → FTProto.Packet)
      (hframe : p.frame = .announcing packet ∨ (∃ left, p.frame = .handling packet left) ∨
        p.frame = .ending packet) :
      Step sys p (.sent (some ec) memory) { p with frame := .returned (some ec) }
  | announced (packet : FTProto.Packet) (memory : Nat → FTProto.Packet)
      (hframe : p.frame = .announcing packet) :
      Step sys p (.sent none memory) { p with frame := .confirming }
  | unanswered (ec : Error) (memory : Nat → FTProto.Packet) (hframe : p.frame = .confirming) :
      Step sys p (.received (.error ec) memory) { p with frame := .returned (some ec) }
  | answered (chunk : Chunk) (memory : Nat → FTProto.Packet) (hframe : p.frame = .confirming) :
      Step sys p (.received (.ok chunk) memory) (p.answered sys memory chunk)
  | more (packet next : FTProto.Packet) (left : List FTProto.Packet)
      (memory : Nat → FTProto.Packet) (hframe : p.frame = .handling packet (next :: left)) :
      Step sys p (.sent none memory) { p with frame := .handling next left }
  | handled (packet : FTProto.Packet) (memory : Nat → FTProto.Packet)
      (hframe : p.frame = .handling packet []) : Step sys p (.sent none memory) (p.goOn sys memory)
  | ended (packet : FTProto.Packet) (memory : Nat → FTProto.Packet)
      (hframe : p.frame = .ending packet) :
      Step sys p (.sent none memory) { p with frame := .closing }
  | closed (ec : Option Error) (hframe : p.frame = .closing) :
      Step sys p (.closed ec) { p with frame := .returned ec }

theorem step_cases {sys : System} {p p' : SenderProcess} {e : Event}
    (hs : p.step sys e = some p') : Step sys p e p' := by
  unfold step at hs
  split at hs
  · obtain rfl := Option.some.inj hs
    exact .failed _ _ _ (Or.inl ‹_›)
  · obtain rfl := Option.some.inj hs
    exact .announced _ _ ‹_›
  · obtain rfl := Option.some.inj hs
    exact .unanswered _ _ ‹_›
  · obtain rfl := Option.some.inj hs
    exact .answered _ _ ‹_›
  · obtain rfl := Option.some.inj hs
    exact .failed _ _ _ (Or.inr (Or.inl ⟨_, ‹_›⟩))
  · obtain rfl := Option.some.inj hs
    exact .more _ _ _ _ ‹_›
  · obtain rfl := Option.some.inj hs
    exact .handled _ _ ‹_›
  · obtain rfl := Option.some.inj hs
    exact .failed _ _ _ (Or.inr (Or.inr ‹_›))
  · obtain rfl := Option.some.inj hs
    exact .ended _ _ ‹_›
  · obtain rfl := Option.some.inj hs
    exact .closed _ ‹_›
  · cases hs

/-- `start` up to its first suspension: the bytes have been counted. -/
def start (sys : System) (root : List Bytes) (memory : FTProto.Packet) : SenderProcess :=
  let visited := (FileWalker.construct sys root).visits sys
  let s := Sender.countBytes sys visited.1 {}
  { sender := s
    walker := visited.2.reset sys
    frame := .announcing (Sender.announcementPacket memory s.bytesToTransfer) }

/-- The packets are those that `path_handler` sends. -/
theorem pathHandler_eq (memory : Nat → FTProto.Packet) (sending : Nat → Sender.Sending)
    (relativePath : Bytes) (status : FileStatus) (s : Sender) :
    s.pathHandler memory sending relativePath status =
      ((pathPackets memory relativePath status s).1,
        match (pathPackets memory relativePath status s).2 with
        | .error ec => ([], some ec)
        | .ok (packet, left) => Sender.sendAll sending 0 (packet :: left)) := by
  have hone : ∀ packet, Sender.sendAll sending 0 [packet] = Sender.send (sending 0) packet := by
    intro packet
    rw [Sender.sendAll]
    split
    · rename_i heq
      exact heq.symm
    · rename_i sent heq
      rw [heq, Sender.sendAll]
      simp
  cases status with
  | symlink target =>
      simp only [Sender.pathHandler, pathPackets]
      split_ifs
      · rfl
      · exact congrArg (Prod.mk _) (hone _).symm
  | directory => exact congrArg (Prod.mk _) (hone _).symm
  | regular contents =>
      cases contents with
      | none | some contents => rfl
  | other => rfl

/-- The packets of an entry that has room in them. -/
theorem pathPackets_eq (memory : Nat → FTProto.Packet) {relativePath : Bytes}
    {v : FileSystem.Node Bytes UInt8} (h : Sender.HasRoom relativePath v) (s : Sender) :
    ∃ s' packet left, pathPackets memory relativePath (statusOf v) s = (s', .ok (packet, left)) ∧
      Sender.entryPackets memory s.fileIdCounter relativePath v = packet :: left := by
  cases v with
  | directory => exact ⟨_, _, [], rfl, rfl⟩
  | file contents => exact ⟨_, _, _, rfl, rfl⟩
  | symlink target =>
      refine ⟨s, _, [], ?_, rfl⟩
      rw [statusOf, pathPackets, if_neg (not_lt.mpr (h.link target rfl))]

end SenderProcess
end FileHopZ

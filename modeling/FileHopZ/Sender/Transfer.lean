import FileHopZ.Protohopz.ProtoStream
import FileHopZ.Sender.Metadata
import FileHopZ.Sender.Source

/-! # `Sender`

`transfer_confirmation` counts the bytes of the files, announces them and waits for the
answer; `start_transfer` goes through the entries once more, sends each of them, and ends with
`END_TRANSFER`.  What the calls of `send`, `receive` and `close` run into, and what the local
packets hold before they are written to, are arguments.
-/
namespace FileHopZ
open FileSystem FileBuilder

namespace Sender

/-- What a call of `path_handler` finds in memory, and what its calls of `send` run into. -/
structure EntryCalls where
  memory : Nat → FTProto.Packet
  sending : Nat → Sending

/-- The same for the two functions. -/
structure TransferCalls where
  memory : FTProto.Packet
  announcement : Sending
  reply : Except Error Chunk
  entry : Nat → EntryCalls
  endMemory : FTProto.Packet
  finish : Sending
  close : Option Error

/-- The first loop of `transfer_confirmation`. -/
def countBytes (sys : System) : List FileWalker → Sender → Sender
  | [], s => s
  | w :: ws, s =>
      match sys.symlinkStatus w.current with
      | .regular _ => countBytes sys ws
          { s with bytesToTransfer := s.bytesToTransfer + sys.fileSize w.current }
      | _ => countBytes sys ws s

/-- The announcement. -/
def announcementPacket (memory : FTProto.Packet) (total : UInt64) : FTProto.Packet :=
  ({ memory with header := { type := .confirm, size := 0, fileId := 0 } }.setPayload
    (LittleEndian.encode Receiver.announcementSize total.toNat)).1

/-- The loop of `start_transfer`; `k` counts the entries. -/
def sendEntries (calls : TransferCalls) (sys : System) :
    Nat → List FileWalker → Sender → Sender × List Bytes × Option Error
  | _, [], s => (s, [], none)
  | k, w :: ws, s =>
      match s.pathHandler (calls.entry k).memory (calls.entry k).sending
        (FsPath.joined w.relativePath) (sys.symlinkStatus w.current) with
      | (s, sent, some ec) => (s, sent, some ec)
      | (s, sent, none) =>
          let rest := sendEntries calls sys (k + 1) ws s
          (rest.1, sent ++ rest.2.1, rest.2.2)

/-- `END_TRANSFER`. -/
def endTransferPacket (memory : FTProto.Packet) : FTProto.Packet :=
  { memory with header := { type := .endTransfer, size := 0, fileId := 0 } }

/-- `start_transfer`: what is given to the transport, and what it returns. -/
def startTransfer (calls : TransferCalls) (sys : System) (w : FileWalker) (s : Sender) :
    Sender × List Bytes × Option Error :=
  match s.sendEntries calls sys 0 (w.visits sys).1 with
  | (s, sent, some ec) => (s, sent, some ec)
  | (s, sent, none) =>
      match send calls.finish (endTransferPacket calls.endMemory) with
      | (last, some ec) => (s, sent ++ last, some ec)
      | (last, none) => (s, sent ++ last, calls.close)

/-- `transfer_confirmation`. -/
def transferConfirmation (calls : TransferCalls) (sys : System) (w : FileWalker) (s : Sender) :
    Sender × List Bytes × Option Error :=
  let visited := w.visits sys
  let s := countBytes sys visited.1 s
  let w := visited.2.reset sys
  match send calls.announcement (announcementPacket calls.memory s.bytesToTransfer) with
  | (sent, some ec) => (s, sent, some ec)
  | (sent, none) =>
      match calls.reply with
      | .error ec => (s, sent, some ec)
      | .ok chunk =>
          if chunk.size < FTProto.headerSize then (s, sent, some (.filehopz .malformedPacket))
          else if (FTProto.PacketHeader.ofBytes (Receiver.chunkBytes chunk)).type = .confirm then
            let transferred := s.startTransfer calls sys w
            (transferred.1, sent ++ transferred.2.1, transferred.2.2)
          else (s, sent, some (.filehopz .receiverRefusedTransfer))

/-! ## When nothing fails -/

/-- Every call succeeds, and the receiver agrees. -/
structure TransferCalls.Succeed (calls : TransferCalls) : Prop where
  announcement : calls.announcement = .forwarded none
  entry : ∀ k i, (calls.entry k).sending i = .forwarded none
  finish : calls.finish = .forwarded none
  reply : ∃ chunk, calls.reply = .ok chunk ∧ FTProto.headerSize ≤ chunk.size ∧
    (FTProto.PacketHeader.ofBytes (Receiver.chunkBytes chunk)).type = .confirm

/-- A packet that the receiver can read. -/
structure Readable (p : FTProto.Packet) : Prop where
  type : FTProto.PacketType.ofByte p.header.type.toByte = p.header.type
  size : p.header.size.toNat ≤ FTProto.packetSize

theorem send_readable {p : FTProto.Packet} (h : Readable p) :
    send (.forwarded none) p = ([p.asBytes], none) := by
  have hsize : ¬ packetPayloadSize < p.serializedSize := by
    have := h.size
    unfold FTProto.packetSize at this
    unfold FTProto.Packet.serializedSize FTProto.headerSize packetPayloadSize at *
    omega
  rw [send, if_neg hsize]

theorem sendAll_readable {sending : Nat → Sending} (hsending : ∀ i, sending i = .forwarded none)
    {ps : List FTProto.Packet} (h : ∀ p ∈ ps, Readable p) (k : Nat) :
    sendAll sending k ps = (ps.map FTProto.Packet.asBytes, none) := by
  induction ps generalizing k with
  | nil => rfl
  | cons p ps ih =>
      rw [sendAll, hsending, send_readable (h p List.mem_cons_self)]
      dsimp only
      rw [ih fun q hq => h q (List.mem_cons_of_mem _ hq)]
      rfl

/-! ## The packets of an entry -/

section Filled
variable {memory : FTProto.Packet} {header : FTProto.PacketHeader} {payload : Bytes}

theorem size_toNat (h : payload.length ≤ FTProto.packetSize) :
    (UInt16.ofNat payload.length).toNat = payload.length := by
  have : FTProto.packetSize < 65536 := by decide
  exact UInt16.toNat_ofNat_of_lt' (by show payload.length < 65536; omega)

theorem readable_filled (ht : FTProto.PacketType.ofByte header.type.toByte = header.type)
    (hlength : payload.length ≤ FTProto.packetSize) (hsize : header.size = .ofNat payload.length) :
    Readable (filled memory header payload) := by
  refine ⟨ht, ?_⟩
  show header.size.toNat ≤ FTProto.packetSize
  rw [hsize, size_toNat hlength]
  exact hlength

theorem payload_filled (hlength : payload.length ≤ FTProto.packetSize)
    (hsize : header.size = .ofNat payload.length) : (filled memory header payload).payload = payload := by
  show (Buffer.overlay memory.data payload).take header.size.toNat = payload
  rw [hsize, size_toNat hlength]
  exact Buffer.take_overlay (by rw [memory.data_length]; exact hlength)

end Filled

/-- What is sent of an entry. -/
def entryPackets (memory : Nat → FTProto.Packet) (fileId : UInt32) (relativePath : Bytes) :
    FileSystem.Node Bytes UInt8 → List FTProto.Packet
  | .directory => [directoryPacket (memory 0) fileId relativePath]
  | .symlink target => [symlinkPacket (memory 0) relativePath target]
  | .file contents =>
      let data := dataPackets memory fileId 1 contents
      filePacket (memory 0) fileId relativePath ::
        (data ++ [endFilePacket (memory (data.length + 1)) fileId])

/-- The packets of an entry have room for what they are to carry. -/
structure HasRoom (relativePath : Bytes) (v : FileSystem.Node Bytes UInt8) : Prop where
  path : relativePath.length ≤ FTProto.packetSize
  link : ∀ target, v = .symlink target →
    2 + relativePath.length + target.length ≤ FTProto.packetSize

section DataPackets
variable {memory : Nat → FTProto.Packet} {fileId : UInt32}

theorem dataPackets_mem {k : Nat} {contents : Bytes} {p : FTProto.Packet}
    (h : p ∈ dataPackets memory fileId k contents) : ∃ m data,
      data.length ≤ FTProto.packetSize ∧ p = dataPacket m fileId data := by
  fun_induction dataPackets memory fileId k contents with
  | case1 k contents read hwhole ih =>
      rcases List.mem_cons.mp h with rfl | h
      · exact ⟨_, read, hwhole.le, rfl⟩
      · exact ih h
  | case2 k contents read hshort =>
      obtain rfl := List.mem_singleton.mp h
      exact ⟨_, read, List.length_take_le _ _, rfl⟩

/-- **They carry the contents.** -/
theorem dataPackets_payload (k : Nat) (contents : Bytes) :
    (dataPackets memory fileId k contents).flatMap FTProto.Packet.payload = contents := by
  fun_induction dataPackets memory fileId k contents with
  | case1 k contents read hwhole ih =>
      rw [List.flatMap_cons, ih, dataPacket, payload_filled hwhole.le rfl]
      exact List.take_append_drop _ _
  | case2 k contents read hshort =>
      rw [List.flatMap_cons, List.flatMap_nil, List.append_nil, dataPacket,
        payload_filled (List.length_take_le _ _) rfl]
      -- less than a packet has been read: that was all
      refine List.take_of_length_le (le_of_not_gt fun hlong => hshort ?_)
      rw [List.length_take]
      omega

end DataPackets

theorem readable_entryPackets {memory : Nat → FTProto.Packet} {fileId : UInt32}
    {relativePath : Bytes} {v : FileSystem.Node Bytes UInt8} (h : HasRoom relativePath v) :
    ∀ p ∈ entryPackets memory fileId relativePath v, Readable p := by
  intro p hp
  cases v with
  | directory =>
      obtain rfl := List.mem_singleton.mp hp
      rw [directoryPacket_eq _ _ h.path]
      exact readable_filled rfl h.path rfl
  | symlink target =>
      obtain rfl := List.mem_singleton.mp hp
      have hlink := h.link target rfl
      have hlength := length_symlinkPayload relativePath target
      exact readable_filled rfl (by rw [hlength]; exact hlink) (by rw [hlength])
  | file contents =>
      rcases List.mem_cons.mp hp with rfl | hp
      · rw [filePacket_eq _ _ h.path]
        exact readable_filled rfl h.path rfl
      rcases List.mem_append.mp hp with hp | hp
      · obtain ⟨m, data, hdata, rfl⟩ := dataPackets_mem hp
        exact readable_filled rfl hdata rfl
      · obtain rfl := List.mem_singleton.mp hp
        exact ⟨rfl, Nat.zero_le _⟩

/-- **What `path_handler` sends of an entry.** -/
theorem pathHandler_sends {memory : Nat → FTProto.Packet} {sending : Nat → Sending}
    (hsending : ∀ i, sending i = .forwarded none) {relativePath : Bytes}
    {v : FileSystem.Node Bytes UInt8} (h : HasRoom relativePath v) (s : Sender) : ∃ s',
    s.pathHandler memory sending relativePath (statusOf v) =
      (s', (entryPackets memory s.fileIdCounter relativePath v).map FTProto.Packet.asBytes, none) := by
  have hreadable := @readable_entryPackets memory s.fileIdCounter relativePath v h
  cases v with
  | directory =>
      refine ⟨{ s with fileIdCounter := s.fileIdCounter + 1 }, ?_⟩
      simp only [statusOf, pathHandler, hsending]
      rw [send_readable (hreadable _ List.mem_cons_self)]
      rfl
  | symlink target =>
      refine ⟨s, ?_⟩
      simp only [statusOf, pathHandler, hsending]
      rw [if_neg (not_lt.mpr (h.link target rfl)), send_readable (hreadable _ List.mem_cons_self)]
      rfl
  | file contents =>
      refine ⟨{ s with fileIdCounter := s.fileIdCounter + 1 }, ?_⟩
      exact congrArg (Prod.mk _) (sendAll_readable hsending hreadable 0)

/-! ## The whole transfer -/

/-- The datagrams of an entry of the source. -/
def EntryChunks (source : Source) (m : List Bytes) (chunks : List Bytes) : Prop :=
  ∃ memory fileId v, source.tree.node m = some v ∧
    chunks = (entryPackets memory fileId (FsPath.joined m) v).map FTProto.Packet.asBytes

/-- The entries have room in their packets. -/
def AllHaveRoom (source : Source) : Prop :=
  ∀ m v, m ≠ [] → source.tree.node m = some v → HasRoom (FsPath.joined m) v

section Transfer
variable {calls : TransferCalls} {sys : System} {source : Source} {root : List Bytes}

/-- The loop of `start_transfer`. -/
theorem sendEntries_sends (hcalls : calls.Succeed) (hroom : AllHaveRoom source)
    {ws : List FileWalker} {ms : List (List Bytes)} (hsees : List.Forall₂ (Sees sys source) ws ms)
    (hms : ∀ m ∈ ms, m ∈ source.entries) (k : Nat) (s : Sender) : ∃ s' groups,
    List.Forall₂ (EntryChunks source) ms groups ∧
      s.sendEntries calls sys k ws = (s', groups.flatten, none) := by
  induction hsees generalizing k s with
  | nil => exact ⟨s, [], .nil, rfl⟩
  | @cons w m ws ms hw _ ih =>
      obtain ⟨hne, v, hv⟩ := Source.there (hms m List.mem_cons_self)
      obtain ⟨s', hs'⟩ := @pathHandler_sends (calls.entry k).memory _ (hcalls.entry k) _ v
        (hroom m v hne hv) s
      obtain ⟨s'', groups, hgroups, hrest⟩ :=
        ih (fun m' hm' => hms m' (List.mem_cons_of_mem _ hm')) (k + 1) s'
      refine ⟨s'', _ :: groups, .cons ⟨(calls.entry k).memory, s.fileIdCounter, v, hv, rfl⟩ hgroups,
        ?_⟩
      rw [sendEntries, hw.relative, (hw.shown v hv).status, hs']
      dsimp only
      rw [hrest]
      rfl

/-- The first loop of `transfer_confirmation` adds up the files, modulo 2^64. -/
theorem countBytes_eq {ws : List FileWalker} {ms : List (List Bytes)}
    (hsees : List.Forall₂ (Sees sys source) ws ms) (hms : ∀ m ∈ ms, m ∈ source.entries)
    (s : Sender) : countBytes sys ws s = { s with
      bytesToTransfer := s.bytesToTransfer + .ofNat (ms.map source.sizeAt).sum } := by
  induction hsees generalizing s with
  | nil =>
      rw [countBytes, List.map_nil, List.sum_nil]
      exact congrArg (fun n => { s with bytesToTransfer := n }) (UInt64.add_zero _).symm
  | @cons w m ws ms hw _ ih =>
      obtain ⟨hne, v, hv⟩ := Source.there (hms m List.mem_cons_self)
      have hshown := hw.shown v hv
      have ih' := ih fun m' hm' => hms m' (List.mem_cons_of_mem _ hm')
      rw [List.map_cons, List.sum_cons, Source.sizeAt, hv, Option.elim_some, UInt64.ofNat_add,
        ← UInt64.add_assoc]
      cases v with
      | directory | symlink =>
          simp only [countBytes, hshown.status, statusOf]
          exact (ih' s).trans (by simp [sizeOf])
      | file contents =>
          have hsize : sys.fileSize w.current = .ofNat contents.length := by
            rw [← hshown.size contents rfl, UInt64.ofNat_toNat]
          rw [countBytes, hshown.status]
          exact (ih' _).trans (by rw [hsize, sizeOf])

theorem announcementPacket_eq (memory : FTProto.Packet) (total : UInt64) :
    announcementPacket memory total = filled memory { type := .confirm, size := 8, fileId := 0 }
      (LittleEndian.encode Receiver.announcementSize total.toNat) := by
  have hlength : (LittleEndian.encode Receiver.announcementSize total.toNat).length = 8 :=
    LittleEndian.length_encode _ _
  unfold announcementPacket FTProto.Packet.setPayload
  rw [if_neg (by rw [hlength]; decide)]
  dsimp only
  rw [hlength]
  rfl

/-- **What the sender sends**: the announcement, the entries in some order in which a directory
is before what it holds, and `END_TRANSFER`. -/
theorem transferConfirmation_sends (hshows : Shows sys root source) (hcalls : calls.Succeed)
    (hroom : AllHaveRoom source) : ∃ ms groups, Enumerates source.tree [] ms ∧
      List.Forall₂ (EntryChunks source) ms groups ∧
      (({} : Sender).transferConfirmation calls sys (.construct sys root)).2 =
        ((announcementPacket calls.memory (.ofNat source.size)).asBytes ::
          (groups.flatten ++ [(endTransferPacket calls.endMemory).asBytes]), calls.close) := by
  obtain ⟨⟨ms₀, henum₀, hsees₀⟩, ms, henum, hsees⟩ := Source.visits_construct hshows
  have hms₀ : ∀ m ∈ ms₀, m ∈ source.entries := fun m hm => (Source.mem_entries_iff henum₀ m).mp hm
  have hms : ∀ m ∈ ms, m ∈ source.entries := fun m hm => (Source.mem_entries_iff henum m).mp hm
  have hcount := countBytes_eq hsees₀ hms₀ {}
  rw [Source.sum_sizeAt henum₀, UInt64.zero_add] at hcount
  obtain ⟨chunk, hreply, hsize, htype⟩ := hcalls.reply
  have hannounced : Readable (announcementPacket calls.memory (.ofNat source.size)) := by
    rw [announcementPacket_eq]
    exact ⟨rfl, show (8 : UInt16).toNat ≤ FTProto.packetSize by decide⟩
  have hend : Readable (endTransferPacket calls.endMemory) := ⟨rfl, Nat.zero_le _⟩
  obtain ⟨s', groups, hgroups, hsent⟩ := sendEntries_sends hcalls hroom hsees hms 0
    { bytesToTransfer := .ofNat source.size }
  refine ⟨ms, groups, henum, hgroups, ?_⟩
  unfold transferConfirmation
  dsimp only
  rw [hcount, hcalls.announcement, send_readable hannounced, hreply]
  dsimp only
  rw [if_neg (not_lt.mpr hsize), if_pos htype, startTransfer, hsent, hcalls.finish,
    send_readable hend]
  rfl

end Transfer

end Sender
end FileHopZ

import FileHopZ.Receiver.Receiver
import FileHopZ.Sender.PathHandler

/-! # The path of an entry on its way to the receiver

A link whose path and target do not fit in a packet is refused.  The other two kinds of
entry leave the check to `set_payload`, do not look at what it returns and send the packet:
with the size 0 it was given (`CREATE_DIRECTORY`), or with whatever size was in memory
(`CREATE_FILE`).
-/
namespace FileHopZ

namespace Receiver

/-- **What `as_bytes` makes of a packet, `start_transfer` reads back**, whatever its own packet
held. -/
theorem startTransferPacket_asBytes {p : FTProto.Packet} (memory : FTProto.Packet)
    (ht : FTProto.PacketType.ofByte p.header.type.toByte = p.header.type)
    (hsize : p.header.size.toNat ≤ FTProto.packetSize) : ∃ q,
      startTransferPacket memory { size := p.asBytes.length, data := some p.asBytes } = .ok q ∧
        q.header = p.header ∧ q.payload = p.payload := by
  have hlength := FTProto.Packet.length_payload hsize
  have hchunk : p.asBytes.length = FTProto.headerSize + p.header.size.toNat := by
    rw [p.asBytes_eq, List.length_append, p.header.length_toBytes, hlength]
  have hheader : FTProto.PacketHeader.ofBytes p.asBytes = p.header := by
    rw [p.asBytes_eq]
    exact FTProto.PacketHeader.ofBytes_toBytes ht _
  have hbody : (p.asBytes.drop FTProto.headerSize).take p.header.size.toNat = p.payload := by
    rw [p.asBytes_eq, ← p.header.length_toBytes, List.drop_left]
    exact List.take_of_length_le hlength.le
  refine ⟨copyPayload memory { size := p.asBytes.length, data := some p.asBytes } p.header,
    ?_, rfl, ?_⟩
  · unfold startTransferPacket startTransferHeader
    simp only [chunkBytes, Option.getD_some, hheader, hchunk]
    rw [if_neg (by omega), if_neg (by omega)]
    rfl
  · show (Buffer.overlay memory.data _).take p.header.size.toNat = p.payload
    rw [chunkBytes, Option.getD_some, hbody, ← hlength]
    exact Buffer.take_overlay (by rw [memory.data_length, hlength]; exact hsize)

end Receiver

namespace Sender

/-- The receiver gets, of `chunk`, a packet whose size is that of its payload and that says
what the entry is. -/
def Decodes (relativePath : Bytes) (status : FileStatus) (chunk : Bytes) : Prop :=
  ∀ memory beyond, ∃ packet,
    Receiver.startTransferPacket memory { size := chunk.length, data := some chunk } = .ok packet ∧
      chunk.length = FTProto.headerSize + packet.header.size.toNat ∧
      match status with
      | .directory => packet.header.type = .createDirectory ∧ packet.read beyond = relativePath
      | .regular _ => packet.header.type = .createFile ∧ packet.read beyond = relativePath
      | .symlink target => packet.header.type = .createSymlink ∧
          Receiver.extractSymlink (packet.read beyond) = .ok (relativePath, target)
      | .other => False

/-- An error before anything is sent, or a first packet that says what the entry is. -/
def MetadataExact (relativePath : Bytes) (status : FileStatus)
    (result : List Bytes × Option Error) : Prop :=
  result.1 = [] ∧ result.2 ≠ none ∨
    ∃ chunk, result.1.head? = some chunk ∧ Decodes relativePath status chunk

/-- Nothing is sent because `start_loops` fails. -/
def Unstarted (sending : Nat → Sending) : Prop := ∃ ec, sending 0 = .unstarted ec

/-- The path is one that `path_handler` sends as it is, or nothing is sent. -/
def Fits (memory : Nat → FTProto.Packet) (sending : Nat → Sending) (relativePath : Bytes) :
    FileStatus → Prop
  | .directory => relativePath.length ≤ FTProto.packetSize ∨ Unstarted sending
  | .regular (some _) => relativePath.length ≤ FTProto.packetSize ∨ Unstarted sending ∨
      FTProto.packetSize < (memory 0).header.size.toNat
  | _ => True

/-- **A packet that carries `payload`** is decoded to it. -/
theorem decoded {p : FTProto.Packet} {payload : Bytes}
    (ht : FTProto.PacketType.ofByte p.header.type.toByte = p.header.type)
    (hlength : payload.length ≤ FTProto.packetSize)
    (hsize : p.header.size = .ofNat payload.length) (hdata : p.data.take payload.length = payload)
    (memory : FTProto.Packet) (beyond : Nat → UInt8) : ∃ q,
      Receiver.startTransferPacket memory { size := p.asBytes.length, data := some p.asBytes } =
          .ok q ∧
        p.asBytes.length = FTProto.headerSize + q.header.size.toNat ∧
        q.header.type = p.header.type ∧ q.read beyond = payload := by
  have hnat : p.header.size.toNat = payload.length := by
    have : FTProto.packetSize < 65536 := by decide
    rw [hsize, UInt16.toNat_ofNat_of_lt' (by show payload.length < 65536; omega)]
  have hfit : p.header.size.toNat ≤ FTProto.packetSize := by rwa [hnat]
  obtain ⟨q, hq, hheader, hpayload⟩ := Receiver.startTransferPacket_asBytes memory ht hfit
  refine ⟨q, hq, ?_, by rw [hheader], ?_⟩
  · rw [p.asBytes_eq, List.length_append, p.header.length_toBytes,
      FTProto.Packet.length_payload hfit, hheader]
  · rw [FTProto.Packet.read_eq_payload (by rwa [hheader]), hpayload, FTProto.Packet.payload, hnat,
      hdata]

/-- A packet of zero bytes. -/
def zeroPacket : FTProto.Packet where
  header := { type := .confirm, size := 0, fileId := 0 }
  data := List.replicate FTProto.packetSize 0
  data_length := List.length_replicate

/-- What is decoded is as long as what was sent. -/
theorem Decodes.length {relativePath chunk : Bytes} {status : FileStatus}
    (h : Decodes relativePath status chunk)
    (hstatus : status = .directory ∨ ∃ contents, status = .regular contents) :
    chunk.length = FTProto.headerSize + relativePath.length := by
  obtain ⟨q, -, hlength, hq⟩ := h zeroPacket fun _ => 0
  have hread := q.length_read fun _ => 0
  rw [hlength, ← FTProto.Packet.getPayloadSize, ← hread]
  rcases hstatus with rfl | ⟨contents, rfl⟩
  · rw [hq.2]
  · rw [hq.2]

/-- The first packet decides. -/
theorem exact_iff {relativePath : Bytes} {status : FileStatus} {sending : Nat → Sending}
    {p : FTProto.Packet} {result : List Bytes × Option Error}
    (hresult : result = send (sending 0) p ∨ ∃ ps, result = sendAll sending 0 (p :: ps)) :
    MetadataExact relativePath status result ↔
      Unstarted sending ∨ FTProto.packetSize < p.header.size.toNat ∨
        Decodes relativePath status p.asBytes := by
  have hfits : packetPayloadSize < p.serializedSize ↔ FTProto.packetSize < p.header.size.toNat := by
    unfold FTProto.Packet.serializedSize FTProto.packetSize packetPayloadSize FTProto.headerSize
    omega
  have hrefused : ∀ ec, result = ([], some ec) → MetadataExact relativePath status result := by
    rintro ec rfl
    exact Or.inl ⟨rfl, by simp⟩
  have hsent : result.1.head? = some p.asBytes → (MetadataExact relativePath status result ↔
      Decodes relativePath status p.asBytes) := by
    intro hhead
    constructor
    · rintro (⟨hnil, -⟩ | ⟨chunk, hchunk, hdecodes⟩)
      · rw [hnil] at hhead
        cases hhead
      · rw [hhead] at hchunk
        rwa [Option.some.inj hchunk]
    · exact fun h => Or.inr ⟨_, hhead, h⟩
  cases hsending : sending 0 with
  | unstarted ec =>
      have hnone : result = ([], some ec) := by
        rcases hresult with rfl | ⟨ps, rfl⟩
        · rw [hsending, send]
        · rw [sendAll, hsending, send]
      exact ⟨fun _ => Or.inl ⟨ec, hsending⟩, fun _ => hrefused ec hnone⟩
  | forwarded ec =>
      have hstarted : ¬ Unstarted sending := by
        rintro ⟨ec', hec⟩
        rw [hsending] at hec
        cases hec
      by_cases hlarge : packetPayloadSize < p.serializedSize
      · have hnone : result = ([], some (.filehopz .streamPayloadTooLarge)) := by
          rcases hresult with rfl | ⟨ps, rfl⟩
          · rw [hsending, send, if_pos hlarge]
          · rw [sendAll, hsending, send, if_pos hlarge]
        exact ⟨fun _ => Or.inr (Or.inl (hfits.mp hlarge)), fun _ => hrefused _ hnone⟩
      · have hhead : result.1.head? = some p.asBytes := by
          rcases hresult with rfl | ⟨ps, rfl⟩
          · rw [hsending, send, if_neg hlarge]
            rfl
          · rw [sendAll, hsending, send, if_neg hlarge]
            cases ec with
            | some ec => rfl
            | none => rfl
        rw [hsent hhead]
        have hsmall : ¬ FTProto.packetSize < p.header.size.toNat := mt hfits.mpr hlarge
        simp [hstarted, hsmall]

theorem length_symlinkPayload (relativePath target : Bytes) :
    (symlinkPayload relativePath target).length = 2 + relativePath.length + target.length := by
  simp [symlinkPayload, Nat.add_assoc]

/-- The length before the path says where the target starts. -/
theorem extractSymlink_symlinkPayload {relativePath : Bytes} (target : Bytes)
    (h : relativePath.length < 256 ^ 2) :
    Receiver.extractSymlink (symlinkPayload relativePath target) = .ok (relativePath, target) := by
  have hlen : (LittleEndian.encode 2 relativePath.length).length = 2 :=
    LittleEndian.length_encode _ _
  have hlength := length_symlinkPayload relativePath target
  have hnumber : LittleEndian.decode (LittleEndian.encode 2 relativePath.length) =
      relativePath.length := LittleEndian.decode_encode_of_lt h
  have htake : (symlinkPayload relativePath target).take 2 =
      LittleEndian.encode 2 relativePath.length := by
    rw [symlinkPayload, List.append_assoc, List.take_left' hlen]
  have hdrop : (symlinkPayload relativePath target).drop 2 = relativePath ++ target := by
    rw [symlinkPayload, List.append_assoc, List.drop_left' hlen]
  unfold Receiver.extractSymlink
  dsimp only
  rw [htake, hdrop, hnumber, if_neg (by omega), if_neg (by omega), List.take_left, List.drop_left]

theorem decodes_symlink {memory : FTProto.Packet} {relativePath target : Bytes}
    (h : 2 + relativePath.length + target.length ≤ FTProto.packetSize) :
    Decodes relativePath (.symlink target) (symlinkPacket memory relativePath target).asBytes := by
  have hlength := length_symlinkPayload relativePath target
  have hshort : relativePath.length < 256 ^ 2 := by
    have : FTProto.packetSize < 256 ^ 2 := by decide
    omega
  intro memory' beyond
  obtain ⟨q, hq, hsize, htype, hread⟩ :=
    @decoded (symlinkPacket memory relativePath target) (symlinkPayload relativePath target) rfl
      (by rw [hlength]; exact h) (by rw [hlength]; rfl)
      (Buffer.take_overlay (by rw [memory.data_length, hlength]; exact h)) memory' beyond
  exact ⟨q, hq, hsize, htype, by rw [hread, extractSymlink_symlinkPayload target hshort]⟩

theorem directoryPacket_eq (memory : FTProto.Packet) (fileId : UInt32) {relativePath : Bytes}
    (h : relativePath.length ≤ FTProto.packetSize) : directoryPacket memory fileId relativePath =
      filled memory
        { type := .createDirectory, size := .ofNat relativePath.length, fileId := fileId }
        relativePath := by
  unfold directoryPacket FTProto.Packet.setPayload
  rw [if_neg (not_lt.mpr h)]
  rfl

theorem filePacket_eq (memory : FTProto.Packet) (fileId : UInt32) {relativePath : Bytes}
    (h : relativePath.length ≤ FTProto.packetSize) : filePacket memory fileId relativePath =
      filled memory { type := .createFile, size := .ofNat relativePath.length, fileId := fileId }
        relativePath := by
  unfold filePacket FTProto.Packet.setPayload
  rw [if_neg (not_lt.mpr h)]
  rfl

/-- A path that does not fit: the size stays what it was. -/
theorem size_directoryPacket (memory : FTProto.Packet) (fileId : UInt32) {relativePath : Bytes}
    (h : FTProto.packetSize < relativePath.length) :
    (directoryPacket memory fileId relativePath).header.size = 0 := by
  unfold directoryPacket FTProto.Packet.setPayload
  rw [if_pos h]

theorem size_filePacket (memory : FTProto.Packet) (fileId : UInt32) {relativePath : Bytes}
    (h : FTProto.packetSize < relativePath.length) :
    (filePacket memory fileId relativePath).header.size = memory.header.size := by
  unfold filePacket FTProto.Packet.setPayload
  rw [if_pos h]

/-- What is not as long as the path is not decoded to it. -/
theorem not_decodes {relativePath : Bytes} {status : FileStatus} {p : FTProto.Packet}
    (hstatus : status = .directory ∨ ∃ contents, status = .regular contents)
    (hsize : p.header.size.toNat ≤ FTProto.packetSize)
    (h : FTProto.packetSize < relativePath.length) : ¬ Decodes relativePath status p.asBytes := by
  intro hdecodes
  have hlength := hdecodes.length hstatus
  rw [p.asBytes_eq, List.length_append, p.header.length_toBytes,
    FTProto.Packet.length_payload hsize] at hlength
  omega

/-- **When the metadata is exact.**  `path_handler` returns an error before it sends anything
of an entry, or the first packet it sends says what the entry is: if and only if the path of a
directory fits in a packet, and that of a file does, or what is in memory for its size is too
large for the stream. -/
theorem metadata_exact_iff (memory : Nat → FTProto.Packet) (sending : Nat → Sending)
    (relativePath : Bytes) (status : FileStatus) (s : Sender) :
    MetadataExact relativePath status (s.pathHandler memory sending relativePath status).2 ↔
      Fits memory sending relativePath status := by
  cases status with
  | other => exact ⟨fun _ => trivial, fun _ => Or.inl ⟨rfl, by simp [pathHandler]⟩⟩
  | symlink target =>
      refine ⟨fun _ => trivial, fun _ => ?_⟩
      unfold pathHandler
      dsimp only
      split_ifs with hlong
      · exact Or.inl ⟨rfl, by simp⟩
      · exact (exact_iff (Or.inl rfl)).mpr (Or.inr (Or.inr (decodes_symlink (not_lt.mp hlong))))
  | directory =>
      refine (exact_iff (p := directoryPacket (memory 0) s.fileIdCounter relativePath)
        (Or.inl rfl)).trans ?_
      by_cases hlong : FTProto.packetSize < relativePath.length
      · have hsize := size_directoryPacket (memory 0) s.fileIdCounter hlong
        have hnot := @not_decodes relativePath .directory
          (directoryPacket (memory 0) s.fileIdCounter relativePath) (Or.inl rfl)
          (by rw [hsize]; exact Nat.zero_le _) hlong
        simp [Fits, hnot, hsize, hlong]
      · have hfit := not_lt.mp hlong
        refine ⟨fun _ => Or.inl hfit, fun _ => Or.inr (Or.inr ?_)⟩
        rw [directoryPacket_eq _ _ hfit]
        exact fun memory' beyond => decoded rfl hfit rfl
          (Buffer.take_overlay (by rw [FTProto.Packet.data_length]; exact hfit)) memory' beyond
  | regular contents =>
      cases contents with
      | none => exact ⟨fun _ => trivial, fun _ => Or.inl ⟨rfl, by simp [pathHandler]⟩⟩
      | some contents =>
          refine (exact_iff (p := filePacket (memory 0) s.fileIdCounter relativePath)
            (Or.inr ⟨_, rfl⟩)).trans ?_
          by_cases hlong : FTProto.packetSize < relativePath.length
          · have hsize := size_filePacket (memory 0) s.fileIdCounter hlong
            rw [hsize]
            by_cases hlarge : FTProto.packetSize < (memory 0).header.size.toNat
            · exact ⟨fun _ => Or.inr (Or.inr hlarge), fun _ => Or.inr (Or.inl hlarge)⟩
            · have hnot := @not_decodes relativePath (.regular (some contents))
                (filePacket (memory 0) s.fileIdCounter relativePath) (Or.inr ⟨_, rfl⟩)
                (by rw [hsize]; exact not_lt.mp hlarge) hlong
              simp [Fits, hnot, hlong, hlarge]
          · have hfit := not_lt.mp hlong
            refine ⟨fun _ => Or.inl hfit, fun _ => Or.inr (Or.inr ?_)⟩
            rw [filePacket_eq _ _ hfit]
            exact fun memory' beyond => decoded rfl hfit rfl
              (Buffer.take_overlay (by rw [FTProto.Packet.data_length]; exact hfit)) memory' beyond

/-- A directory whose path does not fit is sent without a path. -/
theorem sent_of_long (memory : Nat → FTProto.Packet) {relativePath : Bytes}
    (hlong : FTProto.packetSize < relativePath.length) (s : Sender) :
    (s.pathHandler memory (fun _ => .forwarded none) relativePath .directory).2 =
        ([FTProto.PacketHeader.toBytes
          { type := .createDirectory, size := 0, fileId := s.fileIdCounter }], none) ∧
      ¬ MetadataExact relativePath .directory
        (s.pathHandler memory (fun _ => .forwarded none) relativePath .directory).2 := by
  have hsize := size_directoryPacket (memory 0) s.fileIdCounter hlong
  have hsent : (s.pathHandler memory (fun _ => .forwarded none) relativePath .directory).2 =
      send (.forwarded none) (directoryPacket (memory 0) s.fileIdCounter relativePath) := rfl
  rw [hsent]
  refine ⟨?_, fun hexact => ?_⟩
  · rw [send, if_neg, FTProto.Packet.asBytes_eq, FTProto.Packet.payload, hsize]
    · unfold directoryPacket FTProto.Packet.setPayload
      rw [if_pos hlong]
      simp
    · rw [FTProto.Packet.serializedSize, hsize]
      decide
  · rcases (@exact_iff _ _ (fun _ => .forwarded none) _ _ (Or.inl rfl)).mp hexact with
      ⟨ec, hec⟩ | hlarge | hdecodes
    · cases hec
    · rw [hsize] at hlarge
      exact absurd hlarge (by decide)
    · exact not_decodes (Or.inl rfl) (by rw [hsize]; exact Nat.zero_le _) hlong hdecodes

/-- `a/a/…/a`, with `n` slashes. -/
def nestedPath (n : Nat) : Bytes := (List.replicate n [97, 47]).flatten ++ [97]

theorem length_nestedPath (n : Nat) : (nestedPath n).length = 2 * n + 1 := by
  induction n with
  | zero => rfl
  | succ n ih =>
      unfold nestedPath at ih ⊢
      rw [List.replicate_succ, List.flatten_cons, List.append_assoc, List.length_append, ih]
      simp
      omega

/-- **A directory without a path.**  The path of a directory is one byte too long: what is sent
is `CREATE_DIRECTORY` with the size 0. -/
theorem path_lost :
    (nestedPath 696).length = FTProto.packetSize + 1 ∧
      (({} : Sender).pathHandler
          (fun _ => zeroPacket)
          (fun _ => .forwarded none) (nestedPath 696) .directory).2 =
        ([FTProto.PacketHeader.toBytes { type := .createDirectory, size := 0, fileId := 0 }],
          none) ∧
      ¬ ∀ memory sending relativePath status (s : Sender), MetadataExact relativePath status
        (s.pathHandler memory sending relativePath status).2 := by
  have hlength : (nestedPath 696).length = FTProto.packetSize + 1 := length_nestedPath 696
  have hlong : FTProto.packetSize < (nestedPath 696).length := by
    rw [hlength]
    exact Nat.lt_succ_self _
  refine ⟨hlength, (sent_of_long _ hlong _).1, fun h => ?_⟩
  exact (sent_of_long (fun _ => zeroPacket) hlong {}).2 (h _ _ _ _ _)

end Sender
end FileHopZ

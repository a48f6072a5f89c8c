import FileHopZ.Protohopz.Ordering
import FileHopZ.Receiver.Parse

/-! # The size of a chunk

`receive_loop` accepts `DATA` packets of up to `PACKET_SIZE` bytes, which is the
size of an encrypted payload; decryption takes the overhead off, so what comes
out is a payload.  But a packet that arrives before `connection_encrypted_` is set
is queued as it is, and `receive_chunks_loop` does not tell it from the others.

As long as the loop takes no such packet that is larger than a payload
(`Fits`), no chunk is (`chunk_size_le`).  A peer that sends one between the two
steps of the responder's handshake makes `Receiver` copy past `packet.data`
(`oversize_chunk`).
-/
namespace FileHopZ
namespace ProtoStream
variable {P : Primitives}

/-- A packet that `receive_chunks_loop` takes was decrypted, or is no larger than a
payload. -/
def Fits (s : ProtoStream P) (e : Event P) : Prop :=
  ∀ r ∈ taken s e, Takes s.expectedSequence s.packetsBuffer r →
    r.origin = none → r.packet.header.size.toNat ≤ packetPayloadSize

instance (s : ProtoStream P) (e : Event P) : Decidable (Fits s e) :=
  inferInstanceAs (Decidable (∀ r ∈ taken s e, _ → _ → _))

/-- The packet is no larger than a payload. -/
def Small (r : ReceivedPacket) : Prop := r.packet.header.size.toNat ≤ packetPayloadSize

/-- **Decryption yields a payload**: what `receive_loop` decrypts is small. -/
theorem small_of_accepts {encrypted : Bool} {context : CryptoContext P} {packet : Packet}
    {r : ReceivedPacket} (hsize : packet.header.size.toNat ≤ packetSize)
    (h : ProtoHopZ.Accepts encrypted context packet r) (horigin : r.origin ≠ none) : Small r := by
  cases h with
  | handshake | plain => exact absurd rfl horigin
  | decrypted htype henc hresult =>
      rename_i fault result
      have hlength := (CryptoContext.length_of_decryptData hresult).1
      rw [Packet.length_data hsize] at hlength
      have hfit : result.length ≤ packetPayloadSize := by
        unfold packetSize cryptOverhead at hsize
        omega
      rw [Small, Packet.copyIn_size (hfit.trans (by decide))]
      exact hfit

/-- The invariant: decrypted packets are small, and so is what is put in order,
what `ready_chunks_` holds and what `receive` has returned. -/
structure Bounded (tr : List Observation) (s : ProtoStream P) : Prop where
  putting : Putting (fun r => r.origin ≠ none → Small r) Small (ordered tr) s
  chunks : (chunks tr).filter (fun c => !c.empty) = (ordered tr).map (Chunk.ofPacket ·.packet)
  ready : ∀ c ∈ s.readyChunks.contents, c ∈ ProtoStream.chunks tr
  received : ∀ i c, .received i (.ok c) ∈ tr → c ∈ ProtoStream.chunks tr

/-- Before anything is put in order. -/
theorem putting_of_empty {queued due : ReceivedPacket → Prop} {s : ProtoStream P}
    (hexpected : s.expectedSequence = 1) (hbuffer : s.packetsBuffer = ∅)
    (hqueue : ∀ r ∈ s.transport.receivedPacketsQueue.contents,
      r.packet.header.type = .data → queued r) : Putting queued due [] s where
  queue := hqueue
  inOrder := by
    rw [hexpected, hbuffer]
    exact inOrder_start
  buffer k r hk := by
    rw [hbuffer] at hk
    cases hk
  settled _ h := absurd h List.not_mem_nil
  numbers := rfl
  next := by
    rw [hexpected]
    rfl

theorem putting_construct {queued due : ReceivedPacket → Prop} (peerEndpoint : Endpoint)
    (mode : Role) : Putting queued due [] (construct P peerEndpoint mode) :=
  putting_of_empty rfl rfl fun _ h => absurd h List.not_mem_nil

theorem bounded_start (peerEndpoint : Endpoint) (mode : Role) :
    Bounded [] (construct P peerEndpoint mode) where
  putting := putting_construct peerEndpoint mode
  chunks := rfl
  ready _ h := absurd h List.not_mem_nil
  received _ _ h := absurd h List.not_mem_nil

/-- **The step lemma.** -/
theorem bounded_step {tr : List Observation} {s s' : ProtoStream P} {e : Event P}
    {out : List Observation} (h : Bounded tr s) (hfits : Fits s e)
    (hs : s.step e = some (s', out)) : Bounded (tr ++ out) s' := by
  have hmoves := moves_step hs
  have hready := readyChunks_step hs
  refine ⟨?_, ?_, fun c hc => ?_, fun i c hc => ?_⟩
  · rw [ordered_append]
    refine h.putting.step hmoves (fun _ _ _ _ _ r _ hsize haccepts _ => ?_) ?_
    · exact small_of_accepts hsize haccepts
    · intro r htaken _ htakes hqueued
      by_cases horigin : r.origin = none
      · exact hfits r htaken htakes horigin
      · exact hqueued horigin
  · rw [chunks_append, ordered_append, List.filter_append, List.map_append, h.chunks,
      hmoves.chunks]
  · rw [chunks_append, List.mem_append]
    exact (hready.1 c hc).imp (h.ready c) id
  · rw [chunks_append, List.mem_append]
    rcases List.mem_append.mp hc with hc | hc
    · exact Or.inl (h.received i c hc)
    · exact Or.inl (h.ready c (hready.2 i c hc))

/-- A chunk that was pushed is small. -/
theorem Bounded.chunk_size_le {tr : List Observation} {s : ProtoStream P} (h : Bounded tr s)
    {c : Chunk} (hc : c ∈ ProtoStream.chunks tr) : c.size ≤ packetPayloadSize := by
  cases hempty : c.empty with
  | true =>
      rw [Chunk.empty, Bool.and_eq_true, decide_eq_true_eq] at hempty
      rw [hempty.1]
      exact Nat.zero_le _
  | false =>
      have hmem : c ∈ (ordered tr).map (Chunk.ofPacket ·.packet) := by
        rw [← h.chunks, List.mem_filter]
        exact ⟨hc, by simp [hempty]⟩
      obtain ⟨r, hr, rfl⟩ := List.mem_map.mp hmem
      exact (h.putting.settled r hr).2

/-- **The size of a chunk.**  Whatever datagrams arrive before, during and after the
handshake: as long as `receive_chunks_loop` takes no undecrypted packet that is
larger than a payload, no chunk that `receive` returns is, and `Receiver` copies no
payload past `packet.data`. -/
theorem received_size_le {peerEndpoint : Endpoint} {mode : Role} {tr : List Observation}
    {s : ProtoStream P} (hrun : Transition.Run step Fits (construct P peerEndpoint mode) tr s)
    {i : Nat} {chunk : Chunk} (hreceived : .received i (.ok chunk) ∈ tr) :
    chunk.size ≤ packetPayloadSize ∧ ∀ header,
      Receiver.startTransferHeader chunk = .ok header ∨
        Receiver.transferConfirmationHeader chunk = .ok header →
      header.size.toNat ≤ FTProto.packetSize := by
  have h : Bounded tr s := hrun.invariant (I := Bounded) (bounded_start peerEndpoint mode)
    fun _ _ _ _ _ ih hok hs => bounded_step ih hok hs
  have hsize := h.chunk_size_le (h.received i chunk hreceived)
  exact ⟨hsize, fun header hheader => Receiver.copy_in_bounds hsize hheader⟩

/-! ## A handshake with a packet in between -/

def sampleRemote : Endpoint := ⟨1, 1⟩

/-- The `HANDSHAKE` packet of a peer. -/
def sampleHandshake : Packet :=
  (Packet.blank { type := .handshake, size := 0, sequence := 0 }).copyIn (List.replicate x25519Len 9)

/-- A datagram of the peer arrives. -/
def sampleDatagram (packet : Packet) : Event .additive :=
  .transport (.datagram sampleRemote packet packet.datagram 0 none)

/-- The responder receives the peer's `HANDSHAKE`, then `packet`, and only then ends
its handshake; `receive_chunks_loop` gets `packet`, and a call of `receive` the
chunk. -/
def sampleOvertaking (packet : Packet) : List (Event .additive) :=
  [.callStartLoops 0 none (5 : UInt8) 0, sampleDatagram sampleHandshake,
    .transport (.resumeHandshakeReceive none 0), sampleDatagram packet,
    .transport (.resumeSend 0 none .zero 0),
    .transport (.transmitSend 0), .transport (.finishSend 0 none),
    .transport .resumeHandshakeSend, .resumeStartLoops, .resumeReceiveChunks, .receive 0,
    .resumeReceive 0]

/-- The chunk that call 0 of `receive` returns in `o`. -/
def Observation.returnedChunk : Observation → Option Chunk
  | .received 0 (.ok chunk) => some chunk
  | _ => none

theorem eq_of_returnedChunk {o : Observation} {chunk : Chunk} (h : o.returnedChunk = some chunk) :
    o = .received 0 (.ok chunk) := by
  unfold Observation.returnedChunk at h
  split at h
  · rw [Option.some.inj h]
  · cases h

/-- A packet of one byte. -/
theorem received_size_le_one : ∃ tr s chunk,
    Transition.Run step Fits (construct .additive ⟨0, 0⟩ .responder) tr s ∧
      .received 0 (.ok chunk) ∈ tr ∧ chunk.size = 1 ∧ chunk.size ≤ packetPayloadSize := by
  obtain ⟨tr, s, hrun, hp⟩ := Transition.exists_run step Fits (construct .additive ⟨0, 0⟩ .responder)
    (sampleOvertaking ((dataPacket [65]).withSequence 1))
    (fun tr _ => tr.any fun o => o.returnedChunk.any fun chunk : Chunk =>
      decide (chunk.size = 1))
    (fun s e => decide (Fits s e)) (fun _ _ h => of_decide_eq_true h) (by decide +kernel)
  obtain ⟨o, ho, hp⟩ := List.any_eq_true.mp hp
  obtain ⟨chunk, hchunk, hp⟩ := (Option.any_eq_true _ _).mp hp
  obtain rfl := eq_of_returnedChunk hchunk
  exact ⟨tr, s, chunk, hrun, ho, of_decide_eq_true hp, (received_size_le hrun ho).1⟩

/-- The `DATA` packet number 1, as large as `receive_loop` accepts, with a file
packet that announces more than `FTProto::Packet` holds. -/
def oversizePacket : Packet :=
  (Packet.blank { type := .data, size := 0, sequence := 1 }).copyIn
    (FTProto.PacketHeader.toBytes { type := .fileData, size := 1420, fileId := 0 } ++
      List.replicate 1420 0)

/-- **A chunk that is too large.**  The oversize packet arrives while the responder is
sending its own `HANDSHAKE` packet; `receive` returns it, the checks of `Receiver`
pass, and its copy runs past `packet.data`. -/
theorem oversize_chunk : ∃ tr s chunk header,
    Transition.Run step Transition.Always (construct .additive ⟨0, 0⟩ .responder) tr s ∧
      .received 0 (.ok chunk) ∈ tr ∧ packetPayloadSize < chunk.size ∧
      Receiver.startTransferHeader chunk = .ok header ∧
      Receiver.transferConfirmationHeader chunk = .ok header ∧
      FTProto.packetSize < header.size.toNat := by
  obtain ⟨tr, s, hrun, hp⟩ := Transition.exists_run step Transition.Always
    (construct .additive ⟨0, 0⟩ .responder) (sampleOvertaking oversizePacket)
    (fun tr _ => tr.any fun o => decide (o.returnedChunk = some (.ofPacket oversizePacket)))
    (fun _ _ => true) (fun _ _ _ => trivial) (by decide +kernel)
  obtain ⟨o, ho, hp⟩ := List.any_eq_true.mp hp
  obtain rfl := eq_of_returnedChunk (of_decide_eq_true hp)
  exact ⟨tr, s, _, { type := .fileData, size := 1420, fileId := 0 }, hrun, ho,
    by decide +kernel, by decide +kernel, by decide +kernel, by decide +kernel⟩

end ProtoStream
end FileHopZ

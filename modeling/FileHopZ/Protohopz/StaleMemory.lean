import FileHopZ.Protohopz.ProtoHopZ

/-! # What a short datagram leaves in the packet

`receive_loop` reads the header and the payload out of its local packet without looking at
how many bytes have been received.  A datagram that is shorter than the header, or than
`header.size` says, is completed by what was in memory.  `Determined` says when that makes
no difference.
-/
namespace FileHopZ

/-! ## What a datagram determines of a packet -/

section Bytes

theorem getD_of_take {b c : Bytes} {n i : Nat} (h : b.take n = c.take n) (hi : i < n) :
    b.getD i 0 = c.getD i 0 := by
  have hb := congrArg (·[i]?) h
  simp only [List.getElem?_take, if_pos hi] at hb
  rw [List.getD_eq_getElem?_getD, List.getD_eq_getElem?_getD, hb]

theorem drop_take_of_take {b c : Bytes} {m k n : Nat} (h : b.take n = c.take n) (hn : m + k ≤ n) :
    (b.drop m).take k = (c.drop m).take k := by
  have hcut : ∀ l : Bytes, (l.drop m).take k = ((l.take n).take (m + k)).drop m := by
    intro l
    rw [List.take_take, Nat.min_eq_left hn, List.drop_take, Nat.add_sub_cancel_left]
  rw [hcut, hcut, h]

end Bytes

namespace PacketHeader

theorem type_congr {b c : Bytes} (h : b.take 1 = c.take 1) :
    (ofBytes b).type = (ofBytes c).type :=
  congrArg PacketType.ofByte (getD_of_take h Nat.zero_lt_one)

theorem size_congr {b c : Bytes} (h : b.take 4 = c.take 4) :
    (ofBytes b).size = (ofBytes c).size :=
  congrArg (fun l => UInt16.ofNat (LittleEndian.decode l)) (drop_take_of_take h (by omega))

theorem ofBytes_congr {b c : Bytes} (h : b.take headerSize = c.take headerSize) :
    ofBytes b = ofBytes c := by
  have htake : ∀ {n}, n ≤ headerSize → b.take n = c.take n := by
    intro n hn
    have := congrArg (·.take n) h
    simpa only [List.take_take, Nat.min_eq_left hn] using this
  unfold ofBytes
  rw [getD_of_take h (show 0 < headerSize by decide), getD_of_take h (show 1 < headerSize by decide),
    drop_take_of_take (htake (show 4 ≤ headerSize by decide)) (show 2 + 2 ≤ 4 by omega),
    drop_take_of_take h (show 4 + 4 ≤ headerSize by decide)]

end PacketHeader

namespace Packet

section Received
variable (buffer : Packet) {bytes : Bytes}

theorem take_received {n : Nat} (hn : n ≤ bytes.length) (hsize : n ≤ headerSize + packetSize) :
    (Buffer.overlay buffer.toBytes bytes).take n = bytes.take n :=
  Buffer.take_overlay_copy hn (by rwa [length_toBytes])

theorem type_receiveFrom (h : bytes ≠ []) :
    (buffer.receiveFrom bytes).header.type = (PacketHeader.ofBytes bytes).type :=
  PacketHeader.type_congr (buffer.take_received (List.length_pos_iff.mpr h) (by decide))

theorem size_receiveFrom (h : 4 ≤ bytes.length) :
    (buffer.receiveFrom bytes).header.size = (PacketHeader.ofBytes bytes).size :=
  PacketHeader.size_congr (buffer.take_received h (by decide))

theorem header_receiveFrom (h : headerSize ≤ bytes.length) :
    (buffer.receiveFrom bytes).header = PacketHeader.ofBytes bytes :=
  PacketHeader.ofBytes_congr (buffer.take_received h (by decide))

/-- The bytes that the size announces, when all of them have been received. -/
theorem data_receiveFrom (hsize : (PacketHeader.ofBytes bytes).size.toNat ≤ packetSize)
    (h : headerSize + (PacketHeader.ofBytes bytes).size.toNat ≤ bytes.length) :
    (buffer.receiveFrom bytes).data =
      (bytes.drop headerSize).take (PacketHeader.ofBytes bytes).size.toNat := by
  have hheader := buffer.header_receiveFrom (Nat.le_of_add_right_le h)
  rw [data, hheader]
  exact drop_take_of_take (buffer.take_received h (Nat.add_le_add_left hsize _)) le_rfl

/-- Otherwise they end with what the payload held. -/
theorem data_receiveFrom_short (hheader : headerSize ≤ bytes.length)
    (hsize : (PacketHeader.ofBytes bytes).size.toNat ≤ packetSize)
    (h : bytes.length ≤ headerSize + (PacketHeader.ofBytes bytes).size.toNat) :
    (buffer.receiveFrom bytes).data = bytes.drop headerSize ++
      (buffer.payload.drop (bytes.length - headerSize)).take
        (headerSize + (PacketHeader.ofBytes bytes).size.toNat - bytes.length) := by
  have hpayload : (buffer.receiveFrom bytes).payload =
      bytes.drop headerSize ++ buffer.payload.drop (bytes.length - headerSize) := by
    show (Buffer.overlay buffer.toBytes bytes).drop headerSize = _
    rw [Buffer.overlay_of_length_le (by rw [length_toBytes]; omega),
      List.drop_append_of_le_length hheader, toBytes]
    congr 1
    have hskip : bytes.length = buffer.header.toBytes.length + (bytes.length - headerSize) := by
      rw [buffer.header.length_toBytes]
      omega
    conv_lhs => rw [hskip]
    rw [List.drop_length_add_append]
  rw [data, buffer.header_receiveFrom hheader, hpayload, List.take_append, List.length_drop,
    List.take_of_length_le (by rw [List.length_drop]; omega)]
  congr 2
  omega

/-- The bytes of the size that are not received are those of the buffer. -/
theorem size_receiveFrom_short (h : bytes.length < 4) :
    (buffer.receiveFrom bytes).header.size = .ofNat (LittleEndian.decode (bytes.drop 2 ++
      (LittleEndian.encode 2 buffer.header.size.toNat).drop (bytes.length - 2))) := by
  have hmemory : ((Buffer.overlay buffer.toBytes bytes).drop 2).take 2 = bytes.drop 2 ++
      (LittleEndian.encode 2 buffer.header.size.toNat).drop (bytes.length - 2) := by
    rw [Buffer.overlay_of_length_le (by rw [length_toBytes]; exact Nat.le_trans h.le (by decide))]
    match bytes, h with
    | [], _ | [_], _ | [_, _], _ | [_, _, _], _ => rfl
  exact congrArg (fun l => UInt16.ofNat (LittleEndian.decode l)) hmemory

/-- So are those of the sequence number. -/
theorem sequence_receiveFrom_short (h : bytes.length < headerSize) :
    LittleEndian.encode 4 (buffer.receiveFrom bytes).header.sequence.toNat = bytes.drop 4 ++
      (LittleEndian.encode 4 buffer.header.sequence.toNat).drop (bytes.length - 4) := by
  have hmemory : ((Buffer.overlay buffer.toBytes bytes).drop 4).take 4 = bytes.drop 4 ++
      (LittleEndian.encode 4 buffer.header.sequence.toNat).drop (bytes.length - 4) := by
    rw [Buffer.overlay_of_length_le (by rw [length_toBytes]; exact Nat.le_trans h.le (by decide))]
    match bytes, h with
    | [], _ | [_], _ | [_, _], _ | [_, _, _], _ | [_, _, _, _], _ | [_, _, _, _, _], _
    | [_, _, _, _, _, _], _ | [_, _, _, _, _, _, _], _ => rfl
  have hlength : (bytes.drop 4 ++
      (LittleEndian.encode 4 buffer.header.sequence.toNat).drop (bytes.length - 4)).length = 4 := by
    simp only [headerSize] at h
    simp only [List.length_append, List.length_drop, LittleEndian.length_encode]
    omega
  have hfit := LittleEndian.decode_lt (bytes.drop 4 ++
    (LittleEndian.encode 4 buffer.header.sequence.toNat).drop (bytes.length - 4))
  rw [hlength] at hfit
  show LittleEndian.encode 4 (UInt32.ofNat (LittleEndian.decode
    (((Buffer.overlay buffer.toBytes bytes).drop 4).take 4))).toNat = _
  rw [hmemory, UInt32.toNat_ofNat_of_lt' hfit, LittleEndian.encode_decode_of_length hlength]

end Received

/-! ### Buffers that differ -/

/-- A buffer with a size and a sequence number. -/
def buffered (size : UInt16) (sequence : UInt32) : Packet :=
  .blank { type := .data, size := size, sequence := sequence }

/-- A size that is not received as a whole can be small or too large. -/
theorem size_buffered {bytes : Bytes} (h : bytes.length < 4) (sequence : UInt32) :
    ((buffered 0 sequence).receiveFrom bytes).header.size.toNat ≤ packetSize ∧
      packetSize < ((buffered 65535 sequence).receiveFrom bytes).header.size.toNat := by
  have hsmall : LittleEndian.encode 2 (buffered 0 sequence).header.size.toNat = [0, 0] := by
    show LittleEndian.encode 2 (0 : UInt16).toNat = [0, 0]
    decide
  have hlarge : LittleEndian.encode 2 (buffered 65535 sequence).header.size.toNat =
      [255, 255] := by
    show LittleEndian.encode 2 (65535 : UInt16).toNat = [255, 255]
    decide
  rw [size_receiveFrom_short _ h, size_receiveFrom_short _ h, hsmall, hlarge]
  match bytes, h with
  | [], _ | [_], _ | [_, _], _ =>
      show (UInt16.ofNat (LittleEndian.decode [0, 0])).toNat ≤ packetSize ∧
        packetSize < (UInt16.ofNat (LittleEndian.decode [255, 255])).toNat
      decide
  | [_, _, b], _ =>
      have hb : b.toNat < 256 := b.toNat_lt
      have hsize : packetSize = 1428 := rfl
      show (UInt16.ofNat (b.toNat + 256 * 0)).toNat ≤ packetSize ∧
        packetSize < (UInt16.ofNat (b.toNat + 256 * 255)).toNat
      rw [UInt16.toNat_ofNat', UInt16.toNat_ofNat']
      omega

/-- A sequence number that is not received as a whole can be another one. -/
theorem sequence_buffered {bytes : Bytes} (h : bytes.length < headerSize) (size : UInt16) :
    ((buffered size 0).receiveFrom bytes).header.sequence ≠
      ((buffered size 4278190080).receiveFrom bytes).header.sequence := by
  intro heq
  have hbytes := congrArg (fun n => LittleEndian.encode 4 (UInt32.toNat n)) heq
  rw [sequence_receiveFrom_short _ h, sequence_receiveFrom_short _ h] at hbytes
  have hrest := List.append_cancel_left hbytes
  have hcut : bytes.length - 4 = 0 ∨ bytes.length - 4 = 1 ∨ bytes.length - 4 = 2 ∨
      bytes.length - 4 = 3 := by
    simp only [headerSize] at h
    omega
  have hdiffer : ∀ k, k = 0 ∨ k = 1 ∨ k = 2 ∨ k = 3 →
      (LittleEndian.encode 4 (0 : UInt32).toNat).drop k ≠
        (LittleEndian.encode 4 (4278190080 : UInt32).toNat).drop k := by
    rintro k (rfl | rfl | rfl | rfl) <;> decide
  exact hdiffer _ hcut hrest

/-- It is any number that begins with what is received of it. -/
theorem sequence_buffered_of_prefix {bytes : Bytes} (h : bytes.length < headerSize)
    {sequence : UInt32} (hbegins : bytes.drop 4 <+: LittleEndian.encode 4 sequence.toNat)
    (size : UInt16) : ((buffered size sequence).receiveFrom bytes).header.sequence = sequence := by
  have hbytes := sequence_receiveFrom_short (buffered size sequence) h
  obtain ⟨rest, hrest⟩ := hbegins
  have hdrop : (LittleEndian.encode 4 sequence.toNat).drop (bytes.length - 4) = rest := by
    rw [← hrest, ← List.length_drop, List.drop_left]
  have hsame : LittleEndian.encode 4
      ((buffered size sequence).receiveFrom bytes).header.sequence.toNat =
        LittleEndian.encode 4 sequence.toNat := by
    rw [hbytes, ← hrest]
    exact congrArg _ hdrop
  have hdecode := congrArg LittleEndian.decode hsame
  rw [LittleEndian.decode_encode_of_lt (UInt32.toNat_lt _),
    LittleEndian.decode_encode_of_lt (UInt32.toNat_lt _)] at hdecode
  exact UInt32.toNat_inj.mp hdecode

theorem payload_copyIn (p : Packet) (bytes : Bytes) :
    (p.copyIn bytes).payload = Buffer.overlay p.payload bytes := rfl

/-- A buffer whose payload has `filler` after `received` bytes. -/
def fillerAt (received : Nat) (filler : Bytes) : Packet :=
  (buffered 0 0).copyIn (List.replicate received 0 ++ filler)

theorem payload_fillerAt {received : Nat} {filler : Bytes}
    (h : received + filler.length ≤ packetSize) :
    ((fillerAt received filler).payload.drop received).take filler.length = filler := by
  have hlength : (List.replicate received (0 : UInt8) ++ filler).length =
      received + filler.length := by
    rw [List.length_append, List.length_replicate]
  have hfit : (List.replicate received (0 : UInt8) ++ filler).length ≤
      (buffered 0 0).payload.length := by
    rw [hlength, Packet.payload_length]
    exact h
  rw [fillerAt, payload_copyIn, Buffer.take_drop_overlay (Nat.le_of_eq hlength.symm) hfit,
    List.drop_left' List.length_replicate, List.take_length]

/-- Nothing received, and all that is left is the buffer. -/
theorem header_receiveFrom_nil {buffer : Packet}
    (ht : PacketType.ofByte buffer.header.type.toByte = buffer.header.type) :
    (buffer.receiveFrom []).header = buffer.header := by
  have hmemory : Buffer.overlay buffer.toBytes [] = buffer.header.toBytes ++ buffer.payload := by
    rw [Buffer.overlay_of_length_le (Nat.zero_le _)]
    rfl
  show PacketHeader.ofBytes (Buffer.overlay buffer.toBytes []) = buffer.header
  rw [hmemory, PacketHeader.ofBytes_toBytes ht]

end Packet

/-! ## What a datagram determines of a step -/

/-- What the consumers of a queued packet read of it. -/
def ReceivedPacket.carried (r : ReceivedPacket) : PacketHeader × Bytes :=
  (r.packet.header, r.packet.data)

namespace ProtoHopZ
variable {P : Primitives}

/-- Two states that are the same, up to the memory of queued packets past what their sizes
announce. -/
structure SameState (t t' : ProtoHopZ P) : Prop where
  rest : { t with receivedPacketsQueue := {} } = { t' with receivedPacketsQueue := {} }
  queued : t.receivedPacketsQueue.map ReceivedPacket.carried =
    t'.receivedPacketsQueue.map ReceivedPacket.carried

/-- Two outcomes of a datagram that are the same. -/
def Alike (a b : ProtoHopZ P × List Observation) : Prop := a.2 = b.2 ∧ SameState a.1 b.1

theorem sameState_refl (t : ProtoHopZ P) : SameState t t := ⟨rfl, rfl⟩

theorem alike_refl (a : ProtoHopZ P × List Observation) : Alike a a := ⟨rfl, sameState_refl a.1⟩

theorem sendAck_inj {t : ProtoHopZ P} {s s' : UInt32} (h : t.sendAck s = t.sendAck s') :
    s = s' := by
  have hbytes := congrArg (fun b => (PacketHeader.ofBytes b).sequence)
    (Observation.transmitted.inj h).2
  rwa [Packet.sequence_ofBytes_datagram, Packet.sequence_ofBytes_datagram] at hbytes

/-! ### Packets that are queued -/

theorem sameState_accept {p p' : Packet} (t : ProtoHopZ P) (origin origin' : Option Bytes)
    (hheader : p.header = p'.header) (hdata : p.data = p'.data) :
    SameState (t.accept p origin) (t.accept p' origin') := by
  refine ⟨?_, ?_⟩
  · simp only [accept, hheader]
  · simp only [accept, AsyncQueue.map_push, ReceivedPacket.carried, hheader, hdata]

theorem data_of_sameState {p p' : Packet} {t : ProtoHopZ P} {origin origin' : Option Bytes}
    (h : SameState (t.accept p origin) (t.accept p' origin')) : p.data = p'.data := by
  have hqueued := h.queued
  simp only [accept, AsyncQueue.map_push] at hqueued
  exact congrArg Prod.snd (AsyncQueue.push_inj hqueued)

/-- A loop that goes on is not one that has finished. -/
theorem not_sameState_finish {t u : ProtoHopZ P} {ec : Error} (hrunning : u.receiveLoop = .running) :
    ¬ SameState (t.finishReceiveLoop ec) u := by
  intro h
  have hloop := congrArg receiveLoop h.rest
  dsimp only [finishReceiveLoop] at hloop
  rw [hrunning] at hloop
  cases hloop

theorem SameState.symm {t t' : ProtoHopZ P} (h : SameState t t') : SameState t' t :=
  ⟨h.rest.symm, h.queued.symm⟩

section Data
variable {t : ProtoHopZ P} {bytes : Bytes}

/-- The bytes that the header announces and that have not been received. -/
def missing (bytes : Bytes) : Nat :=
  headerSize + (PacketHeader.ofBytes bytes).size.toNat - bytes.length

/-- A buffer that completes a datagram with `filler`. -/
theorem data_receiveFrom_filler (hheader : headerSize ≤ bytes.length)
    (hsize : (PacketHeader.ofBytes bytes).size.toNat ≤ packetSize)
    (hshort : bytes.length ≤ headerSize + (PacketHeader.ofBytes bytes).size.toNat)
    {filler : Bytes} (hfiller : filler.length = missing bytes) :
    ((Packet.fillerAt (bytes.length - headerSize) filler).receiveFrom bytes).data =
      bytes.drop headerSize ++ filler := by
  rw [Packet.data_receiveFrom_short _ hheader hsize hshort, ← missing, ← hfiller,
    Packet.payload_fillerAt]
  rw [hfiller, missing]
  omega

/-- Conversely the data of a short datagram end with some filler. -/
theorem exists_filler (buffer : Packet) (hheader : headerSize ≤ bytes.length)
    (hsize : (PacketHeader.ofBytes bytes).size.toNat ≤ packetSize)
    (hshort : bytes.length ≤ headerSize + (PacketHeader.ofBytes bytes).size.toNat) :
    ∃ filler, filler.length = missing bytes ∧
      (buffer.receiveFrom bytes).data = bytes.drop headerSize ++ filler := by
  refine ⟨_, ?_, Packet.data_receiveFrom_short buffer hheader hsize hshort⟩
  rw [List.length_take, List.length_drop, buffer.payload_length, missing]
  omega

/-- A packet queued as it came is determined when all of it has been received. -/
theorem accept_iff (hheader : headerSize ≤ bytes.length)
    (hsize : (PacketHeader.ofBytes bytes).size.toNat ≤ packetSize) :
    (∀ b b' : Packet, SameState (t.accept (b.receiveFrom bytes) none)
      (t.accept (b'.receiveFrom bytes) none)) ↔
      headerSize + (PacketHeader.ofBytes bytes).size.toNat ≤ bytes.length := by
  constructor
  · intro h
    by_contra hshort
    have hle : bytes.length ≤ headerSize + (PacketHeader.ofBytes bytes).size.toNat := by omega
    have hpos : 0 < missing bytes := by
      unfold missing
      omega
    have hdata := data_of_sameState (h
      (Packet.fillerAt (bytes.length - headerSize) (List.replicate (missing bytes) 0))
      (Packet.fillerAt (bytes.length - headerSize) (List.replicate (missing bytes) 1)))
    rw [data_receiveFrom_filler hheader hsize hle List.length_replicate,
      data_receiveFrom_filler hheader hsize hle List.length_replicate] at hdata
    have hfillers := List.append_cancel_left hdata
    rw [List.replicate_inj] at hfillers
    rcases hfillers.2 with hzero | hone
    · omega
    · exact absurd hone (by decide)
  · intro hwhole b b'
    apply sameState_accept
    · rw [Packet.header_receiveFrom _ hheader, Packet.header_receiveFrom _ hheader]
    · rw [Packet.data_receiveFrom _ hsize hwhole, Packet.data_receiveFrom _ hsize hwhole]

/-! ### Numbered packets -/

/-- What `DATA` and `HANDSHAKE` have in common: the size is checked, the packet is
acknowledged, and `record` is done if it is new. -/
def receiveNumbered (record : Packet → ProtoHopZ P → ProtoHopZ P) (packet : Packet)
    (t : ProtoHopZ P) : ProtoHopZ P × List Observation :=
  if packetSize < packet.header.size.toNat then
    (t.finishReceiveLoop (.filehopz .packetTooLarge), [])
  else (if packet.header.sequence ∈ t.receivedPackets then t else record packet t,
    [t.sendAck packet.header.sequence])

theorem receiveHandshake_eq (packet : Packet) (t : ProtoHopZ P) :
    t.receiveHandshake packet = receiveNumbered (fun packet t => t.accept packet none) packet t := by
  unfold receiveHandshake receiveNumbered
  split_ifs <;> rfl

/-- What `receive_loop` does with a new `DATA` packet. -/
def recordData (fault : Option ErrorCode) (packet : Packet) (t : ProtoHopZ P) : ProtoHopZ P :=
  if t.connectionEncrypted = true then
    match t.cryptoContext.decryptData fault packet.data with
    | .error _ => t.finishReceiveLoop (.filehopz .transportDecryptFailed)
    | .ok result => t.accept (packet.copyIn result) (some packet.data)
  else t.accept packet none

theorem receiveData_eq (packet : Packet) (fault : Option ErrorCode) (t : ProtoHopZ P) :
    t.receiveData packet fault = receiveNumbered (recordData fault) packet t := by
  unfold receiveData receiveNumbered recordData
  split_ifs
  · rfl
  · rfl
  · cases t.cryptoContext.decryptData fault packet.data <;> rfl
  · rfl

theorem receiveNumbered_large {record : Packet → ProtoHopZ P → ProtoHopZ P} {packet : Packet}
    (h : packetSize < packet.header.size.toNat) : receiveNumbered record packet t =
      (t.finishReceiveLoop (.filehopz .packetTooLarge), []) := if_pos h

theorem receiveNumbered_small {record : Packet → ProtoHopZ P → ProtoHopZ P} {packet : Packet}
    (h : ¬ packetSize < packet.header.size.toNat) : receiveNumbered record packet t =
      (if packet.header.sequence ∈ t.receivedPackets then t else record packet t,
        [t.sendAck packet.header.sequence]) := if_neg h

/-- The size is there, and is too large, or the number is there too and is not new, or the
packet is determined. -/
def NumberedDetermined (t : ProtoHopZ P) (bytes : Bytes) (packet : Prop) : Prop :=
  4 ≤ bytes.length ∧ (packetSize < (PacketHeader.ofBytes bytes).size.toNat ∨
    headerSize ≤ bytes.length ∧
      ((PacketHeader.ofBytes bytes).sequence ∈ t.receivedPackets ∨ packet))

theorem numbered_iff {record : Packet → ProtoHopZ P → ProtoHopZ P} {packet : Prop}
    (hpacket : headerSize ≤ bytes.length → (PacketHeader.ofBytes bytes).size.toNat ≤ packetSize →
      ((∀ b b' : Packet, SameState (record (b.receiveFrom bytes) t)
        (record (b'.receiveFrom bytes) t)) ↔ packet)) :
    (∀ b b' : Packet, Alike (receiveNumbered record (b.receiveFrom bytes) t)
      (receiveNumbered record (b'.receiveFrom bytes) t)) ↔ NumberedDetermined t bytes packet := by
  constructor
  · intro h
    -- a size that is cut off can be one that is acknowledged and one that is not
    have hsize : 4 ≤ bytes.length := by
      by_contra hshort
      obtain ⟨hsmall, hlarge⟩ := Packet.size_buffered (Nat.lt_of_not_le hshort) 0
      have hout := (h (Packet.buffered 0 0) (Packet.buffered 65535 0)).1
      rw [receiveNumbered_small (Nat.not_lt.mpr hsmall), receiveNumbered_large hlarge] at hout
      cases hout
    refine ⟨hsize, ?_⟩
    by_cases hlarge : packetSize < (PacketHeader.ofBytes bytes).size.toNat
    · exact Or.inl hlarge
    have hsmall : ∀ b : Packet, ¬ packetSize < (b.receiveFrom bytes).header.size.toNat := by
      intro b
      rwa [Packet.size_receiveFrom b hsize]
    -- a number that is cut off is acknowledged as two different ones
    have hheader : headerSize ≤ bytes.length := by
      by_contra hshort
      have hout := (h (Packet.buffered 0 0) (Packet.buffered 0 4278190080)).1
      rw [receiveNumbered_small (hsmall _), receiveNumbered_small (hsmall _)] at hout
      exact Packet.sequence_buffered (Nat.lt_of_not_le hshort) 0
        (sendAck_inj (List.singleton_inj.mp hout))
    refine Or.inr ⟨hheader, ?_⟩
    by_cases hknown : (PacketHeader.ofBytes bytes).sequence ∈ t.receivedPackets
    · exact Or.inl hknown
    · refine Or.inr ((hpacket hheader (Nat.le_of_not_lt hlarge)).mp fun b b' => ?_)
      have hstate := (h b b').2
      rw [receiveNumbered_small (hsmall b), receiveNumbered_small (hsmall b')] at hstate
      dsimp only at hstate
      rwa [if_neg (by rwa [Packet.header_receiveFrom b hheader]),
        if_neg (by rwa [Packet.header_receiveFrom b' hheader])] at hstate
  · rintro ⟨hsize, hlarge | ⟨hheader, hrest⟩⟩ b b'
    · rw [receiveNumbered_large (by rwa [Packet.size_receiveFrom b hsize]),
        receiveNumbered_large (by rwa [Packet.size_receiveFrom b' hsize])]
      exact alike_refl _
    · by_cases hlarge : packetSize < (PacketHeader.ofBytes bytes).size.toNat
      · rw [receiveNumbered_large (by rwa [Packet.size_receiveFrom b hsize]),
          receiveNumbered_large (by rwa [Packet.size_receiveFrom b' hsize])]
        exact alike_refl _
      rw [receiveNumbered_small (by rwa [Packet.size_receiveFrom b hsize]),
        receiveNumbered_small (by rwa [Packet.size_receiveFrom b' hsize]),
        Packet.header_receiveFrom b hheader, Packet.header_receiveFrom b' hheader]
      refine ⟨rfl, ?_⟩
      dsimp only
      by_cases hknown : (PacketHeader.ofBytes bytes).sequence ∈ t.receivedPackets
      · rw [if_pos hknown, if_pos hknown]
        exact sameState_refl t
      · rw [if_neg hknown, if_neg hknown]
        have hdetermined := hrest.resolve_left hknown
        exact (hpacket hheader (Nat.le_of_not_lt hlarge)).mpr hdetermined b b'

/-- Whatever completes the datagram, it decrypts to the same, or not at all. -/
def Indifferent (t : ProtoHopZ P) (bytes : Bytes) (fault : Option ErrorCode) : Prop :=
  t.connectionEncrypted = true ∧ ∀ filler filler' : Bytes, filler.length = missing bytes →
    filler'.length = missing bytes →
      (t.cryptoContext.decryptData fault (bytes.drop headerSize ++ filler)).toOption =
        (t.cryptoContext.decryptData fault (bytes.drop headerSize ++ filler')).toOption

/-- What is decrypted fits into the packet. -/
theorem length_decrypted {c : CryptoContext P} {fault : Option ErrorCode} {packet : Packet}
    {result : Bytes} (h : c.decryptData fault packet.data = .ok result) :
    result.length ≤ packetSize := by
  have hlength := (CryptoContext.length_of_decryptData h).1
  have hdata : packet.data.length ≤ packetSize := by
    rw [Packet.data, List.length_take, packet.payload_length]
    exact Nat.min_le_right _ _
  omega

/-- Two encrypted packets are recorded alike when they decrypt alike. -/
theorem sameState_recordData (hrunning : t.receiveLoop = .running)
    (hencrypted : t.connectionEncrypted = true) {fault : Option ErrorCode} {p p' : Packet}
    (hheader : p.header = p'.header) :
    SameState (recordData fault p t) (recordData fault p' t) ↔
      (t.cryptoContext.decryptData fault p.data).toOption =
        (t.cryptoContext.decryptData fault p'.data).toOption := by
  unfold recordData
  rw [if_pos hencrypted, if_pos hencrypted]
  cases hresult : t.cryptoContext.decryptData fault p.data with
  | error ec =>
      cases hresult' : t.cryptoContext.decryptData fault p'.data with
      | error ec' => exact ⟨fun _ => rfl, fun _ => sameState_refl _⟩
      | ok result' =>
          refine ⟨fun h => absurd h (not_sameState_finish hrunning), fun h => ?_⟩
          cases h
  | ok result =>
      cases hresult' : t.cryptoContext.decryptData fault p'.data with
      | error ec' =>
          refine ⟨fun h => absurd h.symm (not_sameState_finish hrunning), fun h => ?_⟩
          cases h
      | ok result' =>
          constructor
          · intro h
            have hdata := data_of_sameState h
            rw [Packet.copyIn_data (length_decrypted hresult),
              Packet.copyIn_data (length_decrypted hresult')] at hdata
            exact congrArg some hdata
          · intro h
            obtain rfl : result = result' := Option.some.inj h
            refine sameState_accept t _ _ ?_ ?_
            · simp only [Packet.copyIn, hheader]
            · rw [Packet.copyIn_data (length_decrypted hresult),
                Packet.copyIn_data (length_decrypted hresult)]

theorem recordData_iff (hrunning : t.receiveLoop = .running) (fault : Option ErrorCode)
    (hheader : headerSize ≤ bytes.length)
    (hsize : (PacketHeader.ofBytes bytes).size.toNat ≤ packetSize) :
    (∀ b b' : Packet, SameState (recordData fault (b.receiveFrom bytes) t)
      (recordData fault (b'.receiveFrom bytes) t)) ↔
      headerSize + (PacketHeader.ofBytes bytes).size.toNat ≤ bytes.length ∨
        Indifferent t bytes fault := by
  by_cases hencrypted : t.connectionEncrypted = true
  · have hheaders : ∀ b b' : Packet, (b.receiveFrom bytes).header = (b'.receiveFrom bytes).header := by
      intro b b'
      rw [Packet.header_receiveFrom b hheader, Packet.header_receiveFrom b' hheader]
    by_cases hwhole : headerSize + (PacketHeader.ofBytes bytes).size.toNat ≤ bytes.length
    · refine ⟨fun _ => Or.inl hwhole, fun _ b b' => ?_⟩
      rw [sameState_recordData hrunning hencrypted (hheaders b b'),
        Packet.data_receiveFrom b hsize hwhole, Packet.data_receiveFrom b' hsize hwhole]
    · have hshort : bytes.length ≤ headerSize + (PacketHeader.ofBytes bytes).size.toNat := by omega
      constructor
      · intro h
        refine Or.inr ⟨hencrypted, fun filler filler' hf hf' => ?_⟩
        have hsame := (sameState_recordData hrunning hencrypted (hheaders _ _)).mp
          (h (Packet.fillerAt (bytes.length - headerSize) filler)
            (Packet.fillerAt (bytes.length - headerSize) filler'))
        rwa [data_receiveFrom_filler hheader hsize hshort hf,
          data_receiveFrom_filler hheader hsize hshort hf'] at hsame
      · rintro (h | ⟨-, h⟩) b b'
        · exact absurd h hwhole
        · rw [sameState_recordData hrunning hencrypted (hheaders b b')]
          obtain ⟨filler, hf, hdata⟩ := exists_filler b hheader hsize hshort
          obtain ⟨filler', hf', hdata'⟩ := exists_filler b' hheader hsize hshort
          rw [hdata, hdata']
          exact h filler filler' hf hf'
  · have hplain : ∀ p, recordData fault p t = t.accept p none := fun p => if_neg hencrypted
    simp only [hplain]
    rw [accept_iff hheader hsize]
    exact ⟨Or.inl, fun h => h.resolve_right fun hi => hencrypted hi.1⟩

/-! ### Every datagram -/

/-- An acknowledgement is determined when its number has been received as a whole, or when what
has been received of it begins no number in flight. -/
theorem ack_iff :
    (∀ b b' : Packet, Alike (t.ackHandler (b.receiveFrom bytes).header.sequence)
      (t.ackHandler (b'.receiveFrom bytes).header.sequence)) ↔
      headerSize ≤ bytes.length ∨
        ∀ s ∈ t.inFlight, ¬ bytes.drop 4 <+: LittleEndian.encode 4 s.toNat := by
  constructor
  · intro h
    by_contra hnot
    rw [not_or] at hnot
    obtain ⟨hshort, hflying⟩ := hnot
    push Not at hflying
    obtain ⟨s, hs, hbegins⟩ := hflying
    have hlt := Nat.lt_of_not_le hshort
    have hself := Packet.sequence_buffered_of_prefix hlt hbegins 0
    -- of two other numbers that the datagram can have, one is not `s`
    have hother : ∃ b : Packet, (b.receiveFrom bytes).header.sequence ≠ s := by
      by_contra hall
      push Not at hall
      exact Packet.sequence_buffered hlt 0 ((hall _).trans (hall _).symm)
    obtain ⟨b, hb⟩ := hother
    have hout := (h (Packet.buffered 0 s) b).1
    rw [hself, ackHandler, if_pos hs] at hout
    unfold ackHandler at hout
    split_ifs at hout
    exact hb (Observation.acked.inj (List.singleton_inj.mp hout)).symm
  · rintro (hheader | hnone) b b'
    · rw [Packet.header_receiveFrom b hheader, Packet.header_receiveFrom b' hheader]
      exact alike_refl _
    · by_cases hheader : headerSize ≤ bytes.length
      · rw [Packet.header_receiveFrom b hheader, Packet.header_receiveFrom b' hheader]
        exact alike_refl _
      · have hlt := Nat.lt_of_not_le hheader
        have hout : ∀ c : Packet, t.ackHandler (c.receiveFrom bytes).header.sequence = (t, []) := by
          intro c
          refine if_neg fun hmem => hnone _ hmem ?_
          rw [Packet.sequence_receiveFrom_short c hlt]
          exact List.prefix_append _ _
        rw [hout, hout]
        exact alike_refl _

/-- What is received does not depend on what was in memory. -/
def Determined (t : ProtoHopZ P) (bytes : Bytes) (fault : Option ErrorCode) : Prop :=
  bytes ≠ [] ∧
    match (PacketHeader.ofBytes bytes).type with
    | .ack => headerSize ≤ bytes.length ∨
        ∀ s ∈ t.inFlight, ¬ bytes.drop 4 <+: LittleEndian.encode 4 s.toNat
    | .data => NumberedDetermined t bytes
        (headerSize + (PacketHeader.ofBytes bytes).size.toNat ≤ bytes.length ∨
          Indifferent t bytes fault)
    | .handshake => NumberedDetermined t bytes
        (headerSize + (PacketHeader.ofBytes bytes).size.toNat ≤ bytes.length)
    | _ => True

/-- A buffer in which nothing is to be done. -/
def idleBuffer : Packet := .blank { type := .endTransfer, size := 0, sequence := 0 }

theorem receivePacketOfType_iff (hrunning : t.receiveLoop = .running) (fault : Option ErrorCode) :
    (∀ b b' : Packet, Alike (t.receivePacketOfType (b.receiveFrom bytes) fault)
      (t.receivePacketOfType (b'.receiveFrom bytes) fault)) ↔ Determined t bytes fault := by
  by_cases hne : bytes = []
  · -- an empty datagram is whatever was in memory
    subst hne
    refine ⟨fun h => ?_, fun h => absurd rfl h.1⟩
    have hidle : (idleBuffer.receiveFrom []).header = idleBuffer.header :=
      Packet.header_receiveFrom_nil rfl
    have hdata : ((Packet.buffered 65535 0).receiveFrom []).header =
        (Packet.buffered 65535 0).header := Packet.header_receiveFrom_nil rfl
    have hstate := (h (Packet.buffered 65535 0) idleBuffer).2
    have hleft : t.receivePacketOfType ((Packet.buffered 65535 0).receiveFrom []) fault =
        (t.finishReceiveLoop (.filehopz .packetTooLarge), []) := by
      rw [receivePacketOfType, hdata]
      show t.receiveData _ fault = _
      rw [receiveData_eq]
      apply receiveNumbered_large
      rw [hdata]
      decide
    have hright : t.receivePacketOfType (idleBuffer.receiveFrom []) fault = (t, []) := by
      rw [receivePacketOfType, hidle]
      rfl
    rw [hleft, hright] at hstate
    exact absurd hstate (not_sameState_finish hrunning)
  · have htype : ∀ b : Packet,
        (b.receiveFrom bytes).header.type = (PacketHeader.ofBytes bytes).type :=
      fun b => Packet.type_receiveFrom b hne
    unfold receivePacketOfType Determined
    simp only [htype]
    rw [and_iff_right hne]
    cases (PacketHeader.ofBytes bytes).type with
    | ack => exact ack_iff
    | data =>
        simp only [receiveData_eq]
        exact numbered_iff fun hheader hsize => recordData_iff hrunning fault hheader hsize
    | handshake =>
        simp only [receiveHandshake_eq]
        exact @numbered_iff P t bytes (fun packet t => t.accept packet none) _
          fun hheader hsize => accept_iff hheader hsize
    | keepAlive | endTransfer | unnamed code =>
        exact ⟨fun _ => trivial, fun _ _ _ => alike_refl _⟩

end Data

/-- **A datagram is processed the same over any memory exactly when it is determined**, or comes
from someone else. -/
theorem datagram_determined_iff {t : ProtoHopZ P} (hrunning : t.receiveLoop = .running)
    (remote : Endpoint) (bytes : Bytes) (now : Nat) (fault : Option ErrorCode) :
    (∀ b b' : Packet, Alike (t.receiveDatagram remote b bytes now fault)
      (t.receiveDatagram remote b' bytes now fault)) ↔
      (t.peerEndpointKnown = true ∧ remote ≠ t.peerEndpoint) ∨ Determined t bytes fault := by
  unfold receiveDatagram
  dsimp only
  by_cases hknown : t.peerEndpointKnown = false
  · simp only [if_pos hknown]
    have hiff := @receivePacketOfType_iff P { t with
      peerEndpoint := remote, peerEndpointKnown := true, lastPeerActivity := now }
      bytes hrunning fault
    exact hiff.trans ⟨Or.inr, fun h => h.resolve_left fun hother => by simp [hknown] at hother⟩
  · simp only [if_neg hknown]
    by_cases hremote : remote ≠ t.peerEndpoint
    · simp only [if_pos hremote]
      exact ⟨fun _ => Or.inl ⟨by simpa using hknown, hremote⟩, fun _ _ _ => alike_refl _⟩
    · simp only [if_neg hremote]
      have hiff := @receivePacketOfType_iff P { t with lastPeerActivity := now } bytes hrunning fault
      exact hiff.trans ⟨Or.inr, fun h => h.resolve_left fun hother => hremote hother.2⟩

/-- A transport whose `receive_loop` runs and that knows no peer yet. -/
def listening : ProtoHopZ .additive :=
  { construct .additive ⟨0, 0⟩ with receiveLoop := .running }

theorem datagram_determined_iff_ack :
    Alike (listening.receiveDatagram ⟨1, 9⟩ (.blank { type := .data, size := 4, sequence := 0 })
        (PacketHeader.toBytes { type := .ack, size := 0, sequence := 5 }) 0 none)
      (listening.receiveDatagram ⟨1, 9⟩ (.blank { type := .handshake, size := 32, sequence := 9 })
        (PacketHeader.toBytes { type := .ack, size := 0, sequence := 5 }) 0 none) :=
  (datagram_determined_iff rfl ⟨1, 9⟩ _ 0 none).mpr
    (Or.inr ⟨by decide, Or.inl (by decide)⟩) _ _

/-- The header of a `HANDSHAKE` packet without its key: the key is what was in memory. -/
def keylessHandshake : Bytes :=
  PacketHeader.toBytes { type := .handshake, size := 32, sequence := 0 }

theorem key_from_memory : ¬ ∀ (t : ProtoHopZ Primitives.additive) (remote : Endpoint)
    (b b' : Packet) (bytes : Bytes) (now : Nat) (fault : Option ErrorCode),
    t.receiveLoop = .running → bytes.length ≤ headerSize + packetSize →
      Alike (t.receiveDatagram remote b bytes now fault)
        (t.receiveDatagram remote b' bytes now fault) := by
  intro h
  have halike : ∀ b b' : Packet, Alike (listening.receiveDatagram ⟨1, 9⟩ b keylessHandshake 0 none)
      (listening.receiveDatagram ⟨1, 9⟩ b' keylessHandshake 0 none) :=
    fun b b' => h listening ⟨1, 9⟩ b b' keylessHandshake 0 none rfl (by decide)
  have hlock : ∀ b : Packet, listening.receiveDatagram ⟨1, 9⟩ b keylessHandshake 0 none =
      { listening with
        peerEndpoint := ⟨1, 9⟩
        peerEndpointKnown := true
        lastPeerActivity := 0 }.receivePacketOfType (b.receiveFrom keylessHandshake) none := by
    intro b
    have hunknown : listening.peerEndpointKnown = false := rfl
    unfold receiveDatagram
    dsimp only
    rw [if_pos hunknown]
  simp only [hlock] at halike
  have hdetermined := (receivePacketOfType_iff rfl none).mp halike
  obtain ⟨-, hlarge | ⟨-, hknown | hwhole⟩⟩ : NumberedDetermined listening keylessHandshake
    (headerSize + (PacketHeader.ofBytes keylessHandshake).size.toNat ≤ keylessHandshake.length) :=
    hdetermined.2
  · exact absurd hlarge (by decide)
  · exact absurd hknown (by decide)
  · exact absurd hwhole (by decide)

end ProtoHopZ
end FileHopZ

import FileHopZ.Protohopz.Delivery

/-! # Over a hostile network

The network may now deliver anything to anybody.  What it cannot do is make a ciphertext:
whatever decrypts is, byte for byte, one that one of the two sides has sealed and sent
(`Ideal`).  Then every chunk carries a payload that one of the sides has registered.

Which side, and under which number, `encrypt_data` does not say: neither the header nor the
direction is part of what it authenticates, and both sides use one key.  So a recorded
packet is accepted again under another number, and accepted by the side that has sent it.
-/
namespace FileHopZ
namespace Session
variable {P : Primitives}
open ProtoStream

/-- The `DATA` packet that arrives, if it decrypts. -/
def opened (s : Session P) (e : Role × ProtoStream.Event P) : Option Packet :=
  match e.2 with
  | .transport (.datagram _ buffer bytes _ _) =>
      let packet := buffer.receiveFrom bytes
      let context := (s.stream e.1).transport.cryptoContext
      match packet.header.type, context.decryptData none packet.data with
      | .data, .ok _ => some packet
      | _, _ => none
  | _ => none

/-- A `DATA` packet with these bytes has been sent. -/
def Carries (air : List (Endpoint × Bytes)) (ciphertext : Bytes) : Prop :=
  ∃ d ∈ air, (PacketHeader.ofBytes d.2).type = .data ∧ d.2.drop headerSize = ciphertext

/-- **Ideal encryption**: `decrypt_data` succeeds only on what `encrypt_data` has made for one
of the two sides, which has sent it. -/
def Ideal (s : Session P) (e : Role × ProtoStream.Event P) : Prop :=
  ∀ packet ∈ s.opened e, ∃ sender, Carries (s.air sender) packet.data

/-- What arrives and decrypts was sent by the other side, under the number it arrives with. -/
def Straight (s : Session P) (e : Role × ProtoStream.Event P) : Prop :=
  ∀ packet ∈ s.opened e, ∃ d ∈ s.air e.1.peer, (PacketHeader.ofBytes d.2).type = .data ∧
    d.2.drop headerSize = packet.data ∧
    (PacketHeader.ofBytes d.2).sequence = packet.header.sequence

/-- The packet carries a payload that a side has registered: where `straight`, the peer of
`side`, and under the number the packet has. -/
def Attributed (straight : Prop) (side : Role) (tr : List (Role × ProtoStream.Observation))
    (r : ReceivedPacket) : Prop :=
  ∃ sender p plaintext, (p, plaintext) ∈ registrations (shown sender tr) ∧
    r.origin = some p.data ∧ Chunk.ofPacket r.packet = carrying plaintext ∧
    (straight → sender = side.peer ∧ p.header.sequence = r.packet.header.sequence)

theorem Attributed.append {straight : Prop} {side : Role}
    {tr : List (Role × ProtoStream.Observation)} {r : ReceivedPacket}
    (h : Attributed straight side tr r) (out : List (Role × ProtoStream.Observation)) :
    Attributed straight side (tr ++ out) r := by
  obtain ⟨sender, p, plaintext, hmem, hrest⟩ := h
  refine ⟨sender, p, plaintext, ?_, hrest⟩
  rw [shown_append, registrations_append]
  exact List.mem_append_left _ hmem

/-- A `DATA` packet that was sent is one that was registered. -/
theorem Sealing.registered {key : Bytes} {registered : List (Packet × Bytes)}
    {air : List (Endpoint × Bytes)} {t : ProtoHopZ P} (h : Sealing key registered air t)
    {d : Endpoint × Bytes} (hmem : d ∈ air) (htype : (PacketHeader.ofBytes d.2).type = .data) :
    ∃ p plaintext, (p, plaintext) ∈ registered ∧ d.2.drop headerSize = p.data ∧
      (PacketHeader.ofBytes d.2).sequence = p.header.sequence := by
  obtain ⟨destination, bytes⟩ := d
  dsimp only at htype ⊢
  rcases h.air destination bytes hmem with ⟨p, hp, rfl⟩ | ⟨sequence, rfl⟩
  · rw [Packet.datagram_eq] at htype ⊢
    rcases hp with ⟨hhandshake, -⟩ | ⟨plaintext, hregistered⟩
    · rw [PacketHeader.ofBytes_toBytes (by rw [hhandshake]; rfl), hhandshake] at htype
      cases htype
    · have hdata : p.header.type = .data := (h.sealed _ hregistered).1
      refine ⟨p, plaintext, hregistered, ?_, ?_⟩
      · rw [← p.header.length_toBytes, List.drop_left]
      · rw [PacketHeader.ofBytes_toBytes (by rw [hdata]; rfl)]
  · rw [Packet.datagram_eq, PacketHeader.ofBytes_toBytes rfl] at htype
    cases htype

/-- What decrypts to `result`, with the bytes of a registered packet, carries its payload. -/
theorem chunk_of_decrypted (hP : P.Lawful) {key : Bytes} {t : ProtoHopZ P} (hkey : Keyed key t)
    {p : Packet} {plaintext : Bytes} (hsealed : Sealed P key (p, plaintext)) {packet : Packet}
    (hsize : packet.header.size.toNat ≤ packetSize) (hdata : p.data = packet.data)
    {fault : Option ErrorCode} {result : Bytes}
    (hresult : t.cryptoContext.decryptData fault packet.data = .ok result) :
    Chunk.ofPacket (packet.copyIn result) = carrying plaintext := by
  obtain ⟨-, -, nonce, hframe⟩ := hsealed
  dsimp only at hframe
  rw [← hdata, hframe, ← hkey.key] at hresult
  obtain rfl := CryptoContext.eq_of_decryptData_frame hP hresult
  have hfit : result.length ≤ packetSize := by
    have hlength := Packet.length_data hsize
    rw [← hdata, hframe, CryptoContext.length_frame] at hlength
    omega
  rw [Chunk.ofPacket, carrying, Packet.copyIn_size hfit, Packet.copyIn_data hfit]

/-- The invariant: each side sends what it has sealed, and puts in order what one of the
sides has registered. -/
structure Replaying (key : Bytes) (straight : Role → Prop)
    (tr : List (Role × ProtoStream.Observation)) (s : Session P) : Prop where
  sealing : ∀ side, Sealing key (registrations (shown side tr)) (s.air side)
    (s.stream side).transport
  receiver : ∀ side, Putting (Attributed (straight side) side tr)
    (Attributed (straight side) side tr) (ordered (shown side tr)) (s.stream side)
  chunks : ∀ side, (chunks (shown side tr)).filter (fun c => !c.empty) =
    (ordered (shown side tr)).map (Chunk.ofPacket ·.packet)

theorem replaying_start {key : Bytes} {straight : Role → Prop} {s : Session P}
    (h : Established key s) : Replaying key straight [] s where
  sealing side := by
    refine ⟨h.keyed side, h.intends side, by simp, h.holds side, ?_⟩
    exact fun d b hb => (h.air side d b hb).imp id fun h => ⟨0, h⟩
  receiver side := by
    refine ⟨fun r hr htype => absurd htype (h.queue side r hr), ?_, ?_, by simp, by simp, ?_⟩
    · rw [h.expected side, h.buffer side]
      exact inOrder_start
    · intro k r hk
      rw [h.buffer side] at hk
      cases hk
    · rw [h.expected side]
      rfl
  chunks side := rfl

/-- **What is accepted has been registered by one of the two sides.** -/
theorem attributed_of_step (hP : P.Lawful) {key : Bytes} {straight : Role → Prop}
    {tr : List (Role × ProtoStream.Observation)} {s : Session P}
    (h : Replaying key straight tr s) {side : Role} {e : ProtoStream.Event P}
    (hideal : Ideal s (side, e)) (hstraight : straight side → Straight s (side, e))
    {remote : Endpoint} {buffer : Packet} {bytes : Bytes} {now : Nat} {fault : Option ErrorCode}
    {r : ReceivedPacket} (he : e = .transport (.datagram remote buffer bytes now fault))
    (hsize : (buffer.receiveFrom bytes).header.size.toNat ≤ packetSize)
    (haccepts : ProtoHopZ.Accepts (s.stream side).transport.connectionEncrypted
      (s.stream side).transport.cryptoContext (buffer.receiveFrom bytes) r)
    (htype : r.packet.header.type = .data) : Attributed (straight side) side tr r := by
  have hkey := (h.sealing side).keyed
  cases haccepts with
  | handshake hhs =>
      rw [show (buffer.receiveFrom bytes).header.type = _ from htype] at hhs
      cases hhs
  | plain _ henc =>
      rw [hkey.encrypted] at henc
      cases henc
  | decrypted hdata henc hresult =>
      rename_i fault' result
      have hopened : s.opened (side, e) = some (buffer.receiveFrom bytes) := by
        subst he
        unfold opened
        dsimp only
        rw [hdata, CryptoContext.decryptData_of_ok hresult]
      by_cases hs : straight side
      · obtain ⟨d, hd, hsent, hcarried, hnumber⟩ := hstraight hs _ hopened
        obtain ⟨p, plaintext, hmem, hp, hsequence⟩ := (h.sealing side.peer).registered hd hsent
        have hbytes := hp.symm.trans hcarried
        refine ⟨side.peer, p, plaintext, hmem, congrArg some hbytes.symm, ?_, fun _ => ⟨rfl, ?_⟩⟩
        · exact chunk_of_decrypted hP hkey ((h.sealing side.peer).sealed _ hmem) hsize hbytes hresult
        · rw [Packet.copyIn_sequence, ← hnumber, hsequence]
      · obtain ⟨sender, d, hd, hsent, hcarried⟩ := hideal _ hopened
        obtain ⟨p, plaintext, hmem, hp, -⟩ := (h.sealing sender).registered hd hsent
        have hbytes := hp.symm.trans hcarried
        refine ⟨sender, p, plaintext, hmem, congrArg some hbytes.symm, ?_, fun h => absurd h hs⟩
        exact chunk_of_decrypted hP hkey ((h.sealing sender).sealed _ hmem) hsize hbytes hresult

/-- **The step lemma.** -/
theorem replaying_step (hP : P.Lawful) {key : Bytes} {straight : Role → Prop}
    {tr : List (Role × ProtoStream.Observation)} {s s' : Session P}
    {e : Role × ProtoStream.Event P} {out : List (Role × ProtoStream.Observation)}
    (h : Replaying key straight tr s) (hideal : Ideal s e)
    (hstraight : straight e.1 → Straight s e) (hs : s.step e = some (s', out)) :
    Replaying key straight (tr ++ out) s' := by
  obtain ⟨mover, e⟩ := e
  obtain ⟨shown', hmove, rfl, hpeer, hair, hairpeer⟩ := step_eq hs
  have hmoves := moves_step hmove
  have hself := shown_append_self mover tr shown'
  have hother := shown_append_of_ne (Role.peer_ne mover).symm tr shown'
  have hreceiver := (h.receiver mover).step hmoves
    (fun _ _ _ _ _ _ he hsize hacc htype =>
      attributed_of_step hP h hideal hstraight he hsize hacc htype)
    (fun _ _ _ _ hattributed => hattributed)
  refine ⟨fun side => ?_, fun side => ?_, fun side => ?_⟩
  · rcases Role.eq_or_eq_peer side mover with rfl | rfl
    · rw [hself, registrations_append, hair]
      exact (h.sealing side).step hmoves
    · rw [hother, hpeer, hairpeer]
      exact h.sealing _
  · rcases Role.eq_or_eq_peer side mover with rfl | rfl
    · rw [hself, ordered_append]
      exact hreceiver.mono (fun _ h => h.append _) fun _ h => h.append _
    · rw [hother, hpeer]
      exact (h.receiver _).mono (fun _ h => h.append _) fun _ h => h.append _
  · rcases Role.eq_or_eq_peer side mover with rfl | rfl
    · rw [hself, chunks_append, ordered_append, List.filter_append, List.map_append,
        h.chunks side, hmoves.chunks]
    · rw [hother]
      exact h.chunks _

/-- **Nothing is forged.**  In every run of an established session over any network: the
chunks a side has pushed, but for the empty one that reports an error, are those of the
packets it has put in order; the `n`-th of these arrived under the number `n` and carries a
payload that one of the two sides has registered.  At a side to which the network brings
what its peer has sent, under the number it was sent with, that is the payload the peer has
registered under `n`. -/
theorem delivered_unforged (hP : P.Lawful) {key : Bytes} {s₀ s : Session P}
    {tr : List (Role × ProtoStream.Observation)} (h₀ : Established key s₀)
    (straight : Role → Prop)
    (hrun : Transition.Run step (fun s e => Ideal s e ∧ (straight e.1 → Straight s e)) s₀ tr s)
    (side : Role) :
    (chunks (shown side tr)).filter (fun c => !c.empty) =
        (ordered (shown side tr)).map (Chunk.ofPacket ·.packet) ∧
      ∀ n r, (ordered (shown side tr))[n]? = some r →
        r.packet.header.sequence.toNat = n + 1 ∧ Attributed (straight side) side tr r := by
  have h : Replaying key straight tr s := by
    refine hrun.invariant (I := Replaying key straight) (replaying_start h₀) ?_
    intro tr s e s' out ih hok hs
    exact replaying_step hP ih hok.1 hok.2 hs
  refine ⟨h.chunks side, fun n r hr => ⟨?_, ?_⟩⟩
  · have hnumbers := congrArg (·[n]?) (h.receiver side).numbers
    have hn : n < (ordered (shown side tr)).length := (List.getElem?_eq_some_iff.mp hr).1
    simp only [List.getElem?_map, hr, Option.map_some] at hnumbers
    rw [List.getElem?_range' (by exact hn)] at hnumbers
    have := Option.some.inj hnumbers
    omega
  · exact ((h.receiver side).settled r (List.mem_of_getElem? hr)).2

/-! ## A recorded packet -/

instance (air : List (Endpoint × Bytes)) (ciphertext : Bytes) : Decidable (Carries air ciphertext) :=
  inferInstanceAs (Decidable (∃ d ∈ air, _))

instance (s : Session P) (e : Role × ProtoStream.Event P) : Decidable (Ideal s e) :=
  inferInstanceAs (Decidable (∀ packet ∈ s.opened e, _))

instance (s : Session P) (e : Role × ProtoStream.Event P) : Decidable (Straight s e) :=
  inferInstanceAs (Decidable (∀ packet ∈ s.opened e, _))

/-- What arrives was recorded, but for its header. -/
def Recorded (s : Session P) (e : Role × ProtoStream.Event P) : Prop :=
  ∀ a ∈ arrival e.2, ∃ sender, ∃ d ∈ s.air sender, a.2.drop headerSize = d.2.drop headerSize

instance (s : Session P) (e : Role × ProtoStream.Event P) : Decidable (Recorded s e) :=
  inferInstanceAs (Decidable (∀ a ∈ arrival e.2, _))

/-- The chunk is the payload that the peer of `side` has registered under `n`. -/
def FromPeer (side : Role) (tr : List (Role × ProtoStream.Observation)) (n : Nat)
    (chunk : Chunk) : Prop :=
  ∃ r ∈ registrations (shown side.peer tr), number r = n ∧ chunk = carrying r.2

instance (side : Role) (tr : List (Role × ProtoStream.Observation)) (n : Nat) (chunk : Chunk) :
    Decidable (FromPeer side tr n chunk) :=
  inferInstanceAs (Decidable (∃ r ∈ registrations (shown side.peer tr), _))

/-- One byte of the initiator, delivered as it was sent. -/
theorem delivered_unforged_once : ∃ tr s r,
    Transition.Run step (fun s e => Ideal s e ∧ (True → Straight s e)) sampleSession tr s ∧
      (ordered (shown .responder tr))[0]? = some r ∧ r.packet.header.sequence.toNat = 1 ∧
      Attributed True .responder tr r := by
  obtain ⟨tr, s, hrun, hp⟩ := Transition.exists_run step
    (fun s e => Ideal s e ∧ (True → Straight s e)) sampleSession
    (sampleSend 0 [65] ++ [sampleArrival (samplePacket [65] 1), (.responder, .resumeReceiveChunks)])
    (fun tr _ => ((ordered (shown .responder tr))[0]?).isSome)
    (fun s e => decide (Ideal s e ∧ (True → Straight s e)))
    (fun _ _ h => of_decide_eq_true h) (by decide +kernel)
  obtain ⟨r, hr⟩ := Option.isSome_iff_exists.mp hp
  have h := delivered_unforged Primitives.additive_lawful established_sampleSession
    (fun _ => True) hrun .responder
  exact ⟨tr, s, r, hrun, hr, h.2 0 r hr⟩

/-- A datagram arrives at a side, from the address of its peer. -/
def sampleArrivalAt (side : Role) (packet : Packet) : Role × ProtoStream.Event .additive :=
  (side, .transport (.datagram (sampleAddress side.peer) packet packet.datagram 0 none))

/-- **A packet is replayed, and reflected.**  The initiator sends one byte.  The network
delivers it, delivers it again under the number 2, and brings it back to the initiator: the
responder pushes the byte twice, and the initiator, to whom nothing was sent, pushes it too. -/
theorem replayed_and_reflected : ∃ tr s,
    Transition.Run step (fun s e => Recorded s e ∧ Ideal s e) sampleSession tr s ∧
      chunks (shown .responder tr) = [carrying [65], carrying [65]] ∧
      ¬ FromPeer .responder tr 2 (carrying [65]) ∧
      chunks (shown .initiator tr) = [carrying [65]] ∧
      ¬ FromPeer .initiator tr 1 (carrying [65]) := by
  obtain ⟨tr, s, hrun, hp⟩ := Transition.exists_run step
    (fun s e => Recorded s e ∧ Ideal s e) sampleSession
    (sampleSend 0 [65] ++ [sampleArrivalAt .responder (samplePacket [65] 1),
      (.responder, .resumeReceiveChunks),
      sampleArrivalAt .responder ((samplePacket [65] 1).withSequence 2),
      (.responder, .resumeReceiveChunks), sampleArrivalAt .initiator (samplePacket [65] 1),
      (.initiator, .resumeReceiveChunks)])
    (fun tr _ => decide (chunks (shown .responder tr) = [carrying [65], carrying [65]] ∧
      ¬ FromPeer .responder tr 2 (carrying [65]) ∧
      chunks (shown .initiator tr) = [carrying [65]] ∧
      ¬ FromPeer .initiator tr 1 (carrying [65])))
    (fun s e => decide (Recorded s e ∧ Ideal s e))
    (fun _ _ h => of_decide_eq_true h) (by decide +kernel)
  exact ⟨tr, s, hrun, of_decide_eq_true hp⟩

end Session
end FileHopZ

import FileHopZ.Protohopz.Session

/-! # In-order delivery

Over an honest network, in an established session, the chunks one side pushes to
`ready_chunks_` are the payloads its peer has registered, from the first on, in
their order and unaltered.

The argument has two halves.  What the peer can put on the network is, for every
`DATA` packet, the encryption of a payload it registered under the number in the
packet's header (`Sender`); resends are copies, so they change nothing.  Hence
every `DATA` packet that `receive_loop` queues carries a registered payload under
its number (`Genuine`), and `receive_chunks_loop` puts them in order
(`Putting`).  A number belongs to one payload as long as `sequence_counter_` does
not wrap around.
-/
namespace FileHopZ
namespace Session
variable {P : Primitives}
open ProtoStream

/-- The session's key is installed and the handshake is over. -/
structure Keyed (key : Bytes) (t : ProtoHopZ P) : Prop where
  encrypted : t.connectionEncrypted = true
  key : t.cryptoContext.encryptionKey = key
  shaken : ∃ ec, t.handshake = .returned ec

/-- The number a packet was registered under. -/
def number (r : Packet × Bytes) : Nat := r.1.header.sequence.toNat

/-- A `DATA` packet with the encryption of its plaintext. -/
def Sealed (P : Primitives) (key : Bytes) (r : Packet × Bytes) : Prop :=
  r.1.header.type = .data ∧ r.1.header.size.toNat ≤ packetSize ∧
    ∃ nonce, r.1.data = CryptoContext.frame P key nonce r.2

/-- A packet a side may send: of its handshake, or registered. -/
def Sendable (registered : List (Packet × Bytes)) (p : Packet) : Prop :=
  (p.header.type = .handshake ∧ p.header.sequence = 0 ∧ p.header.size.toNat ≤ packetSize) ∨
    ∃ plaintext, (p, plaintext) ∈ registered

/-- What a side can put on the network. -/
structure Sender (key : Bytes) (registered : List (Packet × Bytes))
    (air : List (Endpoint × Bytes)) (t : ProtoHopZ P) : Prop where
  keyed : Keyed key t
  intends : ∀ i p, t.Intends i p → p.header.type = .data
  counter : 1 ≤ t.sequenceCounter.toNat
  sealed : ∀ r ∈ registered, Sealed P key r
  increasing : (registered.map number).Pairwise (· < ·)
  numbered : ∀ r ∈ registered, 1 ≤ number r ∧ number r < t.sequenceCounter.toNat
  holds : ∀ p, t.Holds p → Sendable registered p
  air : ∀ destination bytes, (destination, bytes) ∈ air →
    (∃ p, Sendable registered p ∧ bytes = p.datagram) ∨
      ∃ sequence, bytes = (ProtoHopZ.ackPacket sequence).datagram

/-- What a side can put on the network, whatever numbers it draws. -/
structure Sealing (key : Bytes) (registered : List (Packet × Bytes))
    (air : List (Endpoint × Bytes)) (t : ProtoHopZ P) : Prop where
  keyed : Keyed key t
  intends : ∀ i p, t.Intends i p → p.header.type = .data
  sealed : ∀ r ∈ registered, Sealed P key r
  holds : ∀ p, t.Holds p → Sendable registered p
  air : ∀ destination bytes, (destination, bytes) ∈ air →
    (∃ p, Sendable registered p ∧ bytes = p.datagram) ∨
      ∃ sequence, bytes = (ProtoHopZ.ackPacket sequence).datagram

theorem Sender.sealing {key : Bytes} {registered : List (Packet × Bytes)}
    {air : List (Endpoint × Bytes)} {t : ProtoHopZ P} (h : Sender key registered air t) :
    Sealing key registered air t := ⟨h.keyed, h.intends, h.sealed, h.holds, h.air⟩

/-- The packet carries the payload registered under its number. -/
def Genuine (registered : List (Packet × Bytes)) (r : ReceivedPacket) : Prop :=
  ∃ p plaintext, (p, plaintext) ∈ registered ∧
    r.packet.header.sequence = p.header.sequence ∧
    r.packet.header.size.toNat = plaintext.length ∧ r.packet.data = plaintext

theorem Sendable.mono {registered more : List (Packet × Bytes)} {p : Packet}
    (h : Sendable registered p) : Sendable (registered ++ more) p :=
  h.imp id fun ⟨plaintext, hp⟩ => ⟨plaintext, List.mem_append_left more hp⟩

theorem Genuine.mono {registered more : List (Packet × Bytes)} {r : ReceivedPacket}
    (h : Genuine registered r) : Genuine (registered ++ more) r := by
  obtain ⟨p, plaintext, hp, hrest⟩ := h
  exact ⟨p, plaintext, List.mem_append_left more hp, hrest⟩

/-- A packet that was sent is received with its header and its bytes. -/
theorem receiveFrom_sendable {key : Bytes} {registered : List (Packet × Bytes)} {p : Packet}
    (hsealed : ∀ r ∈ registered, Sealed P key r) (hp : Sendable registered p) (buffer : Packet) :
    (buffer.receiveFrom p.datagram).header = p.header ∧
      (buffer.receiveFrom p.datagram).data = p.data := by
  rcases hp with ⟨htype, -, hsize⟩ | ⟨plaintext, hmem⟩
  · exact Packet.receiveFrom_datagram (by rw [htype]; rfl) hsize
  · obtain ⟨htype, hsize, -⟩ := hsealed _ hmem
    exact Packet.receiveFrom_datagram (by rw [show p.header.type = _ from htype]; rfl) hsize

theorem receiveFrom_ack (buffer : Packet) (sequence : UInt32) :
    (buffer.receiveFrom (ProtoHopZ.ackPacket sequence).datagram).header =
      (ProtoHopZ.ackPacket sequence).header :=
  (Packet.receiveFrom_datagram rfl (Nat.zero_le _)).1

/-- **What arrives is genuine**: a `DATA` packet accepted from the peer carries the
payload the peer registered under its number. -/
theorem genuine_of_accepts (hP : P.Lawful) {key : Bytes} {registered : List (Packet × Bytes)}
    {air : List (Endpoint × Bytes)} {t peer : ProtoHopZ P} (hpeer : Sender key registered air peer)
    (hkey : Keyed key t) {destination : Endpoint} {bytes : Bytes}
    (hair : (destination, bytes) ∈ air) {buffer : Packet} {r : ReceivedPacket}
    (hsize : (buffer.receiveFrom bytes).header.size.toNat ≤ packetSize)
    (haccepts : ProtoHopZ.Accepts t.connectionEncrypted t.cryptoContext
      (buffer.receiveFrom bytes) r) (htype : r.packet.header.type = .data) :
    Genuine registered r := by
  cases haccepts with
  | handshake hhs =>
      rw [show (buffer.receiveFrom bytes).header.type = _ from htype] at hhs
      cases hhs
  | plain _ henc =>
      rw [hkey.encrypted] at henc
      cases henc
  | decrypted hdata henc hresult =>
      rename_i fault result
      rcases hpeer.air _ _ hair with ⟨p, hp, rfl⟩ | ⟨sequence, rfl⟩
      · obtain ⟨hheader, hbytes⟩ := receiveFrom_sendable hpeer.sealed hp buffer
        rcases hp with ⟨hhs, -⟩ | ⟨plaintext, hmem⟩
        · rw [hheader, hhs] at hdata
          cases hdata
        · obtain ⟨-, -, nonce, hframe⟩ := hpeer.sealed _ hmem
          dsimp only at hframe
          rw [hbytes, hframe, ← hkey.key] at hresult
          have hlength := (CryptoContext.length_of_decryptData hresult).1
          obtain rfl := CryptoContext.eq_of_decryptData_frame hP hresult
          have hfit : result.length ≤ packetSize := by
            have hdatalen := Packet.length_data hsize
            rw [hbytes, hframe, CryptoContext.length_frame] at hdatalen
            omega
          exact ⟨p, result, hmem, by rw [Packet.copyIn_sequence, hheader],
            Packet.copyIn_size hfit, Packet.copyIn_data hfit⟩
      · rw [receiveFrom_ack] at hdata
        cases hdata

/-- What `send_packet` registers on an encrypted connection. -/
theorem sealed_of_encryptPacket {key : Bytes} {t : ProtoHopZ P} (hkey : Keyed key t)
    {fault : Option ErrorCode} {nonce : Nonce} {source packet : Packet}
    (htype : source.header.type = .data)
    (h : t.encryptPacket fault nonce (source.withSequence t.sequenceCounter) = .ok packet) :
    Sealed P key (packet, source.data) ∧ packet.header.sequence = t.sequenceCounter := by
  unfold ProtoHopZ.encryptPacket at h
  rw [if_neg (by simp [hkey.encrypted])] at h
  split_ifs at h with hsize
  split at h
  · cases h
  · rename_i result hresult
    split_ifs at h with hfit
    obtain rfl := Except.ok.inj h
    obtain ⟨-, hframe⟩ := CryptoContext.encryptData_ok hresult
    rw [hkey.key] at hframe
    have hfit' : result.length ≤ packetSize := not_lt.mp hfit
    refine ⟨⟨htype, ?_, nonce, ?_⟩, rfl⟩
    · exact (Packet.copyIn_size hfit').le.trans hfit'
    · exact (Packet.copyIn_data hfit').trans hframe

theorem keyed_of_effect {key : Bytes} {t t' : ProtoHopZ P} {e : ProtoHopZ.Event P}
    {out : List FileHopZ.Observation} (h : Keyed key t) (heffect : ProtoHopZ.Effect t e t' out)
    (hhandshake : e.handshakes = true → ∀ ec, t.handshake ≠ .returned ec) : Keyed key t' := by
  obtain ⟨ec, hec⟩ := h.shaken
  have hno : e.handshakes = false := by
    cases hh : e.handshakes with
    | false => rfl
    | true => exact absurd hec (hhandshake hh ec)
  obtain ⟨hcontext, hencrypted, hshaken⟩ := heffect.keys hno
  exact ⟨hencrypted ▸ h.encrypted, by rw [hcontext]; exact h.key, ec, hshaken ▸ hec⟩

/-- The session's key stays. -/
theorem Keyed.step {key : Bytes} {s s' : ProtoStream P} {e : ProtoStream.Event P}
    {out : List ProtoStream.Observation} (h : Keyed key s.transport) (hs : Moves s e s' out) :
    Keyed key s'.transport := by
  cases hs with
  | transport e' shown heffect hdatagram hsend hhandshake hshakes hstop htake hexpected hbuffer hout =>
      exact keyed_of_effect h heffect hhandshake
  | chunk he r queue queue' htake hqueue htransport hout =>
      rw [htransport]
      exact ⟨h.encrypted, h.key, h.shaken⟩

/-- A step registers nothing, or the packet that a call seals under the number drawn. -/
theorem registrations_step {key : Bytes} {registered : List (Packet × Bytes)}
    {air : List (Endpoint × Bytes)} {s s' : ProtoStream P} {e : ProtoStream.Event P}
    {out : List ProtoStream.Observation} (h : Sealing key registered air s.transport)
    (hs : Moves s e s' out) :
    registrations out = [] ∨ ∃ r, registrations out = [r] ∧ Sealed P key r ∧
      number r = s.transport.sequenceCounter.toNat ∧
      s'.transport.sequenceCounter = s.transport.sequenceCounter + 1 := by
  cases hs with
  | chunk he r queue queue' htake hqueue htransport hout =>
      rcases hout with ⟨-, rfl, -⟩ | ⟨-, rfl, -⟩
      · exact Or.inl rfl
      · exact Or.inl (registrations_chunks _)
  | transport e' shown heffect hdatagram hsend hhandshake hshakes hstop htake hexpected hbuffer hout =>
      rcases hout with rfl | ⟨-, hquiet⟩
      swap
      · exact Or.inl (registrations_quiet hquiet)
      rcases heffect.registers with ⟨hnone, -⟩ | ⟨i, source, fault, nonce, packet, hsource, hpacket,
        rfl, hcounter⟩
      · refine Or.inl (List.eq_nil_iff_forall_not_mem.mpr fun r hr => ?_)
        obtain ⟨i, hi⟩ := mem_registrations.mp hr
        simp only [List.mem_map, Observation.transport.injEq, exists_eq_right] at hi
        exact hnone _ _ _ hi
      · obtain ⟨hsealed, hsequence⟩ :=
          sealed_of_encryptPacket h.keyed (h.intends i source hsource) hpacket
        exact Or.inr ⟨(packet, source.data), rfl, hsealed, congrArg UInt32.toNat hsequence, hcounter⟩

/-- **The step lemma of what is sealed.** -/
theorem Sealing.step {key : Bytes} {registered : List (Packet × Bytes)}
    {air : List (Endpoint × Bytes)} {s s' : ProtoStream P} {e : ProtoStream.Event P}
    {out : List ProtoStream.Observation} (h : Sealing key registered air s.transport)
    (hs : Moves s e s' out) :
    Sealing key (registered ++ registrations out) (air ++ emitted out) s'.transport := by
  have hkeyed := h.keyed.step hs
  have hsealed : ∀ r ∈ registered ++ registrations out, Sealed P key r := by
    intro r hr
    rcases List.mem_append.mp hr with hr | hr
    · exact h.sealed r hr
    · rcases registrations_step h hs with hnone | ⟨r', hone, hseal, -⟩
      · rw [hnone] at hr
        cases hr
      · rw [hone, List.mem_singleton] at hr
        exact hr ▸ hseal
  cases hs with
  | chunk he r queue queue' htake hqueue htransport hout =>
      have hnone : registrations out = [] ∧ emitted out = [] := by
        rcases hout with ⟨-, rfl, -⟩ | ⟨-, rfl, -⟩
        · exact ⟨rfl, rfl⟩
        · exact ⟨registrations_chunks _, emitted_chunks _⟩
      rw [hnone.1, hnone.2, List.append_nil, List.append_nil]
      rw [htransport] at hkeyed ⊢
      exact ⟨hkeyed, h.intends, h.sealed, h.holds, h.air⟩
  | transport e' shown heffect hdatagram hsend hhandshake hshakes hstop htake hexpected hbuffer hout =>
      have hshown : registrations out = registrations (shown.map .transport) ∧
          emitted out = emitted (shown.map .transport) := by
        rcases hout with rfl | ⟨rfl, hquiet⟩
        · exact ⟨rfl, rfl⟩
        · exact ⟨registrations_quiet hquiet, emitted_quiet hquiet⟩
      rw [hshown.1] at hsealed
      rw [hshown.1, hshown.2]
      refine ⟨hkeyed, fun i p hp => ?_, hsealed, fun p hp => ?_, fun destination bytes hb => ?_⟩
      · rcases heffect.intends i p hp with hp | he | ⟨hh, -⟩
        · exact h.intends i p hp
        · obtain ⟨data, -, rfl⟩ := hsend i p he
          rfl
        · obtain ⟨ec, hec⟩ := h.keyed.shaken
          exact absurd hec (hhandshake hh ec)
      · rcases heffect.holds p hp with hp | ⟨i, plaintext, hi⟩
        · exact (h.holds p hp).mono
        · exact Or.inr ⟨plaintext, List.mem_append_right _
            (mem_registrations.mpr ⟨i, List.mem_map_of_mem hi⟩)⟩
      · rcases List.mem_append.mp hb with hb | hb
        · exact (h.air _ _ hb).imp (fun ⟨p, hp, heq⟩ => ⟨p, hp.mono, heq⟩) id
        · have hb := mem_emitted.mp hb
          simp only [List.mem_map, Observation.transport.injEq, exists_eq_right] at hb
          rcases heffect.transmits _ _ hb with ⟨p, hp, heq⟩ | ⟨_, buffer, _, _, _, -, heq, -⟩
          · exact Or.inl ⟨p, (h.holds p hp).mono, heq⟩
          · exact Or.inr ⟨_, heq⟩

/-- **The step lemma of the sending half.** -/
theorem Sender.step {key : Bytes} {registered : List (Packet × Bytes)}
    {air : List (Endpoint × Bytes)} {s s' : ProtoStream P} {e : ProtoStream.Event P}
    {out : List ProtoStream.Observation} (h : Sender key registered air s.transport)
    (hs : Moves s e s' out)
    (hwrap : s.transport.sequenceCounter ≤ s'.transport.sequenceCounter) :
    Sender key (registered ++ registrations out) (air ++ emitted out) s'.transport := by
  have hnew := h.sealing.step hs
  rw [UInt32.le_iff_toNat_le] at hwrap
  rcases registrations_step h.sealing hs with hnone | ⟨r', hone, -, hnumber, hcounter⟩
  · rw [hnone, List.append_nil] at hnew ⊢
    refine ⟨hnew.keyed, hnew.intends, h.counter.trans hwrap, hnew.sealed, h.increasing, ?_,
      hnew.holds, hnew.air⟩
    exact fun r hr => ⟨(h.numbered r hr).1, (h.numbered r hr).2.trans_le hwrap⟩
  · have hgrow : s'.transport.sequenceCounter.toNat = s.transport.sequenceCounter.toNat + 1 := by
      rw [hcounter, UInt32.toNat_add] at hwrap ⊢
      have := s.transport.sequenceCounter.toNat_lt
      have : (1 : UInt32).toNat = 1 := rfl
      omega
    rw [hone] at hnew ⊢
    refine ⟨hnew.keyed, hnew.intends, h.counter.trans hwrap, hnew.sealed, ?_, ?_, hnew.holds,
      hnew.air⟩
    · rw [List.map_append, List.pairwise_append]
      refine ⟨h.increasing, List.pairwise_singleton _ _, ?_⟩
      intro a ha b hb
      obtain ⟨r, hr, rfl⟩ := List.mem_map.mp ha
      rw [List.map_singleton, List.mem_singleton] at hb
      rw [hb, hnumber]
      exact (h.numbered r hr).2
    · intro r hr
      rcases List.mem_append.mp hr with hr | hr
      · have := h.numbered r hr
        omega
      · rw [List.mem_singleton.mp hr, hnumber]
        have := h.counter
        omega

/-! ## Two sides -/

/-- An established session: both sides hold the key and encrypt, `start_loops` has
returned, the next number is 1 and so is the expected one, and nothing but
packets of the handshake and their acknowledgements is under way. -/
structure Established (key : Bytes) (s : Session P) : Prop where
  keyed : ∀ side, Keyed key (s.stream side).transport
  started : ∀ side, (s.stream side).startLoops ≠ .idle
  counter : ∀ side, (s.stream side).transport.sequenceCounter = 1
  expected : ∀ side, (s.stream side).expectedSequence = 1
  buffer : ∀ side, (s.stream side).packetsBuffer = ∅
  queue : ∀ side, ∀ r ∈ (s.stream side).transport.receivedPacketsQueue.contents,
    r.packet.header.type ≠ .data
  intends : ∀ side i p, (s.stream side).transport.Intends i p → p.header.type = .data
  holds : ∀ side p, (s.stream side).transport.Holds p → Sendable [] p
  received : ∀ side, ∀ sequence ∈ (s.stream side).transport.receivedPackets, sequence = 0
  air : ∀ side destination bytes, (destination, bytes) ∈ s.air side →
    (∃ p, Sendable [] p ∧ bytes = p.datagram) ∨ bytes = (ProtoHopZ.ackPacket 0).datagram

/-- The invariant: each side sends what it registered, and puts in order what its
peer registered. -/
structure Delivering (key : Bytes) (tr : List (Role × ProtoStream.Observation))
    (s : Session P) : Prop where
  sender : ∀ side, Sender key (registrations (shown side tr)) (s.air side)
    (s.stream side).transport
  receiver : ∀ side, Putting (Genuine (registrations (shown side.peer tr)))
    (Genuine (registrations (shown side.peer tr))) (ordered (shown side tr)) (s.stream side)
  chunks : ∀ side, (chunks (shown side tr)).filter (fun c => !c.empty) =
    (ordered (shown side tr)).map (Chunk.ofPacket ·.packet)
  error : ∀ side, (s.stream side).startLoops ≠ .idle ∧
    ((s.stream side).streamError = none → ∀ c ∈ ProtoStream.chunks (shown side tr), c.empty = false)

theorem delivering_start {key : Bytes} {s : Session P} (h : Established key s) :
    Delivering key [] s where
  sender side := by
    refine ⟨h.keyed side, h.intends side, ?_, by simp, by simp, by simp, h.holds side, ?_⟩
    · rw [h.counter side]
      exact le_rfl
    · exact fun d b hb => (h.air side d b hb).imp id fun h => ⟨0, h⟩
  receiver side := by
    refine ⟨fun r hr htype => absurd htype (h.queue side r hr), ?_, ?_, by simp, by simp, ?_⟩
    · rw [h.expected side, h.buffer side]
      exact inOrder_start
    · intro k r hk
      rw [h.buffer side] at hk
      cases hk
    · rw [h.expected side]
      rfl
  chunks side := rfl
  error side := ⟨h.started side, by simp⟩

theorem genuine_of_step (hP : P.Lawful) {key : Bytes} {address : Role → Endpoint}
    {tr : List (Role × ProtoStream.Observation)} {s : Session P} (h : Delivering key tr s)
    {side : Role} {e : ProtoStream.Event P} (hhonest : Honest address s (side, e))
    {remote : Endpoint} {buffer : Packet} {bytes : Bytes} {now : Nat} {fault : Option ErrorCode}
    {r : ReceivedPacket} (he : e = .transport (.datagram remote buffer bytes now fault))
    (hsize : (buffer.receiveFrom bytes).header.size.toNat ≤ packetSize)
    (haccepts : ProtoHopZ.Accepts (s.stream side).transport.connectionEncrypted
      (s.stream side).transport.cryptoContext (buffer.receiveFrom bytes) r)
    (htype : r.packet.header.type = .data) :
    Genuine (registrations (shown side.peer tr)) r := by
  subst he
  exact genuine_of_accepts hP (h.sender side.peer) (h.sender side).keyed
    (hhonest (remote, bytes) rfl).2 hsize haccepts htype

/-- **The step lemma** of two sides. -/
theorem delivering_step (hP : P.Lawful) {key : Bytes} {address : Role → Endpoint}
    {tr : List (Role × ProtoStream.Observation)} {s s' : Session P}
    {e : Role × ProtoStream.Event P} {out : List (Role × ProtoStream.Observation)}
    (h : Delivering key tr s) (hhonest : Honest address s e) (hwrap : NoWrap s e)
    (hs : s.step e = some (s', out)) : Delivering key (tr ++ out) s' := by
  obtain ⟨mover, e⟩ := e
  have hcounter := hwrap (s', out) hs
  obtain ⟨shown', hmove, rfl, hpeer, hair, hairpeer⟩ := step_eq hs
  have hmoves := moves_step hmove
  have hself := shown_append_self mover tr shown'
  have hother := shown_append_of_ne (Role.peer_ne mover).symm tr shown'
  have hreceiver := (h.receiver mover).step hmoves
    (fun _ _ _ _ _ _ he hsize hacc htype => genuine_of_step hP h hhonest he hsize hacc htype)
    (fun _ _ _ _ hgenuine => hgenuine)
  have herror := streamError_step hmove (h.error mover).1
  refine ⟨fun side => ?_, fun side => ?_, fun side => ?_, fun side => ?_⟩
  · rcases Role.eq_or_eq_peer side mover with rfl | rfl
    · rw [hself, registrations_append, hair]
      exact (h.sender side).step hmoves hcounter
    · rw [hother, hpeer, hairpeer]
      exact h.sender _
  · rcases Role.eq_or_eq_peer side mover with rfl | rfl
    · rw [hself, ordered_append, hother]
      exact hreceiver
    · have hold := h.receiver mover.peer
      rw [Role.peer_peer] at hold
      rw [hother, hpeer, Role.peer_peer, hself, registrations_append]
      exact hold.mono (fun _ => Genuine.mono) fun _ => Genuine.mono
  · rcases Role.eq_or_eq_peer side mover with rfl | rfl
    · rw [hself, chunks_append, ordered_append, List.filter_append, List.map_append,
        h.chunks side, hmoves.chunks]
    · rw [hother]
      exact h.chunks _
  · rcases Role.eq_or_eq_peer side mover with rfl | rfl
    · rw [hself, chunks_append]
      refine ⟨herror.1, fun hnone c hc => ?_⟩
      rcases List.mem_append.mp hc with hc | hc
      · refine (h.error side).2 ?_ c hc
        by_contra hsome
        rw [herror.2.1 hsome] at hnone
        exact hsome hnone
      · exact herror.2.2 hnone c hc
    · rw [hother, hpeer]
      exact h.error _

/-- The run lemma. -/
theorem delivering_run (hP : P.Lawful) {key : Bytes} {address : Role → Endpoint}
    {s₀ s : Session P} {tr : List (Role × ProtoStream.Observation)} (h₀ : Established key s₀)
    (hrun : Transition.Run step (fun s e => Honest address s e ∧ NoWrap s e) s₀ tr s) :
    Delivering key tr s :=
  hrun.invariant (I := Delivering key) (delivering_start h₀)
    fun _ _ _ _ _ ih hok hs => delivering_step hP ih hok.1 hok.2 hs

/-- The chunk that carries a payload. -/
def carrying (payload : Bytes) : Chunk := { size := payload.length, data := some payload }

/-- Packets put in order that carry registered payloads are the first registered. -/
theorem payloads_prefix {registered : List (Packet × Bytes)} {put : List ReceivedPacket}
    (hgenuine : ∀ r ∈ put, Genuine registered r)
    (hnumbers : put.map (·.packet.header.sequence.toNat) = List.range' 1 put.length)
    (hincreasing : (registered.map number).Pairwise (· < ·))
    (hlow : ∀ r ∈ registered, 1 ≤ number r) :
    put.map (Chunk.ofPacket ·.packet) <+: registered.map fun r => carrying r.2 := by
  have hprefix : (put.map fun r => (r.packet.header.sequence.toNat, Chunk.ofPacket r.packet)) <+:
      registered.map fun r => (number r, carrying r.2) := by
    refine @Reorder.prefix_of_consecutive _ Prod.fst _ _ 1 ?_ ?_ ?_ ?_
    · rw [List.map_map, List.length_map]
      exact hnumbers
    · intro b hb
      obtain ⟨r, hr, rfl⟩ := List.mem_map.mp hb
      obtain ⟨p, plaintext, hmem, hsequence, hsize, hdata⟩ := hgenuine r hr
      refine List.mem_map.mpr ⟨(p, plaintext), hmem, ?_⟩
      rw [number, ← hsequence, carrying, Chunk.ofPacket, hsize, hdata]
    · rw [List.map_map]
      exact hincreasing
    · intro b hb
      obtain ⟨r, hr, rfl⟩ := List.mem_map.mp hb
      exact hlow r hr
  have hmap := hprefix.map Prod.snd
  rwa [List.map_map, List.map_map] at hmap

/-- **In-order exactly-once delivery.**  In every run of an established session over
an honest network that does not use up the sequence numbers, the chunks a side
has pushed to `ready_chunks_` -- but for the empty one that reports an error, of
which there is none while no error is recorded -- are the first payloads its peer
has registered, in the order of their registration. -/
theorem delivered_in_order (hP : P.Lawful) {key : Bytes} {address : Role → Endpoint}
    {s₀ s : Session P} {tr : List (Role × ProtoStream.Observation)} (h₀ : Established key s₀)
    (hrun : Transition.Run step (fun s e => Honest address s e ∧ NoWrap s e) s₀ tr s)
    (side : Role) :
    (chunks (shown side tr)).filter (fun c => !c.empty) <+:
        (registrations (shown side.peer tr)).map (fun r => carrying r.2) ∧
      ((s.stream side).streamError = none → ∀ c ∈ chunks (shown side tr), c.empty = false) := by
  have h := delivering_run hP h₀ hrun
  refine ⟨?_, (h.error side).2⟩
  rw [h.chunks side]
  have hsender := h.sender side.peer
  exact payloads_prefix (fun r hr => ((h.receiver side).settled r hr).2) (h.receiver side).numbers
    hsender.increasing fun r hr => (hsender.numbered r hr).1

/-! ## A session to run -/

def sampleAddress : Role → Endpoint
  | .initiator => ⟨1, 1⟩
  | .responder => ⟨2, 2⟩

def sampleKey : Bytes := List.replicate keyLen 7

/-- One side of a session whose handshake has just been acknowledged. -/
def sampleStream (side : Role) : ProtoStream .additive where
  handshakeMode := side
  transport := {
    loopsStarted := true
    connectionEncrypted := true
    sequenceCounter := 1
    peerEndpoint := sampleAddress side.peer
    peerEndpointKnown := true
    receivedPacketsQueue := { waiters := [.chunks] }
    receivedPackets := {0}
    cryptoContext := { isReady := true, encryptionKey := sampleKey }
    receiveLoop := .running
    timeoutLoop := .sleeping
    handshake := .returned none }
  loopsRunning := true
  startLoops := .returned none
  receiveChunksLoop := .running

def sampleSession : Session .additive where
  stream := sampleStream

theorem established_sampleSession : Established sampleKey sampleSession where
  keyed _ := ⟨rfl, rfl, none, rfl⟩
  started _ := by simp [sampleSession, sampleStream]
  counter _ := rfl
  expected _ := rfl
  buffer _ := rfl
  queue _ _ h := absurd h List.not_mem_nil
  intends _ i p h := by
    rcases h with h | h <;> cases h
  holds _ p h := by
    rcases h with ⟨s, l, h, -⟩ | ⟨i, b, h⟩ | ⟨b, rest, h⟩ <;> cases h
  received _ sequence h := by simpa [sampleSession, sampleStream] using h
  air _ _ _ h := absurd h List.not_mem_nil

def sampleNonce : Nonce := .zero

/-- The packet a side registers for `payload` under `sequence`. -/
def samplePacket (payload : Bytes) (sequence : UInt32) : Packet :=
  ((dataPacket payload).withSequence sequence).copyIn
    (CryptoContext.frame .additive sampleKey sampleNonce payload)

/-- The initiator's call `i` of `send` puts `payload` on the network. -/
def sampleSend (i : Nat) (payload : Bytes) : List (Role × ProtoStream.Event .additive) :=
  [(.initiator, .send i payload), (.initiator, .transport (.resumeSend i none sampleNonce 0)),
    (.initiator, .transport (.transmitSend i)), (.initiator, .transport (.finishSend i none))]

/-- The datagram of a packet arrives at the responder. -/
def sampleArrival (packet : Packet) : Role × ProtoStream.Event .additive :=
  (.responder, .transport (.datagram (sampleAddress .initiator) packet packet.datagram 0 none))

/-- Two packets that arrive in the wrong order, the first of them twice. -/
theorem delivered_in_order_twice : ∃ tr s,
    Transition.Run step (fun s e => Honest sampleAddress s e ∧ NoWrap s e) sampleSession tr s ∧
      ((chunks (shown .responder tr)).filter (fun c => !c.empty) <+:
        (registrations (shown .initiator tr)).map (fun r => carrying r.2)) ∧
      chunks (shown .responder tr) = [carrying [65], carrying [66, 67]] := by
  obtain ⟨tr, s, hrun, hp⟩ := Transition.exists_run step
    (fun s e => Honest sampleAddress s e ∧ NoWrap s e) sampleSession
    (sampleSend 0 [65] ++ sampleSend 1 [66, 67] ++
      [sampleArrival (samplePacket [66, 67] 2), (.responder, .resumeReceiveChunks),
        sampleArrival (samplePacket [65] 1), (.responder, .resumeReceiveChunks),
        sampleArrival (samplePacket [65] 1)])
    (fun tr _ => decide (chunks (shown .responder tr) = [carrying [65], carrying [66, 67]]))
    (fun s e => decide (Honest sampleAddress s e ∧ NoWrap s e))
    (fun _ _ h => of_decide_eq_true h) (by decide +kernel)
  exact ⟨tr, s, hrun,
    (delivered_in_order Primitives.additive_lawful established_sampleSession hrun .responder).1,
    of_decide_eq_true hp⟩

/-- **The chunk that is no payload.**  No datagram arrives for a minute;
`timeout_loop` fails, the error ends `receive_chunks_loop`, and
`store_stream_error` pushes an empty chunk where nothing was registered. -/
theorem empty_chunk_after_timeout : ¬ ∀ tr s,
    Transition.Run step (fun s e => Honest sampleAddress s e ∧ NoWrap s e) sampleSession tr s →
      chunks (shown .responder tr) <+:
        (registrations (shown .initiator tr)).map (fun r => carrying r.2) := by
  intro hall
  obtain ⟨tr, s, hrun, hp⟩ := Transition.exists_run step
    (fun s e => Honest sampleAddress s e ∧ NoWrap s e) sampleSession
    ([.transport (.timer none), .transport (.timeoutIteration 60000 []),
      .transport .timeoutLoopResult, .resumeReceiveChunks, .receiveChunksResult].map
        ((Role.responder, ·)))
    (fun tr _ => decide (chunks (shown .responder tr) = [.null] ∧
      (registrations (shown .initiator tr)).length = 0))
    (fun s e => decide (Honest sampleAddress s e ∧ NoWrap s e))
    (fun _ _ h => of_decide_eq_true h) (by decide +kernel)
  obtain ⟨hchunks, hnone⟩ := of_decide_eq_true hp
  have hprefix := hall tr s hrun
  rw [hchunks, List.length_eq_zero_iff.mp hnone, List.map_nil, List.prefix_nil] at hprefix
  cases hprefix

end Session
end FileHopZ

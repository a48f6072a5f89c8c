import FileHopZ.Protohopz.Delivery
import Mathlib.Tactic.Linarith
import Mathlib.Tactic.NormNum
import Mathlib.Tactic.Positivity

/-! # One packet there, its acknowledgement back

What a side can always do in a working session: register its next packet and put
it on the network (`run_send`), take in a packet that arrives (`run_receive`),
and learn that it has (`run_ack`).  Each is a run of one side alone, under the
part of `Working` that concerns it (`Fine`); `run_of_side` makes a run of the
session of it.
-/
namespace FileHopZ
namespace Session
variable {P : Primitives} {address : Role → Endpoint} {side : Role}
open ProtoStream

/-- One side's part of `Working`, towards what the other has put on the network. -/
def Fine (address : Role → Endpoint) (side : Role) (air : List (Endpoint × Bytes))
    (a : ProtoStream P) (e : ProtoStream.Event P) : Prop :=
  (∀ d ∈ arrival e, d.1 = address side.peer ∧ (address side, d.2) ∈ air) ∧
    a.transport.Healthy ∧ ∀ r ∈ a.step e, r.1.transport.Healthy ∧
      a.transport.sequenceCounter ≤ r.1.transport.sequenceCounter

/-- A run of one side is a run of the session. -/
theorem run_of_side {s : Session P} {a' : ProtoStream P} {out : List ProtoStream.Observation}
    (hpeer : (s.stream side.peer).transport.Healthy)
    (hrun : Transition.Run ProtoStream.step (Fine address side (s.air side.peer)) (s.stream side)
      out a') :
    ∃ s', Transition.Run step (Working address) s (out.map (side, ·)) s' ∧ s'.stream side = a' ∧
      s'.stream side.peer = s.stream side.peer ∧ s'.air side = s.air side ++ emitted out ∧
      s'.air side.peer = s.air side.peer := by
  induction hrun with
  | start => exact ⟨s, .start, rfl, rfl, by simp, rfl⟩
  | @next out a a' e more _ hok hs ih =>
      obtain ⟨s', hrun, ha, hother, hair, hairpeer⟩ := ih
      obtain ⟨harrival, hhealthy, hafter⟩ := hok
      obtain ⟨hhealthy', hcounter⟩ := hafter _ hs
      have hstep : s'.step (side, e) = some
          ({ stream := Function.update s'.stream side a'
             air := Function.update s'.air side (s'.air side ++ emitted more) },
            more.map (side, ·)) := by
        rw [← ha] at hs
        exact congrArg (Option.map _) hs
      have hall : ∀ {b : ProtoStream P}, b.transport.Healthy →
          Session.Healthy { s' with stream := Function.update s'.stream side b } := by
        intro b hb x
        rcases Role.eq_or_eq_peer x side with rfl | rfl
        · simpa using hb
        · simpa [hother] using hpeer
      refine ⟨{ stream := Function.update s'.stream side a'
                air := Function.update s'.air side (s'.air side ++ emitted more) },
        ?_, Function.update_self side a' s'.stream, ?_, ?_, ?_⟩
      · rw [List.map_append]
        refine hrun.next ⟨?_, ?_, ?_, ?_⟩ hstep
        · intro d hd
          rw [hairpeer]
          exact harrival d hd
        · intro r hr
          obtain rfl := Option.some.inj (hstep.symm.trans hr)
          simpa [ha] using hcounter
        · have := hall hhealthy
          rwa [← ha, Function.update_eq_self] at this
        · intro r hr
          obtain rfl := Option.some.inj (hstep.symm.trans hr)
          exact hall hhealthy'
      · rw [← hother]
        exact Function.update_of_ne (Role.peer_ne side) _ _
      · rw [emitted_append, ← List.append_assoc, ← hair]
        exact Function.update_self _ _ _
      · rw [← hairpeer]
        exact Function.update_of_ne (Role.peer_ne side) _ _

/-- A step of a side that stays healthy, on what arrives from the other, is fine. -/
theorem fine_of_step {air : List (Endpoint × Bytes)} {a a' : ProtoStream P}
    {e : ProtoStream.Event P} {out : List ProtoStream.Observation}
    (hs : a.step e = some (a', out))
    (harrival : ∀ d ∈ arrival e, d.1 = address side.peer ∧ (address side, d.2) ∈ air)
    (h : a.transport.Healthy) (h' : a'.transport.Healthy)
    (hcounter : a.transport.sequenceCounter ≤ a'.transport.sequenceCounter) :
    Fine address side air a e := by
  refine ⟨harrival, h, fun r hr => ?_⟩
  obtain rfl := Option.some.inj (hs.symm.trans hr)
  exact ⟨h', hcounter⟩

/-- A step of the transport, as one of the stream. -/
theorem step_of_transport {a : ProtoStream P} {e : ProtoHopZ.Event P} {t : ProtoHopZ P}
    {out : List FileHopZ.Observation} (he : e.isInternal = true)
    (hs : a.transport.step e = some (t, out)) : ∃ b : ProtoStream P,
      a.step (.transport e) = some (b, out.map .transport) ∧ b = { a with transport := t } := by
  refine ⟨{ a with transport := t }, ?_, rfl⟩
  rw [ProtoStream.step, if_pos he, onTransport, hs]
  rfl

/-- A side of a working session. -/
structure Ready (key : Bytes) (peer : Endpoint) (t : ProtoHopZ P) : Prop where
  healthy : t.Healthy
  encrypted : t.connectionEncrypted = true
  context : t.cryptoContext.isReady = true ∧ t.cryptoContext.encryptionKey = key
  known : t.peerEndpointKnown = true
  endpoint : t.peerEndpoint = peer

/-- The packet that is registered for `payload` under `sequence`. -/
def sealedPacket (P : Primitives) (key : Bytes) (nonce : Nonce) (payload : Bytes)
    (sequence : UInt32) : Packet :=
  ((dataPacket payload).withSequence sequence).copyIn (CryptoContext.frame P key nonce payload)

theorem length_frame_le {key : Bytes} {nonce : Nonce} {payload : Bytes}
    (hlength : payload.length ≤ packetPayloadSize) :
    (CryptoContext.frame P key nonce payload).length ≤ packetSize := by
  rw [CryptoContext.length_frame, packetSize, cryptOverhead]
  omega

/-! ## Sending -/

/-- The side can send its packet number `k`, by call `k`. -/
structure ReadyToSend (key : Bytes) (peer : Endpoint) (k : Nat) (a : ProtoStream P) : Prop where
  running : a.loopsRunning = true
  ready : Ready key peer a.transport
  counter : a.transport.sequenceCounter.toNat = k
  window : 2 ≤ a.transport.cwnd.value
  idle : ∀ i, k ≤ i → a.transport.sends i = .idle

theorem encryptPacket_ready {key : Bytes} {peer : Endpoint} {t : ProtoHopZ P}
    (h : Ready key peer t) (nonce : Nonce) {payload : Bytes}
    (hlength : payload.length ≤ packetPayloadSize) (sequence : UInt32) :
    t.encryptPacket none nonce ((dataPacket payload).withSequence sequence) =
      .ok (sealedPacket P key nonce payload sequence) := by
  have hfit : payload.length ≤ packetSize := hlength.trans (by decide)
  have hsize : (dataPacket payload).header.size.toNat = payload.length := Packet.copyIn_size hfit
  have hdata : (dataPacket payload).data = payload := Packet.copyIn_data hfit
  rw [ProtoHopZ.encryptPacket, if_neg (by simp [h.encrypted]),
    if_neg (by rw [Packet.withSequence_size, hsize]; exact not_lt.mpr hlength),
    Packet.withSequence_data, hdata, CryptoContext.encryptData, if_neg (by simp [h.context.1]),
    h.context.2]
  dsimp only
  rw [if_neg (not_lt.mpr (length_frame_le hlength))]
  rfl

theorem not_blocked {t : ProtoHopZ P} (hwindow : 2 ≤ t.cwnd.value) (hcard : t.inFlight.keys.card ≤ 1) :
    t.blocked = false := by
  have hfloor : 2 ≤ t.cwnd.value.floor := Rat.le_floor_iff.mpr (by exact_mod_cast hwindow)
  rw [ProtoHopZ.blocked, Bool.or_eq_false_iff, decide_eq_false_iff_not, decide_eq_false_iff_not,
    maxInFlight]
  omega

theorem send_step {a : ProtoStream P} (hrunning : a.loopsRunning = true) {i : Nat}
    (hidle : a.transport.sends i = .idle) {payload : Bytes}
    (hlength : payload.length ≤ packetPayloadSize) : ∃ b : ProtoStream P,
      a.step (.send i payload) = some (b, []) ∧
        b = { a with transport := a.transport.callSendPacket i (dataPacket payload) } := by
  refine ⟨_, ?_, rfl⟩
  simp [ProtoStream.step, send, hrunning, not_lt.mpr hlength, onTransport, ProtoHopZ.step,
    ProtoHopZ.fresh, hidle]

/-- The transport after a call of `send_packet` has registered its packet. -/
def registering (i now : Nat) (packet : Packet) (t : ProtoHopZ P) : ProtoHopZ P :=
  { t with
    sequenceCounter := t.sequenceCounter + 1
    inFlight := t.inFlight.insert t.sequenceCounter { sendTime := now, packet := packet }
    sends := Function.update t.sends i (.sending packet false) }

/-- `send_packet` on an open window. -/
theorem sendPacket_open {t : ProtoHopZ P} (herror : t.loopError = none) (hopen : t.blocked = false)
    (i : Nat) (source : Packet) (fault : Option ErrorCode) (nonce : Nonce) (now : Nat) :
    t.sendPacket i source fault nonce now = t.registerPacket i source fault nonce now := by
  unfold ProtoHopZ.sendPacket
  split
  · rename_i ec hec
    rw [herror] at hec
    cases hec
  · rw [if_neg (by simp [hopen])]

theorem resumeSend_step {t : ProtoHopZ P} {i now : Nat} {source packet : Packet} {nonce : Nonce}
    (hposted : t.sends i = .posted source) (herror : t.loopError = none)
    (hopen : t.blocked = false)
    (hpacket : t.encryptPacket none nonce (source.withSequence t.sequenceCounter) = .ok packet) :
    t.step (.resumeSend i none nonce now) = some (registering i now packet t,
      [.drew t.sequenceCounter, .registered i packet source.data]) := by
  have hpacket' : ProtoHopZ.encryptPacket none nonce
      { t with sequenceCounter := t.sequenceCounter + 1 }
        (source.withSequence t.sequenceCounter) = .ok packet := hpacket
  rw [ProtoHopZ.step, ProtoHopZ.resumeSend, hposted]
  dsimp only
  rw [sendPacket_open herror hopen, ProtoHopZ.registerPacket]
  dsimp only
  rw [hpacket']
  rfl

theorem transmitSend_step {t : ProtoHopZ P} {i : Nat} {packet : Packet}
    (hsending : t.sends i = .sending packet false) :
    t.step (.transmitSend i) =
      some ({ t with sends := Function.update t.sends i (.sending packet true) },
        [.transmitted t.peerEndpoint packet.datagram]) := by
  rw [ProtoHopZ.step, ProtoHopZ.transmitSend, hsending]

theorem toNat_add_one {n : UInt32} (h : n.toNat + 1 < 2 ^ 32) : (n + 1).toNat = n.toNat + 1 := by
  rw [UInt32.toNat_add]
  exact Nat.mod_eq_of_lt h

/-- **A side registers its next packet** and puts it on the network. -/
theorem run_send {key : Bytes} {k : Nat} {a : ProtoStream P}
    (h : ReadyToSend key (address side.peer) k a) (hk : k + 1 < 2 ^ 32)
    (hflight : a.transport.inFlight.keys.card ≤ 1) {payload : Bytes}
    (hlength : payload.length ≤ packetPayloadSize) (nonce : Nonce)
    (air : List (Endpoint × Bytes)) :
    ∃ a', Transition.Run ProtoStream.step (Fine address side air) a
        [.transport (.drew a.transport.sequenceCounter),
          .transport (.registered k (sealedPacket P key nonce payload a.transport.sequenceCounter)
            payload),
          .transport (.transmitted (address side.peer)
            (sealedPacket P key nonce payload a.transport.sequenceCounter).datagram)] a' ∧
      a'.transport.inFlight = a.transport.inFlight.insert a.transport.sequenceCounter
        { sendTime := 0, packet := sealedPacket P key nonce payload a.transport.sequenceCounter } ∧
      ReadyToSend key (address side.peer) (k + 1) a' := by
  have hcounter := h.counter
  have hhealthy := h.ready.healthy
  have hsucc : (a.transport.sequenceCounter + 1).toNat = k + 1 := by
    rw [toNat_add_one (by omega), hcounter]
  have hgrow : a.transport.sequenceCounter ≤ a.transport.sequenceCounter + 1 := by
    rw [UInt32.le_iff_toNat_le, hsucc]
    omega
  have hdata : (dataPacket payload).data = payload :=
    Packet.copyIn_data (hlength.trans (by decide))
  obtain ⟨b, hb, hbt⟩ := send_step h.running (h.idle k le_rfl) hlength
  obtain ⟨c, hc, hct⟩ := @step_of_transport _ b (.resumeSend k none nonce 0) _ _ rfl
    (resumeSend_step (by rw [hbt]; exact Function.update_self _ _ _)
      (by rw [hbt]; exact hhealthy.2.1) (by rw [hbt]; exact not_blocked h.window hflight)
      (by rw [hbt]; exact encryptPacket_ready h.ready nonce hlength _))
  obtain ⟨d, hd, hdt⟩ := @step_of_transport _ c (.transmitSend k) _ _ rfl
    (transmitSend_step (by rw [hct]; exact Function.update_self _ _ _))
  have hbh : b.transport.Healthy := by rw [hbt]; exact hhealthy
  have hch : c.transport.Healthy := by rw [hct]; exact hbh
  have hdh : d.transport.Healthy := by rw [hdt]; exact hch
  have hfine₁ : Fine address side air a _ := fine_of_step hb (by simp [arrival]) hhealthy hbh
    (UInt32.le_of_eq (by rw [hbt]; rfl))
  have hfine₂ : Fine address side air b _ := fine_of_step hc (by simp [arrival]) hbh hch
    (by rw [hct, hbt]; exact hgrow)
  have hfine₃ : Fine address side air c _ := fine_of_step hd (by simp [arrival]) hch hdh
    (UInt32.le_of_eq (by rw [hdt]))
  have hrun := ((Transition.Run.single hfine₁ hb).next hfine₂ hc).next hfine₃ hd
  refine ⟨d, ?_, ?_, ?_⟩
  · rw [hdata, hct, hbt] at hrun
    rw [← h.ready.endpoint]
    exact hrun
  · rw [hdt, hct, hbt]
    rfl
  · refine ⟨?_, ⟨hdh, ?_, ?_, ?_, ?_⟩, ?_, ?_, fun i hi => ?_⟩
    all_goals rw [hdt, hct, hbt]
    · exact h.running
    · exact h.ready.encrypted
    · exact h.ready.context
    · exact h.ready.known
    · exact h.ready.endpoint
    · exact hsucc
    · exact h.window
    · have hne : i ≠ k := by omega
      simp only [registering, ProtoHopZ.callSendPacket, Function.update_of_ne hne]
      exact h.idle i (by omega)

/-! ## Receiving -/

theorem datagram_step {t : ProtoHopZ P} {key : Bytes} {remote : Endpoint} (h : Ready key remote t)
    (buffer : Packet) (bytes : Bytes) :
    t.step (.datagram remote buffer bytes 0 none) =
      some ({ t with lastPeerActivity := 0 }.receivePacketOfType (buffer.receiveFrom bytes)
        none) := by
  have hreceive : t.receiveDatagram remote buffer bytes 0 none =
      { t with lastPeerActivity := 0 }.receivePacketOfType (buffer.receiveFrom bytes) none := by
    rw [ProtoHopZ.receiveDatagram, if_neg (by simp [h.known]), if_neg (by simp [h.endpoint])]
  rw [← hreceive, ProtoHopZ.step, h.healthy.1]

/-- The congestion window stays open. -/
theorem two_le_nextCwnd {t : ProtoHopZ P} (h : 2 ≤ t.cwnd.value) : 2 ≤ t.nextCwnd := by
  have hmax : (2 : ℚ) ≤ maxCwnd := by norm_num [maxCwnd]
  have hpos : 0 ≤ 1 / t.cwnd.value := by positivity
  unfold ProtoHopZ.nextCwnd
  split_ifs
  · exact le_min (by linarith) hmax
  · exact le_min (by linarith) hmax

/-- **A side learns that a packet has arrived**: it takes it out of `in_flight_`. -/
theorem run_ack {key : Bytes} {k : Nat} {a : ProtoStream P}
    (h : ReadyToSend key (address side.peer) k a) {sequence : UInt32}
    (hflight : sequence ∈ a.transport.inFlight) {air : List (Endpoint × Bytes)}
    (hair : (address side, (ProtoHopZ.ackPacket sequence).datagram) ∈ air) :
    ∃ a', Transition.Run ProtoStream.step (Fine address side air) a
        [.transport (.acked sequence)] a' ∧
      a'.transport.inFlight = a.transport.inFlight.erase sequence ∧
      ReadyToSend key (address side.peer) k a' := by
  have hsignal := ProtoHopZ.signalIfDrained_eq { a.transport with
    lastPeerActivity := 0
    inFlight := a.transport.inFlight.erase sequence
    cwnd := (a.transport.cwnd.update a.transport.nextCwnd).notifyOne }
  generalize hu : ProtoHopZ.signalIfDrained _ = u at hsignal
  have hhandler : { a.transport with lastPeerActivity := 0 }.receivePacketOfType
      ((dataPacket []).receiveFrom (ProtoHopZ.ackPacket sequence).datagram) none =
        ({ a.transport with
            lastPeerActivity := 0
            inFlight := a.transport.inFlight.erase sequence
            cwnd := (a.transport.cwnd.update a.transport.nextCwnd).notifyOne
            drainedSignal := u.drainedSignal }, [.acked sequence]) := by
    rw [ProtoHopZ.receivePacketOfType, receiveFrom_ack]
    show ProtoHopZ.ackHandler sequence { a.transport with lastPeerActivity := 0 } = _
    rw [ProtoHopZ.ackHandler, if_pos hflight]
    exact Prod.ext (hu.trans hsignal) rfl
  obtain ⟨b, hb, hbt⟩ := @step_of_transport _ a (.datagram _ (dataPacket []) _ 0 none) _ _ rfl
    ((datagram_step h.ready (dataPacket [])
      (ProtoHopZ.ackPacket sequence).datagram).trans (congrArg some hhandler))
  have hbh : b.transport.Healthy := by rw [hbt]; exact h.ready.healthy
  refine ⟨b, .single (fine_of_step hb ?_ h.ready.healthy hbh (UInt32.le_of_eq (by rw [hbt]))) hb,
    by rw [hbt], ?_⟩
  · intro d hd
    obtain rfl := Option.some.inj hd
    exact ⟨rfl, hair⟩
  · refine ⟨?_, ⟨hbh, ?_, ?_, ?_, ?_⟩, ?_, ?_, ?_⟩
    all_goals rw [hbt]
    · exact h.running
    · exact h.ready.encrypted
    · exact h.ready.context
    · exact h.ready.known
    · exact h.ready.endpoint
    · exact h.counter
    · show 2 ≤ (AsyncValue.notifyOne _).value
      rw [AsyncValue.value_notifyOne]
      exact two_le_nextCwnd h.window
    · exact h.idle

/-- The side's `receive_chunks_loop` waits for a packet. -/
structure ReadyToReceive (key : Bytes) (peer : Endpoint) (b : ProtoStream P) : Prop where
  loop : b.receiveChunksLoop = .running
  cancelled : b.cancelled = false
  ready : Ready key peer b.transport
  queue : b.transport.receivedPacketsQueue = { waiters := [.chunks] }

/-- What arrives of a packet that was registered, in whatever buffer. -/
theorem receiveFrom_sealedPacket {key : Bytes} {payload : Bytes}
    (hlength : payload.length ≤ packetPayloadSize) (nonce : Nonce) (sequence : UInt32)
    {buffer packet : Packet}
    (hpacket : buffer.receiveFrom (sealedPacket P key nonce payload sequence).datagram = packet) :
    packet.header.type = .data ∧ packet.header.sequence = sequence ∧
      ¬ packetSize < packet.header.size.toNat ∧
      packet.data = CryptoContext.frame P key nonce payload := by
  have hfit := @length_frame_le P key nonce payload hlength
  obtain ⟨hheader, hdata⟩ := @Packet.receiveFrom_datagram buffer
    (sealedPacket P key nonce payload sequence) rfl ((Packet.copyIn_size hfit).le.trans hfit)
  rw [hpacket] at hheader hdata
  refine ⟨by rw [hheader]; rfl, by rw [hheader]; rfl, ?_, hdata.trans (Packet.copyIn_data hfit)⟩
  rw [hheader, sealedPacket, Packet.copyIn_size hfit]
  exact not_lt.mpr hfit

/-- What `receive_loop` makes of a packet that arrives for the first time. -/
theorem receivePacketOfType_sealed (hP : P.Lawful) {key : Bytes} {peer : Endpoint}
    {t : ProtoHopZ P} (h : Ready key peer t) {payload : Bytes} (hne : payload ≠ [])
    (hlength : payload.length ≤ packetPayloadSize) (nonce : Nonce) {sequence : UInt32}
    (hnew : sequence ∉ t.receivedPackets) (buffer : Packet) : ∃ r : ReceivedPacket,
      r.packet.header.type = .data ∧ r.packet.header.sequence = sequence ∧
      r.packet.data = payload ∧ t.receivePacketOfType (buffer.receiveFrom
        (sealedPacket P key nonce payload sequence).datagram) none =
      ({ t with
          receivedPackets := insert sequence t.receivedPackets
          receivedPacketsQueue := t.receivedPacketsQueue.push r },
        [.transmitted t.peerEndpoint (ProtoHopZ.ackPacket sequence).datagram]) := by
  generalize hpacket :
    buffer.receiveFrom (sealedPacket P key nonce payload sequence).datagram = packet
  obtain ⟨htype, hseq, hsize, hdata⟩ := receiveFrom_sealedPacket hlength nonce sequence hpacket
  have hdecrypt : t.cryptoContext.decryptData none packet.data = .ok payload := by
    rw [hdata, ← h.context.2]
    exact CryptoContext.decryptData_frame hP h.context.1 nonce hne
  refine ⟨⟨packet.copyIn payload, some packet.data⟩, htype, hseq,
    Packet.copyIn_data (hlength.trans (by decide)), ?_⟩
  rw [ProtoHopZ.receivePacketOfType, htype]
  dsimp only
  rw [ProtoHopZ.receiveData, if_neg hsize, if_neg (by rw [hseq]; exact hnew),
    if_pos h.encrypted, hdecrypt]
  dsimp only
  rw [ProtoHopZ.accept, ProtoHopZ.sendAck, ProtoHopZ.ackPacket, Packet.copyIn_sequence, hseq]

/-- **A side takes in a packet that arrives**, acknowledging it, and its
`receive_chunks_loop` gets it. -/
theorem run_receive (hP : P.Lawful) {key : Bytes} {b : ProtoStream P}
    (h : ReadyToReceive key (address side.peer) b) {payload : Bytes} (hne : payload ≠ [])
    (hlength : payload.length ≤ packetPayloadSize) (nonce : Nonce) {sequence : UInt32}
    (hnew : sequence ∉ b.transport.receivedPackets) {air : List (Endpoint × Bytes)}
    (hair : (address side, (sealedPacket P key nonce payload sequence).datagram) ∈ air) :
    ∃ b' r, r.packet.header.type = .data ∧ r.packet.header.sequence = sequence ∧
      Transition.Run ProtoStream.step (Fine address side air) b
        (.transport (.transmitted (address side.peer) (ProtoHopZ.ackPacket sequence).datagram) ::
          (receiveChunk b.expectedSequence b.packetsBuffer r).1.map .chunk) b' ∧
      ReadyToReceive key (address side.peer) b' ∧
      b'.transport.receivedPackets = insert sequence b.transport.receivedPackets ∧
      b'.expectedSequence = (receiveChunk b.expectedSequence b.packetsBuffer r).2.1 ∧
      b'.packetsBuffer = (receiveChunk b.expectedSequence b.packetsBuffer r).2.2 := by
  have hready : Ready key (address side.peer) { b.transport with lastPeerActivity := 0 } :=
    ⟨h.ready.healthy, h.ready.encrypted, h.ready.context, h.ready.known, h.ready.endpoint⟩
  obtain ⟨r, htype, hseq, -, hreceive⟩ :=
    receivePacketOfType_sealed hP hready hne hlength nonce hnew (dataPacket [])
  obtain ⟨c, hc, hct⟩ := @step_of_transport _ b (.datagram _ (dataPacket []) _ 0 none) _ _ rfl
    ((datagram_step h.ready (dataPacket []) _).trans (congrArg some hreceive))
  have hch : c.transport.Healthy := by rw [hct]; exact h.ready.healthy
  have hqueue : c.transport.receivedPacketsQueue = { completions := [(.chunks, r)] } := by
    rw [hct]
    show AsyncQueue.push b.transport.receivedPacketsQueue r = _
    rw [h.queue]
    rfl
  have htake : c.transport.receivedPacketsQueue.resume .chunks = some (r, {}) := by
    rw [hqueue]
    simp [AsyncQueue.resume]
  have hloop : c.receiveChunksLoop = .running := by rw [hct]; exact h.loop
  have herror : ∀ queue, ProtoHopZ.receivePacket { c.transport with
      receivedPacketsQueue := queue } r = .ok r := by
    intro queue
    rw [ProtoHopZ.receivePacket, show ProtoHopZ.loopError { c.transport with
      receivedPacketsQueue := queue } = none from hch.2.1]
  obtain ⟨d, hd, hdt⟩ : ∃ d, c.step .resumeReceiveChunks = some (d,
        (receiveChunk c.expectedSequence c.packetsBuffer r).1.map .chunk) ∧
      d = { c with
        readyChunks := (receiveChunk c.expectedSequence c.packetsBuffer r).1.foldl pushChunk
          c.readyChunks
        expectedSequence := (receiveChunk c.expectedSequence c.packetsBuffer r).2.1
        packetsBuffer := (receiveChunk c.expectedSequence c.packetsBuffer r).2.2
        transport := { c.transport with
          receivedPacketsQueue := { waiters := [.chunks] } } } := by
    refine ⟨_, ?_, rfl⟩
    rw [ProtoStream.step, resumeReceiveChunks, hloop, htake]
    dsimp only
    rw [herror]
    dsimp only
    rw [if_neg (by rw [hct]; simp [h.cancelled])]
    rfl
  have hdh : d.transport.Healthy := by rw [hdt]; exact hch
  have hfine₁ := @fine_of_step _ address side air _ _ _ _ hc (by simpa [arrival] using hair)
    h.ready.healthy hch (UInt32.le_of_eq (by rw [hct]))
  have hfine₂ : Fine address side air c _ := fine_of_step hd (by simp [arrival]) hch hdh
    (UInt32.le_of_eq (by rw [hdt]))
  have hrun := (Transition.Run.single hfine₁ hc).next hfine₂ hd
  have hexpected : c.expectedSequence = b.expectedSequence := by rw [hct]
  have hbuffer : c.packetsBuffer = b.packetsBuffer := by rw [hct]
  rw [hexpected, hbuffer] at hrun hdt
  refine ⟨d, r, htype, hseq, ?_, ⟨?_, ?_, ⟨hdh, ?_, ?_, ?_, ?_⟩, ?_⟩, ?_, ?_, ?_⟩
  · rw [← h.ready.endpoint]
    exact hrun
  all_goals rw [hdt]
  · exact hloop
  · rw [hct]
    exact h.cancelled
  · rw [hct]
    exact h.ready.encrypted
  · rw [hct]
    exact h.ready.context
  · rw [hct]
    exact h.ready.known
  · rw [hct]
    exact h.ready.endpoint
  · rw [hct]

/-! ## The exchange -/

/-- What the exchange of packet `sequence` shows; `pushed` is what it lets the
receiver put in order. -/
def exchanged (P : Primitives) (key : Bytes) (address : Role → Endpoint) (side : Role) (k : Nat)
    (nonce : Nonce) (payload : Bytes) (sequence : UInt32) (pushed : List ReceivedPacket) :
    List (Role × ProtoStream.Observation) :=
  [.transport (.drew sequence),
    .transport (.registered k (sealedPacket P key nonce payload sequence) payload),
    .transport (.transmitted (address side.peer)
      (sealedPacket P key nonce payload sequence).datagram)].map (side, ·) ++
  (.transport (.transmitted (address side) (ProtoHopZ.ackPacket sequence).datagram) ::
    pushed.map .chunk).map (side.peer, ·) ++
  [.transport (.acked sequence)].map (side, ·)

theorem shown_exchanged {key : Bytes} {k : Nat} {nonce : Nonce} {payload : Bytes}
    {sequence : UInt32} {pushed : List ReceivedPacket} :
    shown side (exchanged P key address side k nonce payload sequence pushed) =
      [.transport (.drew sequence),
        .transport (.registered k (sealedPacket P key nonce payload sequence) payload),
        .transport (.transmitted (address side.peer)
          (sealedPacket P key nonce payload sequence).datagram),
        .transport (.acked sequence)] := by
  rw [exchanged, shown_append_self, shown_append_of_ne (Role.peer_ne side)]
  simp [shown]

theorem shown_peer_exchanged {key : Bytes} {k : Nat} {nonce : Nonce} {payload : Bytes}
    {sequence : UInt32} {pushed : List ReceivedPacket} :
    shown side.peer (exchanged P key address side k nonce payload sequence pushed) =
      .transport (.transmitted (address side) (ProtoHopZ.ackPacket sequence).datagram) ::
        pushed.map .chunk := by
  rw [exchanged, shown_append_of_ne (Role.peer_ne side).symm, shown_append_self]
  simp [shown, (Role.peer_ne side).symm]

/-- **A packet is sent, received and acknowledged**, whatever other packet is still
under way. -/
theorem exchange (hP : P.Lawful) {key : Bytes} {k : Nat} {s : Session P}
    (hsend : ReadyToSend key (address side.peer) k (s.stream side))
    (hreceive : ReadyToReceive key (address side) (s.stream side.peer)) (hk : k + 1 < 2 ^ 32)
    (hflight : (s.stream side).transport.inFlight.keys.card ≤ 1) {payload : Bytes}
    (hne : payload ≠ []) (hlength : payload.length ≤ packetPayloadSize) (nonce : Nonce)
    {sequence : UInt32} (hsequence : (s.stream side).transport.sequenceCounter = sequence)
    (hnew : sequence ∉ (s.stream side.peer).transport.receivedPackets) :
    ∃ s' r out, r.packet.header.type = .data ∧ r.packet.header.sequence = sequence ∧
      receiveChunk (s.stream side.peer).expectedSequence (s.stream side.peer).packetsBuffer r =
        out ∧
      Transition.Run step (Working address) s
        (exchanged P key address side k nonce payload sequence out.1) s' ∧
      ReadyToSend key (address side.peer) (k + 1) (s'.stream side) ∧
      ReadyToReceive key (address side) (s'.stream side.peer) ∧
      (∀ n ∈ (s'.stream side).transport.inFlight, n ∈ (s.stream side).transport.inFlight) ∧
      (s'.stream side.peer).transport.receivedPackets =
        insert sequence (s.stream side.peer).transport.receivedPackets ∧
      (s'.stream side.peer).expectedSequence = out.2.1 ∧
      (s'.stream side.peer).packetsBuffer = out.2.2 := by
  subst hsequence
  -- the packet is sent
  obtain ⟨a, ha, haflight, hasend⟩ := run_send hsend hk hflight hlength nonce (s.air side.peer)
  obtain ⟨s₁, hrun₁, ha₁, hb₁, hair₁, -⟩ := run_of_side hreceive.ready.healthy ha
  generalize (s.stream side).transport.sequenceCounter = sequence at *
  -- it is received and acknowledged
  obtain ⟨b, r, htype, hseq, hb, hbready, hbreceived, hbexpected, hbbuffer⟩ :=
    @run_receive _ address side.peer hP key (s₁.stream side.peer)
      (by rw [hb₁, Role.peer_peer]; exact hreceive) _ hne hlength nonce sequence
      (by rwa [hb₁]) (s₁.air side)
      (by rw [hair₁]; exact List.mem_append_right _ (mem_emitted.mpr (by simp)))
  rw [Role.peer_peer] at hb hbready
  obtain ⟨s₂, hrun₂, hb₂, ha₂, hair₂, -⟩ := @run_of_side _ address side.peer s₁ _ _
    (by rw [Role.peer_peer, ha₁]; exact hasend.ready.healthy) (by rwa [Role.peer_peer])
  rw [Role.peer_peer, ha₁] at ha₂
  -- the acknowledgement arrives
  obtain ⟨a', ha', ha'flight, ha'send⟩ := @run_ack _ address side _ _ _ hasend sequence
    (by rw [haflight]; exact Finmap.mem_insert.mpr (Or.inl rfl)) (s₂.air side.peer)
    (by rw [hair₂]; exact List.mem_append_right _ (mem_emitted.mpr (by simp)))
  obtain ⟨s₃, hrun₃, ha₃, hb₃, -⟩ := @run_of_side _ address side s₂ _ _
    (by rw [hb₂]; exact hbready.ready.healthy) (by rwa [ha₂])
  rw [hb₂] at hb₃
  refine ⟨s₃, r, _, htype, hseq, rfl, ?_, by rwa [ha₃], by rwa [hb₃], ?_, ?_, ?_, ?_⟩
  · rw [hb₁] at hrun₂
    exact (hrun₁.append hrun₂).append hrun₃
  · intro n hn
    rw [ha₃, ha'flight, haflight, Finmap.mem_erase, Finmap.mem_insert] at hn
    exact hn.2.resolve_left hn.1
  · rw [hb₃, hbreceived, hb₁]
  · rw [hb₃, hbexpected, hb₁]
  · rw [hb₃, hbbuffer, hb₁]

end Session
end FileHopZ

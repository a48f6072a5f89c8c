import FileHopZ.Protohopz.Exchange

/-! # Which payloads the two sides agree on

`send` refuses more than `PACKET_PAYLOAD_SIZE` bytes; everything else it encrypts,
also nothing at all.  The peer refuses to decrypt what is no longer than nonce and
tag, which is the encryption of the empty payload, and its `receive_loop` ends.  So
sender and receiver agree on the payloads of 1 to 1400 bytes (`payload_domain_iff`),
as long as the number drawn is new to the receiver: a packet with one it knows is
acknowledged, and dropped.

A call whose encryption or `async_send_to` fails returns its error after it has drawn
its number.
-/
namespace FileHopZ
namespace Session
variable {P : Primitives}
open ProtoStream

/-- `async_send_to` succeeds, or fails with an error. -/
def socketEvents (i : Nat) : Option Error → List (ProtoStream.Event P)
  | none => [.transport (.transmitSend i), .transport (.finishSend i none)]
  | some ec => [.transport (.finishSend i (some ec))]

/-- A whole call of `send`, with the outcome of the encryption and of `async_send_to`. -/
def sendEvents (i : Nat) (data : Bytes) (fault : Option ErrorCode) (nonce : Nonce) (now : Nat)
    (socket : Option Error) : List (ProtoStream.Event P) :=
  .send i data :: .transport (.resumeSend i fault nonce now) :: socketEvents i socket

/-- `receive_loop` accepts the datagram and goes on, and queues `data`. -/
def Delivers (u : ProtoHopZ P) (datagram data : Bytes) : Prop :=
  ∀ buffer now, (u.receiveDatagram u.peerEndpoint buffer datagram now none).1.receiveLoop = .running ∧
    ∃ r : ReceivedPacket, r.packet.header.type = .data ∧ r.packet.data = data ∧
      (u.receiveDatagram u.peerEndpoint buffer datagram now none).1.receivedPacketsQueue =
        u.receivedPacketsQueue.push r

/-- A call that returns no error has sent one datagram, which is delivered; a call that
returns one has drawn no number and left nothing in flight. -/
def Agrees (a : ProtoStream P) (u : ProtoHopZ P) (i : Nat) (data : Bytes)
    (r : ProtoStream P × List ProtoStream.Observation) : Prop :=
  (.transport (.returned i none) ∈ r.2 →
    ∃ destination datagram, emitted r.2 = [(destination, datagram)] ∧ Delivers u datagram data) ∧
  ((∃ ec, .rejected i ec ∈ r.2 ∨ .transport (.returned i (some ec)) ∈ r.2) →
    r.1.transport.sequenceCounter = a.transport.sequenceCounter ∧
      r.1.transport.inFlight = a.transport.inFlight)

/-! ## The outcomes of a call -/

theorem resumeSend_idle {a : ProtoStream P} {i : Nat} (hidle : a.transport.sends i = .idle)
    (fault : Option ErrorCode) (nonce : Nonce) (now : Nat) :
    a.step (.transport (.resumeSend i fault nonce now)) = none := by
  simp [ProtoStream.step, ProtoHopZ.Event.isInternal, onTransport, ProtoHopZ.step,
    ProtoHopZ.resumeSend, hidle]

/-- A call that has returned, or has not begun, sends nothing. -/
theorem transmit_none {a : ProtoStream P} {i : Nat}
    (hframe : a.transport.sends i = .idle ∨ ∃ ec, a.transport.sends i = .returned ec) :
    a.step (.transport (.transmitSend i)) = none ∧
      ∀ ec, a.step (.transport (.finishSend i ec)) = none := by
  rcases hframe with hframe | ⟨ec, hframe⟩ <;>
    simp [ProtoStream.step, ProtoHopZ.Event.isInternal, onTransport, ProtoHopZ.step,
      ProtoHopZ.transmitSend, ProtoHopZ.finishSend, hframe]

theorem play_rest_none {a : ProtoStream P} {i : Nat}
    (hframe : a.transport.sends i = .idle ∨ ∃ ec, a.transport.sends i = .returned ec)
    (socket : Option Error) :
    Transition.play ProtoStream.step a (socketEvents i socket) = (a, []) := by
  obtain ⟨htransmit, hfinish⟩ := transmit_none hframe
  cases socket with
  | none =>
      rw [socketEvents, Transition.play_none htransmit, Transition.play_none (hfinish none)]
      rfl
  | some ec =>
      rw [socketEvents, Transition.play_none (hfinish (some ec))]
      rfl

/-- Too many bytes: the stream turns the call down. -/
theorem play_tooLarge {a : ProtoStream P} {i : Nat} (hrunning : a.loopsRunning = true)
    (hidle : a.transport.sends i = .idle) {data : Bytes} (hlong : packetPayloadSize < data.length)
    (fault : Option ErrorCode) (nonce : Nonce) (now : Nat) (socket : Option Error) :
    Transition.play ProtoStream.step a (sendEvents i data fault nonce now socket) =
      (a, [.rejected i (.filehopz .streamPayloadTooLarge)]) := by
  have hsend : a.step (.send i data) =
      some (a, [.rejected i (.filehopz .streamPayloadTooLarge)]) := by
    rw [ProtoStream.step, send, if_neg (by simp [hrunning]), if_pos hlong]
  rw [sendEvents, Transition.play_some hsend, Transition.play_none (resumeSend_idle hidle _ _ _),
    play_rest_none (Or.inl hidle)]
  rfl

/-- Call `i` of `send` comes to the window of `send_packet` and finds it open: either
it is made now, or it has waited and is woken. -/
inductive Proceeds (a : ProtoStream P) (i : Nat) (data : Bytes) : Prop
  | called (hidle : a.transport.sends i = .idle)
      (hopen : data.length ≤ packetPayloadSize → a.transport.blocked = false)
  | woken (hwaiting : a.transport.sends i = .waiting (dataPacket data))
      (hlength : data.length ≤ packetPayloadSize) (hwoken : i ∈ a.transport.cwnd.completions)
      (hopen : a.transport.blocked = false)

/-- Such a call registers its packet in the next step. -/
theorem proceeds_step {key : Bytes} {peer : Endpoint} {a : ProtoStream P} {i : Nat}
    (hrunning : a.loopsRunning = true) (ha : Ready key peer a.transport) {data : Bytes}
    (h : Proceeds a i data) (hlength : data.length ≤ packetPayloadSize)
    (fault : Option ErrorCode) (nonce : Nonce) (now : Nat) (socket : Option Error) : ∃ b t,
      Transition.play ProtoStream.step a (sendEvents i data fault nonce now socket) =
        Transition.play ProtoStream.step b
          (.transport (.resumeSend i fault nonce now) :: socketEvents i socket) ∧
      b.transport.step (.resumeSend i fault nonce now) =
        some (t.registerPacket i (dataPacket data) fault nonce now) ∧
      Ready key peer t ∧ t.sequenceCounter = a.transport.sequenceCounter := by
  cases h with
  | called hidle hopen =>
      obtain ⟨b, hb, hbt⟩ := send_step hrunning hidle hlength
      refine ⟨b, b.transport, ?_, ?_, ?_, by rw [hbt]; rfl⟩
      · rw [sendEvents, Transition.play_some hb]
        rfl
      · have hposted : b.transport.sends i = .posted (dataPacket data) := by
          rw [hbt]
          exact Function.update_self _ _ _
        have herror : b.transport.loopError = none := by rw [hbt]; exact ha.healthy.2.1
        have hblocked : b.transport.blocked = false := by rw [hbt]; exact hopen hlength
        rw [ProtoHopZ.step, ProtoHopZ.resumeSend, hposted]
        dsimp only
        rw [sendPacket_open herror hblocked]
      · rw [hbt]
        exact ⟨ha.healthy, ha.encrypted, ha.context, ha.known, ha.endpoint⟩
  | woken hwaiting hlength hwoken hopen =>
      have hsend : a.step (.send i data) = none := by
        simp [ProtoStream.step, send, hrunning, not_lt.mpr hlength, onTransport, ProtoHopZ.step,
          ProtoHopZ.fresh, hwaiting]
      refine ⟨a, { a.transport with cwnd := a.transport.cwnd.resume i }, ?_, ?_, ?_, rfl⟩
      · rw [sendEvents, Transition.play_none hsend]
      · have herror : { a.transport with cwnd := a.transport.cwnd.resume i }.loopError = none :=
          ha.healthy.2.1
        rw [ProtoHopZ.step, ProtoHopZ.resumeSend, hwaiting]
        dsimp only
        rw [if_pos hwoken, sendPacket_open herror hopen]
      · exact ⟨ha.healthy, ha.encrypted, ha.context, ha.known, ha.endpoint⟩

/-- The encryption fails: the call has drawn a number and returns the error. -/
theorem play_fault {key : Bytes} {peer : Endpoint} {a : ProtoStream P} {i : Nat}
    (hrunning : a.loopsRunning = true) (ha : Ready key peer a.transport) {data : Bytes}
    (h : Proceeds a i data) (hlength : data.length ≤ packetPayloadSize) (code : ErrorCode)
    (nonce : Nonce) (now : Nat) (socket : Option Error) : ∃ b,
      Transition.play ProtoStream.step a (sendEvents i data (some code) nonce now socket) =
        (b, [.transport (.drew a.transport.sequenceCounter),
          .transport (.returned i (some (.filehopz .transportEncryptFailed)))]) ∧
      b.transport.sequenceCounter = a.transport.sequenceCounter + 1 := by
  obtain ⟨b, t, hplay, hstep, ht, hcounter⟩ :=
    proceeds_step hrunning ha h hlength (some code) nonce now socket
  have hfail : ProtoHopZ.encryptPacket (some code) nonce
      { t with sequenceCounter := t.sequenceCounter + 1 }
      ((dataPacket data).withSequence t.sequenceCounter) =
        .error (.filehopz .transportEncryptFailed) := by
    have hsize : (dataPacket data).header.size.toNat = data.length :=
      Packet.copyIn_size (hlength.trans (by decide))
    unfold ProtoHopZ.encryptPacket
    rw [if_neg (by simp [ht.encrypted]),
      if_neg (by rw [Packet.withSequence_size, hsize]; exact not_lt.mpr hlength)]
    simp [CryptoContext.encryptData, ht.context.1]
  rw [ProtoHopZ.registerPacket] at hstep
  dsimp only at hstep
  rw [hfail] at hstep
  obtain ⟨c, hc, hct⟩ := step_of_transport rfl hstep
  refine ⟨c, ?_, by rw [hct]; exact congrArg (· + 1) hcounter⟩
  rw [hplay, Transition.play_some hc,
    play_rest_none (Or.inr ⟨_, by rw [hct]; exact Function.update_self _ _ _⟩), hcounter]
  rfl

theorem finishSend_step {t : ProtoHopZ P} {i : Nat} {packet : Packet}
    (hsending : t.sends i = .sending packet true) : t.step (.finishSend i none) =
      some ({ t with sends := Function.update t.sends i (.returned none) }, [.returned i none]) := by
  simp [ProtoHopZ.step, ProtoHopZ.finishSend, hsending]

theorem finishSend_error {t : ProtoHopZ P} {i : Nat} {packet : Packet}
    (hsending : t.sends i = .sending packet false) (ec : Error) :
    t.step (.finishSend i (some ec)) = some ({ t with
        inFlight := t.inFlight.erase packet.header.sequence
        cwnd := t.cwnd.notifyOne
        sends := Function.update t.sends i (.returned (some ec)) }.signalIfDrained,
      [.returned i (some ec)]) := by
  simp [ProtoHopZ.step, ProtoHopZ.finishSend, hsending]

/-- The encryption succeeds: the packet is registered. -/
theorem play_registered {key : Bytes} {peer : Endpoint} {a : ProtoStream P} {i : Nat}
    (hrunning : a.loopsRunning = true) (ha : Ready key peer a.transport) {data : Bytes}
    (h : Proceeds a i data) (hlength : data.length ≤ packetPayloadSize) (nonce : Nonce) (now : Nat)
    (socket : Option Error) : ∃ c,
      Transition.play ProtoStream.step a (sendEvents i data none nonce now socket) =
        ((Transition.play ProtoStream.step c (socketEvents i socket)).1,
          .transport (.drew a.transport.sequenceCounter) :: .transport (.registered i
            (sealedPacket P key nonce data a.transport.sequenceCounter) data) ::
            (Transition.play ProtoStream.step c (socketEvents i socket)).2) ∧
      c.transport.sends i =
        .sending (sealedPacket P key nonce data a.transport.sequenceCounter) false ∧
      c.transport.sequenceCounter = a.transport.sequenceCounter + 1 ∧
      c.transport.peerEndpoint = peer := by
  have hdata : (dataPacket data).data = data := Packet.copyIn_data (hlength.trans (by decide))
  obtain ⟨b, t, hplay, hstep, ht, hcounter⟩ :=
    proceeds_step hrunning ha h hlength none nonce now socket
  have hseal : ProtoHopZ.encryptPacket none nonce
      { t with sequenceCounter := t.sequenceCounter + 1 }
      ((dataPacket data).withSequence t.sequenceCounter) =
        .ok (sealedPacket P key nonce data t.sequenceCounter) :=
    encryptPacket_ready ht nonce hlength _
  rw [ProtoHopZ.registerPacket] at hstep
  dsimp only at hstep
  rw [hseal, hdata, hcounter] at hstep
  obtain ⟨c, hc, hct⟩ := step_of_transport rfl hstep
  refine ⟨c, ?_, ?_, by rw [hct], by rw [hct]; exact ht.endpoint⟩
  · rw [hplay, Transition.play_some hc]
    rfl
  · rw [hct]
    exact Function.update_self _ _ _

/-- What the whole call shows when everything succeeds. -/
theorem play_sent {key : Bytes} {peer : Endpoint} {a : ProtoStream P} {i : Nat}
    (hrunning : a.loopsRunning = true) (ha : Ready key peer a.transport) {data : Bytes}
    (h : Proceeds a i data) (hlength : data.length ≤ packetPayloadSize) (nonce : Nonce)
    (now : Nat) : ∃ d,
      Transition.play ProtoStream.step a (sendEvents i data none nonce now none) = (d,
        [.transport (.drew a.transport.sequenceCounter), .transport (.registered i
          (sealedPacket P key nonce data a.transport.sequenceCounter) data),
        .transport (.transmitted peer
          (sealedPacket P key nonce data a.transport.sequenceCounter).datagram),
        .transport (.returned i none)]) := by
  obtain ⟨c, hplay, hsending, -, hpeer⟩ := play_registered hrunning ha h hlength nonce now none
  obtain ⟨d, hd, hdt⟩ := @step_of_transport _ c (.transmitSend i) _ _ rfl
    (transmitSend_step hsending)
  obtain ⟨f, hf, -⟩ := @step_of_transport _ d (.finishSend i none)
    { d.transport with sends := Function.update d.transport.sends i (.returned none) }
    [.returned i none] rfl
    (finishSend_step (by rw [hdt]; exact Function.update_self _ _ _))
  refine ⟨f, ?_⟩
  rw [hplay, socketEvents, Transition.play_some hd, Transition.play_some hf, hpeer]
  rfl

/-- When `async_send_to` fails, the call returns its error with its number drawn. -/
theorem play_socket {key : Bytes} {peer : Endpoint} {a : ProtoStream P} {i : Nat}
    (hrunning : a.loopsRunning = true) (ha : Ready key peer a.transport) {data : Bytes}
    (h : Proceeds a i data) (hlength : data.length ≤ packetPayloadSize) (nonce : Nonce) (now : Nat)
    (ec : Error) :
    ∃ d, Transition.play ProtoStream.step a (sendEvents i data none nonce now (some ec)) = (d,
        [.transport (.drew a.transport.sequenceCounter), .transport (.registered i
          (sealedPacket P key nonce data a.transport.sequenceCounter) data),
        .transport (.returned i (some ec))]) ∧
      d.transport.sequenceCounter = a.transport.sequenceCounter + 1 := by
  obtain ⟨c, hplay, hsending, hcounter, -⟩ :=
    play_registered hrunning ha h hlength nonce now (some ec)
  obtain ⟨d, hd, hdt⟩ := @step_of_transport _ c (.finishSend i (some ec)) _
    [.returned i (some ec)] rfl
    ((finishSend_error hsending ec).trans (congrArg (fun t => some (t, _))
      (ProtoHopZ.signalIfDrained_eq _)))
  refine ⟨d, ?_, by rw [hdt]; exact hcounter⟩
  rw [hplay, socketEvents, Transition.play_some hd]
  rfl

/-! ## The receiving side -/

theorem receiveDatagram_ready {key : Bytes} {peer : Endpoint} {u : ProtoHopZ P}
    (hu : Ready key peer u) (buffer : Packet) (bytes : Bytes) (now : Nat) :
    u.receiveDatagram u.peerEndpoint buffer bytes now none =
      { u with lastPeerActivity := now }.receivePacketOfType (buffer.receiveFrom bytes) none := by
  rw [ProtoHopZ.receiveDatagram, if_neg (by simp [hu.known]), if_neg (by simp)]

/-- The empty payload is nonce and tag only, which `decrypt_data` refuses. -/
theorem decryptData_empty {key : Bytes} {context : CryptoContext P} (nonce : Nonce) :
    ∃ ec, context.decryptData none (CryptoContext.frame P key nonce []) = .error ec := by
  cases hresult : context.decryptData none (CryptoContext.frame P key nonce []) with
  | error ec => exact ⟨ec, rfl⟩
  | ok result =>
      have := (CryptoContext.length_of_decryptData hresult).2
      rw [CryptoContext.length_frame, List.length_nil, Nat.zero_add] at this
      exact absurd this (Nat.lt_irrefl _)

/-- A packet whose number has been received before is acknowledged, and dropped. -/
theorem not_delivers_of_received {key : Bytes} {peer : Endpoint} {u : ProtoHopZ P}
    (hu : Ready key peer u) {data : Bytes} (hlength : data.length ≤ packetPayloadSize)
    (nonce : Nonce) {sequence : UInt32} (hold : sequence ∈ u.receivedPackets) :
    ¬ Delivers u (sealedPacket P key nonce data sequence).datagram data := by
  intro hdelivers
  obtain ⟨-, r, -, -, hqueue⟩ := hdelivers (dataPacket []) 0
  rw [receiveDatagram_ready hu] at hqueue
  obtain ⟨htype, hseq, hsize, -⟩ := receiveFrom_sealedPacket hlength nonce sequence rfl
  rw [ProtoHopZ.receivePacketOfType, htype] at hqueue
  dsimp only at hqueue
  rw [ProtoHopZ.receiveData, if_neg hsize, if_pos (by rw [hseq]; exact hold)] at hqueue
  exact AsyncQueue.push_ne _ _ hqueue.symm

theorem not_delivers_empty {key : Bytes} {peer : Endpoint} {u : ProtoHopZ P}
    (hu : Ready key peer u) (nonce : Nonce) {sequence : UInt32}
    (hnew : sequence ∉ u.receivedPackets) :
    ¬ Delivers u (sealedPacket P key nonce [] sequence).datagram [] := by
  intro hdelivers
  have hrunning := (hdelivers (dataPacket []) 0).1
  rw [receiveDatagram_ready hu] at hrunning
  have hlength : ([] : Bytes).length ≤ packetPayloadSize := Nat.zero_le _
  obtain ⟨htype, hseq, hsize, hdata⟩ := receiveFrom_sealedPacket hlength nonce sequence rfl
  obtain ⟨ec, hec⟩ := @decryptData_empty P key u.cryptoContext nonce
  rw [ProtoHopZ.receivePacketOfType, htype] at hrunning
  dsimp only at hrunning
  rw [ProtoHopZ.receiveData, if_neg hsize, if_neg (by rw [hseq]; exact hnew),
    if_pos hu.encrypted, hdata] at hrunning
  dsimp only at hrunning
  rw [hec] at hrunning
  cases hrunning

/-- The payload is delivered if and only if it is not empty and its number is new. -/
theorem delivers_iff (hP : P.Lawful) {key : Bytes} {peer : Endpoint} {u : ProtoHopZ P}
    (hu : Ready key peer u) {data : Bytes} (hlength : data.length ≤ packetPayloadSize)
    (nonce : Nonce) {sequence : UInt32} :
    Delivers u (sealedPacket P key nonce data sequence).datagram data ↔
      data ≠ [] ∧ sequence ∉ u.receivedPackets := by
  constructor
  · intro hdelivers
    have hnew : sequence ∉ u.receivedPackets :=
      fun hold => not_delivers_of_received hu hlength nonce hold hdelivers
    refine ⟨?_, hnew⟩
    rintro rfl
    exact not_delivers_empty hu nonce hnew hdelivers
  · rintro ⟨hne, hnew⟩ buffer now
    have hready : Ready key peer { u with lastPeerActivity := now } :=
      ⟨hu.healthy, hu.encrypted, hu.context, hu.known, hu.endpoint⟩
    obtain ⟨r, htype, -, hdata, hreceived⟩ :=
      receivePacketOfType_sealed hP hready hne hlength nonce hnew buffer
    rw [receiveDatagram_ready hu, hreceived]
    exact ⟨hu.healthy.1, r, htype, hdata, rfl⟩

theorem add_one_ne (n : UInt32) : n + 1 ≠ n := by
  intro h
  have := congrArg UInt32.toNat h
  rw [UInt32.toNat_add] at this
  have := n.toNat_lt
  have : (1 : UInt32).toNat = 1 := rfl
  omega

/-- **Which payloads the two sides agree on.**  In an established session, a call of
`send` and the peer agree if and only if the call is refused for its length, or it has
something to send, neither its encryption nor `async_send_to` fails, and the peer has
not yet received a packet with the number it draws. -/
theorem payload_domain_iff (hP : P.Lawful) {key : Bytes} {here there : Endpoint}
    {a : ProtoStream P} {u : ProtoHopZ P} (hrunning : a.loopsRunning = true)
    (ha : Ready key there a.transport) (hu : Ready key here u) {i : Nat} {data : Bytes}
    (hproceeds : Proceeds a i data) (fault : Option ErrorCode) (nonce : Nonce) (now : Nat)
    (socket : Option Error) :
    Agrees a u i data
        (Transition.play ProtoStream.step a (sendEvents i data fault nonce now socket)) ↔
      packetPayloadSize < data.length ∨ data ≠ [] ∧ fault = none ∧ socket = none ∧
        a.transport.sequenceCounter ∉ u.receivedPackets := by
  by_cases hlong : packetPayloadSize < data.length
  · have hidle : a.transport.sends i = .idle := by
      cases hproceeds with
      | called hidle => exact hidle
      | woken _ hlength => exact absurd hlong (not_lt.mpr hlength)
    rw [play_tooLarge hrunning hidle hlong]
    refine ⟨fun _ => Or.inl hlong, fun _ => ⟨by simp, fun _ => ⟨rfl, rfl⟩⟩⟩
  have hlength : data.length ≤ packetPayloadSize := not_lt.mp hlong
  cases fault with
  | some code =>
      obtain ⟨b, hplay, hcounter⟩ := play_fault hrunning ha hproceeds hlength code nonce now
        socket
      rw [hplay]
      refine ⟨fun h => ?_, fun h => ?_⟩
      · have := (h.2 ⟨_, Or.inr (List.mem_cons_of_mem _ List.mem_cons_self)⟩).1
        exact absurd (hcounter.symm.trans this) (add_one_ne _)
      · rcases h with h | ⟨-, h, -, -⟩
        · exact absurd h hlong
        · cases h
  | none =>
      cases socket with
      | some ec =>
          obtain ⟨d, hplay, hcounter⟩ := play_socket hrunning ha hproceeds hlength nonce now ec
          rw [hplay]
          refine ⟨fun h => ?_, fun h => ?_⟩
          · have := (h.2 ⟨ec, Or.inr (by simp)⟩).1
            exact absurd (hcounter.symm.trans this) (add_one_ne _)
          · rcases h with h | ⟨-, -, h, -⟩
            · exact absurd h hlong
            · cases h
      | none =>
          obtain ⟨d, hplay⟩ := play_sent hrunning ha hproceeds hlength nonce now
          have hdelivers := @delivers_iff _ hP key here u hu data hlength nonce
            a.transport.sequenceCounter
          rw [hplay]
          refine ⟨fun h => Or.inr ?_, fun h => ⟨fun _ => ?_, by simp⟩⟩
          · obtain ⟨destination, datagram, hemitted, hd⟩ := h.1 (by simp)
            obtain ⟨-, rfl⟩ := Prod.mk.inj (List.cons.inj hemitted).1
            -- the peer decides on the payload and on the number
            obtain ⟨hne, hnew⟩ := hdelivers.mp hd
            exact ⟨hne, rfl, rfl, hnew⟩
          · rcases h with h | ⟨hne, -, -, hnew⟩
            · exact absurd h hlong
            · exact ⟨_, _, rfl, hdelivers.mpr ⟨hne, hnew⟩⟩

/-! ## At two sides of a session -/

theorem ready_sampleStream (side : Role) :
    Ready sampleKey (sampleAddress side.peer) (sampleStream side).transport :=
  ⟨⟨rfl, rfl, rfl⟩, rfl, ⟨rfl, rfl⟩, rfl, rfl⟩

theorem proceeds_sampleStream (i : Nat) (data : Bytes) :
    Proceeds (sampleStream .initiator) i data :=
  .called rfl fun _ => by decide +kernel

/-- One byte. -/
theorem payload_domain_iff_one :
    Agrees (sampleStream .initiator) (sampleStream .responder).transport 0 [65]
      (Transition.play ProtoStream.step (sampleStream .initiator)
        (sendEvents 0 [65] none sampleNonce 0 none)) :=
  (payload_domain_iff Primitives.additive_lawful rfl (ready_sampleStream .initiator)
    (ready_sampleStream .responder) (proceeds_sampleStream 0 [65]) none
    sampleNonce 0 none).mpr (Or.inr ⟨List.cons_ne_nil _ _, rfl, rfl, by decide⟩)

/-- The empty payload is sent without an error, and ends the peer's `receive_loop`. -/
theorem empty_payload_not_delivered : ∃ b destination datagram,
    Transition.play ProtoStream.step (sampleStream .initiator)
        (sendEvents 0 [] none sampleNonce 0 none) = b ∧
      .transport (.returned 0 none) ∈ b.2 ∧ emitted b.2 = [(destination, datagram)] ∧
      ((sampleStream .responder).transport.receiveDatagram
        (sampleStream .responder).transport.peerEndpoint (dataPacket []) datagram 0
        none).1.receiveLoop ≠ .running ∧
      ¬ Agrees (sampleStream .initiator) (sampleStream .responder).transport 0 [] b := by
  obtain ⟨b, hplay⟩ := play_sent rfl (ready_sampleStream .initiator) (proceeds_sampleStream 0 [])
    (Nat.zero_le _) sampleNonce 0
  have hends : ((sampleStream .responder).transport.receiveDatagram
      (sampleStream .responder).transport.peerEndpoint (dataPacket [])
      (sealedPacket .additive sampleKey sampleNonce []
        (sampleStream .initiator).transport.sequenceCounter).datagram 0
      none).1.receiveLoop ≠ .running := by decide +kernel
  refine ⟨_, sampleAddress .responder, _, hplay, by simp, rfl, hends, fun hagrees => ?_⟩
  obtain ⟨destination, datagram, hemitted, hdelivers⟩ := hagrees.1 (by simp)
  obtain ⟨-, rfl⟩ := Prod.mk.inj (List.cons.inj hemitted).1
  exact hends (hdelivers (dataPacket []) 0).1

end Session
end FileHopZ

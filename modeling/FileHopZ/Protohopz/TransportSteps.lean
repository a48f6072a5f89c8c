import FileHopZ.Protohopz.Transport

/-! # The steps of the transport

`Step` has one case for each way through the code between two suspensions, with the
guards it has passed and the state it leaves.  `step_cases` is the one place where the
step function is taken apart: what is said later about the steps is a case analysis of
`Step`.
-/
namespace FileHopZ
namespace ProtoHopZ
variable {P : Primitives}

/-! ## What a step goes through -/

/-- Call `i` of `send_packet` goes on, after `post` or after its `cwnd_.wait`. -/
def Resumes (t : ProtoHopZ P) (i : Nat) (source : Packet) (cwnd : AsyncValue Nat ℚ) : Prop :=
  t.sends i = .posted source ∧ cwnd = t.cwnd ∨
    t.sends i = .waiting source ∧ i ∈ t.cwnd.completions ∧ cwnd = t.cwnd.resume i

/-- `receive_loop` does not ignore `remote`. -/
def ListensTo (t : ProtoHopZ P) (remote : Endpoint) : Prop :=
  t.peerEndpointKnown = false ∨ remote = t.peerEndpoint

/-- `receive_loop` has noted its peer and the time. -/
def heard (remote : Endpoint) (now : Nat) (t : ProtoHopZ P) : ProtoHopZ P :=
  { t with peerEndpoint := remote, peerEndpointKnown := true, lastPeerActivity := now }

/-- `receive_loop` records the received packet `packet` and queues `queued`. -/
inductive Accepts (encrypted : Bool) (context : CryptoContext P) (packet : Packet) :
    ReceivedPacket → Prop
  | handshake (htype : packet.header.type = .handshake) :
      Accepts encrypted context packet ⟨packet, none⟩
  | plain (htype : packet.header.type = .data) (henc : encrypted = false) :
      Accepts encrypted context packet ⟨packet, none⟩
  | decrypted (htype : packet.header.type = .data) (henc : encrypted = true)
      {fault : Option ErrorCode} {result : Bytes}
      (hresult : context.decryptData fault packet.data = .ok result) :
      Accepts encrypted context packet ⟨packet.copyIn result, some packet.data⟩

/-- Where `timeout_loop` is suspended next: it goes through `timed_out` to the next packet
that is still in flight. -/
def resendFrame (flight : InFlight) : List UInt32 → TimeoutFrame
  | [] => .sleeping
  | sequence :: rest =>
      match flight.lookup sequence with
      | none => resendFrame flight rest
      | some l => .resending l.packet false rest

/-- The steps of the handshake. -/
def Event.handshakes : Event P → Bool
  | .startHandshake .. | .resumeHandshakeSend | .resumeHandshakeReceive .. => true
  | _ => false

/-- The transport after `Crypto_context::init` has generated `generated`. -/
def withKey (generated : P.PrivateKey) (t : ProtoHopZ P) : ProtoHopZ P :=
  { t with cryptoContext := { t.cryptoContext with
      keyHandle := some generated, ownPublicKey := P.publicKey generated } }

/-- The transport whose handshake goes on with what it received. -/
def withReceived (queue : AsyncQueue Consumer ReceivedPacket) (context : CryptoContext P)
    (t : ProtoHopZ P) : ProtoHopZ P :=
  { t with receivedPacketsQueue := queue, cryptoContext := context }

/-- What a step of the handshake can do. -/
inductive Shakes (t : ProtoHopZ P) : ProtoHopZ P → List Observation → Prop
  /-- It fails before it waits for its peer's packet, or while it sends its own. -/
  | failed (ec : Error) (hframe : t.handshake = .idle ∨ ∃ role i, t.handshake = .sending role i) :
      Shakes t { t with handshake := .returned (some ec) } [.handshakeReturned (some ec)]
  | begunInitiator (generated : P.PrivateKey) (i : Nat) (hframe : t.handshake = .idle)
      (hfresh : t.fresh i = true) : Shakes t ((t.withKey generated).sendHandshake .initiator i) []
  | begunResponder (generated : P.PrivateKey) (hframe : t.handshake = .idle) :
      Shakes t ((t.withKey generated).awaitHandshake .responder) []
  | sentInitiator (i : Nat) (hframe : t.handshake = .sending .initiator i)
      (hsent : t.sends i = .returned none) : Shakes t (t.awaitHandshake .initiator) []
  | sentResponder (i : Nat) (hframe : t.handshake = .sending .responder i)
      (hsent : t.sends i = .returned none) :
      Shakes t { t with connectionEncrypted := true, handshake := .returned none }
        [.handshakeReturned none]
  /-- `receive_packet` returns the error of a loop. -/
  | interrupted (role : Role) (r : ReceivedPacket) (queue : AsyncQueue Consumer ReceivedPacket)
      (ec : Error) (hframe : t.handshake = .receiving role)
      (htake : t.receivedPacketsQueue.resume .handshake = some (r, queue))
      (herror : t.loopError = some ec) :
      Shakes t { t.withReceived queue t.cryptoContext with handshake := .returned (some ec) }
        [.handshakeReturned (some ec)]
  /-- The packet has no key, or its key is not accepted. -/
  | rejected (role : Role) (r : ReceivedPacket) (queue : AsyncQueue Consumer ReceivedPacket)
      (ec : Error) (context : CryptoContext P) (hframe : t.handshake = .receiving role)
      (htake : t.receivedPacketsQueue.resume .handshake = some (r, queue))
      (herror : t.loopError = none)
      (hreason : r.packet.header.size.toNat ≠ x25519Len ∧ context = t.cryptoContext ∧
          ec = .filehopz .invalidHandshakeKeySize ∨
        r.packet.header.size.toNat = x25519Len ∧ ∃ fault, t.cryptoContext.setPeerPublicKey fault
          (r.packet.payload.take x25519Len) = (some ec, context)) :
      Shakes t { t.withReceived queue context with handshake := .returned (some ec) }
        [.consumed r.packet, .handshakeReturned (some ec)]
  | installedInitiator (r : ReceivedPacket) (queue : AsyncQueue Consumer ReceivedPacket)
      (fault : Option ErrorCode) (context : CryptoContext P)
      (hframe : t.handshake = .receiving .initiator)
      (htake : t.receivedPacketsQueue.resume .handshake = some (r, queue))
      (herror : t.loopError = none) (hsize : r.packet.header.size.toNat = x25519Len)
      (hset : t.cryptoContext.setPeerPublicKey fault (r.packet.payload.take x25519Len) =
        (none, context)) :
      Shakes t { t.withReceived queue context with
          connectionEncrypted := true, handshake := .returned none }
        [.consumed r.packet, .installed (r.packet.payload.take x25519Len), .handshakeReturned none]
  | installedResponder (i : Nat) (r : ReceivedPacket) (queue : AsyncQueue Consumer ReceivedPacket)
      (fault : Option ErrorCode) (context : CryptoContext P)
      (hframe : t.handshake = .receiving .responder)
      (htake : t.receivedPacketsQueue.resume .handshake = some (r, queue))
      (herror : t.loopError = none) (hsize : r.packet.header.size.toNat = x25519Len)
      (hset : t.cryptoContext.setPeerPublicKey fault (r.packet.payload.take x25519Len) =
        (none, context)) (hfresh : t.fresh i = true) :
      Shakes t ((t.withReceived queue context).sendHandshake .responder i)
        [.consumed r.packet, .installed (r.packet.payload.take x25519Len)]

/-- A handshake that has returned makes no further step. -/
theorem Shakes.not_returned {t t' : ProtoHopZ P} {out : List Observation} (h : Shakes t t' out)
    (ec : Option Error) : t.handshake ≠ .returned ec := by
  intro hreturned
  cases h with
  | failed _ hbefore =>
      rcases hbefore with hbefore | ⟨role, i, hbefore⟩ <;> rw [hreturned] at hbefore <;>
        cases hbefore
  | begunInitiator _ _ hbefore | begunResponder _ hbefore | sentInitiator _ hbefore
  | sentResponder _ hbefore | interrupted _ _ _ _ hbefore | rejected _ _ _ _ _ hbefore
  | installedInitiator _ _ _ _ hbefore | installedResponder _ _ _ _ _ hbefore =>
      rw [hreturned] at hbefore
      cases hbefore

/-- **The steps of the transport.** -/
inductive Step (t : ProtoHopZ P) : Event P → ProtoHopZ P → List Observation → Prop
  | startLoops (now : Nat) (hreceive : t.receiveLoop = .idle) (htimeout : t.timeoutLoop = .idle) :
      Step t (.startLoops now) (t.startLoops now) []
  | sendPacket (i : Nat) (source : Packet) (hfresh : t.fresh i = true) :
      Step t (.sendPacket i source) (t.callSendPacket i source) []
  /-- `send_packet` returns the error of a loop. -/
  | refused (i : Nat) (source : Packet) (fault : Option ErrorCode) (nonce : Nonce) (now : Nat)
      (cwnd : AsyncValue Nat ℚ) (ec : Error) (hcall : t.Resumes i source cwnd)
      (herror : t.loopError = some ec) :
      Step t (.resumeSend i fault nonce now)
        { t with cwnd := cwnd, sends := Function.update t.sends i (.returned (some ec)) }
        [.returned i (some ec)]
  /-- It waits for the window. -/
  | delayed (i : Nat) (source : Packet) (fault : Option ErrorCode) (nonce : Nonce) (now : Nat)
      (cwnd : AsyncValue Nat ℚ) (hcall : t.Resumes i source cwnd) (herror : t.loopError = none)
      (hblocked : t.blocked = true) :
      Step t (.resumeSend i fault nonce now)
        { t with cwnd := cwnd.wait i, sends := Function.update t.sends i (.waiting source) } []
  /-- Its packet is not encrypted. -/
  | unencrypted (i : Nat) (source : Packet) (fault : Option ErrorCode) (nonce : Nonce) (now : Nat)
      (cwnd : AsyncValue Nat ℚ) (ec : Error) (hcall : t.Resumes i source cwnd)
      (herror : t.loopError = none) (hopen : t.blocked = false)
      (hencrypt : t.encryptPacket fault nonce (source.withSequence t.sequenceCounter) = .error ec) :
      Step t (.resumeSend i fault nonce now)
        { t with
          cwnd := cwnd
          sequenceCounter := t.sequenceCounter + 1
          sends := Function.update t.sends i (.returned (some ec)) }
        [.drew t.sequenceCounter, .returned i (some ec)]
  | registered (i : Nat) (source : Packet) (fault : Option ErrorCode) (nonce : Nonce) (now : Nat)
      (cwnd : AsyncValue Nat ℚ) (packet : Packet) (hcall : t.Resumes i source cwnd)
      (herror : t.loopError = none) (hopen : t.blocked = false)
      (hencrypt : t.encryptPacket fault nonce (source.withSequence t.sequenceCounter) = .ok packet) :
      Step t (.resumeSend i fault nonce now)
        { t with
          cwnd := cwnd
          sequenceCounter := t.sequenceCounter + 1
          inFlight := t.inFlight.insert t.sequenceCounter { sendTime := now, packet := packet }
          sends := Function.update t.sends i (.sending packet false) }
        [.drew t.sequenceCounter, .registered i packet source.data]
  | transmitSend (i : Nat) (packet : Packet) (hframe : t.sends i = .sending packet false) :
      Step t (.transmitSend i)
        { t with sends := Function.update t.sends i (.sending packet true) }
        [.transmitted t.peerEndpoint packet.datagram]
  | sent (i : Nat) (packet : Packet) (hframe : t.sends i = .sending packet true) :
      Step t (.finishSend i none) { t with sends := Function.update t.sends i (.returned none) }
        [.returned i none]
  /-- `async_send_to` has failed. -/
  | unsent (i : Nat) (packet : Packet) (ec : Error) (hframe : t.sends i = .sending packet false) :
      Step t (.finishSend i (some ec))
        { t with
          inFlight := t.inFlight.erase packet.header.sequence
          cwnd := t.cwnd.notifyOne
          sends := Function.update t.sends i (.returned (some ec)) }.signalIfDrained
        [.returned i (some ec)]
  /-- The datagram is from a stranger. -/
  | ignored (remote : Endpoint) (buffer : Packet) (bytes : Bytes) (now : Nat)
      (fault : Option ErrorCode) (hloop : t.receiveLoop = .running)
      (hpeer : t.peerEndpointKnown = true ∧ remote ≠ t.peerEndpoint) :
      Step t (.datagram remote buffer bytes now fault) t []
  | acked (remote : Endpoint) (buffer : Packet) (bytes : Bytes) (now : Nat)
      (fault : Option ErrorCode) (hloop : t.receiveLoop = .running) (hpeer : t.ListensTo remote)
      (htype : (buffer.receiveFrom bytes).header.type = .ack)
      (hmem : (buffer.receiveFrom bytes).header.sequence ∈ t.inFlight) :
      Step t (.datagram remote buffer bytes now fault)
        { t.heard remote now with
          inFlight := t.inFlight.erase (buffer.receiveFrom bytes).header.sequence
          cwnd := (t.cwnd.update t.nextCwnd).notifyOne }.signalIfDrained
        [.acked (buffer.receiveFrom bytes).header.sequence]
  /-- The packet is of no use: an acknowledgement of nothing in flight, or of another type. -/
  | unread (remote : Endpoint) (buffer : Packet) (bytes : Bytes) (now : Nat)
      (fault : Option ErrorCode) (hloop : t.receiveLoop = .running) (hpeer : t.ListensTo remote) :
      Step t (.datagram remote buffer bytes now fault) (t.heard remote now) []
  | tooLarge (remote : Endpoint) (buffer : Packet) (bytes : Bytes) (now : Nat)
      (fault : Option ErrorCode) (hloop : t.receiveLoop = .running) (hpeer : t.ListensTo remote)
      (hsize : packetSize < (buffer.receiveFrom bytes).header.size.toNat) :
      Step t (.datagram remote buffer bytes now fault)
        ((t.heard remote now).finishReceiveLoop (.filehopz .packetTooLarge)) []
  | repeated (remote : Endpoint) (buffer : Packet) (bytes : Bytes) (now : Nat)
      (fault : Option ErrorCode) (hloop : t.receiveLoop = .running) (hpeer : t.ListensTo remote)
      (hsize : (buffer.receiveFrom bytes).header.size.toNat ≤ packetSize)
      (hmem : (buffer.receiveFrom bytes).header.sequence ∈ t.receivedPackets) :
      Step t (.datagram remote buffer bytes now fault) (t.heard remote now)
        [(t.heard remote now).sendAck (buffer.receiveFrom bytes).header.sequence]
  | undecrypted (remote : Endpoint) (buffer : Packet) (bytes : Bytes) (now : Nat)
      (fault : Option ErrorCode) (hloop : t.receiveLoop = .running) (hpeer : t.ListensTo remote)
      (hsize : (buffer.receiveFrom bytes).header.size.toNat ≤ packetSize)
      (hnew : (buffer.receiveFrom bytes).header.sequence ∉ t.receivedPackets) :
      Step t (.datagram remote buffer bytes now fault)
        ((t.heard remote now).finishReceiveLoop (.filehopz .transportDecryptFailed))
        [(t.heard remote now).sendAck (buffer.receiveFrom bytes).header.sequence]
  | accepted (remote : Endpoint) (buffer : Packet) (bytes : Bytes) (now : Nat)
      (fault : Option ErrorCode) (r : ReceivedPacket) (hloop : t.receiveLoop = .running)
      (hpeer : t.ListensTo remote)
      (hsize : (buffer.receiveFrom bytes).header.size.toNat ≤ packetSize)
      (hsequence : r.packet.header.sequence = (buffer.receiveFrom bytes).header.sequence)
      (hnew : (buffer.receiveFrom bytes).header.sequence ∉ t.receivedPackets)
      (haccepts : Accepts t.connectionEncrypted t.cryptoContext (buffer.receiveFrom bytes) r) :
      Step t (.datagram remote buffer bytes now fault)
        ((t.heard remote now).accept r.packet r.origin)
        [(t.heard remote now).sendAck (buffer.receiveFrom bytes).header.sequence]
  | receiveError (ec : Error) (hloop : t.receiveLoop = .running) :
      Step t (.receiveError ec) (t.finishReceiveLoop ec) []
  | receiveLoopResult (ec : Option Error) (hloop : t.receiveLoop = .finished ec) :
      Step t .receiveLoopResult ({ t with receiveLoop := .idle }.handleLoopResult ec) []
  | timeoutLoopResult (ec : Option Error) (hloop : t.timeoutLoop = .finished ec) :
      Step t .timeoutLoopResult ({ t with timeoutLoop := .idle }.handleLoopResult ec) []
  /-- The peer has been silent for too long. -/
  | idled (now : Nat) (timedOut : List UInt32) (hloop : t.timeoutLoop = .checking)
      (hidle : idleTimeout ≤ now - t.lastPeerActivity ∧ t.connectionEncrypted = true) :
      Step t (.timeoutIteration now timedOut)
        { t with timeoutLoop := .finished (some (.filehopz .connectionIdleTimeout)) } []
  | checked (now : Nat) (hloop : t.timeoutLoop = .checking) :
      Step t (.timeoutIteration now []) { t with timeoutLoop := .sleeping } []
  /-- Packets have timed out. -/
  | timedOut (now : Nat) (timedOut : List UInt32) (hloop : t.timeoutLoop = .checking)
      (hne : timedOut ≠ []) (hmem : ∀ sequence ∈ timedOut, sequence ∈ t.inFlight) :
      Step t (.timeoutIteration now timedOut)
        { t with
          sshthresh := max (t.cwnd.value / 2) 2
          cwnd := t.cwnd.update 1
          timeoutLoop := resendFrame t.inFlight timedOut } []
  | transmitResend (packet : Packet) (rest : List UInt32)
      (hloop : t.timeoutLoop = .resending packet false rest) :
      Step t .transmitResend { t with timeoutLoop := .resending packet true rest }
        [.transmitted t.peerEndpoint packet.datagram]
  | resent (packet : Packet) (rest : List UInt32) (now : Nat)
      (hloop : t.timeoutLoop = .resending packet true rest) :
      Step t (.finishResend none now)
        { t with
          inFlight := (t.touch packet.header.sequence now).inFlight
          timeoutLoop := resendFrame (t.touch packet.header.sequence now).inFlight rest } []
  | unresent (packet : Packet) (rest : List UInt32) (ec : Error) (now : Nat)
      (hloop : t.timeoutLoop = .resending packet false rest) :
      Step t (.finishResend (some ec) now) { t with timeoutLoop := .finished (some ec) } []
  | timer (ec : Option Error) (hloop : t.timeoutLoop = .sleeping) :
      Step t (.timer ec)
        { t with timeoutLoop := if ec = none then .checking else .finished ec } []
  | shakes (e : Event P) (t' : ProtoHopZ P) (out : List Observation) (he : e.handshakes = true)
      (h : Shakes t t' out) : Step t e t' out
  | awaitPacket :
      Step t .awaitPacket
        { t with receivedPacketsQueue := t.receivedPacketsQueue.pop .chunks } []
  | takePacket (r : ReceivedPacket) (queue : AsyncQueue Consumer ReceivedPacket)
      (htake : t.receivedPacketsQueue.resume .chunks = some (r, queue)) :
      Step t .takePacket { t with receivedPacketsQueue := queue } []
  | cancelPacket :
      Step t .cancelPacket
        { t with receivedPacketsQueue := t.receivedPacketsQueue.cancel .chunks } []
  | drain : Step t .drain { t with drain := .posted } []
  | resumeDrain (timer : Bool) (signal : AsyncValue Unit Bool) (frame : DrainFrame)
      (hdrain : t.resumeDrain timer = some { t with drainedSignal := signal, drain := frame }) :
      Step t (.resumeDrain timer) { t with drainedSignal := signal, drain := frame } []
  | stop : Step t .stop { t with stop := .posted } []
  | resumeStop (hposted : t.stop = .posted) :
      Step t .resumeStop { t.stopLoops with stop := .returned } [.stopped t.loopError]

/-! ## Sending -/

theorem signalIfDrained_eq (t : ProtoHopZ P) :
    t.signalIfDrained = { t with drainedSignal := t.signalIfDrained.drainedSignal } := by
  unfold signalIfDrained
  split_ifs
  · rfl
  · rfl

theorem step_sendPacket {t : ProtoHopZ P} {i : Nat} {source : Packet} {fault : Option ErrorCode}
    {nonce : Nonce} {now : Nat} {cwnd : AsyncValue Nat ℚ} (hcall : t.Resumes i source cwnd) :
    Step t (.resumeSend i fault nonce now)
      ({ t with cwnd := cwnd }.sendPacket i source fault nonce now).1
      ({ t with cwnd := cwnd }.sendPacket i source fault nonce now).2 := by
  have hblocked : { t with cwnd := cwnd }.blocked = t.blocked := by
    rcases hcall with ⟨-, rfl⟩ | ⟨-, -, rfl⟩
    · rfl
    · rfl
  unfold sendPacket
  split
  · rename_i ec herror
    exact .refused i source fault nonce now cwnd ec hcall herror
  · rename_i herror
    rw [hblocked]
    split_ifs with hb
    · exact .delayed i source fault nonce now cwnd hcall herror hb
    · rw [Bool.not_eq_true] at hb
      unfold registerPacket
      dsimp only
      split
      · rename_i ec hencrypt
        exact .unencrypted i source fault nonce now cwnd ec hcall herror hb hencrypt
      · rename_i packet hencrypt
        exact .registered i source fault nonce now cwnd packet hcall herror hb hencrypt

theorem step_resumeSend {t t' : ProtoHopZ P} {i : Nat} {fault : Option ErrorCode} {nonce : Nonce}
    {now : Nat} {out : List Observation} (hs : t.resumeSend i fault nonce now = some (t', out)) :
    Step t (.resumeSend i fault nonce now) t' out := by
  unfold resumeSend at hs
  split at hs
  · rename_i source hi
    obtain ⟨rfl, rfl⟩ := Prod.mk.inj (Option.some.inj hs).symm
    exact step_sendPacket (Or.inl ⟨hi, rfl⟩)
  · rename_i source hi
    split_ifs at hs with hmem
    obtain ⟨rfl, rfl⟩ := Prod.mk.inj (Option.some.inj hs).symm
    exact step_sendPacket (Or.inr ⟨hi, hmem, rfl⟩)
  · cases hs

theorem step_finishSend {t t' : ProtoHopZ P} {i : Nat} {ec : Option Error}
    {out : List Observation} (hs : t.finishSend i ec = some (t', out)) :
    Step t (.finishSend i ec) t' out := by
  unfold finishSend at hs
  split at hs
  · rename_i packet hi
    obtain ⟨rfl, rfl⟩ := Prod.mk.inj (Option.some.inj hs).symm
    exact .sent i packet hi
  · rename_i packet ec hi
    obtain ⟨rfl, rfl⟩ := Prod.mk.inj (Option.some.inj hs).symm
    exact .unsent i packet ec hi
  · cases hs

/-! ## Receiving -/

theorem step_receivePacketOfType {t : ProtoHopZ P} {remote : Endpoint} {buffer : Packet}
    {bytes : Bytes} {now : Nat} {fault : Option ErrorCode} (hloop : t.receiveLoop = .running)
    (hpeer : t.ListensTo remote) :
    Step t (.datagram remote buffer bytes now fault)
      ((t.heard remote now).receivePacketOfType (buffer.receiveFrom bytes) fault).1
      ((t.heard remote now).receivePacketOfType (buffer.receiveFrom bytes) fault).2 := by
  have haccept : ∀ r : ReceivedPacket,
      (buffer.receiveFrom bytes).header.size.toNat ≤ packetSize →
      (buffer.receiveFrom bytes).header.sequence ∉ t.receivedPackets →
      r.packet.header.sequence = (buffer.receiveFrom bytes).header.sequence →
      Accepts t.connectionEncrypted t.cryptoContext (buffer.receiveFrom bytes) r →
      Step t (.datagram remote buffer bytes now fault)
        ((t.heard remote now).accept r.packet r.origin)
        [(t.heard remote now).sendAck (buffer.receiveFrom bytes).header.sequence] :=
    fun r hsize hnew hsequence haccepts =>
      .accepted remote buffer bytes now fault r hloop hpeer hsize hsequence hnew haccepts
  unfold receivePacketOfType
  split
  · rename_i htype
    unfold ackHandler
    split_ifs with hmem
    · exact .acked remote buffer bytes now fault hloop hpeer htype hmem
    · exact .unread remote buffer bytes now fault hloop hpeer
  · rename_i htype
    unfold receiveData
    split_ifs with hsize hmem henc
    · exact .tooLarge remote buffer bytes now fault hloop hpeer hsize
    · exact .repeated remote buffer bytes now fault hloop hpeer (not_lt.mp hsize) hmem
    · split
      · exact .undecrypted remote buffer bytes now fault hloop hpeer (not_lt.mp hsize) hmem
      · rename_i result hresult
        exact haccept ⟨(buffer.receiveFrom bytes).copyIn result, some (buffer.receiveFrom bytes).data⟩
          (not_lt.mp hsize) hmem rfl (.decrypted htype henc hresult)
    · exact haccept ⟨buffer.receiveFrom bytes, none⟩ (not_lt.mp hsize) hmem rfl
        (.plain htype (Bool.not_eq_true _ ▸ henc))
  · rename_i htype
    unfold receiveHandshake
    split_ifs with hsize hmem
    · exact .tooLarge remote buffer bytes now fault hloop hpeer hsize
    · exact .repeated remote buffer bytes now fault hloop hpeer (not_lt.mp hsize) hmem
    · exact haccept ⟨buffer.receiveFrom bytes, none⟩ (not_lt.mp hsize) hmem rfl (.handshake htype)
  · exact .unread remote buffer bytes now fault hloop hpeer

theorem step_receiveDatagram {t : ProtoHopZ P} (remote : Endpoint) (buffer : Packet)
    (bytes : Bytes) (now : Nat) (fault : Option ErrorCode) (hloop : t.receiveLoop = .running) :
    Step t (.datagram remote buffer bytes now fault)
      (t.receiveDatagram remote buffer bytes now fault).1
      (t.receiveDatagram remote buffer bytes now fault).2 := by
  unfold receiveDatagram
  dsimp only
  split_ifs with hknown hremote
  · exact step_receivePacketOfType hloop (Or.inl hknown)
  · exact .ignored remote buffer bytes now fault hloop ⟨by simpa using hknown, hremote⟩
  · -- the peer is noted already
    have hremote := not_not.mp hremote
    have hheard : { t with lastPeerActivity := now } = t.heard remote now := by
      rw [Bool.not_eq_false] at hknown
      rw [heard, hremote, ← hknown]
    rw [hheard]
    exact step_receivePacketOfType hloop (Or.inr hremote)

/-! ## Retransmission -/

theorem resendNext_eq (t : ProtoHopZ P) : ∀ timedOut : List UInt32,
    t.resendNext timedOut = { t with timeoutLoop := resendFrame t.inFlight timedOut }
  | [] => rfl
  | sequence :: rest => by
      unfold resendNext resendFrame
      cases t.inFlight.lookup sequence with
      | none => exact resendNext_eq t rest
      | some l => rfl

theorem touch_eq (t : ProtoHopZ P) (sequence : UInt32) (now : Nat) :
    t.touch sequence now = { t with inFlight := (t.touch sequence now).inFlight } := by
  unfold touch
  split
  · rfl
  · rfl

theorem step_timeoutIteration {t : ProtoHopZ P} (now : Nat) (timedOut : List UInt32)
    (hloop : t.timeoutLoop = .checking) (hmem : ∀ sequence ∈ timedOut, sequence ∈ t.inFlight) :
    Step t (.timeoutIteration now timedOut) (t.timeoutIteration now timedOut) [] := by
  unfold timeoutIteration
  split_ifs with hidle hnone
  · exact .idled now timedOut hloop hidle
  · subst hnone
    exact .checked now hloop
  · rw [resendNext_eq]
    exact .timedOut now timedOut hloop hnone hmem

theorem step_finishResend {t t' : ProtoHopZ P} {ec : Option Error} {now : Nat}
    (hs : t.finishResend ec now = some t') : Step t (.finishResend ec now) t' [] := by
  unfold finishResend at hs
  split at hs
  · rename_i packet rest hloop
    obtain rfl := Option.some.inj hs
    rw [resendNext_eq, touch_eq]
    exact .resent packet rest now hloop
  · rename_i packet rest ec hloop
    obtain rfl := Option.some.inj hs
    exact .unresent packet rest ec now hloop
  · cases hs

/-! ## The handshake -/

theorem shakes_startHandshake {t : ProtoHopZ P} {role : Role} {fault : Option ErrorCode}
    {generated : P.PrivateKey} {i : Nat} (hframe : t.handshake = .idle)
    (hfresh : t.fresh i = true) :
    Shakes t (t.startHandshake role fault generated i).1
      (t.startHandshake role fault generated i).2 := by
  unfold startHandshake
  split_ifs
  · exact .failed _ (Or.inl hframe)
  cases fault with
  | some code => exact .failed (.filehopz code) (Or.inl hframe)
  | none =>
      cases role with
      | initiator => exact .begunInitiator generated i hframe hfresh
      | responder => exact .begunResponder generated hframe

theorem shakes_resumeHandshakeSend {t t' : ProtoHopZ P} {out : List Observation}
    (hs : t.resumeHandshakeSend = some (t', out)) : Shakes t t' out := by
  unfold resumeHandshakeSend at hs
  split at hs
  · rename_i role i hframe
    split at hs
    · obtain ⟨rfl, rfl⟩ := Prod.mk.inj (Option.some.inj hs).symm
      exact .failed _ (Or.inr ⟨role, i, hframe⟩)
    · rename_i hsent
      split at hs
      · obtain ⟨rfl, rfl⟩ := Prod.mk.inj (Option.some.inj hs).symm
        exact .sentInitiator i hframe hsent
      · obtain ⟨rfl, rfl⟩ := Prod.mk.inj (Option.some.inj hs).symm
        exact .sentResponder i hframe hsent
    · cases hs
  · cases hs

/-- `receive_packet` returns the error of a loop, if there is one. -/
theorem loopError_of_error {t : ProtoHopZ P} {r : ReceivedPacket} {ec : Error}
    (h : t.receivePacket r = .error ec) : t.loopError = some ec := by
  unfold receivePacket at h
  split at h
  · rename_i herror
    rw [herror, Except.error.inj h]
  · cases h

theorem loopError_of_ok {t : ProtoHopZ P} {r r' : ReceivedPacket}
    (h : t.receivePacket r = .ok r') : t.loopError = none ∧ r' = r := by
  unfold receivePacket at h
  split at h
  · cases h
  · exact ⟨by assumption, (Except.ok.inj h).symm⟩

theorem shakes_resumeHandshakeReceive {t t' : ProtoHopZ P} {fault : Option ErrorCode} {i : Nat}
    {out : List Observation} (hfresh : t.fresh i = true)
    (hs : t.resumeHandshakeReceive fault i = some (t', out)) : Shakes t t' out := by
  unfold resumeHandshakeReceive at hs
  split at hs
  · rename_i role r queue hframe htake
    dsimp only at hs
    split at hs
    · rename_i ec herror
      obtain ⟨rfl, rfl⟩ := Prod.mk.inj (Option.some.inj hs).symm
      exact .interrupted role r queue ec hframe htake (loopError_of_error herror)
    · rename_i r' hreceive
      obtain ⟨rfl, rfl⟩ := Prod.mk.inj (Option.some.inj hs).symm
      have hr : t.loopError = none ∧ r' = r := loopError_of_ok hreceive
      obtain ⟨herror, rfl⟩ := hr
      unfold installPeerKey
      split_ifs with hsize
      · exact .rejected role r' queue _ _ hframe htake herror (Or.inl ⟨hsize, rfl, rfl⟩)
      have hsize := not_not.mp hsize
      dsimp only
      split
      · rename_i ec context hset
        exact .rejected role r' queue ec context hframe htake herror
          (Or.inr ⟨hsize, fault, hset⟩)
      · rename_i context hset
        cases role with
        | initiator => exact .installedInitiator r' queue fault context hframe htake herror hsize hset
        | responder =>
            exact .installedResponder i r' queue fault context hframe htake herror hsize hset hfresh
  · cases hs

/-! ## Draining -/

theorem resumeDrain_eq {t t' : ProtoHopZ P} {timer : Bool} (hs : t.resumeDrain timer = some t') :
    ∃ signal frame, t' = { t with drainedSignal := signal, drain := frame } := by
  simp only [resumeDrain, startDrain, finishDrain] at hs
  repeat' split at hs
  all_goals cases hs
  all_goals exact ⟨_, _, rfl⟩

/-! ## Every step -/

/-- **A step goes one of these ways.** -/
theorem step_cases {t t' : ProtoHopZ P} {e : Event P} {out : List Observation}
    (hs : t.step e = some (t', out)) : Step t e t' out := by
  cases e with
  | startLoops now =>
      simp only [step] at hs
      split at hs
      · rename_i hreceive htimeout
        obtain ⟨rfl, rfl⟩ := Prod.mk.inj (Option.some.inj hs).symm
        exact .startLoops now hreceive htimeout
      · cases hs
  | sendPacket i source =>
      simp only [step] at hs
      split_ifs at hs with hfresh
      obtain ⟨rfl, rfl⟩ := Prod.mk.inj (Option.some.inj hs).symm
      exact .sendPacket i source hfresh
  | resumeSend i fault nonce now => exact step_resumeSend hs
  | transmitSend i =>
      simp only [step, transmitSend] at hs
      split at hs
      · rename_i packet hframe
        obtain ⟨rfl, rfl⟩ := Prod.mk.inj (Option.some.inj hs).symm
        exact .transmitSend i packet hframe
      · cases hs
  | finishSend i ec => exact step_finishSend hs
  | datagram remote buffer bytes now fault =>
      simp only [step] at hs
      split at hs
      · rename_i hloop
        obtain ⟨rfl, rfl⟩ := Prod.mk.inj (Option.some.inj hs).symm
        exact step_receiveDatagram remote buffer bytes now fault hloop
      · cases hs
  | receiveError ec =>
      simp only [step] at hs
      split at hs
      · rename_i hloop
        obtain ⟨rfl, rfl⟩ := Prod.mk.inj (Option.some.inj hs).symm
        exact .receiveError ec hloop
      · cases hs
  | receiveLoopResult =>
      simp only [step] at hs
      split at hs
      · rename_i ec hloop
        obtain ⟨rfl, rfl⟩ := Prod.mk.inj (Option.some.inj hs).symm
        exact .receiveLoopResult ec hloop
      · cases hs
  | timeoutIteration now timedOut =>
      simp only [step] at hs
      split at hs
      · rename_i hloop
        split_ifs at hs with hfound
        obtain ⟨rfl, rfl⟩ := Prod.mk.inj (Option.some.inj hs).symm
        exact step_timeoutIteration now timedOut hloop fun _ => hfound.mem
      · cases hs
  | transmitResend =>
      simp only [step, transmitResend] at hs
      split at hs
      · rename_i packet rest hloop
        obtain ⟨rfl, rfl⟩ := Prod.mk.inj (Option.some.inj hs).symm
        exact .transmitResend packet rest hloop
      · cases hs
  | finishResend ec now =>
      obtain ⟨t₁, hresend, heq⟩ := Option.map_eq_some_iff.mp hs
      obtain ⟨rfl, rfl⟩ := Prod.mk.inj heq.symm
      exact step_finishResend hresend
  | timer ec =>
      simp only [step] at hs
      split at hs
      · rename_i hloop
        obtain ⟨rfl, rfl⟩ := Prod.mk.inj (Option.some.inj hs).symm
        exact .timer ec hloop
      · cases hs
  | timeoutLoopResult =>
      simp only [step] at hs
      split at hs
      · rename_i ec hloop
        obtain ⟨rfl, rfl⟩ := Prod.mk.inj (Option.some.inj hs).symm
        exact .timeoutLoopResult ec hloop
      · cases hs
  | startHandshake role fault generated i =>
      simp only [step] at hs
      split at hs
      · rename_i hframe
        split_ifs at hs with hfresh
        obtain ⟨rfl, rfl⟩ := Prod.mk.inj (Option.some.inj hs).symm
        exact .shakes _ _ _ rfl (shakes_startHandshake hframe hfresh)
      · cases hs
  | resumeHandshakeSend => exact .shakes _ _ _ rfl (shakes_resumeHandshakeSend hs)
  | resumeHandshakeReceive fault i =>
      simp only [step] at hs
      split_ifs at hs with hfresh
      exact .shakes _ _ _ rfl (shakes_resumeHandshakeReceive hfresh hs)
  | awaitPacket =>
      obtain ⟨rfl, rfl⟩ := Prod.mk.inj (Option.some.inj hs).symm
      exact .awaitPacket
  | takePacket =>
      obtain ⟨⟨r, queue⟩, htake, heq⟩ := Option.map_eq_some_iff.mp hs
      obtain ⟨rfl, rfl⟩ := Prod.mk.inj heq.symm
      exact .takePacket r queue htake
  | cancelPacket =>
      obtain ⟨rfl, rfl⟩ := Prod.mk.inj (Option.some.inj hs).symm
      exact .cancelPacket
  | drain =>
      simp only [step] at hs
      split at hs
      · cases hs
      · obtain ⟨rfl, rfl⟩ := Prod.mk.inj (Option.some.inj hs).symm
        exact .drain
  | resumeDrain timer =>
      obtain ⟨t₁, hdrain, heq⟩ := Option.map_eq_some_iff.mp hs
      obtain ⟨rfl, rfl⟩ := Prod.mk.inj heq.symm
      obtain ⟨signal, frame, rfl⟩ := resumeDrain_eq hdrain
      exact .resumeDrain timer signal frame hdrain
  | stop =>
      obtain ⟨rfl, rfl⟩ := Prod.mk.inj (Option.some.inj hs).symm
      exact .stop
  | resumeStop =>
      simp only [step] at hs
      split at hs
      · rename_i hposted
        obtain ⟨rfl, rfl⟩ := Prod.mk.inj (Option.some.inj hs).symm
        exact .resumeStop hposted
      · cases hs

/-- **What a step of the handshake can do.** -/
theorem shakes_step {t t' : ProtoHopZ P} {e : Event P} {out : List Observation}
    (he : e.handshakes = true) (hs : t.step e = some (t', out)) : Shakes t t' out := by
  cases step_cases hs with
  | shakes _ _ _ _ h => exact h
  | _ => cases he

end ProtoHopZ
end FileHopZ

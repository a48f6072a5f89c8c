import FileHopZ.Library.Run
import FileHopZ.Protohopz.Packet
import FileHopZ.Utils.AsyncQueue
import FileHopZ.Utils.AsyncValue
import Mathlib.Data.Finmap
import Mathlib.Data.Finset.Basic
import Mathlib.Algebra.Order.Ring.Unbundled.Rat

/-! # `ProtoHopZ`: the transport

The state of a `ProtoHopZ` object is its fields together with the frames of its
coroutines: where each call of `send_packet` is suspended, what `receive_loop`,
`timeout_loop` and the handshake are waiting for.  Everything between two
suspension points runs without interruption, so it is one function here, named
after the member function it is part of.

`cwnd_` and `sshthresh_` are exact rationals.  Clock readings are arguments.
-/
namespace FileHopZ

/-- A UDP endpoint. -/
structure Endpoint where
  address : Nat
  port : Nat
  deriving DecidableEq, Repr

/-- `PHZ::PacketLocal`. -/
structure PacketLocal where
  sendTime : Nat
  packet : Packet

/-- A packet in `received_packets_queue_`.  `origin` is not in the source and no
function looks at it: it records, for statements about delivery, the received
bytes the packet was decrypted from, if it was decrypted. -/
structure ReceivedPacket where
  packet : Packet
  origin : Option Bytes

/-- The coroutines that call `receive_packet`. -/
inductive Consumer
  | handshake
  | chunks
  deriving DecidableEq

/-- Where a call of `send_packet` is suspended. -/
inductive SendFrame
  | idle
  /-- In `post(strand_)`, before anything else. -/
  | posted (source : Packet)
  /-- In `cwnd_.wait`. -/
  | waiting (source : Packet)
  /-- In `async_send_to`; `transmitted` once the socket has taken the datagram. -/
  | sending (packet : Packet) (transmitted : Bool)
  | returned (ec : Option Error)

/-- Where `receive_loop` is.  After it has returned, its completion handler has
still to run. -/
inductive LoopFrame
  | idle
  | running
  | finished (ec : Option Error)
  deriving DecidableEq

/-- Where `timeout_loop` is. -/
inductive TimeoutFrame
  | idle
  /-- At the start of an iteration. -/
  | checking
  /-- In `resend_packet`'s `async_send_to`; `rest` is what remains of `timed_out`. -/
  | resending (packet : Packet) (transmitted : Bool) (rest : List UInt32)
  /-- In `timer.async_wait`. -/
  | sleeping
  | finished (ec : Option Error)

/-- Which of the two handshake functions runs. -/
inductive Role
  | initiator
  | responder
  deriving DecidableEq

/-- Where the handshake is. -/
inductive HandshakeFrame
  | idle
  /-- Awaiting its call `i` of `send_packet`. -/
  | sending (role : Role) (i : Nat)
  /-- Awaiting `receive_packet`. -/
  | receiving (role : Role)
  | returned (ec : Option Error)
  deriving DecidableEq

/-- Where `wait_in_flight_drained` is. -/
inductive DrainFrame
  | idle
  | posted
  /-- In the race of `drained_signal_` and the timer. -/
  | waiting
  | returned (drained : Bool)

/-- Where `stop_loops` is. -/
inductive StopFrame
  | idle
  | posted
  | returned
  deriving DecidableEq

abbrev InFlight := Finmap fun _ : UInt32 => PacketLocal

/-- The fields of `ProtoHopZ`, then the frames of its coroutines. -/
structure ProtoHopZ (P : Primitives) where
  loopsStarted : Bool := false
  stoppingLoops : Bool := false
  connectionEncrypted : Bool := false
  loopError : Option Error := none
  sequenceCounter : UInt32 := 0
  sshthresh : ℚ := 64
  lastPeerActivity : Nat := 0
  peerEndpoint : Endpoint
  peerEndpointKnown : Bool
  cwnd : AsyncValue Nat ℚ := { value := initialCwnd }
  receivedPacketsQueue : AsyncQueue Consumer ReceivedPacket := {}
  receivedPackets : Finset UInt32 := ∅
  inFlight : InFlight := ∅
  drainedSignal : AsyncValue Unit Bool := { value := false }
  cryptoContext : CryptoContext P := {}
  sends : Nat → SendFrame := fun _ => .idle
  receiveLoop : LoopFrame := .idle
  timeoutLoop : TimeoutFrame := .idle
  handshake : HandshakeFrame := .idle
  drain : DrainFrame := .idle
  stop : StopFrame := .idle

/-- What a step of the transport shows. -/
inductive Observation
  /-- `send_packet` drew this number from `sequence_counter_`. -/
  | drew (sequence : UInt32)
  /-- Call `i` of `send_packet` registered `packet` in `in_flight_`; it carried
  `plaintext` before encryption. -/
  | registered (i : Nat) (packet : Packet) (plaintext : Bytes)
  /-- A datagram was given to the socket. -/
  | transmitted (destination : Endpoint) (datagram : Bytes)
  /-- `ack_handler` took this number out of `in_flight_`. -/
  | acked (sequence : UInt32)
  /-- Call `i` of `send_packet` returned. -/
  | returned (i : Nat) (ec : Option Error)
  /-- The handshake got this packet from `receive_packet`. -/
  | consumed (packet : Packet)
  /-- The handshake installed this key of its peer. -/
  | installed (peerPublicKey : Bytes)
  /-- The handshake returned. -/
  | handshakeReturned (ec : Option Error)
  /-- `stop_loops` emptied `in_flight_`, with this `loop_error_`. -/
  | stopped (loopError : Option Error)

namespace ProtoHopZ
variable {P : Primitives}

/-- The constructor. -/
def construct (P : Primitives) (peerEndpoint : Endpoint) : ProtoHopZ P where
  peerEndpoint := peerEndpoint
  peerEndpointKnown := peerEndpoint.port ≠ 0

/-- The packet that `stop_loops` and `store_loop_error` push to wake a `pop`. -/
def endPacket (sequence : UInt32) : ReceivedPacket where
  packet := .blank { type := .endTransfer, size := 0, sequence := sequence }
  origin := none

/-! ## Starting, failing and stopping -/

/-- `start_loops`. -/
def startLoops (now : Nat) (t : ProtoHopZ P) : ProtoHopZ P :=
  { t with
    stoppingLoops := false
    loopError := none
    lastPeerActivity := now
    receiveLoop := .running
    timeoutLoop := .checking
    loopsStarted := true }

/-- `store_loop_error`.  The cancellation it emits makes the loops' pending
operations fail, which is an event of its own. -/
def storeLoopError (ec : Option Error) (t : ProtoHopZ P) : ProtoHopZ P :=
  match ec, t.loopError with
  | some ec, none =>
      { t with
        loopError := some ec
        loopsStarted := false
        cwnd := t.cwnd.notifyOne
        drainedSignal := t.drainedSignal.set true
        sequenceCounter := t.sequenceCounter + 1
        receivedPacketsQueue := t.receivedPacketsQueue.push (endPacket (t.sequenceCounter + 1)) }
  | _, _ => t

/-- `handle_loop_result`. -/
def handleLoopResult (ec : Option Error) (t : ProtoHopZ P) : ProtoHopZ P :=
  if t.stoppingLoops = true ∧ ec = some .operationAborted then t else t.storeLoopError ec

/-- The body of `stop_loops`, once it runs on the strand. -/
def stopLoops (t : ProtoHopZ P) : ProtoHopZ P :=
  { t with
    stoppingLoops := true
    inFlight := ∅
    receivedPackets := ∅
    drainedSignal := t.drainedSignal.update false
    sequenceCounter := t.sequenceCounter + 1
    receivedPacketsQueue := t.receivedPacketsQueue.push (endPacket (t.sequenceCounter + 1))
    loopsStarted := false }

/-! ## Sending -/

/-- The window condition of `send_packet`: the call has to wait. -/
def blocked (t : ProtoHopZ P) : Bool :=
  decide (t.cwnd.value.floor.toNat ≤ t.inFlight.keys.card) ||
    decide (maxInFlight ≤ t.inFlight.keys.card)

/-- The part of `send_packet` that encrypts the packet, when the connection is
encrypted. -/
def encryptPacket (fault : Option ErrorCode) (nonce : Nonce) (t : ProtoHopZ P) (packet : Packet) :
    Except Error Packet :=
  if t.connectionEncrypted = false then .ok packet
  else if packetPayloadSize < packet.header.size.toNat then .error (.filehopz .packetTooLarge)
  else match t.cryptoContext.encryptData fault nonce packet.data with
    | .error _ => .error (.filehopz .transportEncryptFailed)
    | .ok result =>
        if packetSize < result.length then .error (.filehopz .packetTooLarge)
        else .ok (packet.copyIn result)

/-- `send_packet` past its window check: it draws a number, encrypts, registers
the packet and starts `async_send_to`. -/
def registerPacket (i : Nat) (source : Packet) (fault : Option ErrorCode) (nonce : Nonce)
    (now : Nat) (t : ProtoHopZ P) : ProtoHopZ P × List Observation :=
  let sequence := t.sequenceCounter
  let t := { t with sequenceCounter := t.sequenceCounter + 1 }
  match t.encryptPacket fault nonce (source.withSequence sequence) with
  | .error ec =>
      ({ t with sends := Function.update t.sends i (.returned (some ec)) },
        [.drew sequence, .returned i (some ec)])
  | .ok packet =>
      ({ t with
          inFlight := t.inFlight.insert sequence { sendTime := now, packet := packet }
          sends := Function.update t.sends i (.sending packet false) },
        [.drew sequence, .registered i packet source.data])

/-- `send_packet` from where it reads `loop_error_` to its next suspension. -/
def sendPacket (i : Nat) (source : Packet) (fault : Option ErrorCode) (nonce : Nonce)
    (now : Nat) (t : ProtoHopZ P) : ProtoHopZ P × List Observation :=
  match t.loopError with
  | some ec =>
      ({ t with sends := Function.update t.sends i (.returned (some ec)) },
        [.returned i (some ec)])
  | none =>
      if t.blocked then
        ({ t with
            cwnd := t.cwnd.wait i
            sends := Function.update t.sends i (.waiting source) }, [])
      else t.registerPacket i source fault nonce now

/-- Call `i` of `send_packet` goes on after `post`, or after its `cwnd_.wait` has
been completed. -/
def resumeSend (i : Nat) (fault : Option ErrorCode) (nonce : Nonce) (now : Nat)
    (t : ProtoHopZ P) : Option (ProtoHopZ P × List Observation) :=
  match t.sends i with
  | .posted source => some (t.sendPacket i source fault nonce now)
  | .waiting source =>
      if i ∈ t.cwnd.completions then
        some ({ t with cwnd := t.cwnd.resume i }.sendPacket i source fault nonce now)
      else none
  | _ => none

/-- The socket takes the datagram of call `i`. -/
def transmitSend (i : Nat) (t : ProtoHopZ P) : Option (ProtoHopZ P × List Observation) :=
  match t.sends i with
  | .sending packet false =>
      some ({ t with sends := Function.update t.sends i (.sending packet true) },
        [.transmitted t.peerEndpoint packet.datagram])
  | _ => none

/-- `drained_signal_.set(true)` when `in_flight_` is empty. -/
def signalIfDrained (t : ProtoHopZ P) : ProtoHopZ P :=
  if t.inFlight.keys = ∅ then { t with drainedSignal := t.drainedSignal.set true } else t

/-- `send_packet` after `async_send_to`. -/
def finishSend (i : Nat) (ec : Option Error) (t : ProtoHopZ P) :
    Option (ProtoHopZ P × List Observation) :=
  match t.sends i, ec with
  | .sending _ true, none =>
      some ({ t with sends := Function.update t.sends i (.returned none) }, [.returned i none])
  | .sending packet false, some ec =>
      some ({ t with
          inFlight := t.inFlight.erase packet.header.sequence
          cwnd := t.cwnd.notifyOne
          sends := Function.update t.sends i (.returned (some ec)) }.signalIfDrained,
        [.returned i (some ec)])
  | _, _ => none

/-- `next_cwnd` of `ack_handler`: slow start below `sshthresh_`, else congestion
avoidance. -/
def nextCwnd (t : ProtoHopZ P) : ℚ :=
  if t.cwnd.value < t.sshthresh then min (t.cwnd.value + 1) maxCwnd
  else min (t.cwnd.value + 1 / t.cwnd.value) maxCwnd

/-- `ack_handler`. -/
def ackHandler (sequence : UInt32) (t : ProtoHopZ P) : ProtoHopZ P × List Observation :=
  if sequence ∈ t.inFlight then
    ({ t with
        inFlight := t.inFlight.erase sequence
        cwnd := (t.cwnd.update t.nextCwnd).notifyOne }.signalIfDrained, [.acked sequence])
  else (t, [])

/-! ## Receiving -/

/-- `send_ack`. -/
def sendAck (sequence : UInt32) (t : ProtoHopZ P) : Observation :=
  .transmitted t.peerEndpoint
    (Packet.blank { type := .ack, size := 0, sequence := sequence }).datagram

/-- `receive_loop` records a packet and queues it. -/
def accept (packet : Packet) (origin : Option Bytes) (t : ProtoHopZ P) : ProtoHopZ P :=
  { t with
    receivedPackets := insert packet.header.sequence t.receivedPackets
    receivedPacketsQueue := t.receivedPacketsQueue.push { packet := packet, origin := origin } }

/-- `receive_loop` returns. -/
def finishReceiveLoop (ec : Error) (t : ProtoHopZ P) : ProtoHopZ P :=
  { t with receiveLoop := .finished (some ec) }

/-- The `DATA` case of `receive_loop`. -/
def receiveData (packet : Packet) (fault : Option ErrorCode) (t : ProtoHopZ P) :
    ProtoHopZ P × List Observation :=
  if packetSize < packet.header.size.toNat then
    (t.finishReceiveLoop (.filehopz .packetTooLarge), [])
  else if packet.header.sequence ∈ t.receivedPackets then (t, [t.sendAck packet.header.sequence])
  else if t.connectionEncrypted = true then
    match t.cryptoContext.decryptData fault packet.data with
    | .error _ =>
        (t.finishReceiveLoop (.filehopz .transportDecryptFailed),
          [t.sendAck packet.header.sequence])
    | .ok result =>
        (t.accept (packet.copyIn result) (some packet.data), [t.sendAck packet.header.sequence])
  else (t.accept packet none, [t.sendAck packet.header.sequence])

/-- The `HANDSHAKE` case of `receive_loop`. -/
def receiveHandshake (packet : Packet) (t : ProtoHopZ P) : ProtoHopZ P × List Observation :=
  if packetSize < packet.header.size.toNat then
    (t.finishReceiveLoop (.filehopz .packetTooLarge), [])
  else if packet.header.sequence ∈ t.receivedPackets then (t, [t.sendAck packet.header.sequence])
  else (t.accept packet none, [t.sendAck packet.header.sequence])

/-- The switch of `receive_loop`. -/
def receivePacketOfType (packet : Packet) (fault : Option ErrorCode) (t : ProtoHopZ P) :
    ProtoHopZ P × List Observation :=
  match packet.header.type with
  | .ack => t.ackHandler packet.header.sequence
  | .data => t.receiveData packet fault
  | .handshake => t.receiveHandshake packet
  | _ => (t, [])

/-- One iteration of `receive_loop`, on a datagram from `remote` received over
the buffer `buffer`. -/
def receiveDatagram (remote : Endpoint) (buffer : Packet) (bytes : Bytes) (now : Nat)
    (fault : Option ErrorCode) (t : ProtoHopZ P) : ProtoHopZ P × List Observation :=
  let packet := buffer.receiveFrom bytes
  if t.peerEndpointKnown = false then
    { t with
      peerEndpoint := remote
      peerEndpointKnown := true
      lastPeerActivity := now }.receivePacketOfType packet fault
  else if remote ≠ t.peerEndpoint then (t, [])
  else { t with lastPeerActivity := now }.receivePacketOfType packet fault

/-- What `receive_packet` returns for the value its `pop` yielded. -/
def receivePacket (t : ProtoHopZ P) (received : ReceivedPacket) : Except Error ReceivedPacket :=
  match t.loopError with
  | some ec => .error ec
  | none => .ok received

/-! ## Retransmission -/

/-- The keys of `in_flight_` that a clock reading `now` puts in `timed_out`. -/
def timedOutAt (now : Nat) (t : ProtoHopZ P) : Finset UInt32 :=
  t.inFlight.keys.filter fun sequence =>
    ∃ l ∈ t.inFlight.lookup sequence, timeout < now - l.sendTime

/-- The clock reads `now`, and the iteration over `in_flight_` comes upon the keys that have
timed out in the order of the list. -/
def TimesOut (now : Nat) (timedOut : List UInt32) (t : ProtoHopZ P) : Prop :=
  timedOut.Nodup ∧ timedOut.toFinset = t.timedOutAt now

instance (now : Nat) (timedOut : List UInt32) (t : ProtoHopZ P) :
    Decidable (t.TimesOut now timedOut) :=
  inferInstanceAs (Decidable (_ ∧ _))

theorem TimesOut.mem {now : Nat} {timedOut : List UInt32} {t : ProtoHopZ P}
    (h : t.TimesOut now timedOut) {sequence : UInt32} (hs : sequence ∈ timedOut) :
    sequence ∈ t.inFlight := by
  have hkey : sequence ∈ t.timedOutAt now := h.2 ▸ List.mem_toFinset.mpr hs
  exact Finmap.mem_keys.mp (Finset.mem_filter.mp hkey).1

/-- `timeout_loop` goes through `timed_out` to the next packet that is still in
flight and resends it, or goes to sleep. -/
def resendNext (t : ProtoHopZ P) : List UInt32 → ProtoHopZ P
  | [] => { t with timeoutLoop := .sleeping }
  | sequence :: rest =>
      match t.inFlight.lookup sequence with
      | none => t.resendNext rest
      | some l => { t with timeoutLoop := .resending l.packet false rest }

/-- An iteration of `timeout_loop` to its next suspension, for the list
`timed_out` it found. -/
def timeoutIteration (now : Nat) (timedOut : List UInt32) (t : ProtoHopZ P) : ProtoHopZ P :=
  if idleTimeout ≤ now - t.lastPeerActivity ∧ t.connectionEncrypted = true then
    { t with timeoutLoop := .finished (some (.filehopz .connectionIdleTimeout)) }
  else if timedOut = [] then t.resendNext timedOut
  else
    { t with
      sshthresh := max (t.cwnd.value / 2) 2
      cwnd := t.cwnd.update 1 }.resendNext timedOut

/-- The socket takes the datagram of `resend_packet`. -/
def transmitResend (t : ProtoHopZ P) : Option (ProtoHopZ P × List Observation) :=
  match t.timeoutLoop with
  | .resending packet false rest =>
      some ({ t with timeoutLoop := .resending packet true rest },
        [.transmitted t.peerEndpoint packet.datagram])
  | _ => none

/-- `resend_packet` updates `send_time` if the packet is still in flight. -/
def touch (sequence : UInt32) (now : Nat) (t : ProtoHopZ P) : ProtoHopZ P :=
  match t.inFlight.lookup sequence with
  | none => t
  | some l => { t with inFlight := t.inFlight.insert sequence { l with sendTime := now } }

/-- `resend_packet` after its `async_send_to`, and `timeout_loop` after it. -/
def finishResend (ec : Option Error) (now : Nat) (t : ProtoHopZ P) : Option (ProtoHopZ P) :=
  match t.timeoutLoop, ec with
  | .resending packet true rest, none =>
      some ((t.touch packet.header.sequence now).resendNext rest)
  | .resending _ false _, some ec => some { t with timeoutLoop := .finished (some ec) }
  | _, _ => none

/-! ## The handshake -/

/-- The packet with the own public key. -/
def selfHandshakePacket (t : ProtoHopZ P) : Packet :=
  (Packet.blank { type := .handshake, size := 0, sequence := 0 }).copyIn
    t.cryptoContext.ownPublicKey

/-- The handshake returns. -/
def returnHandshake (ec : Option Error) (t : ProtoHopZ P) : ProtoHopZ P × List Observation :=
  ({ t with handshake := .returned ec }, [.handshakeReturned ec])

/-- The handshake calls `send_packet` with its own public key. -/
def sendHandshake (role : Role) (i : Nat) (t : ProtoHopZ P) : ProtoHopZ P :=
  { t with
    sends := Function.update t.sends i (.posted t.selfHandshakePacket)
    handshake := .sending role i }

/-- The handshake calls `receive_packet`. -/
def awaitHandshake (role : Role) (t : ProtoHopZ P) : ProtoHopZ P :=
  { t with
    receivedPacketsQueue := t.receivedPacketsQueue.pop .handshake
    handshake := .receiving role }

/-- `handshake_initiator` and `handshake_responder` to their first suspension;
`i` is the call of `send_packet` the initiator makes. -/
def startHandshake (role : Role) (fault : Option ErrorCode) (generated : P.PrivateKey) (i : Nat)
    (t : ProtoHopZ P) : ProtoHopZ P × List Observation :=
  if t.loopsStarted = false then t.returnHandshake (some (.filehopz .loopsNotRunning))
  else match t.cryptoContext.init fault generated with
    | (some ec, cryptoContext) =>
        { t with cryptoContext := cryptoContext }.returnHandshake (some ec)
    | (none, cryptoContext) =>
        let t := { t with cryptoContext := cryptoContext }
        match role with
        | .initiator => (t.sendHandshake .initiator i, [])
        | .responder => (t.awaitHandshake .responder, [])

/-- The handshake goes on when its call of `send_packet` has returned. -/
def resumeHandshakeSend (t : ProtoHopZ P) : Option (ProtoHopZ P × List Observation) :=
  match t.handshake with
  | .sending role i =>
      match t.sends i with
      | .returned (some ec) => some (t.returnHandshake (some ec))
      | .returned none =>
          match role with
          | .initiator => some (t.awaitHandshake .initiator, [])
          | .responder => some ({ t with connectionEncrypted := true }.returnHandshake none)
      | _ => none
  | _ => none

/-- The handshake checks the packet it received and installs the peer's key. -/
def installPeerKey (role : Role) (packet : Packet) (fault : Option ErrorCode) (i : Nat)
    (t : ProtoHopZ P) : ProtoHopZ P × List Observation :=
  if packet.header.size.toNat ≠ x25519Len then
    t.returnHandshake (some (.filehopz .invalidHandshakeKeySize))
  else
    let peerPublicKey := packet.payload.take x25519Len
    match t.cryptoContext.setPeerPublicKey fault peerPublicKey with
    | (some ec, cryptoContext) =>
        { t with cryptoContext := cryptoContext }.returnHandshake (some ec)
    | (none, cryptoContext) =>
        let t := { t with cryptoContext := cryptoContext }
        match role with
        | .initiator =>
            ({ t with connectionEncrypted := true, handshake := .returned none },
              [.installed peerPublicKey, .handshakeReturned none])
        | .responder => (t.sendHandshake .responder i, [.installed peerPublicKey])

/-- The handshake goes on when its `receive_packet` has a packet; `i` is the call
of `send_packet` the responder makes. -/
def resumeHandshakeReceive (fault : Option ErrorCode) (i : Nat) (t : ProtoHopZ P) :
    Option (ProtoHopZ P × List Observation) :=
  match t.handshake, t.receivedPacketsQueue.resume .handshake with
  | .receiving role, some (received, queue) =>
      let t := { t with receivedPacketsQueue := queue }
      match t.receivePacket received with
      | .error ec => some (t.returnHandshake (some ec))
      | .ok received =>
          let r := t.installPeerKey role received.packet fault i
          some (r.1, .consumed received.packet :: r.2)
  | _, _ => none

/-! ## Draining -/

/-- `wait_in_flight_drained` after its `post`. -/
def startDrain (t : ProtoHopZ P) : ProtoHopZ P :=
  if t.loopError ≠ none then { t with drain := .returned false }
  else if t.inFlight.keys = ∅ then { t with drain := .returned true }
  else { t with drainedSignal := t.drainedSignal.wait (), drain := .waiting }

/-- `wait_in_flight_drained` after the race of signal and timer. -/
def finishDrain (t : ProtoHopZ P) : ProtoHopZ P :=
  { t with drain := .returned (decide (t.inFlight.keys = ∅) && t.loopError.isNone) }

/-- `wait_in_flight_drained` goes on: after `post`, by `drained_signal_`, or by
the timer, whose winning takes the waiter off the signal. -/
def resumeDrain (timer : Bool) (t : ProtoHopZ P) : Option (ProtoHopZ P) :=
  match t.drain with
  | .posted => some t.startDrain
  | .waiting =>
      if timer then
        some { t with drainedSignal := { t.drainedSignal with waiters := [] } }.finishDrain
      else if () ∈ t.drainedSignal.completions then
        some { t with drainedSignal := t.drainedSignal.resume () }.finishDrain
      else none
  | _ => none

end ProtoHopZ
end FileHopZ

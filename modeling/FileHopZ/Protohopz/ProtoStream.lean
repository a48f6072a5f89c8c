import FileHopZ.Library.Reorder
import FileHopZ.Protohopz.Transport

/-! # `ProtoStream`: one session

The stream over the transport.  Its first `send` or `receive` runs `start_loops`,
which does the handshake and then starts `receive_chunks_loop`; that loop puts
the packets of the transport in order and pushes their payloads to
`ready_chunks_`.

The model follows one session, from its one `start_loops` to its one `close`, as
`Sender` and `Receiver` use a stream: a call waits for the handshake before the
next is made, and none is made after an error.  A call that would start the loops a
second time, after an error or after `close`, is no step, and neither is a `close`
while the handshake runs.  As for the transport, a step is one uninterrupted stretch
of code.
-/
namespace FileHopZ

/-- `ProtoStream::Chunk`; `data_` is null in a `Chunk{}`. -/
structure Chunk where
  size : Nat
  data : Option Bytes
  deriving DecidableEq, Repr

namespace Chunk

/-- `Chunk{}`. -/
def null : Chunk := { size := 0, data := none }

/-- The chunk of a packet. -/
def ofPacket (p : Packet) : Chunk := { size := p.header.size.toNat, data := some p.data }

/-- `Chunk::empty`. -/
def empty (c : Chunk) : Bool := decide (c.size = 0) && c.data.isNone

@[simp] theorem ofPacket_size (p : Packet) : (ofPacket p).size = p.header.size.toNat := rfl
@[simp] theorem ofPacket_data (p : Packet) : (ofPacket p).data = some p.data := rfl
@[simp] theorem null_size : null.size = 0 := rfl
@[simp] theorem null_empty : null.empty = true := rfl
@[simp] theorem ofPacket_empty (p : Packet) : (ofPacket p).empty = false := by simp [empty]

end Chunk

/-- Where `start_loops` is. -/
inductive StartFrame
  | idle
  | handshaking
  | returned (ec : Option Error)

/-- Where `receive_chunks_loop` is.  Once it has `finished`, its completion
handler has still to run. -/
inductive ChunksFrame
  | idle
  | running
  | finished (ec : Option Error)
  | returned

/-- Where `close` is. -/
inductive CloseFrame
  | idle
  | draining
  | stopping
  | returned (ec : Option Error)

/-- `packets_buffer`. -/
abbrev PacketsBuffer := Reorder.Held UInt32 ReceivedPacket

/-- The fields of `ProtoStream`, the locals of `receive_chunks_loop`, and the
frames of the coroutines. -/
structure ProtoStream (P : Primitives) where
  handshakeMode : Role
  transport : ProtoHopZ P
  readyChunks : AsyncQueue Nat Chunk := {}
  loopsRunning : Bool := false
  stoppingLoops : Bool := false
  streamError : Option Error := none
  packetsBuffer : PacketsBuffer := ∅
  expectedSequence : UInt32 := 1
  startLoops : StartFrame := .idle
  receiveChunksLoop : ChunksFrame := .idle
  /-- `cancellation_signal_receive_chunks_loop_` has been emitted to the loop. -/
  cancelled : Bool := false
  closing : CloseFrame := .idle

namespace ProtoStream
variable {P : Primitives}

/-- What a step of the stream shows. -/
inductive Observation
  | transport (o : FileHopZ.Observation)
  /-- A chunk was pushed to `ready_chunks_`, by `receive_chunks_loop` for the packet
  `source`, or by `store_stream_error`. -/
  | pushed (chunk : Chunk) (source : Option ReceivedPacket)
  /-- Call `i` of `receive` returned. -/
  | received (i : Nat) (result : Except Error Chunk)
  /-- Call `i` of `send` was turned down by the stream. -/
  | rejected (i : Nat) (ec : Error)
  /-- `close` was called. -/
  | closeCalled
  /-- `close` returned. -/
  | closed (ec : Option Error)

/-- The constructors; `peerEndpoint` has port 0 in the one for the receiving side. -/
def construct (P : Primitives) (peerEndpoint : Endpoint) (handshakeMode : Role) :
    ProtoStream P where
  handshakeMode := handshakeMode
  transport := .construct P peerEndpoint

/-! ## Sending -/

/-- The packet `send` makes of its bytes. -/
def dataPacket (data : Bytes) : Packet :=
  (Packet.blank { type := .data, size := 0, sequence := 0 }).copyIn data

/-- A step of the transport. -/
def onTransport (e : ProtoHopZ.Event P) (s : ProtoStream P) :
    Option (ProtoStream P × List Observation) :=
  (s.transport.step e).map fun r => ({ s with transport := r.1 }, r.2.map .transport)

/-- `send`, on a running session; `i` names the call. -/
def send (i : Nat) (data : Bytes) (s : ProtoStream P) :
    Option (ProtoStream P × List Observation) :=
  if s.loopsRunning = false then none
  else if packetPayloadSize < data.length then
    some (s, [.rejected i (.filehopz .streamPayloadTooLarge)])
  else s.onTransport (.sendPacket i (dataPacket data))

/-! ## Starting -/

/-- `start_loops`, to the first suspension of the handshake. -/
def callStartLoops (now : Nat) (fault : Option ErrorCode) (generated : P.PrivateKey) (i : Nat)
    (s : ProtoStream P) : Option (ProtoStream P × List Observation) :=
  match s.startLoops, s.closing with
  | .idle, .idle => do
      let s := { s with stoppingLoops := false, streamError := none, startLoops := .handshaking }
      let (s, started) ← s.onTransport (.startLoops now)
      let (s, shook) ← s.onTransport (.startHandshake s.handshakeMode fault generated i)
      return (s, started ++ shook)
  | _, _ => none

/-- The loop calls `receive_packet`. -/
def awaitPacket (s : ProtoStream P) : ProtoStream P :=
  { s with transport := { s.transport with
      receivedPacketsQueue := s.transport.receivedPacketsQueue.pop .chunks } }

/-- `start_loops` goes on when the handshake has returned. -/
def resumeStartLoops (s : ProtoStream P) : Option (ProtoStream P × List Observation) :=
  match s.startLoops, s.transport.handshake with
  | .handshaking, .returned (some ec) => some ({ s with startLoops := .returned (some ec) }, [])
  | .handshaking, .returned none =>
      some ({ s with
          loopsRunning := true
          receiveChunksLoop := .running
          startLoops := .returned none }.awaitPacket, [])
  | _, _ => none

/-! ## `receive_chunks_loop` -/

/-- `SEQUENCE_WINDOW_SIZE`. -/
def sequenceWindowSize : UInt32 := 65536

/-- What `receive_chunks_loop` does with a packet, from `expected_sequence` and
`packets_buffer`: the packets it pushes, and the two variables after it. -/
def receiveChunk (expected : UInt32) (buffer : PacketsBuffer) (r : ReceivedPacket) :
    List ReceivedPacket × UInt32 × PacketsBuffer :=
  let sequence := r.packet.header.sequence
  if r.packet.header.type ≠ .data then ([], expected, buffer)
  else if sequence < expected then ([], expected, buffer)
  else if expected + sequenceWindowSize < sequence then ([], expected, buffer)
  else if sequence ∈ buffer then ([], expected, buffer)
  else
    -- the hard cap: the buffer is emptied and the packet taken as the expected one
    let (expected, buffer) : UInt32 × PacketsBuffer :=
      if maxPacketsBuffer ≤ buffer.keys.card then (sequence, ∅) else (expected, buffer)
    let buffer := buffer.insert sequence r
    Reorder.release (· + 1) buffer.keys.card expected buffer

/-- `ready_chunks_.push` of a packet's chunk. -/
def pushChunk (ready : AsyncQueue Nat Chunk) (r : ReceivedPacket) : AsyncQueue Nat Chunk :=
  ready.push (.ofPacket r.packet)

/-- The observation of such a push. -/
def Observation.chunk (r : ReceivedPacket) : Observation := .pushed (.ofPacket r.packet) (some r)

/-- `receive_chunks_loop` goes on with a packet from `receive_packet`.  A
cancellation makes its next call of `receive_packet` throw. -/
def resumeReceiveChunks (s : ProtoStream P) : Option (ProtoStream P × List Observation) :=
  match s.receiveChunksLoop, s.transport.receivedPacketsQueue.resume .chunks with
  | .running, some (received, queue) =>
      let popped := { s with transport := { s.transport with receivedPacketsQueue := queue } }
      match s.transport.receivePacket received with
      | .error ec => some ({ popped with receiveChunksLoop := .finished (some ec) }, [])
      | .ok received =>
          let r := receiveChunk s.expectedSequence s.packetsBuffer received
          let pushed := { popped with
            readyChunks := r.1.foldl pushChunk s.readyChunks
            expectedSequence := r.2.1
            packetsBuffer := r.2.2 }
          let out := r.1.map .chunk
          if s.cancelled = true then some ({ pushed with receiveChunksLoop := .finished none }, out)
          else some (pushed.awaitPacket, out)
  | _, _ => none

/-- `cancellation_signal_receive_chunks_loop_` is emitted. -/
def cancelReceiveChunks (s : ProtoStream P) : ProtoStream P :=
  { s with
    cancelled := true
    transport := { s.transport with
      receivedPacketsQueue := s.transport.receivedPacketsQueue.cancel .chunks } }

/-- The cancelled `pop` of `receive_chunks_loop` completes. -/
def abortReceiveChunks (s : ProtoStream P) : Option (ProtoStream P × List Observation) :=
  match s.receiveChunksLoop with
  | .running =>
      if s.cancelled = true ∧ (s.transport.receivedPacketsQueue.resume .chunks).isNone then
        some ({ s with receiveChunksLoop := .finished (some .operationAborted) }, [])
      else none
  | _ => none

/-- `store_stream_error`. -/
def storeStreamError (ec : Error) (s : ProtoStream P) : ProtoStream P × List Observation :=
  match s.streamError with
  | some _ => (s, [])
  | none =>
      ({ s with
          streamError := some ec
          loopsRunning := false
          readyChunks := s.readyChunks.push .null }.cancelReceiveChunks, [.pushed .null none])

/-- `handle_receive_chunks_result`. -/
def handleReceiveChunksResult (s : ProtoStream P) : Option (ProtoStream P × List Observation) :=
  match s.receiveChunksLoop with
  | .finished none => some ({ s with receiveChunksLoop := .returned }, [])
  | .finished (some ec) =>
      if s.stoppingLoops = true ∧ ec = .operationAborted then
        some ({ s with receiveChunksLoop := .returned }, [])
      else some ({ s with receiveChunksLoop := .returned }.storeStreamError ec)
  | _ => none

/-! ## Receiving -/

/-- `receive`, on a running session or after an error. -/
def receive (i : Nat) (s : ProtoStream P) : Option (ProtoStream P × List Observation) :=
  match s.streamError with
  | some ec => some (s, [.received i (.error ec)])
  | none =>
      if s.loopsRunning = false then none
      else some ({ s with readyChunks := s.readyChunks.pop i }, [])

/-- Call `i` of `receive` goes on when its `pop` has completed. -/
def resumeReceive (i : Nat) (s : ProtoStream P) : Option (ProtoStream P × List Observation) :=
  (s.readyChunks.resume i).map fun r =>
    let result := match s.streamError with
      | some ec => .error ec
      | none => .ok r.1
    ({ s with readyChunks := r.2 }, [.received i result])

/-! ## Closing -/

/-- `close`, to its call of `wait_in_flight_drained`. -/
def close (s : ProtoStream P) : Option (ProtoStream P × List Observation) :=
  match s.startLoops, s.closing with
  | .handshaking, _ => none
  | _, .idle =>
      some ({ s with
          transport := { s.transport with drain := .posted }
          closing := .draining }, [.closeCalled])
  | _, _ => none

/-- `close` goes on after `wait_in_flight_drained`, whose result it ignores, to its
call of `stop_loops`. -/
def resumeClose (s : ProtoStream P) : Option (ProtoStream P × List Observation) :=
  match s.closing, s.transport.drain with
  | .draining, .returned _ =>
      let s := { s with loopsRunning := false, stoppingLoops := true }.cancelReceiveChunks
      some ({ s with
          transport := { s.transport with stop := .posted }
          closing := .stopping }, [])
  | _, _ => none

/-- `close` goes on after `stop_loops`. -/
def finishClose (s : ProtoStream P) : Option (ProtoStream P × List Observation) :=
  match s.closing, s.transport.stop with
  | .stopping, .returned =>
      some ({ s with closing := .returned s.streamError }, [.closed s.streamError])
  | _, _ => none

/-! ## The machine -/

/-- The events of a session. -/
inductive Event (P : Primitives)
  /-- A coroutine of the transport goes on. -/
  | transport (e : ProtoHopZ.Event P)
  | callStartLoops (now : Nat) (fault : Option ErrorCode) (generated : P.PrivateKey) (i : Nat)
  | resumeStartLoops
  | send (i : Nat) (data : Bytes)
  | receive (i : Nat)
  | resumeReceive (i : Nat)
  | resumeReceiveChunks
  | abortReceiveChunks
  | receiveChunksResult
  | close
  | resumeClose
  | finishClose

end ProtoStream

/-- The events of the transport that are not calls of its user. -/
def ProtoHopZ.Event.isInternal {P : Primitives} : ProtoHopZ.Event P → Bool
  | .startLoops _ | .sendPacket _ _ | .startHandshake _ _ _ _ | .awaitPacket | .takePacket
  | .cancelPacket | .drain | .stop => false
  | _ => true

namespace ProtoStream
variable {P : Primitives}

/-- The step function of a session. -/
def step (s : ProtoStream P) : Event P → Option (ProtoStream P × List Observation)
  | .transport e => if e.isInternal then s.onTransport e else none
  | .callStartLoops now fault generated i => s.callStartLoops now fault generated i
  | .resumeStartLoops => s.resumeStartLoops
  | .send i data => s.send i data
  | .receive i => s.receive i
  | .resumeReceive i => s.resumeReceive i
  | .resumeReceiveChunks => s.resumeReceiveChunks
  | .abortReceiveChunks => s.abortReceiveChunks
  | .receiveChunksResult => s.handleReceiveChunksResult
  | .close => s.close
  | .resumeClose => s.resumeClose
  | .finishClose => s.finishClose

end ProtoStream
end FileHopZ

import FileHopZ.Protohopz.ProtoHopZ

/-! # The transport as a machine

One event is one uninterrupted stretch of code: a call of a member function by
its user, or the resumption of a suspended coroutine with what it was waiting
for.  Which coroutine is resumed, and with what, is up to the environment, so the
runs of this machine are all interleavings of all calls with all networks,
clocks, random generators and failures.
-/
namespace FileHopZ
namespace ProtoHopZ
variable {P : Primitives}

/-- The events of the transport. -/
inductive Event (P : Primitives)
  /-- `start_loops` is called. -/
  | startLoops (now : Nat)
  /-- `send_packet` is called; `i` names the call. -/
  | sendPacket (i : Nat) (source : Packet)
  | resumeSend (i : Nat) (fault : Option ErrorCode) (nonce : Nonce) (now : Nat)
  | transmitSend (i : Nat)
  | finishSend (i : Nat) (ec : Option Error)
  /-- `receive_loop` gets a datagram. -/
  | datagram (remote : Endpoint) (buffer : Packet) (bytes : Bytes) (now : Nat)
      (fault : Option ErrorCode)
  /-- `async_receive_from` fails. -/
  | receiveError (ec : Error)
  /-- The completion handler of `receive_loop` runs. -/
  | receiveLoopResult
  | timeoutIteration (now : Nat) (timedOut : List UInt32)
  | transmitResend
  | finishResend (ec : Option Error) (now : Nat)
  /-- `timer.async_wait` of `timeout_loop` completes. -/
  | timer (ec : Option Error)
  /-- The completion handler of `timeout_loop` runs. -/
  | timeoutLoopResult
  /-- `handshake_initiator` or `handshake_responder` is called. -/
  | startHandshake (role : Role) (fault : Option ErrorCode) (generated : P.PrivateKey) (i : Nat)
  | resumeHandshakeSend
  | resumeHandshakeReceive (fault : Option ErrorCode) (i : Nat)
  /-- `receive_packet` is called by the stream. -/
  | awaitPacket
  /-- `receive_packet` returns to the stream. -/
  | takePacket
  /-- The stream's `receive_packet` is cancelled. -/
  | cancelPacket
  /-- `wait_in_flight_drained` is called. -/
  | drain
  | resumeDrain (timer : Bool)
  /-- `stop_loops` is called. -/
  | stop
  /-- `stop_loops` goes on after its `post`. -/
  | resumeStop

/-- `send_packet`, called by the user: it is suspended in `post` at once. -/
def callSendPacket (i : Nat) (source : Packet) (t : ProtoHopZ P) : ProtoHopZ P :=
  { t with sends := Function.update t.sends i (.posted source) }

/-- No call has the name `i` yet. -/
def fresh (t : ProtoHopZ P) (i : Nat) : Bool :=
  match t.sends i with
  | .idle => true
  | _ => false

/-- The step function of the transport. -/
def step (t : ProtoHopZ P) : Event P → Option (ProtoHopZ P × List Observation)
  | .startLoops now =>
      match t.receiveLoop, t.timeoutLoop with
      | .idle, .idle => some (t.startLoops now, [])
      | _, _ => none
  | .sendPacket i source => if t.fresh i then some (t.callSendPacket i source, []) else none
  | .resumeSend i fault nonce now => t.resumeSend i fault nonce now
  | .transmitSend i => t.transmitSend i
  | .finishSend i ec => t.finishSend i ec
  | .datagram remote buffer bytes now fault =>
      match t.receiveLoop with
      | .running => some (t.receiveDatagram remote buffer bytes now fault)
      | _ => none
  | .receiveError ec =>
      match t.receiveLoop with
      | .running => some (t.finishReceiveLoop ec, [])
      | _ => none
  | .receiveLoopResult =>
      match t.receiveLoop with
      | .finished ec => some ({ t with receiveLoop := .idle }.handleLoopResult ec, [])
      | _ => none
  | .timeoutIteration now timedOut =>
      match t.timeoutLoop with
      | .checking =>
          if t.TimesOut now timedOut then some (t.timeoutIteration now timedOut, []) else none
      | _ => none
  | .transmitResend => t.transmitResend
  | .finishResend ec now => (t.finishResend ec now).map (·, [])
  | .timer ec =>
      match t.timeoutLoop with
      | .sleeping =>
          some ({ t with timeoutLoop := if ec = none then .checking else .finished ec }, [])
      | _ => none
  | .timeoutLoopResult =>
      match t.timeoutLoop with
      | .finished ec => some ({ t with timeoutLoop := .idle }.handleLoopResult ec, [])
      | _ => none
  | .startHandshake role fault generated i =>
      match t.handshake with
      | .idle => if t.fresh i then some (t.startHandshake role fault generated i) else none
      | _ => none
  | .resumeHandshakeSend => t.resumeHandshakeSend
  | .resumeHandshakeReceive fault i =>
      if t.fresh i then t.resumeHandshakeReceive fault i else none
  | .awaitPacket =>
      some ({ t with receivedPacketsQueue := t.receivedPacketsQueue.pop .chunks }, [])
  | .takePacket =>
      (t.receivedPacketsQueue.resume .chunks).map fun r =>
        ({ t with receivedPacketsQueue := r.2 }, [])
  | .cancelPacket =>
      some ({ t with receivedPacketsQueue := t.receivedPacketsQueue.cancel .chunks }, [])
  | .drain =>
      match t.drain with
      | .waiting => none
      | _ => some ({ t with drain := .posted }, [])
  | .resumeDrain timer => (t.resumeDrain timer).map (·, [])
  | .stop => some ({ t with stop := .posted }, [])
  | .resumeStop =>
      match t.stop with
      | .posted => some ({ t.stopLoops with stop := .returned }, [.stopped t.loopError])
      | _ => none

end ProtoHopZ
end FileHopZ

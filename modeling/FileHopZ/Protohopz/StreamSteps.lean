import FileHopZ.Protohopz.ProtoStream
import FileHopZ.Protohopz.TransportSteps

/-! # The steps of a session

As for the transport: `Step` has one case for each way through the code between two
suspensions, and `step_cases` takes the step function apart.
-/
namespace FileHopZ
namespace ProtoStream
variable {P : Primitives}

/-- `receive_chunks_loop` has put the packet `r` in order; `queue` is what is left of
`received_packets_queue_`. -/
def putInOrder (r : ReceivedPacket) (queue : AsyncQueue Consumer ReceivedPacket)
    (s : ProtoStream P) : ProtoStream P :=
  let put := receiveChunk s.expectedSequence s.packetsBuffer r
  { s with
    transport := { s.transport with receivedPacketsQueue := queue }
    readyChunks := put.1.foldl pushChunk s.readyChunks
    expectedSequence := put.2.1
    packetsBuffer := put.2.2 }

/-- **The steps of a session.** -/
inductive Step (s : ProtoStream P) : Event P → ProtoStream P → List Observation → Prop
  | transport (e : ProtoHopZ.Event P) (t' : ProtoHopZ P) (shown : List FileHopZ.Observation)
      (hinternal : e.isInternal = true) (hs : s.transport.step e = some (t', shown)) :
      Step s (.transport e) { s with transport := t' } (shown.map .transport)
  | callStartLoops (now : Nat) (fault : Option ErrorCode) (generated : P.PrivateKey) (i : Nat)
      (hidle : s.startLoops = .idle) (hopen : s.closing = .idle)
      (hframe : s.transport.handshake = .idle) (hfresh : s.transport.fresh i = true) :
      Step s (.callStartLoops now fault generated i)
        { s with
          stoppingLoops := false, streamError := none, startLoops := .handshaking
          transport := ((s.transport.startLoops now).startHandshake s.handshakeMode fault generated
            i).1 }
        (((s.transport.startLoops now).startHandshake s.handshakeMode fault generated i).2.map
          .transport)
  /-- The handshake has failed. -/
  | unstarted (ec : Error) (hstart : s.startLoops = .handshaking)
      (hreturned : s.transport.handshake = .returned (some ec)) :
      Step s .resumeStartLoops { s with startLoops := .returned (some ec) } []
  | started (hstart : s.startLoops = .handshaking)
      (hreturned : s.transport.handshake = .returned none) :
      Step s .resumeStartLoops
        { s with
          loopsRunning := true
          receiveChunksLoop := .running
          startLoops := .returned none }.awaitPacket []
  /-- The data does not fit in a packet. -/
  | rejected (i : Nat) (data : Bytes) (hrunning : s.loopsRunning = true)
      (hlength : packetPayloadSize < data.length) :
      Step s (.send i data) s [.rejected i (.filehopz .streamPayloadTooLarge)]
  | send (i : Nat) (data : Bytes) (hrunning : s.loopsRunning = true)
      (hlength : data.length ≤ packetPayloadSize) (hfresh : s.transport.fresh i = true) :
      Step s (.send i data)
        { s with transport := s.transport.callSendPacket i (dataPacket data) } []
  /-- `receive` returns the error of the stream at once. -/
  | refused (i : Nat) (ec : Error) (herror : s.streamError = some ec) :
      Step s (.receive i) s [.received i (.error ec)]
  | receive (i : Nat) (herror : s.streamError = none) (hrunning : s.loopsRunning = true) :
      Step s (.receive i) { s with readyChunks := s.readyChunks.pop i } []
  /-- It returns the error after its `pop`. -/
  | failed (i : Nat) (chunk : Chunk) (queue : AsyncQueue Nat Chunk) (ec : Error)
      (htake : s.readyChunks.resume i = some (chunk, queue)) (herror : s.streamError = some ec) :
      Step s (.resumeReceive i) { s with readyChunks := queue } [.received i (.error ec)]
  | received (i : Nat) (chunk : Chunk) (queue : AsyncQueue Nat Chunk)
      (htake : s.readyChunks.resume i = some (chunk, queue)) (herror : s.streamError = none) :
      Step s (.resumeReceive i) { s with readyChunks := queue } [.received i (.ok chunk)]
  /-- `receive_packet` returns the error of a loop of the transport. -/
  | interrupted (r : ReceivedPacket) (queue : AsyncQueue Consumer ReceivedPacket) (ec : Error)
      (hrunning : s.receiveChunksLoop = .running)
      (htake : s.transport.receivedPacketsQueue.resume .chunks = some (r, queue))
      (herror : s.transport.loopError = some ec) :
      Step s .resumeReceiveChunks
        { s with
          transport := { s.transport with receivedPacketsQueue := queue }
          receiveChunksLoop := .finished (some ec) } []
  | chunk (r : ReceivedPacket) (queue : AsyncQueue Consumer ReceivedPacket)
      (hrunning : s.receiveChunksLoop = .running)
      (htake : s.transport.receivedPacketsQueue.resume .chunks = some (r, queue))
      (herror : s.transport.loopError = none) (hcancelled : ¬ s.cancelled = true) :
      Step s .resumeReceiveChunks (s.putInOrder r queue).awaitPacket
        ((receiveChunk s.expectedSequence s.packetsBuffer r).1.map .chunk)
  /-- The loop has been cancelled and does not wait again. -/
  | lastChunk (r : ReceivedPacket) (queue : AsyncQueue Consumer ReceivedPacket)
      (hrunning : s.receiveChunksLoop = .running)
      (htake : s.transport.receivedPacketsQueue.resume .chunks = some (r, queue))
      (herror : s.transport.loopError = none) (hcancelled : s.cancelled = true) :
      Step s .resumeReceiveChunks
        { s.putInOrder r queue with receiveChunksLoop := .finished none }
        ((receiveChunk s.expectedSequence s.packetsBuffer r).1.map .chunk)
  | aborted (hrunning : s.receiveChunksLoop = .running) (hcancelled : s.cancelled = true)
      (hnone : s.transport.receivedPacketsQueue.resume .chunks = none) :
      Step s .abortReceiveChunks
        { s with receiveChunksLoop := .finished (some .operationAborted) } []
  /-- The completion handler of the loop has nothing to record. -/
  | ended (ec : Option Error) (hfinished : s.receiveChunksLoop = .finished ec) :
      Step s .receiveChunksResult { s with receiveChunksLoop := .returned } []
  | stored (ec : Error) (hfinished : s.receiveChunksLoop = .finished (some ec))
      (hnone : s.streamError = none) :
      Step s .receiveChunksResult
        { s with
          receiveChunksLoop := .returned
          streamError := some ec
          loopsRunning := false
          readyChunks := s.readyChunks.push .null }.cancelReceiveChunks
        [.pushed .null none]
  | close (hstart : s.startLoops ≠ .handshaking) (hclosing : s.closing = .idle) :
      Step s .close
        { s with transport := { s.transport with drain := .posted }, closing := .draining }
        [.closeCalled]
  | resumeClose (drained : Bool) (hclosing : s.closing = .draining)
      (hdrain : s.transport.drain = .returned drained) :
      Step s .resumeClose
        { s with
          loopsRunning := false
          stoppingLoops := true
          cancelled := true
          closing := .stopping
          transport := { s.transport with
            receivedPacketsQueue := s.transport.receivedPacketsQueue.cancel .chunks
            stop := .posted } } []
  | finishClose (hclosing : s.closing = .stopping) (hstop : s.transport.stop = .returned) :
      Step s .finishClose { s with closing := .returned s.streamError } [.closed s.streamError]

/-! ## Each function -/

theorem step_onTransport {s s' : ProtoStream P} {e : ProtoHopZ.Event P} {out : List Observation}
    (hinternal : e.isInternal = true) (hs : s.onTransport e = some (s', out)) :
    Step s (.transport e) s' out := by
  obtain ⟨⟨t', shown⟩, hstep, heq⟩ := Option.map_eq_some_iff.mp hs
  obtain ⟨rfl, rfl⟩ := Prod.mk.inj heq.symm
  exact .transport e t' shown hinternal hstep

theorem startLoops_step {t t' : ProtoHopZ P} {now : Nat} {out : List FileHopZ.Observation}
    (hs : t.step (.startLoops now) = some (t', out)) : t' = t.startLoops now ∧ out = [] := by
  cases ProtoHopZ.step_cases hs with
  | startLoops => exact ⟨rfl, rfl⟩
  | shakes _ _ _ he => cases he

theorem startHandshake_step {t t' : ProtoHopZ P} {role : Role} {fault : Option ErrorCode}
    {generated : P.PrivateKey} {i : Nat} {out : List FileHopZ.Observation}
    (hs : t.step (.startHandshake role fault generated i) = some (t', out)) :
    t.handshake = .idle ∧ t.fresh i = true ∧
      (t', out) = t.startHandshake role fault generated i := by
  cases hframe : t.handshake with
  | idle =>
      simp only [ProtoHopZ.step, hframe, Option.ite_none_right_eq_some, Option.some.injEq] at hs
      exact ⟨rfl, hs.1, hs.2.symm⟩
  | _ => simp [ProtoHopZ.step, hframe] at hs

theorem step_startHandshake {t : ProtoHopZ P} {role : Role} {fault : Option ErrorCode}
    {generated : P.PrivateKey} {i : Nat} (hframe : t.handshake = .idle)
    (hfresh : t.fresh i = true) : t.step (.startHandshake role fault generated i) =
      some (t.startHandshake role fault generated i) := by
  simp only [ProtoHopZ.step, hframe]
  rw [if_pos hfresh]

/-- `start_loops` is two steps of the transport. -/
theorem callStartLoops_eq {s s' : ProtoStream P} {now : Nat} {fault : Option ErrorCode}
    {generated : P.PrivateKey} {i : Nat} {out : List Observation}
    (hs : s.callStartLoops now fault generated i = some (s', out)) :
    s.startLoops = .idle ∧ s.closing = .idle ∧
      (s.transport.handshake = .idle ∧ s.transport.fresh i = true) ∧
      s' = { s with
        stoppingLoops := false, streamError := none, startLoops := .handshaking
        transport := ((s.transport.startLoops now).startHandshake s.handshakeMode fault generated
          i).1 } ∧
      out = (((s.transport.startLoops now).startHandshake s.handshakeMode fault generated
        i).2).map .transport := by
  unfold callStartLoops at hs
  split at hs
  · rename_i hidle hopen
    simp only [onTransport, Option.bind_eq_bind, Option.bind_eq_some_iff,
      Option.map_eq_some_iff, Option.pure_def, Option.some.injEq, Prod.exists, Prod.mk.injEq] at hs
    obtain ⟨s₁, out₁, ⟨t₁, o₁, hstart, rfl, rfl⟩, s₂, out₂, ⟨t₂, o₂, hshake, rfl, rfl⟩, rfl, rfl⟩ :=
      hs
    obtain ⟨rfl, rfl⟩ := startLoops_step hstart
    obtain ⟨hframe, hfresh, heq⟩ := startHandshake_step hshake
    obtain ⟨rfl, rfl⟩ := Prod.mk.inj heq
    exact ⟨hidle, hopen, ⟨hframe, hfresh⟩, rfl, rfl⟩
  · cases hs

theorem step_send {s s' : ProtoStream P} {i : Nat} {data : Bytes} {out : List Observation}
    (hs : s.send i data = some (s', out)) : Step s (.send i data) s' out := by
  unfold send at hs
  split_ifs at hs with hrunning hlength
  · obtain ⟨rfl, rfl⟩ := Prod.mk.inj (Option.some.inj hs).symm
    exact .rejected i data (by simpa using hrunning) hlength
  · obtain ⟨⟨t', shown⟩, hstep, heq⟩ := Option.map_eq_some_iff.mp hs
    obtain ⟨rfl, rfl⟩ := Prod.mk.inj heq.symm
    cases ProtoHopZ.step_cases hstep with
    | sendPacket _ _ hfresh =>
        exact .send i data (by simpa using hrunning) (not_lt.mp hlength) hfresh
    | shakes _ _ _ he => cases he

theorem step_resumeStartLoops {s s' : ProtoStream P} {out : List Observation}
    (hs : s.resumeStartLoops = some (s', out)) : Step s .resumeStartLoops s' out := by
  unfold resumeStartLoops at hs
  split at hs
  · rename_i ec hstart hreturned
    obtain ⟨rfl, rfl⟩ := Prod.mk.inj (Option.some.inj hs).symm
    exact .unstarted ec hstart hreturned
  · rename_i hstart hreturned
    obtain ⟨rfl, rfl⟩ := Prod.mk.inj (Option.some.inj hs).symm
    exact .started hstart hreturned
  · cases hs

theorem step_receive {s s' : ProtoStream P} {i : Nat} {out : List Observation}
    (hs : s.receive i = some (s', out)) : Step s (.receive i) s' out := by
  unfold receive at hs
  split at hs
  · rename_i ec herror
    obtain ⟨rfl, rfl⟩ := Prod.mk.inj (Option.some.inj hs).symm
    exact .refused i ec herror
  · rename_i herror
    split_ifs at hs with hrunning
    obtain ⟨rfl, rfl⟩ := Prod.mk.inj (Option.some.inj hs).symm
    exact .receive i herror (by simpa using hrunning)

theorem step_resumeReceive {s s' : ProtoStream P} {i : Nat} {out : List Observation}
    (hs : s.resumeReceive i = some (s', out)) : Step s (.resumeReceive i) s' out := by
  obtain ⟨⟨chunk, queue⟩, htake, heq⟩ := Option.map_eq_some_iff.mp hs
  obtain ⟨rfl, rfl⟩ := Prod.mk.inj heq.symm
  split
  · rename_i ec herror
    exact .failed i chunk queue ec htake herror
  · rename_i herror
    exact .received i chunk queue htake herror

theorem step_resumeReceiveChunks {s s' : ProtoStream P} {out : List Observation}
    (hs : s.resumeReceiveChunks = some (s', out)) : Step s .resumeReceiveChunks s' out := by
  unfold resumeReceiveChunks at hs
  split at hs
  · rename_i r queue hrunning htake
    dsimp only at hs
    split at hs
    · rename_i ec herror
      obtain ⟨rfl, rfl⟩ := Prod.mk.inj (Option.some.inj hs).symm
      exact .interrupted r queue ec hrunning htake (ProtoHopZ.loopError_of_error herror)
    · rename_i r' hreceive
      obtain ⟨herror, rfl⟩ := ProtoHopZ.loopError_of_ok hreceive
      split_ifs at hs with hcancelled
      · obtain ⟨rfl, rfl⟩ := Prod.mk.inj (Option.some.inj hs).symm
        exact .lastChunk _ queue hrunning htake herror hcancelled
      · obtain ⟨rfl, rfl⟩ := Prod.mk.inj (Option.some.inj hs).symm
        exact .chunk _ queue hrunning htake herror hcancelled
  · cases hs

theorem step_handleReceiveChunksResult {s s' : ProtoStream P} {out : List Observation}
    (hs : s.handleReceiveChunksResult = some (s', out)) : Step s .receiveChunksResult s' out := by
  unfold handleReceiveChunksResult at hs
  split at hs
  · rename_i hfinished
    obtain ⟨rfl, rfl⟩ := Prod.mk.inj (Option.some.inj hs).symm
    exact .ended none hfinished
  · rename_i ec hfinished
    unfold storeStreamError at hs
    split_ifs at hs
    · obtain ⟨rfl, rfl⟩ := Prod.mk.inj (Option.some.inj hs).symm
      exact .ended (some ec) hfinished
    · split at hs
      · obtain ⟨rfl, rfl⟩ := Prod.mk.inj (Option.some.inj hs).symm
        exact .ended (some ec) hfinished
      · rename_i hnone
        obtain ⟨rfl, rfl⟩ := Prod.mk.inj (Option.some.inj hs).symm
        exact .stored ec hfinished hnone
  · cases hs

/-! ## Every step -/

/-- **A step goes one of these ways.** -/
theorem step_cases {s s' : ProtoStream P} {e : Event P} {out : List Observation}
    (hs : s.step e = some (s', out)) : Step s e s' out := by
  cases e with
  | transport e =>
      simp only [step] at hs
      split_ifs at hs with hinternal
      exact step_onTransport hinternal hs
  | callStartLoops now fault generated i =>
      obtain ⟨hidle, hopen, ⟨hframe, hfresh⟩, rfl, rfl⟩ := callStartLoops_eq hs
      exact .callStartLoops now fault generated i hidle hopen hframe hfresh
  | resumeStartLoops => exact step_resumeStartLoops hs
  | send i data => exact step_send hs
  | receive i => exact step_receive hs
  | resumeReceive i => exact step_resumeReceive hs
  | resumeReceiveChunks => exact step_resumeReceiveChunks hs
  | abortReceiveChunks =>
      simp only [step, abortReceiveChunks] at hs
      split at hs
      · rename_i hrunning
        split_ifs at hs with hcancelled
        obtain ⟨rfl, rfl⟩ := Prod.mk.inj (Option.some.inj hs).symm
        exact .aborted hrunning hcancelled.1 (Option.isNone_iff_eq_none.mp hcancelled.2)
      · cases hs
  | receiveChunksResult => exact step_handleReceiveChunksResult hs
  | close =>
      simp only [step, close] at hs
      split at hs
      · cases hs
      · rename_i hclosing hstart
        obtain ⟨rfl, rfl⟩ := Prod.mk.inj (Option.some.inj hs).symm
        exact .close hstart hclosing
      · cases hs
  | resumeClose =>
      simp only [step, resumeClose] at hs
      split at hs
      · rename_i drained hclosing hdrain
        obtain ⟨rfl, rfl⟩ := Prod.mk.inj (Option.some.inj hs).symm
        exact .resumeClose drained hclosing hdrain
      · cases hs
  | finishClose =>
      simp only [step, finishClose] at hs
      split at hs
      · rename_i hclosing hstop
        obtain ⟨rfl, rfl⟩ := Prod.mk.inj (Option.some.inj hs).symm
        exact .finishClose hclosing hstop
      · cases hs

end ProtoStream
end FileHopZ

import FileHopZ.Protohopz.Effects
import FileHopZ.Protohopz.StreamSteps

/-! # What a step of a session can do

A session moves its transport, or its `receive_chunks_loop` puts one packet in
order.  `moves_step` says so for every event, in terms of what a step of the
transport can do (`ProtoHopZ.Effect`).
-/
namespace FileHopZ
namespace ProtoStream
variable {P : Primitives}

/-- The observation is not one of the transport, nor a packet put in order. -/
def Observation.isQuiet : Observation → Bool
  | .transport _ | .pushed _ (some _) => false
  | .pushed chunk none => chunk.empty
  | _ => true

/-- What a step of a session can do. -/
inductive Moves (s : ProtoStream P) (e : Event P) (s' : ProtoStream P) (out : List Observation) :
    Prop
  /-- The transport moves as by `e'`. -/
  | transport (e' : ProtoHopZ.Event P) (shown : List FileHopZ.Observation)
      (heffect : ProtoHopZ.Effect s.transport e' s'.transport shown)
      (hdatagram : ∀ remote buffer bytes now fault,
        e' = .datagram remote buffer bytes now fault → e = .transport e')
      (hsend : ∀ i p, e' = .sendPacket i p →
        ∃ data, data.length ≤ packetPayloadSize ∧ p = dataPacket data)
      (hhandshake : e'.handshakes = true → ∀ ec, s.transport.handshake ≠ .returned ec)
      (hshakes : e'.handshakes = true →
        ∃ t, (t = s.transport ∨ ∃ now, t = s.transport.startLoops now) ∧
          t.step e' = some (s'.transport, shown) ∧ s'.receiveChunksLoop = s.receiveChunksLoop)
      (hstop : e' = .resumeStop → s'.transport.stop = .returned) (htake : e' ≠ .takePacket)
      (hexpected : s'.expectedSequence = s.expectedSequence)
      (hbuffer : s'.packetsBuffer = s.packetsBuffer)
      (hout : out = shown.map .transport ∨ shown = [] ∧ ∀ o ∈ out, o.isQuiet = true)
  /-- `receive_chunks_loop` gets a packet. -/
  | chunk (he : e = .resumeReceiveChunks) (r : ReceivedPacket)
      (queue queue' : AsyncQueue Consumer ReceivedPacket)
      (htake : s.transport.receivedPacketsQueue.resume .chunks = some (r, queue))
      (hqueue : queue' = queue ∨ queue' = queue.pop .chunks)
      (htransport : s'.transport = { s.transport with receivedPacketsQueue := queue' })
      (hout : s.transport.loopError ≠ none ∧ out = [] ∧
          s'.expectedSequence = s.expectedSequence ∧ s'.packetsBuffer = s.packetsBuffer ∨
        s.transport.loopError = none ∧
          out = (receiveChunk s.expectedSequence s.packetsBuffer r).1.map .chunk ∧
          s'.expectedSequence = (receiveChunk s.expectedSequence s.packetsBuffer r).2.1 ∧
          s'.packetsBuffer = (receiveChunk s.expectedSequence s.packetsBuffer r).2.2)

/-- Moving as the transport does. -/
theorem moves_of_step {s : ProtoStream P} {e : Event P} {e' : ProtoHopZ.Event P}
    {t' : ProtoHopZ P} {shown : List FileHopZ.Observation}
    (hs : s.transport.step e' = some (t', shown))
    (hdatagram : ∀ remote buffer bytes now fault,
      e' = .datagram remote buffer bytes now fault → e = .transport e')
    (hsend : ∀ i p, e' = .sendPacket i p →
      ∃ data, data.length ≤ packetPayloadSize ∧ p = dataPacket data)
    (htake : e' ≠ .takePacket) :
    Moves s e { s with transport := t' } (shown.map .transport) := by
  refine .transport e' shown (ProtoHopZ.effect_step hs) hdatagram hsend
    (fun he ec => (ProtoHopZ.shakes_step he hs).not_returned ec)
    (fun _ => ⟨_, Or.inl rfl, hs, rfl⟩) ?_ htake rfl rfl (Or.inl rfl)
  rintro rfl
  cases ProtoHopZ.step_cases hs with
  | resumeStop => rfl
  | shakes _ _ _ he => cases he

/-- The events of the transport's user that change its queue and frames at most. -/
def quietEvent (e : ProtoHopZ.Event P) : Prop :=
  e = .stop ∨ e = .awaitPacket ∨ e = .cancelPacket

/-- A step that changes at most the transport's queue, by `hqueue`, and its frames
of `wait_in_flight_drained` and `stop_loops`. -/
theorem moves_quiet {s s' : ProtoStream P} {e : Event P} {e' : ProtoHopZ.Event P}
    {out : List Observation} (he' : quietEvent e')
    {queue : AsyncQueue Consumer ReceivedPacket} {drain : DrainFrame} {stop : StopFrame}
    (htransport : s'.transport = { s.transport with
      receivedPacketsQueue := queue, drain := drain, stop := stop })
    (hqueue : ProtoHopZ.QueueStep s.transport.connectionEncrypted s.transport.cryptoContext e'
      s.transport.receivedPacketsQueue s.transport.receivedPackets queue
      s.transport.receivedPackets)
    (hexpected : s'.expectedSequence = s.expectedSequence)
    (hbuffer : s'.packetsBuffer = s.packetsBuffer) (hout : ∀ o ∈ out, o.isQuiet = true) :
    Moves s e s' out := by
  have hno : e'.handshakes = false := by rcases he' with rfl | rfl | rfl <;> rfl
  refine .transport e' [] ?_ ?_ ?_ (by simp [hno]) (by simp [hno]) ?_ ?_ hexpected hbuffer
    (Or.inr ⟨rfl, hout⟩)
  rotate_left
  · rcases he' with rfl | rfl | rfl <;> simp
  · rcases he' with rfl | rfl | rfl <;> simp
  · rcases he' with rfl | rfl | rfl <;> simp
  · rcases he' with rfl | rfl | rfl <;> simp
  rw [htransport]
  refine ProtoHopZ.Effect.of_quiet (t := s.transport) ?_ rfl rfl ?_ (Or.inl rfl) hqueue
  · exact fun _ => ⟨rfl, rfl, rfl⟩
  · exact fun _ _ _ h => ProtoHopZ.resending_holds h

theorem moves_callStartLoops {s : ProtoStream P} {e : Event P} {now : Nat}
    {fault : Option ErrorCode} {generated : P.PrivateKey} {i : Nat}
    (hframe : s.transport.handshake = .idle) (hfresh : s.transport.fresh i = true) :
    Moves s e
      { s with
        stoppingLoops := false, streamError := none, startLoops := .handshaking
        transport := ((s.transport.startLoops now).startHandshake s.handshakeMode fault generated
          i).1 }
      (((s.transport.startLoops now).startHandshake s.handshakeMode fault generated i).2.map
        .transport) := by
  have h := ProtoHopZ.effect_step (@step_startHandshake P (s.transport.startLoops now)
    s.handshakeMode fault generated i hframe hfresh)
  have hheld : ∀ p, (s.transport.startLoops now).Holds p → s.transport.Holds p := fun p hq =>
    hq.of_frames (fun s l hl => ⟨s, l, hl, rfl⟩) (fun j q b hj => ProtoHopZ.sending_holds hj)
      (by simp [ProtoHopZ.startLoops])
  refine .transport (.startHandshake s.handshakeMode fault generated i) _
    ⟨by simp [ProtoHopZ.Event.handshakes], h.intends, ?_, h.registers, ?_, h.acks, h.queue⟩
    (by simp) (by simp) ?_ (fun _ => ⟨_, Or.inr ⟨now, rfl⟩, ?_, rfl⟩) (by simp) (by simp) rfl rfl
    (Or.inl rfl)
  · exact fun p hp => (h.holds p hp).imp (hheld p) id
  · refine fun d b hd => (h.transmits d b hd).imp ?_ id
    rintro ⟨p, hp, hb⟩
    exact ⟨p, hheld p hp, hb⟩
  · intro _ ec hec
    rw [hframe] at hec
    cases hec
  · exact step_startHandshake (t := s.transport.startLoops now) hframe hfresh

/-- **What a step of a session can do.** -/
theorem moves_step {s s' : ProtoStream P} {e : Event P} {out : List Observation}
    (hs : s.step e = some (s', out)) : Moves s e s' out := by
  cases step_cases hs with
  | transport e' t' shown hinternal hstep =>
      refine moves_of_step hstep (fun _ _ _ _ _ _ => rfl) ?_ ?_
      · rintro i p rfl
        cases hinternal
      · rintro rfl
        cases hinternal
  | callStartLoops _ _ _ _ _ _ hframe hfresh => exact moves_callStartLoops hframe hfresh
  | send i data _ hlength hfresh =>
      have hstep : s.transport.step (.sendPacket i (dataPacket data)) =
          some (s.transport.callSendPacket i (dataPacket data), []) := if_pos hfresh
      refine moves_of_step hstep (by simp) (fun j p hp => ⟨data, hlength, ?_⟩) (by simp)
      exact (ProtoHopZ.Event.sendPacket.inj hp).2.symm
  | interrupted r queue ec _ htake herror =>
      exact .chunk rfl r queue queue htake (Or.inl rfl) rfl
        (Or.inl ⟨by simp [herror], rfl, rfl, rfl⟩)
  | chunk r queue _ htake herror =>
      exact .chunk rfl r queue _ htake (Or.inr rfl) rfl (Or.inr ⟨herror, rfl, rfl, rfl⟩)
  | lastChunk r queue _ htake herror =>
      exact .chunk rfl r queue queue htake (Or.inl rfl) rfl (Or.inr ⟨herror, rfl, rfl, rfl⟩)
  | started =>
      exact moves_quiet (Or.inr (Or.inl rfl)) rfl (.pop .chunks (Or.inr rfl)) rfl rfl (by simp)
  | stored | resumeClose =>
      exact moves_quiet (Or.inr (Or.inr rfl)) rfl (.cancel rfl) rfl rfl
        (by simp [Observation.isQuiet])
  | unstarted | rejected | refused | receive | failed | received | aborted | ended | close
  | finishClose =>
      exact moves_quiet (Or.inl rfl) rfl .same rfl rfl (by simp [Observation.isQuiet])

end ProtoStream
end FileHopZ

import FileHopZ.Library.Map
import FileHopZ.Protohopz.TransportSteps

/-! # What a step of the transport can do

What is delivered, to whom and under which number depends on a few things only:
the packets a side still holds and may put on the wire (`Holds`), the packets its
calls of `send_packet` have not registered yet (`Intends`), the number the next
of them draws, its keys, and what its `receive_loop` has recorded and queued.

`Effect` says what one step can do to these (`effect_step`).  Everything that is said
later about what two sides deliver to each other follows from it.
-/
namespace FileHopZ
namespace ProtoHopZ
variable {P : Primitives}

/-- The packets that can still be given to the socket: those in flight and those
that a suspended coroutine is about to send. -/
def Holds (t : ProtoHopZ P) (packet : Packet) : Prop :=
  (∃ sequence l, t.inFlight.lookup sequence = some l ∧ l.packet = packet) ∨
    (∃ i transmitted, t.sends i = .sending packet transmitted) ∨
    ∃ transmitted rest, t.timeoutLoop = .resending packet transmitted rest

/-- The packet of call `i` of `send_packet`, which has not registered it yet. -/
def Intends (t : ProtoHopZ P) (i : Nat) (source : Packet) : Prop :=
  t.sends i = .posted source ∨ t.sends i = .waiting source

/-- The packet `send_ack` sends. -/
def ackPacket (sequence : UInt32) : Packet :=
  .blank { type := .ack, size := 0, sequence := sequence }

/-- What a step can do to `received_packets_queue_` and `received_packets_`. -/
inductive QueueStep (encrypted : Bool) (context : CryptoContext P) (e : Event P)
    (queue : AsyncQueue Consumer ReceivedPacket) (received : Finset UInt32) :
    AsyncQueue Consumer ReceivedPacket → Finset UInt32 → Prop
  | same : QueueStep encrypted context e queue received queue received
  | pop (consumer : Consumer) (he : e.handshakes = true ∨ e = .awaitPacket) :
      QueueStep encrypted context e queue received (queue.pop consumer) received
  | cancel (he : e = .cancelPacket) :
      QueueStep encrypted context e queue received (queue.cancel .chunks) received
  | take {r : ReceivedPacket} {queue' : AsyncQueue Consumer ReceivedPacket} (consumer : Consumer)
      (he : e.handshakes = true ∨ e = .takePacket)
      (htake : queue.resume consumer = some (r, queue')) :
      QueueStep encrypted context e queue received queue' received
  | ended (sequence : UInt32) {received' : Finset UInt32}
      (he : e = .receiveLoopResult ∨ e = .timeoutLoopResult ∨ e = .resumeStop)
      (hreceived : received' = received ∨ e = .resumeStop ∧ received' = ∅) :
      QueueStep encrypted context e queue received (queue.push (endPacket sequence)) received'
  | accept {remote : Endpoint} {buffer : Packet} {bytes : Bytes} {now : Nat}
      {fault : Option ErrorCode} {r : ReceivedPacket}
      (he : e = .datagram remote buffer bytes now fault)
      (hsize : (buffer.receiveFrom bytes).header.size.toNat ≤ packetSize)
      (hnew : r.packet.header.sequence ∉ received)
      (haccepts : Accepts encrypted context (buffer.receiveFrom bytes) r) :
      QueueStep encrypted context e queue received (queue.push r)
        (insert r.packet.header.sequence received)

/-- What a step can do. -/
structure Effect (t : ProtoHopZ P) (e : Event P) (t' : ProtoHopZ P) (out : List Observation) :
    Prop where
  keys : e.handshakes = false → t'.cryptoContext = t.cryptoContext ∧
    t'.connectionEncrypted = t.connectionEncrypted ∧ t'.handshake = t.handshake
  intends : ∀ i p, t'.Intends i p → t.Intends i p ∨ e = .sendPacket i p ∨
    e.handshakes = true ∧ p = t'.selfHandshakePacket ∧ ∃ role, t'.handshake = .sending role i
  holds : ∀ p, t'.Holds p → t.Holds p ∨ ∃ i plaintext, .registered i p plaintext ∈ out
  /-- At most one packet is registered, and it is registered under the number drawn for it. -/
  registers : (∀ i p plaintext, .registered i p plaintext ∉ out) ∧
      (t'.sequenceCounter = t.sequenceCounter ∨ t'.sequenceCounter = t.sequenceCounter + 1) ∨
    ∃ i source fault nonce packet, t.Intends i source ∧
      t.encryptPacket fault nonce (source.withSequence t.sequenceCounter) = .ok packet ∧
      out = [.drew t.sequenceCounter, .registered i packet source.data] ∧
      t'.sequenceCounter = t.sequenceCounter + 1
  /-- A datagram is one of a packet held, or acknowledges the packet received. -/
  transmits : ∀ destination bytes, .transmitted destination bytes ∈ out →
    (∃ p, t.Holds p ∧ bytes = p.datagram) ∨
      ∃ remote buffer received now fault, e = .datagram remote buffer received now fault ∧
        bytes = (ackPacket (buffer.receiveFrom received).header.sequence).datagram ∧
        (t'.receiveLoop = .running →
          (buffer.receiveFrom received).header.sequence ∈ t'.receivedPackets)
  /-- A number is acknowledged by a received `ACK` packet. -/
  acks : ∀ sequence, .acked sequence ∈ out → ∃ remote buffer bytes now fault,
    e = .datagram remote buffer bytes now fault ∧
      (buffer.receiveFrom bytes).header.type = .ack ∧
      (buffer.receiveFrom bytes).header.sequence = sequence
  queue : QueueStep t.connectionEncrypted t.cryptoContext e t.receivedPacketsQueue
    t.receivedPackets t'.receivedPacketsQueue t'.receivedPackets

/-! ## Steps that touch little -/

/-- The frames of the sending coroutines hold no more than before. -/
theorem Holds.of_frames {t t' : ProtoHopZ P} {p : Packet} (h : t'.Holds p)
    (hf : ∀ sequence l, t'.inFlight.lookup sequence = some l →
      ∃ sequence' l', t.inFlight.lookup sequence' = some l' ∧ l'.packet = l.packet)
    (hs : ∀ i p b, t'.sends i = .sending p b → t.Holds p)
    (ht : ∀ p b rest, t'.timeoutLoop = .resending p b rest → t.Holds p) : t.Holds p := by
  rcases h with ⟨sequence, l, hl, rfl⟩ | ⟨i, b, hi⟩ | ⟨b, rest, hr⟩
  · exact Or.inl (hf sequence l hl)
  · exact hs i p b hi
  · exact ht p b rest hr

/-- A step that shows nothing and leaves what is sent alone. -/
theorem Effect.of_quiet {t t' : ProtoHopZ P} {e : Event P}
    (hkeys : e.handshakes = false → t'.cryptoContext = t.cryptoContext ∧
      t'.connectionEncrypted = t.connectionEncrypted ∧ t'.handshake = t.handshake)
    (hsends : t'.sends = t.sends) (hflight : t'.inFlight = t.inFlight)
    (htimeout : ∀ p b rest, t'.timeoutLoop = .resending p b rest → t.Holds p)
    (hcounter : t'.sequenceCounter = t.sequenceCounter ∨
      t'.sequenceCounter = t.sequenceCounter + 1)
    (hqueue : QueueStep t.connectionEncrypted t.cryptoContext e t.receivedPacketsQueue
      t.receivedPackets t'.receivedPacketsQueue t'.receivedPackets) : Effect t e t' [] where
  keys := hkeys
  intends i p hp := by
    unfold Intends at hp ⊢
    rw [hsends] at hp
    exact Or.inl hp
  holds p hp := by
    refine Or.inl (hp.of_frames (fun s l hl => ⟨s, l, hflight ▸ hl, rfl⟩) ?_ htimeout)
    intro i q b hi
    exact Or.inr (Or.inl ⟨i, b, hsends ▸ hi⟩)
  registers := Or.inl ⟨fun _ _ _ => List.not_mem_nil, hcounter⟩
  transmits _ _ h := absurd h List.not_mem_nil
  acks _ h := absurd h List.not_mem_nil
  queue := hqueue

theorem resending_holds {t : ProtoHopZ P} {p : Packet} {b : Bool} {rest : List UInt32}
    (h : t.timeoutLoop = .resending p b rest) : t.Holds p :=
  Or.inr (Or.inr ⟨b, rest, h⟩)

theorem sending_holds {t : ProtoHopZ P} {i : Nat} {p : Packet} {b : Bool}
    (h : t.sends i = .sending p b) : t.Holds p :=
  Or.inr (Or.inl ⟨i, b, h⟩)

/-! ## Sending -/

/-- Replacing the frame of call `i` by one that holds a packet already held, or
none, adds nothing to what is held. -/
theorem holds_update {t : ProtoHopZ P} {i j : Nat} {f : SendFrame} {p : Packet} {b : Bool}
    (hf : ∀ q c, f = .sending q c → t.Holds q)
    (hj : Function.update t.sends i f j = .sending p b) : t.Holds p := by
  by_cases hji : j = i
  · subst hji
    rw [Function.update_self] at hj
    exact hf p b hj
  · rw [Function.update_of_ne hji] at hj
    exact sending_holds hj

theorem intends_update {t : ProtoHopZ P} {i j : Nat} {f : SendFrame} {p : Packet}
    (hf : f = .posted p ∨ f = .waiting p → t.Intends i p)
    (h : Function.update t.sends i f j = .posted p ∨ Function.update t.sends i f j = .waiting p) :
    t.Intends j p := by
  by_cases hji : j = i
  · subst hji
    rw [Function.update_self] at h
    exact hf h
  · rwa [Function.update_of_ne hji] at h

/-- A call that goes on with nothing new in its frame, showing at most its number,
its result and a datagram held. -/
theorem effect_sendFrame {t t' : ProtoHopZ P} {e : Event P} {i : Nat} {f : SendFrame}
    {out : List Observation}
    (hkeys : t'.cryptoContext = t.cryptoContext ∧
      t'.connectionEncrypted = t.connectionEncrypted ∧ t'.handshake = t.handshake)
    (hsends : t'.sends = Function.update t.sends i f)
    (hintends : ∀ p, f = .posted p ∨ f = .waiting p → t.Intends i p)
    (hsending : ∀ p b, f = .sending p b → t.Holds p)
    (hflight : ∀ sequence l, t'.inFlight.lookup sequence = some l →
      t.inFlight.lookup sequence = some l)
    (htimeout : t'.timeoutLoop = t.timeoutLoop)
    (hcounter : t'.sequenceCounter = t.sequenceCounter ∨
      t'.sequenceCounter = t.sequenceCounter + 1)
    (hout : ∀ o ∈ out, (∃ s, o = .drew s) ∨ (∃ ec, o = .returned i ec) ∨
      ∃ d p, t.Holds p ∧ o = .transmitted d p.datagram)
    (hqueue : t'.receivedPacketsQueue = t.receivedPacketsQueue)
    (hreceived : t'.receivedPackets = t.receivedPackets) : Effect t e t' out where
  keys _ := hkeys
  intends j p hp := by
    unfold Intends at hp
    rw [hsends] at hp
    exact Or.inl (intends_update (hintends p) hp)
  holds p hp := by
    refine Or.inl (hp.of_frames (fun s l hl => ⟨s, l, hflight s l hl, rfl⟩) ?_ ?_)
    · intro j q b hj
      rw [hsends] at hj
      exact holds_update hsending hj
    · intro q b rest hr
      exact resending_holds (htimeout ▸ hr)
  registers := by
    refine Or.inl ⟨fun j p pl h => ?_, hcounter⟩
    rcases hout _ h with ⟨s, ho⟩ | ⟨ec, ho⟩ | ⟨d, p, -, ho⟩ <;> cases ho
  transmits d b h := by
    rcases hout _ h with ⟨s, ho⟩ | ⟨ec, ho⟩ | ⟨d', p, hp, ho⟩
    · cases ho
    · cases ho
    · exact Or.inl ⟨p, hp, (Observation.transmitted.inj ho).2⟩
  acks s h := by
    rcases hout _ h with ⟨s, ho⟩ | ⟨ec, ho⟩ | ⟨d, p, -, ho⟩ <;> cases ho
  queue := by
    rw [hqueue, hreceived]
    exact .same

theorem Resumes.intends {t : ProtoHopZ P} {i : Nat} {source : Packet} {cwnd : AsyncValue Nat ℚ}
    (h : t.Resumes i source cwnd) : t.Intends i source :=
  h.imp And.left And.left

theorem effect_registered {t : ProtoHopZ P} {e : Event P} {i : Nat} {source packet : Packet}
    {fault : Option ErrorCode} {nonce : Nonce} {now : Nat} {cwnd : AsyncValue Nat ℚ}
    (hsource : t.Intends i source)
    (hencrypt : t.encryptPacket fault nonce (source.withSequence t.sequenceCounter) = .ok packet) :
    Effect t e
      { t with
        cwnd := cwnd
        sequenceCounter := t.sequenceCounter + 1
        inFlight := t.inFlight.insert t.sequenceCounter { sendTime := now, packet := packet }
        sends := Function.update t.sends i (.sending packet false) }
      [.drew t.sequenceCounter, .registered i packet source.data] := by
  refine ⟨fun _ => ⟨rfl, rfl, rfl⟩, ?_, ?_, ?_, by simp, by simp, .same⟩
  · exact fun j p hp => Or.inl (intends_update (by simp) hp)
  · intro p hp
    by_cases hpp : p = packet
    · exact Or.inr ⟨i, source.data, by simp [hpp]⟩
    refine Or.inl ?_
    rcases hp with ⟨s, l, hl, rfl⟩ | ⟨j, b, hj⟩ | ⟨b, rest, hr⟩
    · rcases FiniteMap.lookup_insert_cases hl with ⟨-, rfl⟩ | ⟨-, hl⟩
      · exact absurd rfl hpp
      · exact Or.inl ⟨s, l, hl, rfl⟩
    · dsimp only at hj
      by_cases hji : j = i
      · subst hji
        rw [Function.update_self] at hj
        exact absurd (SendFrame.sending.inj hj).1.symm hpp
      · rw [Function.update_of_ne hji] at hj
        exact sending_holds hj
    · exact resending_holds hr
  · exact Or.inr ⟨i, source, fault, nonce, packet, hsource, hencrypt, rfl, rfl⟩

theorem effect_unsent {t : ProtoHopZ P} {e : Event P} (i : Nat) (packet : Packet) (ec : Error) :
    Effect t e
      { t with
        inFlight := t.inFlight.erase packet.header.sequence
        cwnd := t.cwnd.notifyOne
        sends := Function.update t.sends i (.returned (some ec)) }.signalIfDrained
      [.returned i (some ec)] := by
  rw [signalIfDrained_eq]
  exact effect_sendFrame ⟨rfl, rfl, rfl⟩ rfl (by simp) (by simp)
    (fun _ _ h => (FiniteMap.lookup_of_erase h).2) rfl (Or.inl rfl) (by simp) rfl rfl

/-! ## Receiving -/

theorem effect_acked {t : ProtoHopZ P} (remote : Endpoint) (buffer : Packet) (bytes : Bytes)
    (now : Nat) (fault : Option ErrorCode) (htype : (buffer.receiveFrom bytes).header.type = .ack) :
    Effect t (.datagram remote buffer bytes now fault)
      { t.heard remote now with
        inFlight := t.inFlight.erase (buffer.receiveFrom bytes).header.sequence
        cwnd := (t.cwnd.update t.nextCwnd).notifyOne }.signalIfDrained
      [.acked (buffer.receiveFrom bytes).header.sequence] := by
  rw [signalIfDrained_eq]
  refine ⟨fun _ => ⟨rfl, rfl, rfl⟩, fun _ p hp => Or.inl hp, ?_, Or.inl ⟨by simp, Or.inl rfl⟩,
    by simp, ?_, .same⟩
  · refine fun p hp => Or.inl (hp.of_frames (fun s l hl => ?_) (fun j q b hj => sending_holds hj)
      fun q b rest hr => resending_holds hr)
    exact ⟨s, l, (FiniteMap.lookup_of_erase hl).2, rfl⟩
  · intro s h
    rw [Observation.acked.inj (List.mem_singleton.mp h)]
    exact ⟨remote, buffer, bytes, now, fault, rfl, htype, rfl⟩

/-- A step of `receive_loop` that acknowledges the received packet and leaves what
is sent alone. -/
theorem effect_received {t t' : ProtoHopZ P} {remote : Endpoint} {buffer : Packet} {bytes : Bytes}
    {now : Nat} {fault : Option ErrorCode} {out : List Observation}
    (hout : out = [] ∨
      out = [(t.heard remote now).sendAck (buffer.receiveFrom bytes).header.sequence])
    (hkeys : t'.cryptoContext = t.cryptoContext ∧
      t'.connectionEncrypted = t.connectionEncrypted ∧ t'.handshake = t.handshake)
    (hframes : t'.inFlight = t.inFlight ∧ t'.sends = t.sends ∧ t'.timeoutLoop = t.timeoutLoop)
    (hcounter : t'.sequenceCounter = t.sequenceCounter)
    (hack : t'.receiveLoop = .running → out ≠ [] →
      (buffer.receiveFrom bytes).header.sequence ∈ t'.receivedPackets)
    (hqueue : QueueStep t.connectionEncrypted t.cryptoContext
      (.datagram remote buffer bytes now fault) t.receivedPacketsQueue t.receivedPackets
      t'.receivedPacketsQueue t'.receivedPackets) :
    Effect t (.datagram remote buffer bytes now fault) t' out := by
  have hone : ∀ o ∈ out,
      o = (t.heard remote now).sendAck (buffer.receiveFrom bytes).header.sequence := by
    rcases hout with rfl | rfl <;> simp
  obtain ⟨hflight, hsends, htimeout⟩ := hframes
  refine ⟨fun _ => hkeys, ?_, ?_, Or.inl ⟨?_, Or.inl hcounter⟩, ?_, ?_, hqueue⟩
  · intro i p hq
    unfold Intends at hq ⊢
    rw [hsends] at hq
    exact Or.inl hq
  · refine fun p hq => Or.inl (hq.of_frames (fun s l hl => ⟨s, l, hflight ▸ hl, rfl⟩) ?_ ?_)
    · exact fun j q b hj => sending_holds (hsends ▸ hj)
    · exact fun q b rest hr => resending_holds (htimeout ▸ hr)
  · intro i p pl h
    cases hone _ h
  · intro d b h
    refine Or.inr ⟨remote, buffer, bytes, now, fault, rfl, ?_, fun hr => ?_⟩
    · exact (Observation.transmitted.inj (hone _ h)).2
    · exact hack hr (List.ne_nil_of_mem h)
  · intro s h
    cases hone _ h

/-! ## Retransmission -/

/-- `timeout_loop` resends what is in flight. -/
theorem lookup_of_resendFrame {flight : InFlight} {p : Packet} {b : Bool} {rest : List UInt32} :
    ∀ {timedOut : List UInt32}, resendFrame flight timedOut = .resending p b rest →
      ∃ sequence l, flight.lookup sequence = some l ∧ l.packet = p
  | [], h => by cases h
  | sequence :: _, h => by
      unfold resendFrame at h
      split at h
      · exact lookup_of_resendFrame h
      · rename_i l hl
        exact ⟨sequence, l, hl, (TimeoutFrame.resending.inj h).1⟩

theorem effect_transmitResend {t : ProtoHopZ P} {e : Event P} {packet : Packet}
    {rest : List UInt32} (hloop : t.timeoutLoop = .resending packet false rest) :
    Effect t e { t with timeoutLoop := .resending packet true rest }
      [.transmitted t.peerEndpoint packet.datagram] := by
  refine ⟨fun _ => ⟨rfl, rfl, rfl⟩, fun _ p hp => Or.inl hp, ?_, Or.inl ⟨by simp, Or.inl rfl⟩,
    ?_, by simp, .same⟩
  · refine fun p hp => Or.inl (hp.of_frames (fun s l hl => ⟨s, l, hl, rfl⟩)
      (fun j q b hj => sending_holds hj) fun q b rest' hr' => ?_)
    exact (TimeoutFrame.resending.inj hr').1 ▸ resending_holds hloop
  · intro d b h
    refine Or.inl ⟨packet, resending_holds hloop, ?_⟩
    exact (Observation.transmitted.inj (List.mem_singleton.mp h)).2

/-- Touching a packet leaves it the same packet. -/
theorem lookup_touch {t : ProtoHopZ P} {sequence key : UInt32} {now : Nat} {l : PacketLocal}
    (h : (t.touch sequence now).inFlight.lookup key = some l) :
    ∃ l', t.inFlight.lookup key = some l' ∧ l'.packet = l.packet := by
  unfold touch at h
  split at h
  · exact ⟨l, h, rfl⟩
  · rename_i l' hl'
    rcases FiniteMap.lookup_insert_cases h with ⟨rfl, rfl⟩ | ⟨-, h⟩
    · exact ⟨l', hl', rfl⟩
    · exact ⟨l, h, rfl⟩

/-- `resend_packet` keeps the keys of `in_flight_`. -/
theorem keys_touch (sequence : UInt32) (now : Nat) (t : ProtoHopZ P) :
    (t.touch sequence now).inFlight.keys = t.inFlight.keys := by
  unfold touch
  split
  · rfl
  · rename_i l hl
    rw [FiniteMap.keys_insert, Finset.insert_eq_self, Finmap.mem_keys]
    exact Finmap.mem_of_lookup_eq_some hl

theorem effect_resent {t : ProtoHopZ P} {e : Event P} (sequence : UInt32) (now : Nat)
    (rest : List UInt32) : Effect t e
      { t with
        inFlight := (t.touch sequence now).inFlight
        timeoutLoop := resendFrame (t.touch sequence now).inFlight rest } [] := by
  refine ⟨fun _ => ⟨rfl, rfl, rfl⟩, fun _ p hp => Or.inl hp, fun p hp => Or.inl ?_,
    Or.inl ⟨by simp, Or.inl rfl⟩, by simp, by simp, .same⟩
  refine hp.of_frames (fun s l hl => ⟨s, lookup_touch hl⟩) (fun j q b hj => sending_holds hj) ?_
  intro q b rest' hr
  obtain ⟨s, l, hl, rfl⟩ := lookup_of_resendFrame hr
  obtain ⟨l', hl', hpacket⟩ := lookup_touch hl
  exact Or.inl ⟨s, l', hl', hpacket⟩

/-! ## The handshake -/

/-- A step of the handshake shows no packet, and sends at most its own key. -/
theorem effect_handshake {t t' : ProtoHopZ P} {e : Event P} {out : List Observation}
    (he : e.handshakes = true)
    (hsends : t'.sends = t.sends ∨
      ∃ i, t'.sends = Function.update t.sends i (.posted t'.selfHandshakePacket) ∧
        ∃ role, t'.handshake = .sending role i)
    (hframes : t'.inFlight = t.inFlight ∧ t'.timeoutLoop = t.timeoutLoop ∧
      t'.sequenceCounter = t.sequenceCounter)
    (hout : ∀ o ∈ out, (∃ p, o = .consumed p) ∨ (∃ k, o = .installed k) ∨
      ∃ ec, o = .handshakeReturned ec)
    (hqueue : QueueStep t.connectionEncrypted t.cryptoContext e t.receivedPacketsQueue
      t.receivedPackets t'.receivedPacketsQueue t'.receivedPackets) : Effect t e t' out := by
  obtain ⟨hflight, htimeout, hcounter⟩ := hframes
  refine ⟨fun h => ?_, ?_, ?_, Or.inl ⟨fun i p pl h => ?_, Or.inl hcounter⟩, fun d b h => ?_,
    fun s h => ?_, hqueue⟩
  · rw [he] at h
    cases h
  · intro j p hp
    unfold Intends at hp
    rcases hsends with hsends | ⟨i, hsends, hframe⟩
    · rw [hsends] at hp
      exact Or.inl hp
    · rw [hsends] at hp
      by_cases hji : j = i
      · subst hji
        rw [Function.update_self] at hp
        rcases hp with hp | hp
        · exact Or.inr (Or.inr ⟨he, (SendFrame.posted.inj hp).symm, hframe⟩)
        · cases hp
      · exact Or.inl (by rwa [Function.update_of_ne hji] at hp)
  · refine fun p hp => Or.inl (hp.of_frames (fun s l hl => ⟨s, l, hflight ▸ hl, rfl⟩) ?_ ?_)
    · intro j q b hj
      rcases hsends with hsends | ⟨i, hsends, -⟩
      · exact sending_holds (hsends ▸ hj)
      · rw [hsends] at hj
        exact holds_update (by simp) hj
    · exact fun q b rest hr => resending_holds (htimeout ▸ hr)
  all_goals rcases hout _ h with ⟨p, ho⟩ | ⟨k, ho⟩ | ⟨ec, ho⟩ <;> cases ho

theorem effect_shakes {t t' : ProtoHopZ P} {e : Event P} {out : List Observation}
    (he : e.handshakes = true) (h : Shakes t t' out) : Effect t e t' out := by
  cases h with
  | failed | sentResponder =>
      exact effect_handshake he (Or.inl rfl) ⟨rfl, rfl, rfl⟩ (by simp) .same
  | begunInitiator generated i =>
      exact effect_handshake he (Or.inr ⟨i, rfl, _, rfl⟩) ⟨rfl, rfl, rfl⟩ (by simp) .same
  | begunResponder | sentInitiator =>
      exact effect_handshake he (Or.inl rfl) ⟨rfl, rfl, rfl⟩ (by simp) (.pop .handshake (Or.inl he))
  | interrupted _ _ _ _ _ htake | rejected _ _ _ _ _ _ htake
  | installedInitiator _ _ _ _ _ htake =>
      exact effect_handshake he (Or.inl rfl) ⟨rfl, rfl, rfl⟩ (by simp)
        (.take .handshake (Or.inl he) htake)
  | installedResponder i _ _ _ _ _ htake =>
      exact effect_handshake he (Or.inr ⟨i, rfl, _, rfl⟩) ⟨rfl, rfl, rfl⟩ (by simp)
        (.take .handshake (Or.inl he) htake)

/-! ## Every step -/

theorem effect_handleLoopResult {t : ProtoHopZ P} {receiveLoop : LoopFrame}
    {timeoutLoop : TimeoutFrame} (hframe : ∀ p b rest, timeoutLoop = .resending p b rest → t.Holds p)
    {ec : Option Error} {e : Event P}
    (he : e = .receiveLoopResult ∨ e = .timeoutLoopResult ∨ e = .resumeStop) :
    Effect t e ({ t with receiveLoop := receiveLoop, timeoutLoop := timeoutLoop }.handleLoopResult
      ec) [] := by
  unfold handleLoopResult
  split_ifs
  · exact .of_quiet (fun _ => ⟨rfl, rfl, rfl⟩) rfl rfl hframe (Or.inl rfl) .same
  unfold storeLoopError
  split
  · exact .of_quiet (fun _ => ⟨rfl, rfl, rfl⟩) rfl rfl hframe (Or.inr rfl)
      (.ended _ he (Or.inl rfl))
  · exact .of_quiet (fun _ => ⟨rfl, rfl, rfl⟩) rfl rfl hframe (Or.inl rfl) .same

/-- **What a step can do.** -/
theorem effect_step {t t' : ProtoHopZ P} {e : Event P} {out : List Observation}
    (hs : t.step e = some (t', out)) : Effect t e t' out := by
  have hquiet : ∀ t' : ProtoHopZ P, (t'.cryptoContext = t.cryptoContext ∧
      t'.connectionEncrypted = t.connectionEncrypted ∧ t'.handshake = t.handshake) →
      t'.sends = t.sends → t'.inFlight = t.inFlight →
      (∀ p b rest, t'.timeoutLoop = .resending p b rest → t.Holds p) →
      t'.sequenceCounter = t.sequenceCounter →
      QueueStep t.connectionEncrypted t.cryptoContext e t.receivedPacketsQueue t.receivedPackets
        t'.receivedPacketsQueue t'.receivedPackets → Effect t e t' [] :=
    fun t' hkeys hsends hflight htimeout hcounter hqueue =>
      .of_quiet (fun _ => hkeys) hsends hflight htimeout (Or.inl hcounter) hqueue
  cases step_cases hs with
  | sendPacket i source hfresh =>
      refine ⟨fun _ => ⟨rfl, rfl, rfl⟩, ?_, ?_, Or.inl ⟨by simp, Or.inl rfl⟩, by simp, by simp,
        .same⟩
      · intro j p hp
        unfold Intends callSendPacket at hp
        dsimp only at hp
        by_cases hji : j = i
        · subst hji
          rw [Function.update_self] at hp
          rcases hp with hp | hp
          · exact Or.inr (Or.inl (SendFrame.posted.inj hp ▸ rfl))
          · cases hp
        · exact Or.inl (by rwa [Function.update_of_ne hji] at hp)
      · exact fun p hp => Or.inl (hp.of_frames (fun s l hl => ⟨s, l, hl, rfl⟩)
          (fun j q b hj => holds_update (by simp) hj) fun q b rest hr => resending_holds hr)
  | refused | sent =>
      exact effect_sendFrame ⟨rfl, rfl, rfl⟩ rfl (by simp) (by simp) (fun _ _ h => h) rfl
        (Or.inl rfl) (by simp) rfl rfl
  | delayed i source _ _ _ _ hcall =>
      refine effect_sendFrame ⟨rfl, rfl, rfl⟩ rfl ?_ (by simp) (fun _ _ h => h) rfl
        (Or.inl rfl) (by simp) rfl rfl
      rintro p (hf | hf)
      · cases hf
      · exact SendFrame.waiting.inj hf ▸ hcall.intends
  | unencrypted =>
      exact effect_sendFrame ⟨rfl, rfl, rfl⟩ rfl (by simp) (by simp) (fun _ _ h => h) rfl
        (Or.inr rfl) (by simp) rfl rfl
  | registered _ _ _ _ _ _ _ hcall _ _ hencrypt => exact effect_registered hcall.intends hencrypt
  | transmitSend i packet hframe =>
      refine effect_sendFrame ⟨rfl, rfl, rfl⟩ rfl (by simp) ?_ (fun _ _ h => h) rfl (Or.inl rfl) ?_
        rfl rfl
      · intro p b hp
        exact (SendFrame.sending.inj hp).1 ▸ sending_holds hframe
      · intro o ho
        exact Or.inr (Or.inr ⟨_, packet, sending_holds hframe, List.mem_singleton.mp ho⟩)
  | unsent i packet ec => exact effect_unsent i packet ec
  | acked remote buffer bytes now fault _ _ htype =>
      exact effect_acked remote buffer bytes now fault htype
  | unread | tooLarge =>
      exact effect_received (Or.inl rfl) ⟨rfl, rfl, rfl⟩ ⟨rfl, rfl, rfl⟩ rfl
        (fun _ h => absurd rfl h) .same
  | repeated _ _ _ _ _ _ _ _ hmem =>
      exact effect_received (Or.inr rfl) ⟨rfl, rfl, rfl⟩ ⟨rfl, rfl, rfl⟩ rfl (fun _ _ => hmem) .same
  | undecrypted =>
      exact effect_received (Or.inr rfl) ⟨rfl, rfl, rfl⟩ ⟨rfl, rfl, rfl⟩ rfl (fun h => by cases h)
        .same
  | accepted remote buffer bytes now fault r _ _ hsize hsequence hnew haccepts =>
      refine effect_received (Or.inr rfl) ⟨rfl, rfl, rfl⟩ ⟨rfl, rfl, rfl⟩ rfl (fun _ _ => ?_) ?_
      · exact hsequence ▸ Finset.mem_insert_self _ _
      · exact .accept rfl hsize (hsequence ▸ hnew) haccepts
  | receiveLoopResult =>
      exact effect_handleLoopResult (fun _ _ _ h => resending_holds h) (Or.inl rfl)
  | timeoutLoopResult => exact effect_handleLoopResult (by simp) (Or.inr (Or.inl rfl))
  | timedOut =>
      refine hquiet _ ⟨rfl, rfl, rfl⟩ rfl rfl (fun p b rest hr => ?_) rfl .same
      obtain ⟨sequence, l, hl, hp⟩ := lookup_of_resendFrame hr
      exact Or.inl ⟨sequence, l, hl, hp⟩
  | transmitResend _ _ hloop => exact effect_transmitResend hloop
  | resent => exact effect_resent _ _ _
  | timer ec =>
      refine hquiet _ ⟨rfl, rfl, rfl⟩ rfl rfl (fun p b rest hr => ?_) rfl .same
      dsimp only at hr
      split_ifs at hr
  | idled | checked | unresent | startLoops =>
      exact hquiet _ ⟨rfl, rfl, rfl⟩ rfl rfl (by simp [startLoops]) rfl .same
  | ignored | receiveError | drain | resumeDrain | stop =>
      exact hquiet _ ⟨rfl, rfl, rfl⟩ rfl rfl (fun _ _ _ h => resending_holds h) rfl .same
  | takePacket r queue htake =>
      exact hquiet _ ⟨rfl, rfl, rfl⟩ rfl rfl (fun _ _ _ h => resending_holds h) rfl
        (.take .chunks (Or.inr rfl) htake)
  | awaitPacket =>
      exact hquiet _ ⟨rfl, rfl, rfl⟩ rfl rfl (fun _ _ _ h => resending_holds h) rfl
        (.pop .chunks (Or.inr rfl))
  | cancelPacket =>
      exact hquiet _ ⟨rfl, rfl, rfl⟩ rfl rfl (fun _ _ _ h => resending_holds h) rfl (.cancel rfl)
  | shakes _ _ _ he h => exact effect_shakes he h
  | resumeStop =>
      refine ⟨fun _ => ⟨rfl, rfl, rfl⟩, fun _ p hp => Or.inl hp, ?_,
        Or.inl ⟨by simp, Or.inr rfl⟩, by simp, by simp,
        .ended _ (Or.inr (Or.inr rfl)) (Or.inr ⟨rfl, rfl⟩)⟩
      exact fun p hp => Or.inl (hp.of_frames (fun s l hl => by cases hl)
        (fun j q b hj => sending_holds hj) fun q b rest hr => resending_holds hr)

end ProtoHopZ
end FileHopZ

import FileHopZ.Protohopz.Agreement
import FileHopZ.Protohopz.Closing
import FileHopZ.Protohopz.Delivery

/-! # What a side puts on the network, from its construction on

A side is followed from its constructor, whatever arrives at it.  It gives the socket the
packets it has registered, and acknowledgements.  A registered packet is the `HANDSHAKE`
packet, with the own public key and not encrypted, or `DATA`: then the handshake has returned
before, and the packet is encrypted under the key that the handshake has left.

That `DATA` is never sent before is not checked where packets are sent: `send_packet` encrypts
if `connection_encrypted_` is set, and would send the packet as it is otherwise.  It holds
because `send` waits for `start_loops`.
-/
namespace FileHopZ

namespace ProtoHopZ
variable {P : Primitives}

/-- The own `HANDSHAKE` packet has been sent, as far as the frames tell. -/
def Greeted (t : ProtoHopZ P) : Prop :=
  t.connectionEncrypted = true ∨ t.handshake = .receiving .initiator ∨
    ∃ i, t.sends i = .returned none

theorem Greeted.of_same {t t' : ProtoHopZ P} (h : t'.Greeted)
    (hencrypted : t'.connectionEncrypted = t.connectionEncrypted)
    (hframe : t'.handshake = t.handshake)
    (hsends : ∀ i, t'.sends i = .returned none → t.sends i = .returned none) : t.Greeted := by
  rcases h with h | h | ⟨i, hi⟩
  · exact Or.inl (hencrypted ▸ h)
  · exact Or.inr (Or.inl (hframe ▸ h))
  · exact Or.inr (Or.inr ⟨i, hsends i hi⟩)

/-- A call whose frame is replaced by one that has not returned. -/
theorem returned_of_update {t : ProtoHopZ P} {i j : Nat} {f : SendFrame}
    (hf : f ≠ .returned none) (hj : Function.update t.sends i f j = .returned none) :
    t.sends j = .returned none := by
  by_cases hji : j = i
  · subst hji
    rw [Function.update_self] at hj
    exact absurd hj hf
  · rwa [Function.update_of_ne hji] at hj

/-- A handshake goes on after its own packet only when that has been sent. -/
theorem Shakes.greeted {t t' : ProtoHopZ P} {out : List Observation} (h : Shakes t t' out)
    (hgreeted : t'.Greeted) : t.Greeted := by
  cases h with
  | failed | interrupted | rejected =>
      rcases hgreeted with h | h | h
      · exact Or.inl h
      · cases h
      · exact Or.inr (Or.inr h)
  | begunResponder =>
      rcases hgreeted with h | h | h
      · exact Or.inl h
      · cases h
      · exact Or.inr (Or.inr h)
  | begunInitiator =>
      rcases hgreeted with h | h | ⟨j, hj⟩
      · exact Or.inl h
      · cases h
      · exact Or.inr (Or.inr ⟨j, returned_of_update (by simp) hj⟩)
  | installedResponder =>
      rcases hgreeted with h | h | ⟨j, hj⟩
      · exact Or.inl h
      · cases h
      · exact Or.inr (Or.inr ⟨j, returned_of_update (by simp) hj⟩)
  | sentInitiator i _ hsent | sentResponder i _ hsent => exact Or.inr (Or.inr ⟨i, hsent⟩)
  | installedInitiator _ _ _ _ hframe => exact Or.inr (Or.inl hframe)

theorem sends_handleLoopResult (t : ProtoHopZ P) (ec : Option Error) :
    (t.handleLoopResult ec).sends = t.sends := by
  unfold handleLoopResult storeLoopError
  split_ifs
  · rfl
  · split
    · rfl
    · rfl

/-- Encryption keeps the type of a packet and the number it has got. -/
theorem header_encryptPacket {t : ProtoHopZ P} {fault : Option ErrorCode} {nonce : Nonce}
    {source packet : Packet} {sequence : UInt32}
    (h : t.encryptPacket fault nonce (source.withSequence sequence) = .ok packet) :
    packet.header.type = source.header.type ∧ packet.header.sequence = sequence := by
  unfold encryptPacket at h
  split_ifs at h
  · obtain rfl := Except.ok.inj h
    exact ⟨rfl, rfl⟩
  · split at h
    · cases h
    · split_ifs at h
      obtain rfl := Except.ok.inj h
      exact ⟨rfl, rfl⟩

/-- A call of `send_packet` returns without an error only after it has registered its packet. -/
theorem greeted_step {t t' : ProtoHopZ P} {e : Event P} {out : List Observation}
    (hs : t.step e = some (t', out)) (h : t'.Greeted) : t.Greeted ∨ ∃ p, t.Holds p := by
  cases step_cases hs with
  | sent i packet hframe => exact Or.inr ⟨packet, sending_holds hframe⟩
  | shakes _ _ _ _ hshakes => exact Or.inl (hshakes.greeted h)
  | sendPacket | refused | delayed | unencrypted | registered | transmitSend =>
      exact Or.inl (h.of_same rfl rfl fun i => returned_of_update (by simp))
  | unsent =>
      rw [signalIfDrained_eq] at h
      exact Or.inl (h.of_same rfl rfl fun i => returned_of_update (by simp))
  | acked =>
      rw [signalIfDrained_eq] at h
      exact Or.inl (h.of_same rfl rfl fun _ => id)
  | receiveLoopResult | timeoutLoopResult =>
      obtain ⟨-, hencrypted, hframe⟩ := (effect_step hs).keys rfl
      refine Or.inl (h.of_same hencrypted hframe fun i hi => ?_)
      rwa [sends_handleLoopResult] at hi
  | _ => exact Or.inl (h.of_same rfl rfl fun _ => id)

end ProtoHopZ

namespace ProtoStream
variable {P : Primitives}

/-- A packet that a call is to send is that of a call of `send`, or the handshake's. -/
theorem intends_step {s s' : ProtoStream P} {e : Event P} {out : List Observation}
    (hs : s.step e = some (s', out)) {i : Nat} {p : Packet} (hi : s'.transport.Intends i p) :
    s.transport.Intends i p ∨ p.header.type = .handshake ∨
      s.loopsRunning = true ∧ ∃ data, e = .send i data ∧ p = dataPacket data := by
  cases step_cases hs with
  | send j data hrunning =>
      by_cases hij : i = j
      · subst hij
        unfold ProtoHopZ.Intends ProtoHopZ.callSendPacket at hi
        simp only [Function.update_self, SendFrame.posted.injEq, reduceCtorEq, or_false] at hi
        exact Or.inr (Or.inr ⟨hrunning, data, rfl, hi.symm⟩)
      · unfold ProtoHopZ.Intends ProtoHopZ.callSendPacket at hi
        simp only [Function.update_of_ne hij] at hi
        exact Or.inl hi
  | transport e t' shown hinternal hstep =>
      rcases (ProtoHopZ.effect_step hstep).intends i p hi with hold | rfl | ⟨-, rfl, -⟩
      · exact Or.inl hold
      · cases hinternal
      · exact Or.inr (Or.inl rfl)
  | callStartLoops now fault generated j _ _ hframe hfresh =>
      have hstep := @step_startHandshake P (s.transport.startLoops now) s.handshakeMode fault
        generated j hframe hfresh
      rcases (ProtoHopZ.effect_step hstep).intends i p hi with hold | hnot | ⟨-, rfl, -⟩
      · exact Or.inl hold
      · cases hnot
      · exact Or.inr (Or.inl rfl)
  | _ => exact Or.inl hi

theorem greeted_step {s s' : ProtoStream P} {e : Event P} {out : List Observation}
    (hs : s.step e = some (s', out)) (h : s'.transport.Greeted) :
    s.transport.Greeted ∨ ∃ p, s.transport.Holds p := by
  cases step_cases hs with
  | transport e t' shown hinternal hstep => exact ProtoHopZ.greeted_step hstep h
  | callStartLoops now _ _ _ _ _ hframe hfresh =>
      exact Or.inl ((ProtoHopZ.shakes_startHandshake (t := s.transport.startLoops now) hframe
        hfresh).greeted h)
  | send => exact Or.inl (h.of_same rfl rfl fun i => ProtoHopZ.returned_of_update (by simp))
  | _ => exact Or.inl (h.of_same rfl rfl fun _ => id)

/-- A stream that runs has started `receive_chunks_loop`. -/
theorem running_step {s s' : ProtoStream P} {e : Event P} {out : List Observation}
    (hs : s.step e = some (s', out))
    (h : s.loopsRunning = true → s.receiveChunksLoop ≠ .idle) (hrunning : s'.loopsRunning = true) :
    s'.receiveChunksLoop ≠ .idle := by
  cases step_cases hs with
  | started | lastChunk | interrupted | aborted | ended => simp [awaitPacket]
  | stored => cases hrunning
  | resumeClose => cases hrunning
  | _ => exact h hrunning

end ProtoStream

namespace Session
variable {P : Primitives}
open ProtoStream

/-- What a side has registered and sent since it was constructed. -/
structure Supplies (registered : List (Packet × Bytes)) (air : List (Endpoint × Bytes))
    (s : ProtoStream P) : Prop where
  single : Single s
  running : s.loopsRunning = true → s.receiveChunksLoop ≠ .idle
  announcing : Announcing air s.transport
  intends : ∀ i p, s.transport.Intends i p → p.header.type = .data →
    s.transport.connectionEncrypted = true
  tame : ∀ r ∈ registered, ProtoHopZ.Tame s.transport.cryptoContext r.1
  sealed : ∀ r ∈ registered, r.1.header.type = .data →
    s.transport.connectionEncrypted = true ∧ Sealed P s.transport.cryptoContext.encryptionKey r
  holds : ∀ p, s.transport.Holds p → ∃ plaintext, (p, plaintext) ∈ registered
  air : ∀ destination bytes, (destination, bytes) ∈ air →
    (∃ p plaintext, (p, plaintext) ∈ registered ∧ bytes = p.datagram) ∨
      ∃ sequence, bytes = (ProtoHopZ.ackPacket sequence).datagram
  greeted : s.transport.Greeted → registered ≠ []

theorem supplies_construct (peer : Endpoint) (mode : Role) :
    Supplies [] [] (ProtoStream.construct P peer mode) where
  single := single_construct peer mode
  running h := by cases h
  announcing := announcing_construct peer
  intends i p h := by rcases h with h | h <;> cases h
  tame r hr := absurd hr List.not_mem_nil
  sealed r hr := absurd hr List.not_mem_nil
  holds p h := by rcases h with ⟨s, l, h, -⟩ | ⟨i, b, h⟩ | ⟨b, rest, h⟩ <;> cases h
  air _ _ h := absurd h List.not_mem_nil
  greeted h := by
    rcases h with h | h | ⟨i, h⟩
    · cases h
    · cases h
    · cases h

section Step
variable {registered : List (Packet × Bytes)} {air : List (Endpoint × Bytes)}
  {s s' : ProtoStream P} {e : ProtoStream.Event P} {out : List ProtoStream.Observation}

/-- The own key pair stays. -/
theorem Announcing.kept (h : Announcing air s.transport) (hs : Moves s e s' out) :
    s.transport.cryptoContext.keyHandle = none ∨
      s'.transport.cryptoContext.keyHandle = s.transport.cryptoContext.keyHandle ∧
        s'.transport.cryptoContext.ownPublicKey = s.transport.cryptoContext.ownPublicKey := by
  cases hs with
  | chunk he r queue queue' htake hqueue htransport hout =>
      rw [htransport]
      exact Or.inr ⟨rfl, rfl⟩
  | transport e' shown heffect hdatagram hsend hhandshake hshakes hstop htake hexpected hbuffer hout =>
      cases hh : e'.handshakes with
      | false =>
          rw [(heffect.keys hh).1]
          exact Or.inr ⟨rfl, rfl⟩
      | true =>
          obtain ⟨t, ht, hstep, -⟩ := hshakes hh
          have hkept := (ProtoHopZ.shakes_step hh hstep).kept
          have hsame : t.cryptoContext = s.transport.cryptoContext ∧
              t.handshake = s.transport.handshake := by
            rcases ht with rfl | ⟨now, rfl⟩
            · exact ⟨rfl, rfl⟩
            · exact ⟨rfl, rfl⟩
          rw [hsame.1, hsame.2] at hkept
          exact hkept.imp_left h.greets.idle

/-- Once a connection is encrypted it stays so, under its key. -/
theorem Announcing.encrypted (h : Announcing air s.transport) (hs : Moves s e s' out)
    (hencrypted : s.transport.connectionEncrypted = true) :
    s'.transport.connectionEncrypted = true ∧
      s'.transport.cryptoContext = s.transport.cryptoContext := by
  cases hs with
  | chunk he r queue queue' htake hqueue htransport hout =>
      rw [htransport]
      exact ⟨hencrypted, rfl⟩
  | transport e' shown heffect hdatagram hsend hhandshake hshakes hstop htake hexpected hbuffer hout =>
      cases hh : e'.handshakes with
      | true => exact absurd (h.greets.encrypted.mp hencrypted) (hhandshake hh none)
      | false =>
          obtain ⟨hcontext, hkept, -⟩ := heffect.keys hh
          exact ⟨hkept ▸ hencrypted, hcontext⟩

/-- A stream that runs encrypts. -/
theorem Supplies.encrypted (h : Supplies registered air s) (hrunning : s.loopsRunning = true) :
    s.transport.connectionEncrypted = true :=
  h.announcing.greets.encrypted.mpr (h.single.spawned (h.running hrunning)).1

/-- What a step registers: at most one packet, under the number drawn for it. -/
theorem Supplies.registers (h : Supplies registered air s) (hs : Moves s e s' out) :
    registrations out = [] ∨ ∃ r, registrations out = [r] ∧
      ProtoHopZ.Tame s.transport.cryptoContext r.1 ∧
      (r.1.header.type = .data → s.transport.connectionEncrypted = true ∧
        Sealed P s.transport.cryptoContext.encryptionKey r) ∧
      number r = s.transport.sequenceCounter.toNat ∧
      s'.transport.sequenceCounter = s.transport.sequenceCounter + 1 := by
  cases hs with
  | chunk he r queue queue' htake hqueue htransport hout =>
      rcases hout with ⟨-, rfl, -⟩ | ⟨-, rfl, -⟩
      · exact Or.inl rfl
      · exact Or.inl (registrations_chunks _)
  | transport e' shown heffect hdatagram hsend hhandshake hshakes hstop htake hexpected hbuffer hout =>
      rcases hout with rfl | ⟨-, hquiet⟩
      swap
      · exact Or.inl (registrations_quiet hquiet)
      rcases heffect.registers with ⟨hnone, -⟩ | ⟨i, source, fault, nonce, packet, hsource, hpacket,
        rfl, hcounter⟩
      · refine Or.inl (List.eq_nil_iff_forall_not_mem.mpr fun r hr => ?_)
        obtain ⟨i, hi⟩ := mem_registrations.mp hr
        simp only [List.mem_map, Observation.transport.injEq, exists_eq_right] at hi
        exact hnone _ _ _ hi
      · obtain ⟨htype, hsequence⟩ := ProtoHopZ.header_encryptPacket hpacket
        refine Or.inr ⟨(packet, source.data), rfl, ?_, fun hdata => ?_,
          congrArg UInt32.toNat hsequence, hcounter⟩
        · exact ProtoHopZ.tame_encryptPacket (h.announcing.intends i source hsource)
            (fun hhello => h.announcing.greets.plain hsource hhello) hpacket
        · have hencrypted := h.intends i source hsource (htype.symm.trans hdata)
          have hkey : Keyed s.transport.cryptoContext.encryptionKey s.transport :=
            ⟨hencrypted, rfl, none, h.announcing.greets.encrypted.mp hencrypted⟩
          exact ⟨hencrypted, (sealed_of_encryptPacket hkey (htype.symm.trans hdata) hpacket).1⟩

/-- **The step lemma of what a side supplies.**  Nothing is assumed of what arrives. -/
theorem Supplies.step (h : Supplies registered air s) (hs : s.step e = some (s', out)) :
    Supplies (registered ++ registrations out) (air ++ emitted out) s' := by
  have hmoves := moves_step hs
  have hkept := h.announcing.kept hmoves
  have hnew := h.registers hmoves
  have hmono : registered ≠ [] → registered ++ registrations out ≠ [] := fun hne hnil =>
    hne (List.append_eq_nil_iff.mp hnil).1
  refine ⟨(single_step h.single hs).1, running_step hs h.running, h.announcing.step hmoves, ?_, ?_,
    ?_, ?_, ?_, fun hgreeted => ?_⟩
  · intro i p hi hdata
    rcases intends_step hs hi with hold | hhello | ⟨hrunning, -⟩
    · exact (h.announcing.encrypted hmoves (h.intends i p hold hdata)).1
    · rw [hdata] at hhello
      cases hhello
    · exact (h.announcing.encrypted hmoves (h.encrypted hrunning)).1
  · intro r hr
    rcases List.mem_append.mp hr with hr | hr
    · exact (h.tame r hr).congr hkept
    · rcases hnew with hnone | ⟨r', hone, htame, -⟩
      · rw [hnone] at hr
        cases hr
      · rw [hone, List.mem_singleton] at hr
        exact hr ▸ htame.congr hkept
  · -- what was sealed before was sealed under the key there is now
    have hsealed : ∀ r ∈ registered ++ registrations out, r.1.header.type = .data →
        s.transport.connectionEncrypted = true ∧
          Sealed P s.transport.cryptoContext.encryptionKey r := by
      intro r hr
      rcases List.mem_append.mp hr with hr | hr
      · exact h.sealed r hr
      · rcases hnew with hnone | ⟨r', hone, -, hseal, -⟩
        · rw [hnone] at hr
          cases hr
        · rw [hone, List.mem_singleton] at hr
          exact hr ▸ hseal
    intro r hr hdata
    obtain ⟨hencrypted, hseal⟩ := hsealed r hr hdata
    obtain ⟨hstill, hcontext⟩ := h.announcing.encrypted hmoves hencrypted
    exact ⟨hstill, hcontext ▸ hseal⟩
  · intro p hp
    cases hmoves with
    | chunk he r queue queue' htake hqueue htransport hout =>
        rw [htransport] at hp
        obtain ⟨plaintext, hmem⟩ := h.holds p hp
        exact ⟨plaintext, List.mem_append_left _ hmem⟩
    | transport e' shown heffect hdatagram hsend hhandshake hshakes hstop htake hexpected hbuffer
        hout =>
        rcases heffect.holds p hp with hold | ⟨i, plaintext, hi⟩
        · obtain ⟨plaintext, hmem⟩ := h.holds p hold
          exact ⟨plaintext, List.mem_append_left _ hmem⟩
        · rcases hout with rfl | ⟨rfl, -⟩
          · exact ⟨plaintext, List.mem_append_right _
              (mem_registrations.mpr ⟨i, List.mem_map_of_mem hi⟩)⟩
          · cases hi
  · intro destination bytes hb
    rcases List.mem_append.mp hb with hb | hb
    · refine (h.air _ _ hb).imp_left ?_
      rintro ⟨p, plaintext, hmem, heq⟩
      exact ⟨p, plaintext, List.mem_append_left _ hmem, heq⟩
    · have hb := mem_emitted.mp hb
      cases hmoves with
      | chunk he r queue queue' htake hqueue htransport hout =>
          rcases hout with ⟨-, rfl, -⟩ | ⟨-, rfl, -⟩
          · cases hb
          · simp [Observation.chunk] at hb
      | transport e' shown heffect hdatagram hsend hhandshake hshakes hstop htake hexpected hbuffer
          hout =>
          rcases hout with rfl | ⟨-, hquiet⟩
          · simp only [List.mem_map, Observation.transport.injEq, exists_eq_right] at hb
            rcases heffect.transmits _ _ hb with ⟨p, hp, heq⟩ | ⟨_, buffer, _, _, _, -, heq, -⟩
            · obtain ⟨plaintext, hmem⟩ := h.holds p hp
              exact Or.inl ⟨p, plaintext, List.mem_append_left _ hmem, heq⟩
            · exact Or.inr ⟨_, heq⟩
          · cases hquiet _ hb
  · rcases greeted_step hs hgreeted with hbefore | ⟨p, hp⟩
    · exact hmono (h.greeted hbefore)
    · obtain ⟨plaintext, hmem⟩ := h.holds p hp
      exact hmono (List.ne_nil_of_mem hmem)

end Step

/-- The run lemma, for one stream on any network. -/
theorem supplies_run {peer : Endpoint} {mode : Role} {tr : List ProtoStream.Observation}
    {s : ProtoStream P}
    (hrun : Transition.Run ProtoStream.step Transition.Always (ProtoStream.construct P peer mode)
      tr s) : Supplies (registrations tr) (emitted tr) s :=
  hrun.invariant (I := fun tr s => Supplies (registrations tr) (emitted tr) s)
    (supplies_construct peer mode) fun _ _ _ _ _ ih _ hs => by
      rw [registrations_append, emitted_append]
      exact ih.step hs

/-- **No payload leaves unencrypted.**  Whatever arrives, fails or is scheduled: a datagram
that a stream has given to the socket is a registered `DATA` packet with the encryption of its
payload, under the key that the handshake has left and the stream still has; or its
`HANDSHAKE` packet with the public key of its pair; or an acknowledgement, which carries
nothing. -/
theorem sent_sealed {peer : Endpoint} {mode : Role} {tr : List ProtoStream.Observation}
    {s : ProtoStream P}
    (hrun : Transition.Run ProtoStream.step Transition.Always (ProtoStream.construct P peer mode)
      tr s) {destination : Endpoint} {bytes : Bytes}
    (hsent : .transport (.transmitted destination bytes) ∈ tr) :
    (∃ p plaintext nonce, bytes = p.datagram ∧ (p, plaintext) ∈ registrations tr ∧
        p.header.type = .data ∧ s.transport.handshake = .returned none ∧
        p.data = CryptoContext.frame P s.transport.cryptoContext.encryptionKey nonce plaintext) ∨
      (∃ (p : Packet) (k : P.PrivateKey), bytes = p.datagram ∧ p.header.type = .handshake ∧
        s.transport.cryptoContext.keyHandle = some k ∧ p.data = P.publicKey k) ∨
      ∃ sequence, bytes = (ProtoHopZ.ackPacket sequence).datagram := by
  have h := supplies_run hrun
  rcases h.air destination bytes (mem_emitted.mpr hsent) with ⟨p, plaintext, hmem, rfl⟩ | hack
  swap
  · exact Or.inr (Or.inr hack)
  rcases (h.tame _ hmem).2 with hdata | ⟨hhello, -, k, hk, hkey⟩
  · obtain ⟨hencrypted, -, -, nonce, hframe⟩ := h.sealed _ hmem hdata
    exact Or.inl ⟨p, plaintext, nonce, rfl, hmem, hdata,
      h.announcing.greets.encrypted.mp hencrypted, hframe⟩
  · exact Or.inr (Or.inl ⟨p, k, rfl, hhello, hk.1, hkey⟩)

/-- The datagram carries `DATA`. -/
def carriesData (bytes : Bytes) : Bool := decide ((PacketHeader.ofBytes bytes).type = .data)

/-- The datagrams of `DATA` in what was given to the socket. -/
def sentData (tr : List ProtoStream.Observation) : List (Endpoint × Bytes) :=
  (emitted tr).filter fun a => carriesData a.2

/-- A byte that is sent after the handshake. -/
theorem sent_sealed_byte : ∃ tr s destination bytes,
    Transition.Run ProtoStream.step Transition.Always
        (ProtoStream.construct .additive sampleRemote .initiator) tr s ∧
      .transport (.transmitted destination bytes) ∈ tr ∧ carriesData bytes = true ∧
      ∃ p plaintext nonce, bytes = Packet.datagram p ∧ (p, plaintext) ∈ registrations tr ∧
        p.data = CryptoContext.frame .additive s.transport.cryptoContext.encryptionKey nonce
          plaintext := by
  obtain ⟨tr, s, hrun, hp⟩ := Transition.exists_run ProtoStream.step Transition.Always
    (ProtoStream.construct .additive sampleRemote .initiator) sampleUndelivered
    (fun tr _ => !(sentData tr).isEmpty) (fun _ _ => true) (fun _ _ _ => trivial)
    (by decide +kernel)
  have hne : sentData tr ≠ [] := by simpa using hp
  obtain ⟨⟨destination, bytes⟩, hmem⟩ := List.exists_mem_of_ne_nil _ hne
  obtain ⟨hemitted, hdata⟩ := List.mem_filter.mp hmem
  have hsent := mem_emitted.mp hemitted
  refine ⟨tr, s, destination, bytes, hrun, hsent, hdata, ?_⟩
  rcases sent_sealed hrun hsent with ⟨p, plaintext, nonce, hb, hp, -, -, hframe⟩ |
    ⟨p, k, rfl, htype, -⟩ | ⟨sequence, rfl⟩
  · exact ⟨p, plaintext, nonce, hb, hp, hframe⟩
  · rw [carriesData, p.datagram_eq, PacketHeader.ofBytes_toBytes (by rw [htype]; rfl),
      decide_eq_true_iff, htype] at hdata
    cases hdata
  · rw [carriesData, (ProtoHopZ.ackPacket sequence).datagram_eq,
      PacketHeader.ofBytes_toBytes rfl] at hdata
    cases of_decide_eq_true hdata

end Session
end FileHopZ

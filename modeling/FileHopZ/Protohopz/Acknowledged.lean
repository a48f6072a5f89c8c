import FileHopZ.Protohopz.Exchange

/-! # What becomes of acknowledged packets

`receive_loop` acknowledges a packet before the stream has looked at it, and its
set of received numbers turns every resend away.  So a packet that
`receive_chunks_loop` drops is gone for good: the sender has taken it out of
`in_flight_`, and would not be heard if it had not.

The loop drops a packet for two reasons: its number lies beyond the window, and
the buffer is full when the expected packet comes.  As long as it does neither
(`Spares`), and no number is used twice (`NoWrap`), what is acknowledged is at the
peer: pushed, queued or buffered (`acknowledged_not_lost`).  But `in_flight_` bounds how many packets are
unacknowledged, not how far their numbers are apart, so one packet that is
delayed for long enough brings either about (`acknowledged_lost`).
-/
namespace FileHopZ

namespace Session
variable {P : Primitives}
open ProtoStream

/-- The loop does not drop the packet: it is not from beyond the window, and the
buffer is not full when it is taken. -/
def Keeps (s : ProtoStream P) (r : ReceivedPacket) : Prop :=
  ¬ s.expectedSequence + sequenceWindowSize < r.packet.header.sequence ∧
    (Takes s.expectedSequence s.packetsBuffer r → s.packetsBuffer.keys.card < maxPacketsBuffer)

/-- `receive_chunks_loop` drops no `DATA` packet. -/
def Spares (s : Session P) (e : Role × ProtoStream.Event P) : Prop :=
  ∀ r ∈ taken (s.stream e.1) e.2, r.packet.header.type = .data → Keeps (s.stream e.1) r

/-- The packet `sequence` has been pushed, is buffered or is queued. -/
def Arrived (s : ProtoStream P) (sequence : UInt32) : Prop :=
  sequence.toNat < s.expectedSequence.toNat ∨ sequence ∈ s.packetsBuffer ∨
    ∃ r ∈ s.transport.receivedPacketsQueue.contents,
      r.packet.header.type = .data ∧ r.packet.header.sequence = sequence

/-- The invariant: what a side acknowledges it has received, and what it has
received has arrived, but for the `HANDSHAKE` packet with number 0. -/
structure Keeping (key : Bytes) (tr : List (Role × ProtoStream.Observation)) (s : Session P) :
    Prop where
  delivering : Delivering key tr s
  acks : ∀ side destination bytes, (destination, bytes) ∈ s.air side → ∀ buffer : Packet,
    (buffer.receiveFrom bytes).header.type = .ack →
      (buffer.receiveFrom bytes).header.sequence = 0 ∨
        (buffer.receiveFrom bytes).header.sequence ∈ (s.stream side).transport.receivedPackets
  acked : ∀ side sequence, .transport (.acked sequence) ∈ shown side.peer tr →
    sequence = 0 ∨ sequence ∈ (s.stream side).transport.receivedPackets
  arrived : ∀ side, ∀ sequence ∈ (s.stream side).transport.receivedPackets,
    sequence = 0 ∨ Arrived (s.stream side) sequence

theorem type_ne_ack_of_sendable {key : Bytes} {registered : List (Packet × Bytes)} {p : Packet}
    (hsealed : ∀ r ∈ registered, Sealed P key r) (hp : Sendable registered p) :
    p.header.type ≠ .ack := by
  rcases hp with ⟨htype, -, -⟩ | ⟨plaintext, hmem⟩
  · rw [htype]
    simp
  · rw [show p.header.type = .data from (hsealed _ hmem).1]
    simp

theorem keeping_start {key : Bytes} {s : Session P} (h : Established key s) :
    Keeping key [] s where
  delivering := delivering_start h
  acks side d b hb buffer htype := by
    have hsealed : ∀ r ∈ ([] : List (Packet × Bytes)), Sealed P key r := by simp
    rcases h.air side d b hb with ⟨p, hp, rfl⟩ | rfl
    · rw [(receiveFrom_sendable hsealed hp buffer).1] at htype
      exact absurd htype (type_ne_ack_of_sendable hsealed hp)
    · exact Or.inl (by rw [receiveFrom_ack]; rfl)
  acked side sequence h := absurd h List.not_mem_nil
  arrived side sequence hmem := Or.inl (h.received side sequence hmem)

/-- What a side has received it remembers, until `stop_loops`. -/
theorem received_of_queueStep {encrypted : Bool} {context : CryptoContext P} {e : ProtoHopZ.Event P}
    {queue queue' : AsyncQueue Consumer ReceivedPacket} {received received' : Finset UInt32}
    (h : ProtoHopZ.QueueStep encrypted context e queue received queue' received')
    (hstop : e ≠ .resumeStop) : received ⊆ received' := by
  cases h with
  | same | pop | cancel | take => exact Finset.Subset.refl _
  | ended sequence _ hreceived =>
      rcases hreceived with rfl | ⟨he, -⟩
      · exact Finset.Subset.refl _
      · exact absurd he hstop
  | accept => exact Finset.subset_insert _ _

theorem received_of_moves {s s' : ProtoStream P} {e : ProtoStream.Event P}
    {out : List ProtoStream.Observation} (hs : Moves s e s' out) (hopen : s'.transport.stop = .idle) :
    s.transport.receivedPackets ⊆ s'.transport.receivedPackets := by
  cases hs with
  | transport e' shown heffect hdatagram hsend hhandshake hshakes hstop htake hexpected hbuffer hout =>
      refine received_of_queueStep heffect.queue fun he => ?_
      rw [hstop he] at hopen
      cases hopen
  | chunk he r queue queue' htake hqueue htransport hout =>
      rw [htransport]

/-- What is queued stays queued until someone takes it. -/
theorem contents_of_queueStep {encrypted : Bool} {context : CryptoContext P} {e : ProtoHopZ.Event P}
    {queue queue' : AsyncQueue Consumer ReceivedPacket} {received received' : Finset UInt32}
    (h : ProtoHopZ.QueueStep encrypted context e queue received queue' received')
    (hhandshakes : e.handshakes = false) (htake : e ≠ .takePacket) {r : ReceivedPacket}
    (hr : r ∈ queue.contents) : r ∈ queue'.contents := by
  cases h with
  | same | cancel => exact hr
  | pop => rwa [AsyncQueue.contents_pop]
  | take consumer he =>
      rcases he with he | he
      · rw [hhandshakes] at he
        cases he
      · exact absurd he htake
  | ended | accept => exact (AsyncQueue.mem_contents_push _ _ _).mpr (Or.inr hr)

/-- The packets pushed carry numbers below the next one. -/
theorem lt_next_of_pushed {expected : UInt32} {buffer : PacketsBuffer} {r q : ReceivedPacket}
    (h : InOrder expected buffer) (hq : q ∈ (receiveChunk expected buffer r).1) :
    q.packet.header.sequence.toNat < (receiveChunk expected buffer r).2.1.toNat := by
  have hspec := receiveChunk_spec h r
  have hmem := List.mem_map_of_mem (f := (·.packet.header.sequence.toNat)) hq
  rw [hspec.numbers] at hmem
  rw [hspec.next]
  exact (List.mem_range'_1.mp hmem).2

/-- **Nothing is dropped** by a step that spares its packet: what has arrived stays
where it is pushed from, or is pushed. -/
theorem arrived_of_moves {key : Bytes} {s s' : ProtoStream P} {e : ProtoStream.Event P}
    {out : List ProtoStream.Observation} (hkeyed : Keyed key s.transport)
    (hinOrder : InOrder s.expectedSequence s.packetsBuffer)
    (herror : s.transport.loopError = none) (hs : Moves s e s' out)
    (hspares : ∀ r ∈ taken s e, r.packet.header.type = .data → Keeps s r) {sequence : UInt32}
    (h : Arrived s sequence) : Arrived s' sequence := by
  cases hs with
  | transport e' shown heffect hdatagram hsend hhandshake hshakes hstop htake hexpected hbuffer hout =>
      have hno : e'.handshakes = false := by
        obtain ⟨ec, hec⟩ := hkeyed.shaken
        by_contra hyes
        exact hhandshake (by simpa using hyes) ec hec
      rcases h with hlow | hmem | ⟨r, hr, hdata⟩
      · exact Or.inl (hexpected ▸ hlow)
      · exact Or.inr (Or.inl (hbuffer ▸ hmem))
      · exact Or.inr (Or.inr ⟨r, contents_of_queueStep heffect.queue hno htake hr, hdata⟩)
  | chunk he r queue queue' htake hqueue htransport hout =>
      rcases hout with ⟨hfailed, -⟩ | ⟨-, -, hexpected, hbuffer⟩
      · exact absurd herror hfailed
      have htaken : r ∈ taken s e := by
        subst he
        exact congrArg (Option.map Prod.fst) htake
      have hspec := receiveChunk_spec hinOrder r
      have hpushed : ∀ q, q.packet.header.sequence = sequence →
          q ∈ (receiveChunk s.expectedSequence s.packetsBuffer r).1 → Arrived s' sequence := by
        rintro q rfl hq
        refine Or.inl ?_
        rw [hexpected]
        exact lt_next_of_pushed hinOrder hq
      -- `r` is taken: it goes into the buffer, unless it is pushed at once
      have hkept : Takes s.expectedSequence s.packetsBuffer r → ∀ q,
          q.packet.header.sequence = sequence →
          (sequence = r.packet.header.sequence ∧ q = r ∨
            s.packetsBuffer.lookup sequence = some q) → Arrived s' sequence := by
        intro ht q hq hwhere
        have hroom := (hspares r htaken ht.1).2 ht
        rcases receiveChunk_keeps hinOrder ht hroom hwhere with hk | hk
        · exact Or.inr (Or.inl (hbuffer ▸ Finmap.mem_of_lookup_eq_some hk))
        · exact hpushed q hq hk
      -- `r` is skipped: nothing moves
      have hskipped : ¬ Takes s.expectedSequence s.packetsBuffer r →
          sequence.toNat < s.expectedSequence.toNat ∨ sequence ∈ s.packetsBuffer →
          Arrived s' sequence := by
        intro ht hold
        rw [receiveChunk_of_not_takes ht] at hexpected hbuffer
        rcases hold with hlow | hmem
        · exact Or.inl (hexpected ▸ hlow)
        · exact Or.inr (Or.inl (hbuffer ▸ hmem))
      rcases h with hlow | hmem | ⟨q, hq, hdata, rfl⟩
      · refine Or.inl ?_
        rw [hexpected, hspec.next]
        omega
      · by_cases ht : Takes s.expectedSequence s.packetsBuffer r
        · obtain ⟨q, hq⟩ := Finmap.mem_iff.mp hmem
          exact hkept ht q (hinOrder.number _ q hq) (Or.inr hq)
        · exact hskipped ht (Or.inr hmem)
      · rcases (AsyncQueue.mem_contents_resume htake q).mp hq with rfl | hq
        · by_cases ht : Takes s.expectedSequence s.packetsBuffer q
          · exact hkept ht q rfl (Or.inl ⟨rfl, rfl⟩)
          · -- spared and not taken, so it is a duplicate: it has arrived before
            have hwindow := (hspares q htaken hdata).1
            refine hskipped ht ?_
            by_contra hnot
            rw [not_or] at hnot
            refine ht ⟨hdata, fun hlow => hnot.1 ?_, hwindow, hnot.2⟩
            exact UInt32.lt_iff_toNat_lt.mp hlow
        · refine Or.inr (Or.inr ⟨q, ?_, hdata, rfl⟩)
          rw [htransport]
          rcases hqueue with rfl | rfl
          · exact hq
          · rwa [AsyncQueue.contents_pop]

/-- What `receive_loop` newly records has arrived: it is queued. -/
theorem arrived_of_recorded {s s' : ProtoStream P} {e : ProtoStream.Event P}
    {out : List ProtoStream.Observation} (hs : Moves s e s' out) {sequence : UInt32}
    (hnew : sequence ∈ s'.transport.receivedPackets)
    (hold : sequence ∉ s.transport.receivedPackets) :
    ∃ remote buffer bytes now fault, e = .transport (.datagram remote buffer bytes now fault) ∧
      (buffer.receiveFrom bytes).header.sequence = sequence ∧
      ((buffer.receiveFrom bytes).header.type = .handshake ∨ Arrived s' sequence) := by
  cases hs with
  | chunk he r queue queue' htake hqueue htransport hout =>
      rw [htransport] at hnew
      exact absurd hnew hold
  | transport e' shown heffect hdatagram hsend hhandshake hshakes hstop htake hexpected hbuffer hout =>
      have hqueue := heffect.queue
      generalize hqueue' : s'.transport.receivedPacketsQueue = queue' at hqueue
      generalize s'.transport.receivedPackets = received' at hqueue hnew
      cases hqueue with
      | same | pop | cancel | take => exact absurd hnew hold
      | ended seq _ hreceived =>
          rcases hreceived with rfl | ⟨-, rfl⟩
          · exact absurd hnew hold
          · exact absurd hnew (Finset.notMem_empty _)
      | accept he hsize hfresh haccepts =>
          rename_i remote buffer bytes now fault r
          obtain rfl : sequence = r.packet.header.sequence :=
            (Finset.mem_insert.mp hnew).resolve_right hold
          have hmem : r ∈ s'.transport.receivedPacketsQueue.contents :=
            hqueue' ▸ (AsyncQueue.mem_contents_push _ _ _).mpr (Or.inl rfl)
          refine ⟨remote, buffer, bytes, now, fault, he ▸ hdatagram _ _ _ _ _ he, ?_⟩
          cases haccepts with
          | handshake htype => exact ⟨rfl, Or.inl htype⟩
          | plain htype => exact ⟨rfl, Or.inr (Or.inr (Or.inr ⟨_, hmem, htype, rfl⟩))⟩
          | decrypted htype => exact ⟨rfl, Or.inr (Or.inr (Or.inr ⟨_, hmem, htype, rfl⟩))⟩

theorem transmits_of_moves {s s' : ProtoStream P} {e : ProtoStream.Event P}
    {out : List ProtoStream.Observation} (hs : Moves s e s' out) {destination : Endpoint}
    {bytes : Bytes} (h : (destination, bytes) ∈ emitted out) :
    (∃ p, s.transport.Holds p ∧ bytes = p.datagram) ∨
      ∃ sequence, bytes = (ProtoHopZ.ackPacket sequence).datagram ∧
        (s'.transport.receiveLoop = .running → sequence ∈ s'.transport.receivedPackets) := by
  cases hs with
  | chunk he r queue queue' htake hqueue htransport hout =>
      rcases hout with ⟨-, rfl, -⟩ | ⟨-, rfl, -⟩
      · cases h
      · rw [emitted_chunks] at h
        cases h
  | transport e' shown heffect hdatagram hsend hhandshake hshakes hstop htake hexpected hbuffer hout =>
      rcases hout with rfl | ⟨-, hquiet⟩
      · have hmem := mem_emitted.mp h
        simp only [List.mem_map, Observation.transport.injEq, exists_eq_right] at hmem
        refine (heffect.transmits _ _ hmem).imp id ?_
        rintro ⟨_, buffer, received, _, _, -, hbytes, hreceived⟩
        exact ⟨_, hbytes, hreceived⟩
      · rw [emitted_quiet hquiet] at h
        cases h

theorem acks_of_moves {s s' : ProtoStream P} {e : ProtoStream.Event P}
    {out : List ProtoStream.Observation} (hs : Moves s e s' out) {sequence : UInt32}
    (h : .transport (.acked sequence) ∈ out) : ∃ remote buffer bytes now fault,
      e = .transport (.datagram remote buffer bytes now fault) ∧
        (buffer.receiveFrom bytes).header.type = .ack ∧
        (buffer.receiveFrom bytes).header.sequence = sequence := by
  cases hs with
  | chunk he r queue queue' htake hqueue htransport hout =>
      rcases hout with ⟨-, rfl, -⟩ | ⟨-, rfl, -⟩
      · cases h
      · obtain ⟨r, -, heq⟩ := List.mem_map.mp h
        cases heq
  | transport e' shown heffect hdatagram hsend hhandshake hshakes hstop htake hexpected hbuffer hout =>
      rcases hout with rfl | ⟨-, hquiet⟩
      · simp only [List.mem_map, Observation.transport.injEq, exists_eq_right] at h
        obtain ⟨remote, buffer, bytes, now, fault, he, htype, hsequence⟩ := heffect.acks _ h
        exact ⟨remote, buffer, bytes, now, fault, he ▸ hdatagram _ _ _ _ _ he, htype, hsequence⟩
      · cases hquiet _ h

/-- **The step lemma.** -/
theorem keeping_step (hP : P.Lawful) {key : Bytes} {address : Role → Endpoint}
    {tr : List (Role × ProtoStream.Observation)} {s s' : Session P}
    {e : Role × ProtoStream.Event P} {out : List (Role × ProtoStream.Observation)}
    (h : Keeping key tr s) (hhonest : Honest address s e) (hwrap : NoWrap s e)
    (hhealthy : StaysHealthy s e) (hspares : Spares s e) (hs : s.step e = some (s', out)) :
    Keeping key (tr ++ out) s' := by
  have hdelivering := delivering_step hP h.delivering hhonest hwrap hs
  have hbefore := hhealthy.1
  have hafter := hhealthy.2 (s', out) hs
  obtain ⟨mover, e⟩ := e
  obtain ⟨shown', hmove, rfl, hpeer, hair, hairpeer⟩ := step_eq hs
  have hmoves := moves_step hmove
  have hself := shown_append_self mover tr shown'
  have hother := shown_append_of_ne (Role.peer_ne mover).symm tr shown'
  have hgrow := received_of_moves hmoves (hafter mover).2.2
  refine ⟨hdelivering, fun side d b hb buffer htype => ?_, fun side sequence hacked => ?_,
    fun side sequence hmem => ?_⟩
  · rcases Role.eq_or_eq_peer side mover with rfl | rfl
    · rw [hair] at hb
      rcases List.mem_append.mp hb with hb | hb
      · exact (h.acks side d b hb buffer htype).imp id fun hmem => hgrow hmem
      · rcases transmits_of_moves hmoves hb with ⟨p, hp, rfl⟩ | ⟨sequence, rfl, hreceived⟩
        · have hsendable := (h.delivering.sender side).holds p hp
          rw [(receiveFrom_sendable (h.delivering.sender side).sealed hsendable buffer).1] at htype
          exact absurd htype
            (type_ne_ack_of_sendable (h.delivering.sender side).sealed hsendable)
        · rw [receiveFrom_ack]
          exact Or.inr (hreceived (hafter side).1)
    · rw [hairpeer] at hb
      rw [hpeer]
      exact h.acks _ d b hb buffer htype
  · rcases Role.eq_or_eq_peer side mover with rfl | rfl
    · rw [hother] at hacked
      exact (h.acked side sequence hacked).imp id fun hmem => hgrow hmem
    · rw [Role.peer_peer, hself] at hacked
      rw [hpeer]
      rcases List.mem_append.mp hacked with hacked | hacked
      · exact h.acked _ sequence (by rwa [Role.peer_peer])
      · obtain ⟨remote, buffer, bytes, now, fault, rfl, htype, rfl⟩ := acks_of_moves hmoves hacked
        exact h.acks _ _ bytes (hhonest (remote, bytes) rfl).2 buffer htype
  · rcases Role.eq_or_eq_peer side mover with rfl | rfl
    · have hkeyed := (h.delivering.sender side).keyed
      by_cases hold : sequence ∈ (s.stream side).transport.receivedPackets
      · refine (h.arrived side sequence hold).imp id fun harrived => ?_
        exact arrived_of_moves hkeyed (h.delivering.receiver side).inOrder (hbefore side).2.1
          hmoves hspares harrived
      · obtain ⟨remote, buffer, bytes, now, fault, rfl, rfl, hhow⟩ :=
          arrived_of_recorded hmoves hmem hold
        rcases hhow with htype | harrived
        swap
        · exact Or.inr harrived
        refine Or.inl ?_
        have hsender := h.delivering.sender side.peer
        rcases hsender.air _ _ (hhonest (remote, bytes) rfl).2 with ⟨p, hp, rfl⟩ | ⟨q, rfl⟩
        · have hheader := (receiveFrom_sendable hsender.sealed hp buffer).1
          rw [hheader] at htype ⊢
          rcases hp with ⟨-, hzero, -⟩ | ⟨plaintext, hreg⟩
          · exact hzero
          · rw [show p.header.type = .data from (hsender.sealed _ hreg).1] at htype
            cases htype
        · rw [receiveFrom_ack] at htype
          cases htype
    · rw [hpeer] at hmem ⊢
      exact h.arrived _ sequence hmem

instance (s : ProtoStream P) (r : ReceivedPacket) : Decidable (Keeps s r) :=
  inferInstanceAs (Decidable (_ ∧ (_ → _)))

instance (s : Session P) (e : Role × ProtoStream.Event P) : Decidable (Spares s e) :=
  inferInstanceAs (Decidable (∀ r ∈ taken (s.stream e.1) e.2, _))

/-- Two registered packets with one number are the same. -/
theorem eq_of_number {registered : List (Packet × Bytes)}
    (h : (registered.map number).Pairwise (· < ·)) {a b : Packet × Bytes}
    (ha : a ∈ registered) (hb : b ∈ registered) (hab : number a = number b) : a = b :=
  List.inj_on_of_nodup_map (h.imp fun h => Nat.ne_of_lt h) ha hb hab

/-- A genuine packet carries the payload registered under its number. -/
theorem Genuine.carries {registered : List (Packet × Bytes)} {r : ReceivedPacket}
    (h : Genuine registered r) (hincreasing : (registered.map number).Pairwise (· < ·))
    {p : Packet} {plaintext : Bytes} (hp : (p, plaintext) ∈ registered)
    (hr : r.packet.header.sequence = p.header.sequence) :
    Chunk.ofPacket r.packet = carrying plaintext := by
  obtain ⟨q, plaintext', hq, hsequence, hsize, hdata⟩ := h
  have heq := eq_of_number hincreasing hq hp (congrArg UInt32.toNat (hsequence.symm.trans hr))
  obtain ⟨-, rfl⟩ := Prod.mk.inj heq
  rw [Chunk.ofPacket, carrying, hsize, hdata]

/-- The packet is number `sequence` and carries the payload. -/
def Bears (sequence : UInt32) (payload : Bytes) (r : ReceivedPacket) : Prop :=
  r.packet.header.sequence = sequence ∧ Chunk.ofPacket r.packet = carrying payload

/-- Packet `sequence` with its payload is at the side: its chunk has been pushed, or
the packet is queued, or it is in the reorder buffer. -/
def Holding (tr : List (Role × ProtoStream.Observation)) (s : Session P) (side : Role)
    (sequence : UInt32) (payload : Bytes) : Prop :=
  (∃ r, Observation.chunk r ∈ shown side tr ∧ Bears sequence payload r) ∨
    (∃ r ∈ (s.stream side).transport.receivedPacketsQueue.contents, Bears sequence payload r) ∨
    ∃ r, (s.stream side).packetsBuffer.lookup sequence = some r ∧ Bears sequence payload r

/-- What is put in order is pushed as the chunk of its own packet. -/
theorem chunk_of_moves {s s' : ProtoStream P} {e : ProtoStream.Event P}
    {out : List ProtoStream.Observation} (hs : Moves s e s' out) {r : ReceivedPacket}
    (h : r ∈ ordered out) : Observation.chunk r ∈ out := by
  cases hs with
  | transport e' shown heffect hdatagram hsend hhandshake hshakes hstop htake hexpected hbuffer hout =>
      rcases hout with rfl | ⟨-, hquiet⟩
      · rw [ordered_transport] at h
        cases h
      · rw [ordered_quiet hquiet] at h
        cases h
  | chunk he q queue queue' htake hqueue htransport hout =>
      rcases hout with ⟨-, rfl, -⟩ | ⟨-, rfl, -⟩
      · cases h
      · rw [ordered_chunks] at h
        exact List.mem_map_of_mem h

theorem chunk_of_run {ok : Session P → Role × ProtoStream.Event P → Prop} {s₀ s : Session P}
    {tr : List (Role × ProtoStream.Observation)} (hrun : Transition.Run step ok s₀ tr s) :
    ∀ side, ∀ r ∈ ordered (shown side tr), Observation.chunk r ∈ shown side tr := by
  refine hrun.invariant
    (I := fun tr _ => ∀ side, ∀ r ∈ ordered (shown side tr), Observation.chunk r ∈ shown side tr)
    (fun side r hr => by cases hr) ?_
  rintro tr s ⟨mover, e⟩ s' out ih - hs side r hr
  obtain ⟨out, hmove, rfl, -⟩ := step_eq hs
  rcases Role.eq_or_eq_peer side mover with rfl | rfl
  · rw [shown_append_self] at hr ⊢
    rw [ordered_append, List.mem_append] at hr
    exact List.mem_append.mpr (hr.imp (ih _ r) (chunk_of_moves (moves_step hmove)))
  · rw [shown_append_of_ne (Role.peer_ne mover).symm] at hr ⊢
    exact ih _ r hr

/-- **No acknowledged packet is lost** as long as no number is used twice and
`receive_chunks_loop` spares its packets: in such a run over an honest network, in
which no loop fails and `stop_loops` is not called, a packet that `ack_handler` has
taken out of `in_flight_` has been pushed by the peer, is queued there, or is in
the reorder buffer. -/
theorem acknowledged_not_lost (hP : P.Lawful) {key : Bytes} {address : Role → Endpoint}
    {s₀ s : Session P} {tr : List (Role × ProtoStream.Observation)} (h₀ : Established key s₀)
    (hrun : Transition.Run step
      (fun s e => (Honest address s e ∧ StaysHealthy s e) ∧ NoWrap s e ∧ Spares s e) s₀ tr s)
    (side : Role) {p : Packet} {plaintext : Bytes}
    (hp : (p, plaintext) ∈ registrations (shown side.peer tr))
    (hacked : .transport (.acked p.header.sequence) ∈ shown side.peer tr) :
    Holding tr s side p.header.sequence plaintext := by
  have h : Keeping key tr s := hrun.invariant (I := Keeping key) (keeping_start h₀)
    fun _ _ _ _ _ ih hok hs => keeping_step hP ih hok.1.1 hok.2.1 hok.1.2 hok.2.2 hs
  have hsender := h.delivering.sender side.peer
  have hreceiver := h.delivering.receiver side
  have hpos := (hsender.numbered _ hp).1
  have hne : p.header.sequence ≠ 0 := by
    intro hzero
    rw [number, hzero] at hpos
    exact absurd hpos (by decide)
  have hbears : ∀ r, Genuine (registrations (shown side.peer tr)) r →
      r.packet.header.sequence = p.header.sequence → Bears p.header.sequence plaintext r :=
    fun r hr hseq => ⟨hseq, hr.carries hsender.increasing hp hseq⟩
  have hreceived := (h.acked side _ hacked).resolve_left hne
  rcases (h.arrived side _ hreceived).resolve_left hne with hlow | hmem | ⟨r, hr, htype, hseq⟩
  · have hput : p.header.sequence.toNat ∈
        (ordered (shown side tr)).map (·.packet.header.sequence.toNat) := by
      rw [hreceiver.numbers, List.mem_range'_1]
      rw [hreceiver.next] at hlow
      exact ⟨hpos, hlow⟩
    obtain ⟨r, hr, hseq⟩ := List.mem_map.mp hput
    exact Or.inl ⟨r, chunk_of_run hrun side r hr,
      hbears r (hreceiver.settled r hr).2 (UInt32.toNat_inj.mp hseq)⟩
  · obtain ⟨r, hr⟩ := Finmap.mem_iff.mp hmem
    exact Or.inr (Or.inr ⟨r, hr, hbears r (hreceiver.buffer _ r hr) (hreceiver.inOrder.number _ r hr)⟩)
  · exact Or.inr (Or.inl ⟨r, hr, hbears r (hreceiver.queue r hr htype) hseq⟩)

/-- The packet number that `o` acknowledges. -/
def ackedIn : ProtoStream.Observation → Option UInt32
  | .transport (.acked sequence) => some sequence
  | _ => none

theorem eq_of_ackedIn {o : ProtoStream.Observation} {sequence : UInt32}
    (h : ackedIn o = some sequence) : o = .transport (.acked sequence) := by
  unfold ackedIn at h
  split at h
  · rw [Option.some.inj h]
  · cases h

/-- One packet is sent, received, acknowledged and put in order. -/
theorem acknowledged_not_lost_once : ∃ tr s,
    Transition.Run step
      (fun s e => (Honest sampleAddress s e ∧ StaysHealthy s e) ∧ NoWrap s e ∧ Spares s e)
      sampleSession tr s ∧
      Holding tr s .responder 1 [65] := by
  obtain ⟨tr, s, hrun, hp⟩ := Transition.exists_run step
    (fun s e => (Honest sampleAddress s e ∧ StaysHealthy s e) ∧ NoWrap s e ∧ Spares s e)
    sampleSession
    (sampleSend 0 [65] ++ [sampleArrival (samplePacket [65] 1),
      (.responder, .resumeReceiveChunks),
      (.initiator, .transport (.datagram (sampleAddress .responder) (dataPacket [])
        (ProtoHopZ.ackPacket 1).datagram 0 none))])
    (fun tr _ => (registrations (shown .initiator tr)).any
        (fun r => r.1.header.sequence = 1 ∧ r.2 = [65]) &&
      (shown .initiator tr).any fun o => ackedIn o = some 1)
    (fun s e => decide ((Honest sampleAddress s e ∧ StaysHealthy s e) ∧ NoWrap s e ∧ Spares s e))
    (fun _ _ h => of_decide_eq_true h) (by decide +kernel)
  rw [Bool.and_eq_true, List.any_eq_true, List.any_eq_true] at hp
  obtain ⟨⟨⟨p, plaintext⟩, hreg, hr⟩, o, ho, hacked⟩ := hp
  obtain ⟨hsequence, rfl⟩ := of_decide_eq_true hr
  dsimp only at hsequence
  obtain rfl := eq_of_ackedIn (of_decide_eq_true hacked)
  have := acknowledged_not_lost Primitives.additive_lawful established_sampleSession hrun
    .responder hreg (by rw [hsequence]; exact ho)
  rw [hsequence] at this
  exact ⟨tr, s, hrun, this⟩

/-! ## A packet that is delayed for long -/

/-- The first packet is under way, and those from 2 to `k - 1` are acknowledged. -/
structure Delayed (k : Nat) (tr : List (Role × ProtoStream.Observation))
    (s : Session .additive) : Prop where
  sender : ReadyToSend sampleKey (sampleAddress .responder) k (s.stream .initiator)
  flight : ∀ n ∈ (s.stream .initiator).transport.inFlight, n = 1
  receiver : ReadyToReceive sampleKey (sampleAddress .initiator) (s.stream .responder)
  received : ∀ n ∈ (s.stream .responder).transport.receivedPackets, n.toNat < k
  expected : (s.stream .responder).expectedSequence = 1
  inOrder : InOrder 1 (s.stream .responder).packetsBuffer
  below : ∀ n ∈ (s.stream .responder).packetsBuffer, n.toNat < k
  chunks : chunks (shown .responder tr) = []

/-- The first packet is sent, and is not heard of again. -/
theorem delayed_first : ∃ tr s,
    Transition.Run step (Working sampleAddress) sampleSession tr s ∧ Delayed 2 tr s := by
  have hready : ∀ side, Ready sampleKey (sampleAddress side.peer) (sampleStream side).transport :=
    fun side => ⟨⟨rfl, rfl, rfl⟩, rfl, ⟨rfl, rfl⟩, rfl, rfl⟩
  have hstart : ReadyToSend sampleKey (sampleAddress .responder) 1
      (sampleSession.stream .initiator) :=
    ⟨rfl, hready .initiator, rfl, by decide +kernel, fun _ _ => rfl⟩
  obtain ⟨a, ha, haflight, hasend⟩ := @run_send _ sampleAddress .initiator _ _ _ hstart (by simp)
    (by decide +kernel) [65] (by decide) sampleNonce []
  obtain ⟨s, hrun, ha', hb, -⟩ := @run_of_side _ sampleAddress .initiator sampleSession _ _
    (hready .responder).healthy ha
  dsimp only [Role.peer] at hb
  refine ⟨_, s, hrun, by rwa [ha'], ?_, ?_, ?_, ?_, ?_, ?_, ?_⟩
  · intro n hn
    rw [ha', haflight] at hn
    exact (Finmap.mem_insert.mp hn).resolve_right Finmap.notMem_empty
  all_goals try rw [hb]
  · exact ⟨rfl, rfl, hready .responder, rfl⟩
  · intro n hn
    rw [Finset.mem_singleton.mp hn]
    decide
  · rfl
  · exact inOrder_start
  · exact fun n hn => absurd hn Finmap.notMem_empty
  · rfl

/-- Packet `k` overtakes the first and is acknowledged; if it is from beyond the
window, it is not kept. -/
theorem delayed_next {k : Nat} (hk : 2 ≤ k) (hwrap : k + 1 < 2 ^ 32)
    {tr : List (Role × ProtoStream.Observation)} {s : Session .additive} (h : Delayed k tr s)
    (hrun : Transition.Run step (Working sampleAddress) sampleSession tr s) :
    ∃ tr' s' sequence, Transition.Run step (Working sampleAddress) sampleSession tr' s' ∧
      Delayed (k + 1) tr' s' ∧ sequence.toNat = k ∧
      (samplePacket [65] sequence, [65]) ∈ registrations (shown .initiator tr') ∧
      .transport (.acked sequence) ∈ shown .initiator tr' ∧
      (1 + maxPacketsBuffer < k → sequence ∉ (s'.stream .responder).packetsBuffer) := by
  have hcard : (s.stream .initiator).transport.inFlight.keys.card ≤ 1 := by
    refine Finset.card_le_one.mpr fun m hm n hn => ?_
    rw [h.flight m (Finmap.mem_keys.mp hm), h.flight n (Finmap.mem_keys.mp hn)]
  obtain ⟨sequence, hsequence⟩ : ∃ n, (s.stream .initiator).transport.sequenceCounter = n :=
    ⟨_, rfl⟩
  have hnumber : sequence.toNat = k := hsequence ▸ h.sender.counter
  have hnew : sequence ∉ (s.stream .responder).transport.receivedPackets := by
    intro hmem
    have := h.received _ hmem
    omega
  obtain ⟨s', r, out, htype, hseq, hout, hmore, hsend, hreceive, hflight, hreceived, hexpected,
    hbuffer⟩ := @exchange _ sampleAddress .initiator Primitives.additive_lawful _ _ s h.sender
      h.receiver hwrap hcard [65] (by simp) (by decide) sampleNonce sequence hsequence hnew
  dsimp only [Role.peer] at hout hreceive hreceived hexpected hbuffer
  have hspec := receiveChunk_spec h.inOrder r
  have hlater : r.packet.header.sequence ≠ 1 := by
    intro heq
    rw [hseq] at heq
    rw [heq] at hnumber
    exact absurd hnumber (by simp; omega)
  obtain ⟨hnone, hstays⟩ := receiveChunk_of_ne h.inOrder hlater
  rw [h.expected] at hout
  rw [hout] at hspec hnone hstays
  rw [hstays] at hexpected
  have hkept : ∀ n ∈ out.2.2, n = sequence ∧ k ≤ 1 + maxPacketsBuffer ∨
      n ∈ (s.stream .responder).packetsBuffer := by
    intro n hn
    obtain ⟨q, hq⟩ := Finmap.mem_iff.mp hn
    rcases hspec.kept n q hq with ⟨rfl, ht⟩ | hold
    · have hwindow := ht.window.2.1
      rw [hseq, hnumber] at hwindow
      exact Or.inl ⟨by rw [← hseq, ← hspec.inOrder.number n q hq], hwindow⟩
    · exact Or.inr (Finmap.mem_of_lookup_eq_some hold)
  refine ⟨_, s', sequence, hrun.append hmore, ⟨hsend, ?_, hreceive, ?_, hexpected, ?_, ?_, ?_⟩,
    hnumber, ?_, ?_, ?_⟩
  · exact fun n hn => h.flight n (hflight n hn)
  · intro n hn
    rw [hreceived, Finset.mem_insert] at hn
    rcases hn with rfl | hn
    · omega
    · exact (h.received n hn).trans k.lt_succ_self
  · rw [hbuffer, ← hstays]
    exact hspec.inOrder
  · intro n hn
    rw [hbuffer] at hn
    rcases hkept n hn with ⟨rfl, -⟩ | hold
    · omega
    · exact (h.below n hold).trans k.lt_succ_self
  · rw [shown_append, chunks_append, h.chunks, hnone]
    rw [show Role.responder = Role.initiator.peer from rfl, shown_peer_exchanged]
    rfl
  · rw [shown_append, registrations_append, shown_exchanged]
    exact List.mem_append_right _ List.mem_cons_self
  · rw [shown_append, shown_exchanged]
    exact List.mem_append_right _ (by simp)
  · intro hfar hmem
    rw [hbuffer] at hmem
    rcases hkept sequence hmem with ⟨-, hnear⟩ | hold
    · omega
    · have := h.below sequence hold
      omega

/-- The first packet can be overtaken by as many as there are numbers. -/
theorem delayed_run {k : Nat} (hk : 2 ≤ k) (hwrap : k < 2 ^ 32) : ∃ tr s,
    Transition.Run step (Working sampleAddress) sampleSession tr s ∧ Delayed k tr s := by
  induction k, hk using Nat.le_induction with
  | base => exact delayed_first
  | succ k hk ih =>
      obtain ⟨tr, s, hrun, h⟩ := ih (by omega)
      obtain ⟨tr', s', -, hrun', h', -⟩ := delayed_next hk hwrap h hrun
      exact ⟨tr', s', hrun', h'⟩

/-- **An acknowledged packet that is lost.**  While the first packet is delayed, the
65537 packets after it are sent, received and acknowledged one by one.  All but
the last fill the reorder buffer; the last is from beyond the window and is
dropped. -/
theorem acknowledged_lost : ¬ ∀ tr s,
    Transition.Run step (Working sampleAddress) sampleSession tr s →
    ∀ side p plaintext, (p, plaintext) ∈ registrations (shown side.peer tr) →
      .transport (.acked p.header.sequence) ∈ shown side.peer tr →
      Holding tr s side p.header.sequence plaintext := by
  intro hall
  obtain ⟨tr, s, hrun, h⟩ := @delayed_run (2 + maxPacketsBuffer) (by simp) (by decide)
  obtain ⟨tr', s', sequence, hrun', h', -, hregistered, hacked, hdropped⟩ :=
    delayed_next (by simp) (by decide) h hrun
  rcases hall tr' s' hrun' .responder _ _ hregistered hacked with
    ⟨r, hr, -⟩ | ⟨r, hr, -⟩ | ⟨r, hr, -⟩
  · have hput : Chunk.ofPacket r.packet ∈ chunks (shown .responder tr') :=
      List.mem_filterMap.mpr ⟨_, hr, rfl⟩
    rw [h'.chunks] at hput
    cases hput
  · rw [h'.receiver.queue] at hr
    cases hr
  · exact hdropped (by omega) (Finmap.mem_of_lookup_eq_some hr)

end Session
end FileHopZ

import FileHopZ.Protohopz.Acknowledged
import FileHopZ.Protohopz.Calls
import FileHopZ.Protohopz.ColdStart

/-! # What a side has of what it has acknowledged

From the constructors on: as long as nothing has ended at a side (`Ended`) and its
`receive_chunks_loop` drops no packet, whatever its peer has been told is acknowledged has arrived
at it: it is pushed, buffered or queued.  When the packets are numbered without a gap and nothing
is queued any more, all of it is pushed.
-/
namespace FileHopZ
namespace ProtoHopZ
variable {P : Primitives}

/-- `receive_loop` was started and does not run, or a loop has failed. -/
def Broken (t : ProtoHopZ P) : Prop :=
  t.handshake ≠ .idle ∧ (t.receiveLoop ≠ .running ∨ t.loopError ≠ none)

/-- Nothing arrives any more: `stop_loops` has been called, or a loop has ended by itself. -/
def Ended (t : ProtoHopZ P) : Prop := t.stop ≠ .idle ∨ t.Broken

theorem receiveLoop_handleLoopResult (t : ProtoHopZ P) (ec : Option Error) :
    (t.handleLoopResult ec).receiveLoop = t.receiveLoop := by
  unfold handleLoopResult storeLoopError
  split_ifs
  · rfl
  · split
    · rfl
    · rfl

/-- A `receive_loop` that does not run is started by `start_loops` only. -/
theorem receiveLoop_step {t t' : ProtoHopZ P} {e : Event P} {out : List Observation}
    (hs : t.step e = some (t', out)) (hinternal : e.isInternal = true)
    (h : t.receiveLoop ≠ .running) : t'.receiveLoop ≠ .running := by
  cases step_cases hs with
  | startLoops => cases hinternal
  | acked | unsent =>
      rw [signalIfDrained_eq]
      exact h
  | tooLarge | undecrypted | receiveError => simp [finishReceiveLoop]
  | receiveLoopResult =>
      rw [receiveLoop_handleLoopResult]
      simp
  | timeoutLoopResult =>
      rw [receiveLoop_handleLoopResult]
      exact h
  | shakes _ _ _ _ hshakes => cases hshakes <;> exact h
  | _ => exact h

/-- What has ended does not start again. -/
theorem ended_internal {t t' : ProtoHopZ P} {e : Event P} {out : List Observation}
    (hs : t.step e = some (t', out)) (hinternal : e.isInternal = true) (h : t.Ended) :
    t'.Ended := by
  have hhandshake : t.handshake ≠ .idle → t'.handshake ≠ .idle := by
    intro hne
    cases hh : e.handshakes with
    | false => rwa [((effect_step hs).keys hh).2.2]
    | true => exact (shakes_step hh hs).begun
  cases hcloses : e.closes with
  | false =>
      have hw := waits_step hs hcloses
      rcases h with hstop | ⟨hbegun, hloop | herror⟩
      · exact Or.inl (hw.stop ▸ hstop)
      · exact Or.inr ⟨hhandshake hbegun, Or.inl (receiveLoop_step hs hinternal hloop)⟩
      · exact Or.inr ⟨hhandshake hbegun, Or.inr (hw.loopError herror)⟩
  | true =>
      cases step_cases hs with
      | resumeDrain => exact h
      | resumeStop => exact Or.inl (by simp)
      | startLoops | drain | stop => cases hinternal
      | shakes _ _ _ he =>
          rw [Event.closes_of_handshakes he] at hcloses
          cases hcloses
      | _ => cases hcloses

/-- An acknowledgement is sent by a loop that runs. -/
theorem running_of_datagram {t t' : ProtoHopZ P} {remote : Endpoint} {buffer : Packet}
    {bytes : Bytes} {now : Nat} {fault : Option ErrorCode} {out : List Observation}
    (hs : t.step (.datagram remote buffer bytes now fault) = some (t', out)) :
    t.receiveLoop = .running := by
  cases step_cases hs with
  | ignored _ _ _ _ _ hloop | acked _ _ _ _ _ hloop | unread _ _ _ _ _ hloop
  | tooLarge _ _ _ _ _ hloop | repeated _ _ _ _ _ hloop | undecrypted _ _ _ _ _ hloop
  | accepted _ _ _ _ _ _ hloop => exact hloop
  | shakes _ _ _ hh => cases hh

/-- What `receive_loop` records is `HANDSHAKE` or `DATA`. -/
theorem type_of_recorded {t t' : ProtoHopZ P} {remote : Endpoint} {buffer : Packet} {bytes : Bytes}
    {now : Nat} {fault : Option ErrorCode} {out : List Observation}
    (hs : t.step (.datagram remote buffer bytes now fault) = some (t', out))
    (hne : t'.receivedPackets ≠ t.receivedPackets) :
    (buffer.receiveFrom bytes).header.type = .handshake ∨
      (buffer.receiveFrom bytes).header.type = .data := by
  cases step_cases hs with
  | accepted _ _ _ _ _ r _ _ _ _ _ haccepts =>
      cases haccepts with
      | handshake htype => exact Or.inl htype
      | plain htype | decrypted htype => exact Or.inr htype
  | acked =>
      rw [signalIfDrained_eq] at hne
      exact absurd rfl hne
  | shakes _ _ _ hh => cases hh
  | _ => exact absurd rfl hne

end ProtoHopZ

namespace ProtoStream
variable {P : Primitives}

/-- **What has ended does not start again**, unless it is started by `start_loops`, which is once. -/
theorem ended_step {s s' : ProtoStream P} {e : Event P} {out : List Observation}
    (hs : s.step e = some (s', out)) (hstop : s.transport.stop ≠ .idle → s.closing ≠ .idle)
    (h : s.transport.Ended) : s'.transport.Ended := by
  cases step_cases hs with
  | transport e t' shown hinternal hstep => exact ProtoHopZ.ended_internal hstep hinternal h
  | callStartLoops now fault generated i _ hclosing hidle =>
      rcases h with hstopped | ⟨hbegun, -⟩
      · exact absurd hclosing (hstop hstopped)
      · exact absurd hidle hbegun
  | resumeClose => exact Or.inl (by simp)
  | _ => exact h

theorem transport_step {s s' : ProtoStream P} {e : ProtoHopZ.Event P} {out : List Observation}
    (hs : s.step (.transport e) = some (s', out)) :
    ∃ shown, s.transport.step e = some (s'.transport, shown) := by
  cases step_cases hs with
  | transport _ _ shown _ hstep => exact ⟨shown, hstep⟩

/-- The datagrams of a side that has not ended: packets it holds, and acknowledgements of what it
has received. -/
theorem emitted_step {s s' : ProtoStream P} {e : Event P} {out : List Observation}
    (hs : s.step e = some (s', out))
    (hidle : s.transport.handshake = .idle → s.transport.receiveLoop = .idle)
    (hgoing : ¬ s'.transport.Ended) {destination : Endpoint} {bytes : Bytes}
    (hmem : (destination, bytes) ∈ emitted out) :
    (∃ p, s.transport.Holds p ∧ bytes = p.datagram) ∨
      ∃ sequence ∈ s'.transport.receivedPackets,
        bytes = (ProtoHopZ.ackPacket sequence).datagram := by
  rcases Session.transmits_of_moves (moves_step hs) hmem with hheld | ⟨sequence, rfl, hreceived⟩
  · exact Or.inl hheld
  by_cases hheld : ∃ p, s.transport.Holds p ∧ (ProtoHopZ.ackPacket sequence).datagram = p.datagram
  · exact Or.inl hheld
  refine Or.inr ⟨sequence, hreceived ?_, rfl⟩
  cases moves_step hs with
  | chunk he r queue queue' htake hqueue htransport hout =>
      rcases hout with ⟨-, rfl, -⟩ | ⟨-, rfl, -⟩
      · cases hmem
      · rw [emitted_chunks] at hmem
        cases hmem
  | transport e' shown heffect hdatagram hsend hhandshake hshakes hstop htake hexpected hbuffer hout =>
      rcases hout with rfl | ⟨-, hquiet⟩
      swap
      · rw [emitted_quiet hquiet] at hmem
        cases hmem
      have hshown := mem_emitted.mp hmem
      simp only [List.mem_map, Observation.transport.injEq, exists_eq_right] at hshown
      rcases heffect.transmits _ _ hshown with hold | ⟨remote, buffer, received, now, fault, he, -⟩
      · exact absurd hold hheld
      -- the acknowledgement is sent by a `receive_loop` that runs, so the handshake has begun
      obtain rfl := hdatagram _ _ _ _ _ he
      subst he
      have hbegun : s'.transport.handshake ≠ .idle := by
        rw [(heffect.keys rfl).2.2]
        intro hnone
        obtain ⟨shown', hstep⟩ := transport_step hs
        rw [ProtoHopZ.running_of_datagram hstep] at hidle
        cases hidle hnone
      by_contra hnot
      exact hgoing (Or.inr ⟨hbegun, Or.inl hnot⟩)

end ProtoStream

namespace Session
variable {P : Primitives}
open ProtoStream

/-- What a side has of what it has acknowledged, while nothing has ended there. -/
structure Retains (tr : List (Role × ProtoStream.Observation)) (s : Session P) (side : Role) :
    Prop where
  acks : ∀ destination bytes, (destination, bytes) ∈ s.air side → ∀ buffer : Packet,
    (buffer.receiveFrom bytes).header.type = .ack →
      (buffer.receiveFrom bytes).header.sequence ∈ (s.stream side).transport.receivedPackets
  acked : ∀ sequence, .transport (.acked sequence) ∈ shown side.peer tr →
    sequence ∈ (s.stream side).transport.receivedPackets
  arrived : ∀ sequence ∈ (s.stream side).transport.receivedPackets,
    (∃ r ∈ registrations (shown side.peer tr), r.1.header.type = .handshake ∧
        r.1.header.sequence = sequence) ∨
      (s.stream side).transport.connectionEncrypted = true ∧ Arrived (s.stream side) sequence

theorem retains_construct (address : Role → Endpoint) (side : Role) :
    Retains [] (construct P address) side where
  acks _ _ h := by cases side <;> cases h
  acked _ h := by cases h
  arrived _ h := by cases side <;> cases h

/-- **The step lemma.** -/
theorem Retains.step {address : Role → Endpoint} {tr : List (Role × ProtoStream.Observation)}
    {s s' : Session P} {e : Role × ProtoStream.Event P}
    {out : List (Role × ProtoStream.Observation)} {side : Role} (h : Retains tr s side)
    (hcold : ColdStarted tr s) (hhonest : Honest address s e) (hdata : DataAfterHandshake s e)
    (hspares : e.1 = side → Spares s e) (hs : s.step e = some (s', out))
    (hgoing : ¬ (s'.stream side).transport.Ended) : Retains (tr ++ out) s' side := by
  obtain ⟨mover, e⟩ := e
  obtain ⟨shown', hmove, rfl, hpeer, hair, hairpeer⟩ := step_eq hs
  have hmoves := moves_step hmove
  have hself := shown_append_self mover tr shown'
  have hother := shown_append_of_ne (Role.peer_ne mover).symm tr shown'
  rcases Role.eq_or_eq_peer side mover with rfl | rfl
  · have hgreeting := hcold.shaking.greeting side
    have hsupplies := hcold.supplies side
    have hbefore : ¬ (s.stream side).transport.Ended := fun hended =>
      hgoing (ended_step hmove hgreeting.stop hended)
    have hgrow := received_of_moves hmoves (by
      by_contra hstop
      exact hgoing (Or.inl hstop))
    refine ⟨fun d b hb buffer htype => ?_, fun sequence hacked => ?_, fun sequence hmem => ?_⟩
    · rw [hair] at hb
      rcases List.mem_append.mp hb with hb | hb
      · exact hgrow (h.acks d b hb buffer htype)
      · rcases emitted_step hmove (fun hidle => (hgreeting.idle hidle).1) hgoing hb with
          ⟨p, hp, rfl⟩ | ⟨sequence, hreceived, rfl⟩
        · obtain ⟨plaintext, hreg⟩ := hsupplies.holds p hp
          have htame := hsupplies.tame _ hreg
          rw [(@Packet.receiveFrom_datagram buffer p htame.ofByte htame.size).1] at htype
          rcases htame.2 with hp | ⟨hp, -⟩
          · rw [hp] at htype
            cases htype
          · rw [hp] at htype
            cases htype
        · rw [receiveFrom_ack]
          exact hreceived
    · rw [hother] at hacked
      exact hgrow (h.acked sequence hacked)
    · rw [hother]
      by_cases hold : sequence ∈ (s.stream side).transport.receivedPackets
      · refine (h.arrived sequence hold).imp_right fun ⟨hencrypted, harrived⟩ => ?_
        have hreturned := hsupplies.announcing.greets.encrypted.mp hencrypted
        have herror : (s.stream side).transport.loopError = none := by
          by_contra hne
          exact hbefore (Or.inr ⟨by simp [hreturned], Or.inr hne⟩)
        refine ⟨(hsupplies.announcing.encrypted hmoves hencrypted).1, ?_⟩
        exact arrived_of_moves ⟨hencrypted, rfl, none, hreturned⟩ (hcold.putting side).inOrder herror
          hmoves (hspares rfl) harrived
      · obtain ⟨remote, buffer, bytes, now, fault, rfl, rfl, hhow⟩ :=
          arrived_of_recorded hmoves hmem hold
        have htype : (buffer.receiveFrom bytes).header.type = .handshake ∨
            (buffer.receiveFrom bytes).header.type = .data := by
          obtain ⟨shown, hstep⟩ := transport_step hmove
          refine ProtoHopZ.type_of_recorded hstep fun hsame => hold ?_
          rwa [← hsame]
        rcases htype with htype | htype
        · -- the peer has sent it
          refine Or.inl ?_
          have hpeersupplies := hcold.supplies side.peer
          rcases hpeersupplies.air _ _ (hhonest (remote, bytes) rfl).2 with
            ⟨p, plaintext, hreg, rfl⟩ | ⟨q, rfl⟩
          · have htame := hpeersupplies.tame _ hreg
            have hheader := (@Packet.receiveFrom_datagram buffer p htame.ofByte htame.size).1
            rw [hheader] at htype ⊢
            exact ⟨_, hreg, htype, rfl⟩
          · rw [receiveFrom_ack] at htype
            cases htype
        · have hencrypted := hdata _ rfl htype
          refine Or.inr ⟨(hsupplies.announcing.encrypted hmoves hencrypted).1, ?_⟩
          exact hhow.resolve_left (by simp [htype])
  · have hstream : s'.stream mover.peer = s.stream mover.peer := hpeer
    refine ⟨fun d b hb buffer htype => ?_, fun sequence hacked => ?_, fun sequence hmem => ?_⟩
    · rw [hairpeer] at hb
      rw [hstream]
      exact h.acks d b hb buffer htype
    · rw [Role.peer_peer, hself] at hacked
      rw [hstream]
      rcases List.mem_append.mp hacked with hacked | hacked
      · exact h.acked sequence (by rwa [Role.peer_peer])
      · obtain ⟨remote, buffer, bytes, now, fault, rfl, htype, rfl⟩ := acks_of_moves hmoves hacked
        exact h.acks _ bytes (hhonest (remote, bytes) rfl).2 buffer htype
    · rw [hstream] at hmem ⊢
      rw [Role.peer_peer, hself, registrations_append]
      refine (h.arrived sequence hmem).imp_left ?_
      rw [Role.peer_peer]
      rintro ⟨r, hr, hshape⟩
      exact ⟨r, List.mem_append_left _ hr, hshape⟩

section Consecutive
variable {registered : List (Packet × Bytes)}

/-- Numbers without a gap begin with 0. -/
theorem mem_tail_of_pos (hconsecutive : registered.map number = List.range registered.length)
    {r : Packet × Bytes} (hr : r ∈ registered) (hpos : 1 ≤ number r) : r ∈ registered.tail := by
  cases registered with
  | nil => cases hr
  | cons first rest =>
      rw [List.map_cons, List.length_cons, List.range_succ_eq_map] at hconsecutive
      refine (List.mem_cons.mp hr).resolve_left ?_
      rintro rfl
      have hzero := (List.cons.inj hconsecutive).1
      omega

/-- The packets that carry payloads are those after the first. -/
theorem dataOf_eq_tail {t : ProtoHopZ P} (hnumbers : Numbers registered t)
    (hconsecutive : registered.map number = List.range registered.length)
    (htail : ∀ r ∈ registered.tail, r.1.header.type = .data) :
    dataOf registered = registered.tail := by
  cases registered with
  | nil => rfl
  | cons first rest =>
      have hfirst : first.1.header.type ≠ .data := by
        intro hdata
        have hpos := hnumbers.data first List.mem_cons_self hdata
        rw [List.map_cons, List.length_cons, List.range_succ_eq_map] at hconsecutive
        have hzero := (List.cons.inj hconsecutive).1
        omega
      unfold dataOf
      rw [List.filter_cons_of_neg (by simpa using hfirst), List.tail_cons, List.filter_eq_self]
      exact fun r hr => decide_eq_true (htail r hr)

end Consecutive

section Retained
variable {tr : List (Role × ProtoStream.Observation)} {s : Session P} {side : Role}

/-- What is acknowledged has arrived, when the peer has numbered its packets without a gap. -/
theorem Retains.arrived_of_acked (h : Retains tr s side) (hcold : ColdStarted tr s)
    (hconsecutive : (registrations (shown side.peer tr)).map number =
      List.range (registrations (shown side.peer tr)).length)
    (htail : ∀ r ∈ (registrations (shown side.peer tr)).tail, r.1.header.type = .data)
    {r : Packet × Bytes} (hr : r ∈ registrations (shown side.peer tr)) (hpos : 1 ≤ number r)
    (hacked : .transport (.acked r.1.header.sequence) ∈ shown side.peer tr) :
    Arrived (s.stream side) r.1.header.sequence := by
  rcases h.arrived _ (h.acked _ hacked) with ⟨hello, hmem, htype, hsame⟩ | ⟨-, harrived⟩
  · obtain rfl := eq_of_number (hcold.numbers side.peer).increasing hmem hr
      (congrArg UInt32.toNat hsame)
    rw [htail hello (mem_tail_of_pos hconsecutive hmem hpos)] at htype
    cases htype
  · exact harrived

/-- **Everything is pushed** when, besides, all of it is acknowledged and no `DATA` packet is queued
any more. -/
theorem Retains.pushed (h : Retains tr s side) (hcold : ColdStarted tr s)
    (hconsecutive : (registrations (shown side.peer tr)).map number =
      List.range (registrations (shown side.peer tr)).length)
    (htail : ∀ r ∈ (registrations (shown side.peer tr)).tail, r.1.header.type = .data)
    (hacked : ∀ r ∈ registrations (shown side.peer tr),
      .transport (.acked r.1.header.sequence) ∈ shown side.peer tr)
    (hqueue : ∀ r ∈ (s.stream side).transport.receivedPacketsQueue.contents,
      r.packet.header.type ≠ .data) :
    (ProtoStream.chunks (shown side tr)).filter (fun c => !c.empty) =
      (dataOf (registrations (shown side.peer tr))).map fun r => carrying r.2 := by
  refine (hcold.delivered side).eq_of_length_le ?_
  have hputting := hcold.putting side
  rw [List.length_map, hcold.chunks side, List.length_map,
    dataOf_eq_tail (hcold.numbers side.peer) hconsecutive htail, List.length_tail]
  by_contra hless
  -- the packet with the number that is waited for
  obtain ⟨r, hr, hnumber⟩ : ∃ r ∈ registrations (shown side.peer tr),
      number r = (s.stream side).expectedSequence.toNat := by
    refine List.mem_map.mp ?_
    rw [hconsecutive, List.mem_range, hputting.next]
    omega
  have hsequence : r.1.header.sequence = (s.stream side).expectedSequence :=
    UInt32.toNat_inj.mp hnumber
  have hpos := hputting.inOrder.pos
  have harrived := h.arrived_of_acked hcold hconsecutive htail hr (by omega) (hacked r hr)
  rw [hsequence] at harrived
  rcases harrived with hlow | hmem | ⟨q, hq, htype, -⟩
  · omega
  · have := (hputting.inOrder.window _ hmem).1
    omega
  · exact hqueue q hq htype

end Retained

end Session
end FileHopZ

import FileHopZ.Library.Map
import FileHopZ.Protohopz.Effects

/-! # The packets in flight

`in_flight_` grows when a call of `send_packet` registers its packet, and shrinks in three
places: `ack_handler`, the error path of `send_packet`, and `stop_loops`, which empties it.
`Flies` says so for every step of the transport, with what the calls do meanwhile.  It
follows that a packet registered by a call that did not fail stays in flight until its
number is acknowledged, as long as no number is used twice (`Tracks`).
-/
namespace FileHopZ

/-- The observation tells of a call of `send_packet` or of `in_flight_`. -/
def Observation.tells : Observation → Bool
  | .registered .. | .acked _ | .returned .. | .stopped _ => true
  | _ => false

namespace ProtoHopZ
variable {P : Primitives}

/-- What a step can do to the packets in flight and to the calls that send them. -/
inductive Flies (t : ProtoHopZ P) (e : Event P) (t' : ProtoHopZ P) (out : List Observation) : Prop
  /-- The packets in flight stay, and no call registers one. -/
  | same (hkeys : t'.inFlight.keys = t.inFlight.keys)
      (hpackets : ∀ sequence l, t'.inFlight.lookup sequence = some l →
        ∃ l', t.inFlight.lookup sequence = some l' ∧ l'.packet = l.packet)
      (hsending : ∀ i packet b, t'.sends i = .sending packet b →
        ∃ b', t.sends i = .sending packet b')
      (hreturned : ∀ i ec, t.sends i = .returned ec → t'.sends i = .returned ec)
      (hout : ∀ o ∈ out, o.tells = true → ∃ i ec, o = .returned i ec ∧
        t'.sends i = .returned ec ∧ (ec = none → ∃ packet b, t.sends i = .sending packet b))
  | registered (i : Nat) (source packet : Packet) (l : PacketLocal) (hsource : t.Intends i source)
      (he : ∃ fault nonce now, e = .resumeSend i fault nonce now)
      (hpacket : packet.header.sequence = t.sequenceCounter) (hl : l.packet = packet)
      (hflight : t'.inFlight = t.inFlight.insert t.sequenceCounter l)
      (hsends : t'.sends = Function.update t.sends i (.sending packet false))
      (hout : out = [.drew t.sequenceCounter, .registered i packet source.data])
  | acked (sequence : UInt32) (hmem : sequence ∈ t.inFlight)
      (hflight : t'.inFlight = t.inFlight.erase sequence) (hsends : t'.sends = t.sends)
      (hout : out = [.acked sequence])
  /-- `async_send_to` has failed. -/
  | failed (i : Nat) (packet : Packet) (ec : Error) (hframe : t.sends i = .sending packet false)
      (hflight : t'.inFlight = t.inFlight.erase packet.header.sequence)
      (hsends : t'.sends = Function.update t.sends i (.returned (some ec)))
      (hout : out = [.returned i (some ec)])
  | stopped (he : e = .resumeStop) (hflight : t'.inFlight = ∅) (hsends : t'.sends = t.sends)
      (hout : out = [.stopped t.loopError])

/-- A step that leaves the calls and the packets alone. -/
theorem flies_of_same {t t' : ProtoHopZ P} {e : Event P} {out : List Observation}
    (hflight : t'.inFlight = t.inFlight) (hsends : t'.sends = t.sends)
    (hout : ∀ o ∈ out, o.tells = false) : Flies t e t' out := by
  refine .same (by rw [hflight]) (fun s l hl => ⟨l, hflight ▸ hl, rfl⟩)
    (fun i packet b hi => ⟨b, hsends ▸ hi⟩) (fun i ec hi => hsends ▸ hi) fun o ho htells => ?_
  rw [hout o ho] at htells
  cases htells

/-- A step of call `i` that neither registers its packet nor gives it up. -/
theorem flies_of_update {t t' : ProtoHopZ P} {e : Event P} {i : Nat} {frame : SendFrame}
    {out : List Observation} (hflight : t'.inFlight = t.inFlight)
    (hsends : t'.sends = Function.update t.sends i frame)
    (hsending : ∀ packet b, frame = .sending packet b → ∃ b', t.sends i = .sending packet b')
    (hreturned : ∀ ec, t.sends i ≠ .returned ec)
    (hout : ∀ o ∈ out, o.tells = true → ∃ ec, o = .returned i ec ∧ frame = .returned ec ∧
      (ec = none → ∃ packet b, t.sends i = .sending packet b)) : Flies t e t' out := by
  refine .same (by rw [hflight]) (fun s l hl => ⟨l, hflight ▸ hl, rfl⟩) ?_ ?_ ?_
  · intro j packet b hj
    rw [hsends] at hj
    by_cases hji : j = i
    · subst hji
      rw [Function.update_self] at hj
      exact hsending packet b hj
    · rw [Function.update_of_ne hji] at hj
      exact ⟨b, hj⟩
  · intro j ec hj
    have hji : j ≠ i := by
      rintro rfl
      exact hreturned ec hj
    rw [hsends, Function.update_of_ne hji]
    exact hj
  · intro o ho htells
    obtain ⟨ec, rfl, rfl, hsource⟩ := hout o ho htells
    exact ⟨i, ec, rfl, by rw [hsends, Function.update_self], hsource⟩

/-! ## Sending -/

theorem sequence_of_encryptPacket {t : ProtoHopZ P} {fault : Option ErrorCode} {nonce : Nonce}
    {source packet : Packet} (h : t.encryptPacket fault nonce source = .ok packet) :
    packet.header.sequence = source.header.sequence := by
  unfold encryptPacket at h
  split_ifs at h
  · obtain rfl := Except.ok.inj h
    rfl
  · split at h
    · cases h
    · split_ifs at h
      obtain rfl := Except.ok.inj h
      rfl

theorem Intends.not_returned {t : ProtoHopZ P} {i : Nat} {source : Packet}
    (h : t.Intends i source) (ec : Option Error) : t.sends i ≠ .returned ec := by
  rcases h with h | h <;> simp [h]

theorem sends_of_fresh {t : ProtoHopZ P} {i : Nat} (h : t.fresh i = true) : t.sends i = .idle := by
  unfold fresh at h
  split at h
  · assumption
  · cases h

/-- A new call is posted. -/
theorem flies_post {t t' : ProtoHopZ P} {e : Event P} {i : Nat} {out : List Observation}
    (hfresh : t.fresh i = true) (hflight : t'.inFlight = t.inFlight)
    (hsends : ∃ source, t'.sends = Function.update t.sends i (.posted source))
    (hout : ∀ o ∈ out, o.tells = false) : Flies t e t' out := by
  obtain ⟨source, hsends⟩ := hsends
  refine flies_of_update hflight hsends (by simp) (by simp [sends_of_fresh hfresh]) ?_
  intro o ho htells
  rw [hout o ho] at htells
  cases htells

theorem flies_unsent {t : ProtoHopZ P} {e : Event P} {i : Nat} {packet : Packet} (ec : Error)
    (hframe : t.sends i = .sending packet false) :
    Flies t e
      { t with
        inFlight := t.inFlight.erase packet.header.sequence
        cwnd := t.cwnd.notifyOne
        sends := Function.update t.sends i (.returned (some ec)) }.signalIfDrained
      [.returned i (some ec)] := by
  rw [signalIfDrained_eq]
  exact .failed i packet ec hframe rfl rfl rfl

/-! ## Receiving, resending and the ends of the loops -/

theorem flies_acked {t : ProtoHopZ P} {e : Event P} (remote : Endpoint) (now : Nat)
    {sequence : UInt32} (hmem : sequence ∈ t.inFlight) :
    Flies t e
      { t.heard remote now with
        inFlight := t.inFlight.erase sequence
        cwnd := (t.cwnd.update t.nextCwnd).notifyOne }.signalIfDrained [.acked sequence] := by
  rw [signalIfDrained_eq]
  exact .acked sequence hmem rfl rfl rfl

/-- `resend_packet` touches the time of sending only. -/
theorem flies_resent {t t' : ProtoHopZ P} {e : Event P} {sequence : UInt32} {now : Nat}
    (hflight : t'.inFlight = (t.touch sequence now).inFlight) (hsends : t'.sends = t.sends) :
    Flies t e t' [] := by
  refine .same (by rw [hflight, keys_touch]) (fun s l hl => ?_) (fun i p b hi => ⟨b, hsends ▸ hi⟩)
    (fun _ _ hi => hsends ▸ hi) (by simp)
  rw [hflight] at hl
  exact lookup_touch hl

theorem flies_handleLoopResult {t u : ProtoHopZ P} {e : Event P} (ec : Option Error)
    (hflight : u.inFlight = t.inFlight) (hsends : u.sends = t.sends) :
    Flies t e (u.handleLoopResult ec) [] := by
  unfold handleLoopResult
  split_ifs
  · exact flies_of_same hflight hsends (by simp)
  unfold storeLoopError
  split
  · exact flies_of_same hflight hsends (by simp)
  · exact flies_of_same hflight hsends (by simp)

theorem flies_shakes {t t' : ProtoHopZ P} {e : Event P} {out : List Observation}
    (h : Shakes t t' out) : Flies t e t' out := by
  cases h with
  | begunInitiator _ _ _ hfresh => exact flies_post hfresh rfl ⟨_, rfl⟩ (by simp)
  | installedResponder _ _ _ _ _ _ _ _ _ _ hfresh =>
      exact flies_post hfresh rfl ⟨_, rfl⟩ (by simp [Observation.tells])
  | failed | begunResponder | sentInitiator | sentResponder | interrupted | rejected
  | installedInitiator =>
      exact flies_of_same rfl rfl (by simp [Observation.tells])

/-- **What a step can do to the packets in flight.** -/
theorem flies_step {t t' : ProtoHopZ P} {e : Event P} {out : List Observation}
    (hs : t.step e = some (t', out)) : Flies t e t' out := by
  cases step_cases hs with
  | sendPacket _ _ hfresh => exact flies_post hfresh rfl ⟨_, rfl⟩ (by simp)
  | refused _ _ _ _ _ _ _ hcall | delayed _ _ _ _ _ _ hcall | unencrypted _ _ _ _ _ _ _ hcall =>
      exact flies_of_update rfl rfl (by simp) hcall.intends.not_returned
        (by simp [Observation.tells])
  | registered i source fault nonce now _ packet hcall _ _ hencrypt =>
      exact .registered i source packet _ hcall.intends ⟨fault, nonce, now, rfl⟩
        (sequence_of_encryptPacket hencrypt) rfl rfl rfl rfl
  | transmitSend i packet hframe =>
      refine flies_of_update rfl rfl (fun p b h => ?_) (by simp [hframe])
        (by simp [Observation.tells])
      obtain ⟨rfl, -⟩ := SendFrame.sending.inj h
      exact ⟨false, hframe⟩
  | sent i packet hframe =>
      exact flies_of_update rfl rfl (by simp) (by simp [hframe]) (by simp [hframe])
  | unsent i packet ec hframe => exact flies_unsent ec hframe
  | acked remote _ _ now _ _ _ _ hmem => exact flies_acked remote now hmem
  | receiveLoopResult | timeoutLoopResult => exact flies_handleLoopResult _ rfl rfl
  | resent => exact flies_resent rfl rfl
  | shakes _ _ _ _ h => exact flies_shakes h
  | resumeStop => exact .stopped rfl rfl rfl rfl
  | repeated | undecrypted | accepted | transmitResend =>
      exact flies_of_same rfl rfl (by simp [sendAck, Observation.tells])
  | startLoops | ignored | unread | tooLarge | receiveError | idled | checked | timedOut
  | unresent | timer | awaitPacket | takePacket | cancelPacket | drain | resumeDrain | stop =>
      exact flies_of_same rfl rfl (by simp)

/-! ## Packets that wait for their acknowledgement -/

/-- Call `i` has registered `packet`, and its number has not been acknowledged since. -/
def Unacked (tr : List Observation) (i : Nat) (packet : Packet) : Prop :=
  ∃ before plaintext after, tr = before ++ .registered i packet plaintext :: after ∧
    .acked packet.header.sequence ∉ after

theorem unacked_append {tr out : List Observation} {i : Nat} {packet : Packet}
    (h : Unacked (tr ++ out) i packet) :
    (Unacked tr i packet ∧ .acked packet.header.sequence ∉ out) ∨
      ∃ plaintext, .registered i packet plaintext ∈ out := by
  obtain ⟨before, plaintext, after, heq, hnot⟩ := h
  rcases List.append_eq_append_iff.mp heq with ⟨rest, -, hout⟩ | ⟨rest, htr, hrest⟩
  · exact Or.inr ⟨plaintext, by rw [hout]; simp⟩
  · cases rest with
    | nil =>
        rw [List.nil_append] at hrest
        exact Or.inr ⟨plaintext, by rw [← hrest]; simp⟩
    | cons o rest =>
        rw [List.cons_append, List.cons.injEq] at hrest
        obtain ⟨rfl, rfl⟩ := hrest
        rw [List.mem_append, not_or] at hnot
        exact Or.inl ⟨⟨before, plaintext, rest, htr, hnot.1⟩, hnot.2⟩

/-- The number that the next call draws is not in use: no packet in flight has it, nor one
that is being sent. -/
def NumberFree (t : ProtoHopZ P) : Prop :=
  t.sequenceCounter ∉ t.inFlight ∧ ∀ i packet b, t.sends i = .sending packet b →
    packet.header.sequence ≠ t.sequenceCounter

/-- The packet of call `i` may still be in flight, or is being sent. -/
def Tied (tr : List Observation) (t : ProtoHopZ P) (i : Nat) (packet : Packet) : Prop :=
  (Unacked tr i packet ∧ ∀ ec, t.sends i ≠ .returned (some ec)) ∨
    ∃ b, t.sends i = .sending packet b

/-- What holds of the packets in flight, and of the trace that has led here. -/
structure Tracks (tr : List Observation) (t : ProtoHopZ P) : Prop where
  flying : ∀ i packet, Unacked tr i packet → (∀ ec, t.sends i ≠ .returned (some ec)) →
    packet.header.sequence ∈ t.inFlight
  single : ∀ i j p q, Tied tr t i p → Tied tr t j q → p.header.sequence = q.header.sequence →
    i = j
  sending : ∀ i packet b, t.sends i = .sending packet b →
    ∃ plaintext, .registered i packet plaintext ∈ tr
  returned : ∀ i ec, .returned i ec ∈ tr → t.sends i = .returned ec ∧
    (ec = none → ∃ packet plaintext, .registered i packet plaintext ∈ tr)

theorem tracks_construct (peer : Endpoint) : Tracks [] (construct P peer) where
  flying i packet h := by
    obtain ⟨before, plaintext, after, heq, -⟩ := h
    simp at heq
  single i j p q hi := by
    rcases hi with ⟨⟨before, plaintext, after, heq, -⟩, -⟩ | ⟨b, hb⟩
    · simp at heq
    · cases hb
  sending i packet b h := by cases h
  returned i ec h := by cases h

/-- What is tracked depends on the packets in flight and the calls only. -/
theorem Tracks.congr {tr : List Observation} {t t' : ProtoHopZ P} (h : Tracks tr t)
    (hflight : t'.inFlight = t.inFlight) (hsends : t'.sends = t.sends) : Tracks tr t' where
  flying i packet hu hnot := hflight ▸ h.flying i packet hu (hsends ▸ hnot)
  single i j p q hi hj := by
    unfold Tied at hi hj
    rw [hsends] at hi hj
    exact h.single i j p q hi hj
  sending i packet b hi := h.sending i packet b (hsends ▸ hi)
  returned i ec hi := hsends ▸ h.returned i ec hi

theorem registered_append {tr : List Observation} (out : List Observation) {i : Nat}
    (h : ∃ packet plaintext, .registered i packet plaintext ∈ tr) :
    ∃ packet plaintext, .registered i packet plaintext ∈ tr ++ out := by
  obtain ⟨packet, plaintext, hmem⟩ := h
  exact ⟨packet, plaintext, List.mem_append_left _ hmem⟩

/-- A call that returns has to have been sending: what the trace says of the calls that have
returned is kept when a step shows no more than that. -/
theorem Tracks.returned_append {tr out : List Observation} {t t' : ProtoHopZ P} (h : Tracks tr t)
    (hkept : ∀ i ec, .returned i ec ∈ tr → t.sends i = .returned ec → t'.sends i = .returned ec)
    (hout : ∀ i ec, .returned i ec ∈ out → t'.sends i = .returned ec ∧
      (ec = none → ∃ packet b, t.sends i = .sending packet b)) (i : Nat) (ec : Option Error)
    (hmem : .returned i ec ∈ tr ++ out) : t'.sends i = .returned ec ∧
      (ec = none → ∃ packet plaintext, .registered i packet plaintext ∈ tr ++ out) := by
  rcases List.mem_append.mp hmem with hmem | hmem
  · obtain ⟨hframe, hsuccess⟩ := h.returned i ec hmem
    exact ⟨hkept i ec hmem hframe, fun hec => registered_append out (hsuccess hec)⟩
  · obtain ⟨hframe, hsource⟩ := hout i ec hmem
    refine ⟨hframe, fun hec => ?_⟩
    obtain ⟨packet, b, hsending⟩ := hsource hec
    exact registered_append out ⟨packet, h.sending i packet b hsending⟩

/-- A step that registers nothing and takes nothing out of `in_flight_`. -/
theorem Tracks.same {tr out : List Observation} {t t' : ProtoHopZ P} (h : Tracks tr t)
    (hkeys : t'.inFlight.keys = t.inFlight.keys)
    (hsending : ∀ i packet b, t'.sends i = .sending packet b →
      ∃ b', t.sends i = .sending packet b')
    (hreturned : ∀ i ec, t.sends i = .returned ec → t'.sends i = .returned ec)
    (hout : ∀ o ∈ out, o.tells = true → ∃ i ec, o = .returned i ec ∧
      t'.sends i = .returned ec ∧ (ec = none → ∃ packet b, t.sends i = .sending packet b)) :
    Tracks (tr ++ out) t' := by
  have hregistered : ∀ i packet plaintext, .registered i packet plaintext ∉ out := by
    intro i packet plaintext hmem
    obtain ⟨j, ec, heq, -⟩ := hout _ hmem rfl
    cases heq
  have hunacked : ∀ i packet, Unacked (tr ++ out) i packet → Unacked tr i packet := by
    intro i packet hu
    rcases unacked_append hu with ⟨hu, -⟩ | ⟨plaintext, hmem⟩
    · exact hu
    · exact absurd hmem (hregistered i packet plaintext)
  have htied : ∀ i packet, Tied (tr ++ out) t' i packet → Tied tr t i packet := by
    rintro i packet (⟨hu, hnot⟩ | ⟨b, hb⟩)
    · exact Or.inl ⟨hunacked i packet hu, fun ec hec => hnot ec (hreturned i _ hec)⟩
    · exact Or.inr (hsending i packet b hb)
  refine ⟨fun i packet hu hnot => ?_, fun i j p q hi hj => ?_, fun i packet b hi => ?_, ?_⟩
  · have hold := h.flying i packet (hunacked i packet hu)
      fun ec hec => hnot ec (hreturned i _ hec)
    rw [← Finmap.mem_keys] at hold ⊢
    rwa [hkeys]
  · exact h.single i j p q (htied i p hi) (htied j q hj)
  · obtain ⟨b', hb'⟩ := hsending i packet b hi
    obtain ⟨plaintext, hmem⟩ := h.sending i packet b' hb'
    exact ⟨plaintext, List.mem_append_left _ hmem⟩
  · refine h.returned_append (fun i ec _ hframe => hreturned i ec hframe) fun i ec hmem => ?_
    obtain ⟨j, ec', heq, hframe⟩ := hout _ hmem rfl
    obtain ⟨rfl, rfl⟩ := Observation.returned.inj heq
    exact hframe

/-- A call registers its packet, under a number not in use. -/
theorem Tracks.register {tr : List Observation} {t t' : ProtoHopZ P} {i : Nat}
    {source packet : Packet} {l : PacketLocal} (h : Tracks tr t) (hfree : t.NumberFree)
    (hsource : t.Intends i source) (hpacket : packet.header.sequence = t.sequenceCounter)
    (hflight : t'.inFlight = t.inFlight.insert t.sequenceCounter l)
    (hsends : t'.sends = Function.update t.sends i (.sending packet false)) :
    Tracks (tr ++ [.drew t.sequenceCounter, .registered i packet source.data]) t' := by
  obtain ⟨hfree, hsending⟩ := hfree
  have hother : ∀ {j}, j ≠ i → t'.sends j = t.sends j := by
    intro j hj
    rw [hsends, Function.update_of_ne hj]
  have hself : t'.sends i = .sending packet false := by rw [hsends, Function.update_self]
  have hunacked : ∀ j q,
      Unacked (tr ++ [.drew t.sequenceCounter, .registered i packet source.data]) j q →
        Unacked tr j q ∨ j = i ∧ q = packet := by
    intro j q hu
    rcases unacked_append hu with ⟨hu, -⟩ | ⟨plaintext, hmem⟩
    · exact Or.inl hu
    · simp only [List.mem_cons, reduceCtorEq, Observation.registered.injEq, List.not_mem_nil,
        or_false, false_or] at hmem
      exact Or.inr ⟨hmem.1, hmem.2.1⟩
  have hkept : ∀ j, (∀ ec, t'.sends j ≠ .returned (some ec)) →
      ∀ ec, t.sends j ≠ .returned (some ec) := by
    intro j hnot ec hec
    by_cases hji : j = i
    · exact hsource.not_returned (some ec) (hji ▸ hec)
    · exact hnot ec ((hother hji).trans hec)
  -- what is tied was tied before, or is the packet registered
  have htied : ∀ j q,
      Tied (tr ++ [.drew t.sequenceCounter, .registered i packet source.data]) t' j q →
        Tied tr t j q ∨ j = i ∧ q = packet := by
    rintro j q (⟨hu, hnot⟩ | ⟨b, hb⟩)
    · exact (hunacked j q hu).imp (fun hu => Or.inl ⟨hu, hkept j hnot⟩) id
    · by_cases hji : j = i
      · subst hji
        rw [hself] at hb
        exact Or.inr ⟨rfl, (SendFrame.sending.inj hb).1.symm⟩
      · exact Or.inl (Or.inr ⟨b, (hother hji).symm.trans hb⟩)
  have hnumber : ∀ j q, Tied tr t j q → q.header.sequence ≠ packet.header.sequence := by
    rintro j q (⟨hu, hnot⟩ | ⟨b, hb⟩)
    · intro heq
      have hmem := h.flying j q hu hnot
      rw [heq, hpacket] at hmem
      exact hfree hmem
    · rw [hpacket]
      exact hsending j q b hb
  refine ⟨fun j q hu hnot => ?_, fun j k p q hj hk heq => ?_, fun j q b hj => ?_, ?_⟩
  · rw [hflight, Finmap.mem_insert]
    rcases hunacked j q hu with hu | ⟨rfl, rfl⟩
    · exact Or.inr (h.flying j q hu (hkept j hnot))
    · exact Or.inl hpacket
  · rcases htied j p hj with hold | ⟨rfl, rfl⟩
    · rcases htied k q hk with hold' | ⟨rfl, rfl⟩
      · exact h.single j k p q hold hold' heq
      · exact absurd heq (hnumber j p hold)
    · rcases htied k q hk with hold | ⟨rfl, -⟩
      · exact absurd heq.symm (hnumber k q hold)
      · rfl
  · by_cases hji : j = i
    · subst hji
      rw [hself] at hj
      obtain ⟨rfl, -⟩ := SendFrame.sending.inj hj
      exact ⟨source.data, by simp⟩
    · obtain ⟨plaintext, hmem⟩ := h.sending j q b ((hother hji).symm.trans hj)
      exact ⟨plaintext, List.mem_append_left _ hmem⟩
  · refine h.returned_append (fun j ec _ hframe => ?_) fun j ec hmem => by simp at hmem
    have hji : j ≠ i := by
      rintro rfl
      exact hsource.not_returned ec hframe
    rw [hother hji, hframe]

/-- A number is acknowledged. -/
theorem Tracks.ack {tr : List Observation} {t t' : ProtoHopZ P} {sequence : UInt32}
    (h : Tracks tr t) (hflight : t'.inFlight = t.inFlight.erase sequence)
    (hsends : t'.sends = t.sends) : Tracks (tr ++ [.acked sequence]) t' := by
  have hunacked : ∀ i packet, Unacked (tr ++ [.acked sequence]) i packet →
      Unacked tr i packet ∧ packet.header.sequence ≠ sequence := by
    intro i packet hu
    rcases unacked_append hu with ⟨hu, hnot⟩ | ⟨plaintext, hmem⟩
    · rw [List.mem_singleton] at hnot
      exact ⟨hu, fun heq => hnot (by rw [heq])⟩
    · rw [List.mem_singleton] at hmem
      cases hmem
  have htied : ∀ i packet, Tied (tr ++ [.acked sequence]) t' i packet → Tied tr t i packet := by
    rintro i packet (⟨hu, hnot⟩ | ⟨b, hb⟩)
    · exact Or.inl ⟨(hunacked i packet hu).1, hsends ▸ hnot⟩
    · exact Or.inr ⟨b, hsends ▸ hb⟩
  refine ⟨fun i packet hu hnot => ?_, fun i j p q hi hj => ?_, fun i packet b hi => ?_, ?_⟩
  · obtain ⟨hu, hne⟩ := hunacked i packet hu
    rw [hflight, Finmap.mem_erase]
    exact ⟨hne, h.flying i packet hu (hsends ▸ hnot)⟩
  · exact h.single i j p q (htied i p hi) (htied j q hj)
  · obtain ⟨plaintext, hmem⟩ := h.sending i packet b (hsends ▸ hi)
    exact ⟨plaintext, List.mem_append_left _ hmem⟩
  · exact h.returned_append (fun i ec _ hframe => hsends ▸ hframe) fun i ec hmem => by
      simp at hmem

/-- The socket does not take the packet of a call. -/
theorem Tracks.fail {tr : List Observation} {t t' : ProtoHopZ P} {i : Nat} {packet : Packet}
    {ec : Error} (h : Tracks tr t) (hframe : t.sends i = .sending packet false)
    (hflight : t'.inFlight = t.inFlight.erase packet.header.sequence)
    (hsends : t'.sends = Function.update t.sends i (.returned (some ec))) :
    Tracks (tr ++ [.returned i (some ec)]) t' := by
  have hother : ∀ {j}, j ≠ i → t'.sends j = t.sends j := by
    intro j hj
    rw [hsends, Function.update_of_ne hj]
  have hfailed : t'.sends i = .returned (some ec) := by rw [hsends, Function.update_self]
  have hnotSending : ∀ {j q b}, t'.sends j = .sending q b → j ≠ i := by
    rintro j q b hj rfl
    rw [hfailed] at hj
    cases hj
  have hunacked : ∀ j q, Unacked (tr ++ [.returned i (some ec)]) j q → Unacked tr j q := by
    intro j q hu
    rcases unacked_append hu with ⟨hu, -⟩ | ⟨plaintext, hmem⟩
    · exact hu
    · rw [List.mem_singleton] at hmem
      cases hmem
  have htied : ∀ j q, Tied (tr ++ [.returned i (some ec)]) t' j q → j ≠ i ∧ Tied tr t j q := by
    rintro j q (⟨hu, hnot⟩ | ⟨b, hb⟩)
    · have hji : j ≠ i := by
        rintro rfl
        exact hnot ec hfailed
      exact ⟨hji, Or.inl ⟨hunacked j q hu, fun ec' hec => hnot ec' ((hother hji).trans hec)⟩⟩
    · have hji := hnotSending hb
      exact ⟨hji, Or.inr ⟨b, (hother hji).symm.trans hb⟩⟩
  refine ⟨fun j q hu hnot => ?_, fun j k p q hj hk => ?_, fun j q b hj => ?_, ?_⟩
  · obtain ⟨hji, hj⟩ := htied j q (Or.inl ⟨hu, hnot⟩)
    rw [hflight, Finmap.mem_erase]
    refine ⟨fun heq => hji (h.single j i q packet hj (Or.inr ⟨false, hframe⟩) heq), ?_⟩
    exact h.flying j q (hunacked j q hu) fun ec' hec => hnot ec' ((hother hji).trans hec)
  · exact h.single j k p q (htied j p hj).2 (htied k q hk).2
  · obtain ⟨plaintext, hmem⟩ := h.sending j q b ((hother (hnotSending hj)).symm.trans hj)
    exact ⟨plaintext, List.mem_append_left _ hmem⟩
  · refine h.returned_append (fun j ec' _ hj => ?_) fun j ec' hmem => ?_
    · have hji : j ≠ i := by
        rintro rfl
        rw [hframe] at hj
        cases hj
      rw [hother hji, hj]
    · obtain ⟨rfl, rfl⟩ := Observation.returned.inj (List.mem_singleton.mp hmem)
      exact ⟨hfailed, by simp⟩

/-- **The step lemma**, up to `stop_loops`. -/
theorem Tracks.step {tr out : List Observation} {t t' : ProtoHopZ P} {e : Event P}
    (h : Tracks tr t) (hs : t.step e = some (t', out)) (hstop : e ≠ .resumeStop)
    (hfree : ∀ i fault nonce now, e = .resumeSend i fault nonce now → t.NumberFree) :
    Tracks (tr ++ out) t' := by
  cases flies_step hs with
  | same hkeys _ hsending hreturned hout => exact h.same hkeys hsending hreturned hout
  | registered i source packet l hsource he hpacket hl hflight hsends hout =>
      obtain ⟨fault, nonce, now, rfl⟩ := he
      rw [hout]
      exact h.register (hfree i fault nonce now rfl) hsource hpacket hflight hsends
  | acked sequence _ hflight hsends hout =>
      rw [hout]
      exact h.ack hflight hsends
  | failed i packet ec hframe hflight hsends hout =>
      rw [hout]
      exact h.fail hframe hflight hsends
  | stopped he => exact absurd he hstop

/-- `stop_loops` alone says that it has emptied `in_flight_`. -/
theorem not_stopped_step {out : List Observation} {t t' : ProtoHopZ P} {e : Event P}
    (hs : t.step e = some (t', out)) (hstop : e ≠ .resumeStop) (ec : Option Error) :
    .stopped ec ∉ out := by
  intro hmem
  cases flies_step hs with
  | same _ _ _ _ hout =>
      obtain ⟨i, ec', heq, -⟩ := hout _ hmem rfl
      cases heq
  | registered i source packet l _ _ _ _ _ _ hout => simp [hout] at hmem
  | acked sequence _ _ _ hout => simp [hout] at hmem
  | failed i packet ec' _ _ _ hout => simp [hout] at hmem
  | stopped he => exact hstop he

end ProtoHopZ
end FileHopZ

import FileHopZ.Protohopz.Numbering

/-! # A number stands for one packet

As long as the counter does not wrap around, a number is drawn once.  Every copy of a packet
that is under way -- in `in_flight_`, in a call of `send_packet`, in `resend_packet` -- is the
packet registered under its number, so whatever is sent under a number is the same datagram.
-/
namespace FileHopZ

namespace ProtoHopZ
variable {P : Primitives}

/-- The numbers that calls have drawn. -/
def draws (tr : List Observation) : List UInt32 :=
  tr.filterMap fun
    | .drew sequence => some sequence
    | _ => none

theorem draws_append (tr tr' : List Observation) : draws (tr ++ tr') = draws tr ++ draws tr' :=
  List.filterMap_append ..

theorem draws_eq_nil {out : List Observation} (h : ∀ o ∈ out, o.draws = false) :
    draws out = [] := by
  apply List.filterMap_eq_nil_iff.mpr
  intro o ho
  have hno := h o ho
  cases o with
  | drew s => cases hno
  | _ => rfl

/-- Some call has registered the packet. -/
def WasRegistered (tr : List Observation) (p : Packet) : Prop :=
  ∃ i plaintext, .registered i p plaintext ∈ tr

theorem registered_mono {tr : List Observation} (out : List Observation) {p : Packet}
    (h : WasRegistered tr p) : WasRegistered (tr ++ out) p := by
  obtain ⟨i, plaintext, hmem⟩ := h
  exact ⟨i, plaintext, List.mem_append_left _ hmem⟩

/-- Every number drawn is below the counter, and stands for one packet. -/
structure Identity (tr : List Observation) (s : Numbered P) : Prop where
  drawn : s.drawn = s.transport.sequenceCounter.toNat
  increasing : (draws tr).Pairwise (· < ·)
  below : ∀ n ∈ draws tr, n.toNat < s.drawn
  numbered : ∀ p, WasRegistered tr p → p.header.sequence.toNat < s.drawn
  single : ∀ p q, WasRegistered tr p → WasRegistered tr q → p.header.sequence = q.header.sequence → p = q
  flight : ∀ key l, s.transport.inFlight.lookup key = some l →
    l.packet.header.sequence = key ∧ key.toNat < s.drawn
  holds : ∀ p, s.transport.Holds p → WasRegistered tr p
  sent : ∀ destination bytes, .transmitted destination bytes ∈ tr →
    (∃ p, WasRegistered tr p ∧ bytes = p.datagram) ∨ ∃ q, bytes = (ackPacket q).datagram

/-- The constructed transport. -/
def numbered (P : Primitives) (peer : Endpoint) : Numbered P := { transport := construct P peer }

theorem identity_numbered (peer : Endpoint) : Identity [] (numbered P peer) where
  drawn := rfl
  increasing := List.Pairwise.nil
  below _ h := absurd h List.not_mem_nil
  numbered p h := by
    obtain ⟨i, plaintext, hmem⟩ := h
    cases hmem
  single p q h := by
    obtain ⟨i, plaintext, hmem⟩ := h
    cases hmem
  flight key l h := by cases h
  holds p h := by
    rcases h with ⟨s, l, hl, -⟩ | ⟨i, b, hi⟩ | ⟨b, rest, hr⟩
    · cases hl
    · cases hi
    · cases hr
  sent _ _ h := absurd h List.not_mem_nil

/-- What a step sends is the datagram of a packet that has been registered, or an
acknowledgement. -/
theorem Identity.sent_append {tr out : List Observation} {s : Numbered P} {e : Event P}
    {t' : ProtoHopZ P} (h : Identity tr s) (heffect : Effect s.transport e t' out)
    (destination : Endpoint) (bytes : Bytes) (hmem : .transmitted destination bytes ∈ tr ++ out) :
    (∃ p, WasRegistered (tr ++ out) p ∧ bytes = p.datagram) ∨
      ∃ q, bytes = (ackPacket q).datagram := by
  rcases List.mem_append.mp hmem with hmem | hmem
  · exact (h.sent _ _ hmem).imp (fun ⟨p, hp, heq⟩ => ⟨p, registered_mono out hp, heq⟩) id
  · rcases heffect.transmits _ _ hmem with ⟨p, hp, heq⟩ | ⟨_, buffer, received, _, _, -, heq, -⟩
    · exact Or.inl ⟨p, registered_mono out (h.holds p hp), heq⟩
    · exact Or.inr ⟨_, heq⟩

/-- A step that registers nothing. -/
theorem Identity.quiet {tr out : List Observation} {s s' : Numbered P} {e : Event P}
    (h : Identity tr s) (heffect : Effect s.transport e s'.transport out)
    (hdrawn : s'.drawn = s'.transport.sequenceCounter.toNat) (hle : s.drawn ≤ s'.drawn)
    (hdraws : (draws (tr ++ out)).Pairwise (· < ·) ∧ ∀ n ∈ draws (tr ++ out), n.toNat < s'.drawn)
    (hnone : ∀ i p plaintext, .registered i p plaintext ∉ out)
    (hflight : ∀ key l, s'.transport.inFlight.lookup key = some l →
      ∃ l', s.transport.inFlight.lookup key = some l' ∧ l'.packet = l.packet) :
    Identity (tr ++ out) s' := by
  have hold : ∀ p, WasRegistered (tr ++ out) p → WasRegistered tr p := by
    rintro p ⟨i, plaintext, hmem⟩
    rcases List.mem_append.mp hmem with hmem | hmem
    · exact ⟨i, plaintext, hmem⟩
    · exact absurd hmem (hnone i p plaintext)
  refine ⟨hdrawn, hdraws.1, hdraws.2, fun p hp => ?_, fun p q hp hq => ?_, fun key l hl => ?_,
    fun p hp => ?_, h.sent_append heffect⟩
  · exact (h.numbered p (hold p hp)).trans_le hle
  · exact h.single p q (hold p hp) (hold q hq)
  · obtain ⟨l', hl', hpacket⟩ := hflight key l hl
    rw [← hpacket]
    exact ⟨(h.flight key l' hl').1, (h.flight key l' hl').2.trans_le hle⟩
  · rcases heffect.holds p hp with hp | ⟨i, plaintext, hmem⟩
    · exact registered_mono out (h.holds p hp)
    · exact absurd hmem (hnone i p plaintext)

/-- What flies after a step that registers nothing has flown before. -/
theorem lookup_of_flies {t t' : ProtoHopZ P} {e : Event P} {out : List Observation}
    (h : Flies t e t' out) (hnone : ∀ i p plaintext, .registered i p plaintext ∉ out)
    (key : UInt32) (l : PacketLocal) (hl : t'.inFlight.lookup key = some l) :
    ∃ l', t.inFlight.lookup key = some l' ∧ l'.packet = l.packet := by
  cases h with
  | same hkeys hpackets hsending hreturned hout => exact hpackets key l hl
  | registered i source packet l₀ hsource he hpacket hl₀ hflight hsends hout =>
      exact absurd (by simp [hout]) (hnone i packet source.data)
  | acked sequence hmem hflight hsends hout =>
      rw [hflight] at hl
      exact ⟨l, (FiniteMap.lookup_of_erase hl).2, rfl⟩
  | failed i packet ec hframe hflight hsends hout =>
      rw [hflight] at hl
      exact ⟨l, (FiniteMap.lookup_of_erase hl).2, rfl⟩
  | stopped he hflight hsends hout =>
      rw [hflight] at hl
      cases hl

/-- What flies after a packet has been registered. -/
theorem lookup_of_registered {t t' : ProtoHopZ P} {e : Event P} {out : List Observation}
    (h : Flies t e t' out) {i : Nat} {packet : Packet} {plaintext : Bytes}
    (hmem : .registered i packet plaintext ∈ out) (key : UInt32) (l : PacketLocal)
    (hl : t'.inFlight.lookup key = some l) :
    packet.header.sequence = t.sequenceCounter ∧
      (key = t.sequenceCounter ∧ l.packet = packet ∨ t.inFlight.lookup key = some l) := by
  cases h with
  | same hkeys hpackets hsending hreturned hout =>
      obtain ⟨j, ec, heq, -⟩ := hout _ hmem rfl
      cases heq
  | registered j source p l₀ hsource he hpacket hl₀ hflight hsends hout =>
      rw [hout] at hmem
      simp only [List.mem_cons, reduceCtorEq, Observation.registered.injEq, List.not_mem_nil,
        or_false, false_or] at hmem
      obtain ⟨rfl, rfl, rfl⟩ := hmem
      refine ⟨hpacket, ?_⟩
      rw [hflight] at hl
      rcases FiniteMap.lookup_insert_cases hl with ⟨rfl, rfl⟩ | ⟨-, hold⟩
      · exact Or.inl ⟨rfl, hl₀⟩
      · exact Or.inr hold
  | acked sequence _ hflight hsends hout => simp [hout] at hmem
  | failed j p ec hframe hflight hsends hout => simp [hout] at hmem
  | stopped he hflight hsends hout => simp [hout] at hmem

/-- A call registers its packet under the number it draws. -/
theorem Identity.register {tr out : List Observation} {s s' : Numbered P} {e : Event P}
    {i : Nat} {packet : Packet} {plaintext : Bytes} (h : Identity tr s)
    (heffect : Effect s.transport e s'.transport out)
    (hflies : Flies s.transport e s'.transport out)
    (hdrawn : s'.drawn = s'.transport.sequenceCounter.toNat) (hgrow : s'.drawn = s.drawn + 1)
    (hsequence : packet.header.sequence = s.transport.sequenceCounter)
    (hdraws : (draws (tr ++ out)).Pairwise (· < ·) ∧ ∀ n ∈ draws (tr ++ out), n.toNat < s'.drawn)
    (hout : out = [.drew s.transport.sequenceCounter, .registered i packet plaintext]) :
    Identity (tr ++ out) s' := by
  have hmem : .registered i packet plaintext ∈ out := by simp [hout]
  have hnew : ∀ p, WasRegistered (tr ++ out) p → WasRegistered tr p ∨ p = packet := by
    rintro p ⟨j, pl, hp⟩
    rcases List.mem_append.mp hp with hp | hp
    · exact Or.inl ⟨j, pl, hp⟩
    · rw [hout] at hp
      simp only [List.mem_cons, reduceCtorEq, Observation.registered.injEq, List.not_mem_nil,
        or_false, false_or] at hp
      exact Or.inr hp.2.1
  have hnumber : packet.header.sequence.toNat = s.drawn := by rw [hsequence, h.drawn]
  have hother : ∀ p, WasRegistered tr p → p.header.sequence ≠ packet.header.sequence := by
    intro p hp heq
    have := h.numbered p hp
    rw [heq, hnumber] at this
    exact Nat.lt_irrefl _ this
  refine ⟨hdrawn, hdraws.1, hdraws.2, fun p hp => ?_, fun p q hp hq heq => ?_, fun key l hl => ?_,
    fun p hp => ?_, h.sent_append heffect⟩
  · rcases hnew p hp with hp | rfl
    · have := h.numbered p hp
      omega
    · omega
  · rcases hnew p hp with hp | rfl
    · rcases hnew q hq with hq | rfl
      · exact h.single p q hp hq heq
      · exact absurd heq (hother p hp)
    · rcases hnew q hq with hq | rfl
      · exact absurd heq.symm (hother q hq)
      · rfl
  · rcases (lookup_of_registered hflies hmem key l hl).2 with ⟨rfl, hpacket⟩ | hold
    · rw [hpacket]
      exact ⟨hsequence, by rw [← h.drawn]; omega⟩
    · have := (h.flight key l hold).2
      exact ⟨(h.flight key l hold).1, by omega⟩
  · rcases heffect.holds p hp with hp | ⟨j, pl, hp⟩
    · exact registered_mono out (h.holds p hp)
    · exact ⟨j, pl, List.mem_append_right _ hp⟩

/-- The number drawn comes after the earlier ones. -/
theorem Identity.draws_drew {tr out : List Observation} {s : Numbered P} (h : Identity tr s)
    (hout : draws out = [s.transport.sequenceCounter]) :
    (draws (tr ++ out)).Pairwise (· < ·) ∧ ∀ n ∈ draws (tr ++ out), n.toNat < s.drawn + 1 := by
  rw [draws_append, hout]
  constructor
  · apply List.pairwise_append.mpr
    refine ⟨h.increasing, List.pairwise_singleton _ _, fun n hn m hm => ?_⟩
    rw [List.mem_singleton.mp hm, UInt32.lt_iff_toNat_lt, ← h.drawn]
    exact h.below n hn
  · intro n hn
    rcases List.mem_append.mp hn with hn | hn
    · exact Nat.lt_succ_of_lt (h.below n hn)
    · rw [List.mem_singleton.mp hn, h.drawn]
      exact Nat.lt_succ_self _

/-- **The step lemma.** -/
theorem Identity.step {tr out : List Observation} {s s' : Numbered P} {ev : SendEvent P}
    (h : Identity tr s) (hs : s.step ev = some (s', out)) (hfew : s'.drawn < 2 ^ 32) :
    Identity (tr ++ out) s' := by
  have hdrawn := Numbered.drawn_eq_step h.drawn hs hfew
  have hle := Numbered.drawn_le_step hs
  obtain ⟨ht, hgrow⟩ := Numbered.step_cases hs
  obtain ⟨e, heffect, hflies, hcounts, -⟩ := sendStep_cases ht
  -- Only a call that draws a number shows that it does, or registers a packet.
  have hquiet : (∀ o ∈ out, o.draws = false) → Identity (tr ++ out) s' := by
    intro hno
    have hdraws : draws (tr ++ out) = draws tr := by
      rw [draws_append, draws_eq_nil hno, List.append_nil]
    have hnone : ∀ i p plaintext, .registered i p plaintext ∉ out := by
      rcases heffect.registers with ⟨hnone, -⟩ | ⟨i, source, fault, nonce, p, -, -, hout, -⟩
      · exact hnone
      · rw [hout] at hno
        cases hno _ (List.mem_cons_self ..)
    refine h.quiet heffect hdrawn hle ?_ hnone (lookup_of_flies hflies hnone)
    rw [hdraws]
    exact ⟨h.increasing, fun n hn => (h.below n hn).trans_le hle⟩
  cases hcounts with
  | same _ hno => exact hquiet hno
  | woke _ _ hno => exact hquiet hno
  | drew i source fault nonce now _ _ _ hcounter hout =>
      have hone : s'.drawn = s.drawn + 1 := by
        rcases hgrow with ⟨hsame, hsameDrawn⟩ | ⟨-, hone⟩
        · rw [hdrawn, hsame, ← h.drawn] at hsameDrawn
          rw [hcounter] at hsame
          have := congrArg UInt32.toNat hsame
          rw [UInt32.toNat_add] at this
          have hone : (1 : UInt32).toNat = 1 := rfl
          have hlt := s.transport.sequenceCounter.toNat_lt
          omega
        · exact hone
      rcases hout with ⟨ec, -, hout, hflight⟩ | ⟨packet, hpacket, hout⟩
      · refine h.quiet heffect hdrawn hle ?_ (by simp [hout]) ?_
        · rw [hone]
          exact h.draws_drew (by rw [hout]; rfl)
        · intro key l hl
          exact ⟨l, hflight ▸ hl, rfl⟩
      · refine h.register heffect hflies hdrawn hone (sequence_of_encryptPacket hpacket) ?_ hout
        rw [hone]
        exact h.draws_drew (by rw [hout]; rfl)

/-! ## Runs -/

theorem drawn_le_run {tr : List Observation} {s s' : Numbered P}
    (h : Transition.Run Numbered.step Transition.Always s tr s') : s.drawn ≤ s'.drawn := by
  induction h with
  | start => exact le_rfl
  | next _ _ hs ih => exact ih.trans (Numbered.drawn_le_step hs)

theorem identity_run {peer : Endpoint} {tr : List Observation} {s : Numbered P}
    (h : Transition.Run Numbered.step Transition.Always (numbered P peer) tr s)
    (hfew : s.drawn < 2 ^ 32) : Identity tr s := by
  induction h with
  | start => exact identity_numbered peer
  | next _ _ hs ih => exact (ih (Nat.lt_of_le_of_lt (Numbered.drawn_le_step hs) hfew)).step hs hfew

/-- A number that has been drawn and is not in flight stays out. -/
theorem notMem_step {tr out : List Observation} {s s' : Numbered P} {ev : SendEvent P}
    (h : Identity tr s) (hs : s.step ev = some (s', out)) {key : UInt32}
    (hkey : key.toNat < s.drawn) (hout : key ∉ s.transport.inFlight) :
    key ∉ s'.transport.inFlight := by
  obtain ⟨ht, -⟩ := Numbered.step_cases hs
  obtain ⟨e, heffect, hflies, -, -⟩ := sendStep_cases ht
  intro hmem
  obtain ⟨l, hl⟩ := Finmap.mem_iff.mp hmem
  rcases heffect.registers with ⟨hnone, -⟩ | ⟨i, source, fault, nonce, p, -, -, hshown, -⟩
  · obtain ⟨l', hl', -⟩ := lookup_of_flies hflies hnone key l hl
    exact hout (Finmap.mem_of_lookup_eq_some hl')
  · have hregistered : .registered i p source.data ∈ out := by simp [hshown]
    rcases (lookup_of_registered hflies hregistered key l hl).2 with ⟨rfl, -⟩ | hold
    · rw [h.drawn] at hkey
      exact Nat.lt_irrefl _ hkey
    · exact hout (Finmap.mem_of_lookup_eq_some hold)

theorem notMem_run {peer : Endpoint} {tr tr' : List Observation} {s s' : Numbered P}
    (h : Transition.Run Numbered.step Transition.Always (numbered P peer) tr s)
    (h' : Transition.Run Numbered.step Transition.Always s tr' s') (hfew : s'.drawn < 2 ^ 32)
    {key : UInt32} (hkey : key.toNat < s.drawn) (hout : key ∉ s.transport.inFlight) :
    key ∉ s'.transport.inFlight := by
  induction h' with
  | start => exact hout
  | next hrun _ hs ih =>
      have hbefore := Nat.lt_of_le_of_lt (Numbered.drawn_le_step hs) hfew
      have hI := identity_run (h.append hrun) hbefore
      exact notMem_step hI hs (hkey.trans_le (drawn_le_run hrun)) (ih hbefore)

/-- **A number stands for one packet**, from the time it is drawn. -/
theorem number_identifies_packet {peer : Endpoint} {tr : List Observation} {s : Numbered P}
    (h : Transition.Run Numbered.step Transition.Always (numbered P peer) tr s)
    (hfew : s.drawn < 2 ^ 32) :
    (∀ key l, s.transport.inFlight.lookup key = some l →
      l.packet.header.sequence = key ∧ key < s.transport.sequenceCounter) ∧
    (draws tr).Nodup ∧
    (∀ tr₀ s₀ tr₁ s₁ tr₂ key,
      Transition.Run Numbered.step Transition.Always (numbered P peer) tr₀ s₀ →
      Transition.Run Numbered.step Transition.Always s₀ tr₁ s₁ →
      Transition.Run Numbered.step Transition.Always s₁ tr₂ s →
      key ∈ s₀.transport.inFlight → key ∉ s₁.transport.inFlight → key ∉ s.transport.inFlight) ∧
    ∀ destination bytes destination' bytes',
      .transmitted destination bytes ∈ tr → .transmitted destination' bytes' ∈ tr →
      (PacketHeader.ofBytes bytes).type ≠ .ack → (PacketHeader.ofBytes bytes').type ≠ .ack →
      (PacketHeader.ofBytes bytes).sequence = (PacketHeader.ofBytes bytes').sequence →
      bytes = bytes' := by
  have hI := identity_run h hfew
  refine ⟨fun key l hl => ?_, hI.increasing.imp UInt32.ne_of_lt, ?_, ?_⟩
  · rw [UInt32.lt_iff_toNat_lt, ← hI.drawn]
    exact hI.flight key l hl
  · intro tr₀ s₀ tr₁ s₁ tr₂ key h₀ h₁ h₂ hin hout
    have hle₂ := drawn_le_run h₂
    have hle₁ := drawn_le_run h₁
    have hI₀ := identity_run h₀ (by omega)
    obtain ⟨l, hl⟩ := Finmap.mem_iff.mp hin
    have hkey := (hI₀.flight key l hl).2
    exact notMem_run (h₀.append h₁) h₂ hfew (by omega) hout
  · intro d bytes d' bytes' hb hb' htype htype' hsequence
    have hpacket : ∀ destination b, .transmitted destination b ∈ tr →
        (PacketHeader.ofBytes b).type ≠ .ack → ∃ p, WasRegistered tr p ∧ b = p.datagram := by
      intro destination b hmem hnot
      refine (hI.sent _ _ hmem).resolve_right ?_
      rintro ⟨q, rfl⟩
      apply hnot
      rw [(ackPacket q).datagram_eq, PacketHeader.ofBytes_toBytes rfl]
      rfl
    obtain ⟨p, hp, rfl⟩ := hpacket d bytes hb htype
    obtain ⟨q, hq, rfl⟩ := hpacket d' bytes' hb' htype'
    rw [p.sequence_ofBytes_datagram, q.sequence_ofBytes_datagram] at hsequence
    rw [hI.single p q hp hq hsequence]

/-- The datagrams given to the socket. -/
def transmissions (tr : List Observation) : List Bytes :=
  tr.filterMap fun
    | .transmitted _ bytes => some bytes
    | _ => none

theorem transmitted_of_mem_transmissions {tr : List Observation} {bytes : Bytes}
    (h : bytes ∈ transmissions tr) : ∃ destination, .transmitted destination bytes ∈ tr := by
  obtain ⟨o, ho, heq⟩ := List.mem_filterMap.mp h
  split at heq
  · rw [← Option.some.inj heq]
    exact ⟨_, ho⟩
  · cases heq

/-- A packet is sent, and sent again after the timeout: the two datagrams are the same. -/
theorem number_identifies_packet_resent : ∃ tr s first second,
    Transition.Run Numbered.step Transition.Always (numbered .additive ⟨1, 9⟩) tr s ∧
      s.drawn = 1 ∧ draws tr = [0] ∧ transmissions tr = [first, second] ∧ first = second := by
  obtain ⟨tr, s, hrun, hp⟩ := Transition.exists_run Numbered.step Transition.Always
    (numbered .additive ⟨1, 9⟩)
    [.transport (.startLoops 0),
      .transport (.sendPacket 0 (.blank { type := .data, size := 4, sequence := 0 })),
      .transport (.resumeSend 0 none Nonce.zero 0), .transport (.transmitSend 0),
      .transport (.finishSend 0 none), .transport (.timeoutIteration 200 [0]),
      .transport .transmitResend]
    (fun tr s => decide (s.drawn = 1 ∧ draws tr = [0] ∧ (transmissions tr).length = 2 ∧
      ∀ bytes ∈ transmissions tr, (PacketHeader.ofBytes bytes).type ≠ .ack ∧
        (PacketHeader.ofBytes bytes).sequence = 0))
    (fun _ _ => true) (fun _ _ _ => trivial) (by decide +kernel)
  obtain ⟨hone, hdraws, htwo, hheaders⟩ := of_decide_eq_true hp
  obtain ⟨first, second, hsent⟩ := List.length_eq_two.mp htwo
  have hfirst : first ∈ transmissions tr := hsent ▸ List.mem_cons_self
  have hsecond : second ∈ transmissions tr := hsent ▸ by simp
  obtain ⟨_, htr⟩ := transmitted_of_mem_transmissions hfirst
  obtain ⟨_, htr'⟩ := transmitted_of_mem_transmissions hsecond
  obtain ⟨htype, hsequence⟩ := hheaders first hfirst
  obtain ⟨htype', hsequence'⟩ := hheaders second hsecond
  refine ⟨tr, s, first, second, hrun, hone, hdraws, hsent, ?_⟩
  exact (number_identifies_packet hrun (by rw [hone]; decide)).2.2.2 _ _ _ _ htr htr' htype htype'
    (hsequence.trans hsequence'.symm)

end ProtoHopZ
end FileHopZ

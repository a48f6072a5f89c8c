import FileHopZ.Protohopz.Flight

/-! # Who draws a number

A call of `send_packet` draws one number from `sequence_counter_`, and the packets that
`stop_loops` and `store_loop_error` push take one each.  `Counts` says so for every step of
the transport.
-/
namespace FileHopZ

/-- The observation tells of a number drawn by a call. -/
def Observation.draws : Observation → Bool
  | .drew _ => true
  | _ => false

namespace ProtoHopZ
variable {P : Primitives}

/-- What a step can do to the counter, and how a call of `send_packet` fails whose packet is
with the socket. -/
inductive Counts (t : ProtoHopZ P) (e : Event P) (t' : ProtoHopZ P) (out : List Observation) :
    Prop
  | same (hcounter : t'.sequenceCounter = t.sequenceCounter) (hout : ∀ o ∈ out, o.draws = false)
      (hfailed : ∀ i packet ec, t.sends i = .sending packet false →
        t'.sends i = .returned (some ec) → e = .finishSend i (some ec))
  | drew (i : Nat) (source : Packet) (fault : Option ErrorCode) (nonce : Nonce) (now : Nat)
      (he : e = .resumeSend i fault nonce now) (hsource : t.Intends i source)
      (hopen : t.loopError = none ∧ t.blocked = false)
      (hcounter : t'.sequenceCounter = t.sequenceCounter + 1)
      (hout : (∃ ec, t.encryptPacket fault nonce (source.withSequence t.sequenceCounter) = .error ec ∧
          out = [.drew t.sequenceCounter, .returned i (some ec)] ∧ t'.inFlight = t.inFlight) ∨
        ∃ packet, t.encryptPacket fault nonce (source.withSequence t.sequenceCounter) = .ok packet ∧
          out = [.drew t.sequenceCounter, .registered i packet source.data])
  /-- A packet is pushed to wake a caller. -/
  | woke (he : e = .resumeStop ∨ t.loopError = none ∧ t'.loopError ≠ none)
      (hcounter : t'.sequenceCounter = t.sequenceCounter + 1) (hout : ∀ o ∈ out, o.draws = false)

/-- A step that leaves the counter and the calls alone. -/
theorem counts_of_same {t t' : ProtoHopZ P} {e : Event P} {out : List Observation}
    (hcounter : t'.sequenceCounter = t.sequenceCounter) (hsends : t'.sends = t.sends)
    (hout : ∀ o ∈ out, o.draws = false) : Counts t e t' out := by
  refine .same hcounter hout fun i packet ec hi hreturned => ?_
  rw [hsends, hi] at hreturned
  cases hreturned

/-- A step of call `i` that has not got to the socket, or does not fail there. -/
theorem counts_of_update {t t' : ProtoHopZ P} {e : Event P} {i : Nat} {frame : SendFrame}
    {out : List Observation} (hcounter : t'.sequenceCounter = t.sequenceCounter)
    (hsends : t'.sends = Function.update t.sends i frame)
    (hframe : (∀ packet, t.sends i ≠ .sending packet false) ∨ ∀ ec, frame ≠ .returned (some ec))
    (hout : ∀ o ∈ out, o.draws = false) : Counts t e t' out := by
  refine .same hcounter hout fun j packet ec hj hreturned => ?_
  rw [hsends] at hreturned
  by_cases hji : j = i
  · subst hji
    rw [Function.update_self] at hreturned
    rcases hframe with hframe | hframe
    · exact absurd hj (hframe packet)
    · exact absurd hreturned (hframe ec)
  · rw [Function.update_of_ne hji, hj] at hreturned
    cases hreturned

theorem Intends.not_sending {t : ProtoHopZ P} {i : Nat} {source : Packet}
    (h : t.Intends i source) (packet : Packet) : t.sends i ≠ .sending packet false := by
  rcases h with h | h <;> simp [h]

/-! ## Each kind of step -/

/-- A new call is posted. -/
theorem counts_post {t t' : ProtoHopZ P} {e : Event P} {i : Nat} {out : List Observation}
    (hfresh : t.fresh i = true) (hcounter : t'.sequenceCounter = t.sequenceCounter)
    (hsends : ∃ source, t'.sends = Function.update t.sends i (.posted source))
    (hout : ∀ o ∈ out, o.draws = false) : Counts t e t' out := by
  obtain ⟨source, hsends⟩ := hsends
  exact counts_of_update hcounter hsends (Or.inl (by simp [sends_of_fresh hfresh])) hout

theorem counts_unsent {t : ProtoHopZ P} (i : Nat) (packet : Packet) (ec : Error) :
    Counts t (.finishSend i (some ec))
      { t with
        inFlight := t.inFlight.erase packet.header.sequence
        cwnd := t.cwnd.notifyOne
        sends := Function.update t.sends i (.returned (some ec)) }.signalIfDrained
      [.returned i (some ec)] := by
  rw [signalIfDrained_eq]
  refine .same rfl (by simp [Observation.draws]) fun j p ec' hj hreturned => ?_
  dsimp only at hreturned
  by_cases hji : j = i
  · subst hji
    rw [Function.update_self] at hreturned
    rw [SendFrame.returned.inj hreturned]
  · rw [Function.update_of_ne hji, hj] at hreturned
    cases hreturned

theorem counts_acked {t u : ProtoHopZ P} {e : Event P} (sequence : UInt32)
    (hcounter : u.sequenceCounter = t.sequenceCounter) (hsends : u.sends = t.sends) :
    Counts t e u.signalIfDrained [.acked sequence] := by
  rw [signalIfDrained_eq]
  exact counts_of_same hcounter hsends (by simp [Observation.draws])

theorem counts_handleLoopResult {t u : ProtoHopZ P} {e : Event P} (ec : Option Error)
    (hcounter : u.sequenceCounter = t.sequenceCounter) (hsends : u.sends = t.sends)
    (hloop : u.loopError = t.loopError) : Counts t e (u.handleLoopResult ec) [] := by
  unfold handleLoopResult
  split_ifs
  · exact counts_of_same hcounter hsends (by simp)
  unfold storeLoopError
  split
  · rename_i hnone _
    exact .woke (Or.inr ⟨hloop ▸ hnone, by simp⟩) (by rw [← hcounter]) (by simp)
  · exact counts_of_same hcounter hsends (by simp)

theorem counts_shakes {t t' : ProtoHopZ P} {e : Event P} {out : List Observation}
    (h : Shakes t t' out) : Counts t e t' out := by
  cases h with
  | begunInitiator _ _ _ hfresh => exact counts_post hfresh rfl ⟨_, rfl⟩ (by simp)
  | installedResponder _ _ _ _ _ _ _ _ _ _ hfresh =>
      exact counts_post hfresh rfl ⟨_, rfl⟩ (by simp [Observation.draws])
  | failed | begunResponder | sentInitiator | sentResponder | interrupted | rejected
  | installedInitiator =>
      exact counts_of_same rfl rfl (by simp [Observation.draws])

/-- **What a step can do to the counter.** -/
theorem counts_step {t t' : ProtoHopZ P} {e : Event P} {out : List Observation}
    (hs : t.step e = some (t', out)) : Counts t e t' out := by
  cases step_cases hs with
  | sendPacket _ _ hfresh => exact counts_post hfresh rfl ⟨_, rfl⟩ (by simp)
  | refused _ _ _ _ _ _ _ hcall | delayed _ _ _ _ _ _ hcall =>
      exact counts_of_update rfl rfl (Or.inl hcall.intends.not_sending) (by simp [Observation.draws])
  | unencrypted i source fault nonce now _ ec hcall herror hopen hencrypt =>
      exact .drew i source fault nonce now rfl hcall.intends ⟨herror, hopen⟩ rfl
        (Or.inl ⟨ec, hencrypt, rfl, rfl⟩)
  | registered i source fault nonce now _ packet hcall herror hopen hencrypt =>
      exact .drew i source fault nonce now rfl hcall.intends ⟨herror, hopen⟩ rfl
        (Or.inr ⟨packet, hencrypt, rfl⟩)
  | transmitSend | sent =>
      exact counts_of_update rfl rfl (Or.inr (by simp)) (by simp [Observation.draws])
  | unsent i packet ec => exact counts_unsent i packet ec
  | acked => exact counts_acked _ rfl rfl
  | receiveLoopResult | timeoutLoopResult => exact counts_handleLoopResult _ rfl rfl rfl
  | shakes _ _ _ _ h => exact counts_shakes h
  | resumeStop => exact .woke (Or.inl rfl) rfl (by simp [Observation.draws])
  | repeated | undecrypted | accepted | transmitResend =>
      exact counts_of_same rfl rfl (by simp [sendAck, Observation.draws])
  | startLoops | ignored | unread | tooLarge | receiveError | idled | checked | timedOut | resent
  | unresent | timer | awaitPacket | takePacket | cancelPacket | drain | resumeDrain | stop =>
      exact counts_of_same rfl rfl (by simp)

/-! ## Calls whose wait for the window fails -/

/-- What happens to a transport, or to a call that waits for the window. -/
inductive SendEvent (P : Primitives)
  | transport (e : Event P)
  /-- `cwnd_.wait` completes with an error. -/
  | windowError (i : Nat) (ec : Error)

/-- `send_packet` after `cwnd_.wait` has failed. -/
def failWindow (i : Nat) (ec : Error) (t : ProtoHopZ P) :
    Option (ProtoHopZ P × List Observation) :=
  match t.sends i with
  | .waiting _ =>
      some ({ t with
        cwnd := t.cwnd.cancel i
        sends := Function.update t.sends i (.returned (some ec)) }, [.returned i (some ec)])
  | _ => none

/-- The step function, with the calls whose wait fails. -/
def sendStep (t : ProtoHopZ P) : SendEvent P → Option (ProtoHopZ P × List Observation)
  | .transport e => t.step e
  | .windowError i ec => t.failWindow i ec

/-- A call whose wait fails has drawn no number. -/
theorem failWindow_cases {t t' : ProtoHopZ P} {i : Nat} {ec : Error} {out : List Observation}
    {e : Event P} (hs : t.failWindow i ec = some (t', out)) :
    Effect t e t' out ∧ Flies t e t' out ∧ Counts t e t' out ∧
      t'.sequenceCounter = t.sequenceCounter ∧ t'.inFlight = t.inFlight := by
  unfold failWindow at hs
  split at hs
  · rename_i source hi
    obtain ⟨rfl, rfl⟩ := Prod.mk.inj (Option.some.inj hs).symm
    refine ⟨?_, ?_, ?_, rfl, rfl⟩
    · exact effect_sendFrame ⟨rfl, rfl, rfl⟩ rfl (by simp) (by simp) (fun _ _ h => h) rfl
        (Or.inl rfl) (by simp) rfl rfl
    · exact flies_of_update rfl rfl (by simp) (by simp [hi]) (by simp)
    · exact counts_of_update rfl rfl (Or.inl (by simp [hi])) (by simp [Observation.draws])
  · cases hs

/-- What a step can do, to the packets and to the counter. -/
theorem sendStep_cases {t t' : ProtoHopZ P} {ev : SendEvent P} {out : List Observation}
    (hs : t.sendStep ev = some (t', out)) :
    ∃ e, Effect t e t' out ∧ Flies t e t' out ∧ Counts t e t' out ∧
      (ev = .transport e ∨ t'.sequenceCounter = t.sequenceCounter ∧ t'.inFlight = t.inFlight) := by
  cases ev with
  | transport e => exact ⟨e, effect_step hs, flies_step hs, counts_step hs, Or.inl rfl⟩
  | windowError i ec =>
      obtain ⟨heffect, hflies, hcounts, hsame⟩ := failWindow_cases (e := .stop) hs
      exact ⟨.stop, heffect, hflies, hcounts, Or.inr hsame⟩

/-! ## Counting the numbers -/

/-- A transport, and how many numbers have been drawn from its `sequence_counter_`, by calls
and by the packets that wake a caller. -/
structure Numbered (P : Primitives) where
  transport : ProtoHopZ P
  drawn : Nat := 0

namespace Numbered

def step (s : Numbered P) (ev : SendEvent P) : Option (Numbered P × List Observation) :=
  (s.transport.sendStep ev).map fun r =>
    ({ transport := r.1
       drawn := if r.1.sequenceCounter = s.transport.sequenceCounter then s.drawn
         else s.drawn + 1 }, r.2)

/-- A step draws one number or none. -/
theorem step_cases {s s' : Numbered P} {ev : SendEvent P} {out : List Observation}
    (hs : s.step ev = some (s', out)) :
    s.transport.sendStep ev = some (s'.transport, out) ∧
      (s'.transport.sequenceCounter = s.transport.sequenceCounter ∧ s'.drawn = s.drawn ∨
        s'.transport.sequenceCounter = s.transport.sequenceCounter + 1 ∧
          s'.drawn = s.drawn + 1) := by
  obtain ⟨⟨t', out'⟩, ht, heq⟩ := Option.map_eq_some_iff.mp hs
  obtain ⟨rfl, rfl⟩ := Prod.mk.inj heq.symm
  refine ⟨ht, ?_⟩
  have hgrow : s.transport.sequenceCounter + 1 ≠ s.transport.sequenceCounter := by
    intro h
    have := congrArg UInt32.toNat h
    rw [UInt32.toNat_add] at this
    have hone : (1 : UInt32).toNat = 1 := rfl
    have hlt := s.transport.sequenceCounter.toNat_lt
    omega
  obtain ⟨e, -, -, hcounts, -⟩ := sendStep_cases ht
  cases hcounts with
  | same hcounter => exact Or.inl ⟨hcounter, if_pos hcounter⟩
  | drew _ _ _ _ _ _ _ _ hcounter | woke _ hcounter =>
      exact Or.inr ⟨hcounter, if_neg (by rw [hcounter]; exact hgrow)⟩

/-- While fewer than 2^32 numbers are drawn, their count is the counter. -/
theorem drawn_eq_step {s s' : Numbered P} {ev : SendEvent P} {out : List Observation}
    (h : s.drawn = s.transport.sequenceCounter.toNat) (hs : s.step ev = some (s', out))
    (hfew : s'.drawn < 2 ^ 32) : s'.drawn = s'.transport.sequenceCounter.toNat := by
  rcases (step_cases hs).2 with ⟨hcounter, hdrawn⟩ | ⟨hcounter, hdrawn⟩
  · rw [hcounter, hdrawn, h]
  · have hone : (1 : UInt32).toNat = 1 := rfl
    rw [hcounter, UInt32.toNat_add, ← h, hone]
    omega

theorem drawn_le_step {s s' : Numbered P} {ev : SendEvent P} {out : List Observation}
    (hs : s.step ev = some (s', out)) : s.drawn ≤ s'.drawn := by
  rcases (step_cases hs).2 with ⟨-, hdrawn⟩ | ⟨-, hdrawn⟩ <;> omega

end Numbered

end ProtoHopZ
end FileHopZ

import FileHopZ.Protohopz.Numbering
import FileHopZ.Protohopz.Supplying

/-! # What becomes of a call of `send_packet`

A call is made once, by `send` or by the handshake; it goes on by itself, registers its packet at
some point, and returns.  Its frame then says for good what it has returned.  `FrameStep` says what
one step does to the frame of one call.
-/
namespace FileHopZ

/-- The call that an observation tells of. -/
def Observation.call : Observation → Option Nat
  | .registered i _ _ | .returned i _ => some i
  | _ => none

namespace ProtoHopZ
variable {P : Primitives}

/-- Call `i` has been made and has not returned. -/
def Busy (t : ProtoHopZ P) (i : Nat) : Prop :=
  t.sends i ≠ .idle ∧ ∀ ec, t.sends i ≠ .returned ec

/-- Call `i` has registered its packet. -/
def HasRegistered (t : ProtoHopZ P) (i : Nat) : Prop :=
  (∃ packet b, t.sends i = .sending packet b) ∨ ∃ ec, t.sends i = .returned ec

/-- What a step does to the frame of call `i`. -/
inductive FrameStep (t : ProtoHopZ P) (e : Event P) (t' : ProtoHopZ P) (out : List Observation)
    (i : Nat) : Prop
  | stays (hframe : t'.sends i = t.sends i) (hout : ∀ o ∈ out, o.call ≠ some i)
  | begins (hidle : t.sends i = .idle) (hbusy : t'.Busy i)
      (he : (∃ source, e = .sendPacket i source) ∨ e.handshakes = true ∧
        ∃ role, t'.handshake = .sending role i)
      (hout : ∀ o ∈ out, o.call ≠ some i)
  | goes (hbefore : t.Busy i) (hbusy : t'.Busy i) (hkept : t.HasRegistered i → t'.HasRegistered i)
      (hregistered : (∃ packet plaintext, .registered i packet plaintext ∈ out) →
        t'.HasRegistered i)
      (hreturned : ∀ ec, .returned i ec ∉ out)
  | returns (ec : Option Error) (hbusy : t.Busy i) (hframe : t'.sends i = .returned ec)
      (hreturned : ∀ ec', .returned i ec' ∈ out ↔ ec' = ec)
      (hregistered : ∀ packet plaintext, .registered i packet plaintext ∉ out)

section Kinds
variable {t t' : ProtoHopZ P} {e : Event P} {out : List Observation} {i j : Nat}

/-- A step that tells of no call and leaves the frames alone. -/
theorem frame_same (hsends : t'.sends = t.sends) (hout : ∀ o ∈ out, o.call = none) :
    FrameStep t e t' out i := by
  refine .stays (by rw [hsends]) fun o ho => ?_
  rw [hout o ho]
  simp

/-- A step of call `j`. -/
theorem frame_update {frame : SendFrame} (hsends : t'.sends = Function.update t.sends j frame)
    (hout : ∀ o ∈ out, ∀ k, o.call = some k → k = j)
    (hself : t'.sends j = frame → FrameStep t e t' out j) : FrameStep t e t' out i := by
  by_cases hij : i = j
  · subst hij
    exact hself (by rw [hsends, Function.update_self])
  · refine .stays (by rw [hsends, Function.update_of_ne hij]) fun o ho hcall => ?_
    exact hij (hout o ho i hcall)

theorem busy_of_intends {source : Packet} (h : t.Intends i source) : t.Busy i := by
  rcases h with h | h
  · exact ⟨by simp [h], by simp [h]⟩
  · exact ⟨by simp [h], by simp [h]⟩

theorem busy_of_sending {packet : Packet} {b : Bool} (h : t.sends i = .sending packet b) :
    t.Busy i := ⟨by simp [h], by simp [h]⟩

theorem not_hasRegistered {source : Packet} (h : t.Intends i source) : ¬ t.HasRegistered i := by
  rcases h with h | h
  · simp [HasRegistered, h]
  · simp [HasRegistered, h]

/-- A new call is posted. -/
theorem frame_post {source : Packet} (hfresh : t.fresh j = true)
    (hsends : t'.sends = Function.update t.sends j (.posted source))
    (he : (∃ source, e = .sendPacket j source) ∨ e.handshakes = true ∧
      ∃ role, t'.handshake = .sending role j)
    (hout : ∀ o ∈ out, o.call = none) : FrameStep t e t' out i := by
  refine frame_update hsends ?_ fun hframe => ?_
  · intro o ho k hk
    rw [hout o ho] at hk
    cases hk
  · refine .begins (sends_of_fresh hfresh) ⟨by simp [hframe], by simp [hframe]⟩ he fun o ho => ?_
    rw [hout o ho]
    simp

theorem frame_handleLoopResult {u : ProtoHopZ P} (ec : Option Error) (hsends : u.sends = t.sends) :
    FrameStep t e (u.handleLoopResult ec) [] i := by
  refine frame_same ?_ (by simp)
  rw [sends_handleLoopResult, hsends]

theorem frame_shakes (hh : e.handshakes = true) (h : Shakes t t' out) :
    FrameStep t e t' out i := by
  cases h with
  | begunInitiator generated j _ hfresh =>
      exact frame_post (t := t) hfresh rfl (Or.inr ⟨hh, _, rfl⟩) (by simp)
  | installedResponder j r queue fault context _ _ _ _ _ hfresh =>
      exact frame_post (t := t) hfresh rfl (Or.inr ⟨hh, _, rfl⟩) (by simp [Observation.call])
  | failed | begunResponder | sentInitiator | sentResponder | interrupted | rejected
  | installedInitiator => exact frame_same rfl (by simp [Observation.call])

/-- **What a step does to the frame of a call.** -/
theorem frame_step (hs : t.step e = some (t', out)) (i : Nat) : FrameStep t e t' out i := by
  cases step_cases hs with
  | sendPacket j source hfresh => exact frame_post (t := t) hfresh rfl (Or.inl ⟨_, rfl⟩) (by simp)
  | refused j source _ _ _ _ ec hcall =>
      refine frame_update (t := t) rfl (by simp [Observation.call]) fun hframe => ?_
      exact .returns (some ec) (busy_of_intends hcall.intends) hframe (by simp) (by simp)
  | delayed j source _ _ _ _ hcall =>
      refine frame_update (t := t) rfl (by simp) fun hframe => ?_
      refine .goes (busy_of_intends hcall.intends) (busy_of_intends (Or.inr hframe)) ?_ (by simp)
        (by simp)
      exact fun h => absurd h (not_hasRegistered hcall.intends)
  | unencrypted j source _ _ _ _ ec hcall =>
      refine frame_update (t := t) rfl (by simp [Observation.call]) fun hframe => ?_
      exact .returns (some ec) (busy_of_intends hcall.intends) hframe (by simp) (by simp)
  | registered j source _ _ _ _ packet hcall =>
      refine frame_update (t := t) rfl (by simp [Observation.call]) fun hframe => ?_
      have hdone : HasRegistered _ j := Or.inl ⟨packet, false, hframe⟩
      exact .goes (busy_of_intends hcall.intends) (busy_of_sending hframe) (fun _ => hdone)
        (fun _ => hdone) (by simp)
  | transmitSend j packet hsending =>
      refine frame_update (t := t) rfl (by simp [Observation.call]) fun hframe => ?_
      have hdone : HasRegistered _ j := Or.inl ⟨packet, true, hframe⟩
      exact .goes (busy_of_sending hsending) (busy_of_sending hframe) (fun _ => hdone)
        (fun _ => hdone) (by simp)
  | sent j packet hsending =>
      refine frame_update (t := t) rfl (by simp [Observation.call]) fun hframe => ?_
      exact .returns none (busy_of_sending hsending) hframe (by simp) (by simp)
  | unsent j packet ec hsending =>
      rw [signalIfDrained_eq]
      refine frame_update (t := t) rfl (by simp [Observation.call]) fun hframe => ?_
      exact .returns (some ec) (busy_of_sending hsending) hframe (by simp) (by simp)
  | acked =>
      rw [signalIfDrained_eq]
      exact frame_same rfl (by simp [Observation.call])
  | receiveLoopResult | timeoutLoopResult => exact frame_handleLoopResult _ rfl
  | shakes _ _ _ hh h => exact frame_shakes hh h
  | repeated | undecrypted | accepted => exact frame_same rfl (by simp [sendAck, Observation.call])
  | transmitResend | resumeStop => exact frame_same rfl (by simp [Observation.call])
  | startLoops | ignored | unread | tooLarge | receiveError | idled | checked | timedOut | resent
  | unresent | timer | awaitPacket | takePacket | cancelPacket | drain | resumeDrain | stop =>
      exact frame_same rfl (by simp)

end Kinds

/-! ## What the trace tells of the calls -/

/-- Whatever has registered its packet has gone past that point, and what has returned was shown to
return. -/
structure Recorded (tr : List Observation) (t : ProtoHopZ P) : Prop where
  registered : ∀ i packet plaintext, .registered i packet plaintext ∈ tr → t.HasRegistered i
  returned : ∀ i ec, t.sends i = .returned ec → .returned i ec ∈ tr

theorem Recorded.step {tr out : List Observation} {t t' : ProtoHopZ P} {e : Event P}
    (h : Recorded tr t) (hframes : ∀ i, FrameStep t e t' out i) : Recorded (tr ++ out) t' := by
  refine ⟨fun i packet plaintext hmem => ?_, fun i ec hframe => ?_⟩
  · cases hframes i with
    | stays hsame hout =>
        unfold HasRegistered
        rw [hsame]
        refine (List.mem_append.mp hmem).elim (h.registered i packet plaintext) fun hmem => ?_
        exact absurd rfl (hout _ hmem)
    | begins hidle _ _ hout =>
        rcases List.mem_append.mp hmem with hmem | hmem
        · have hbefore := h.registered i packet plaintext hmem
          simp [HasRegistered, hidle] at hbefore
        · exact absurd rfl (hout _ hmem)
    | goes _ _ hkept hregistered =>
        exact (List.mem_append.mp hmem).elim
          (fun hmem => hkept (h.registered i packet plaintext hmem))
          fun hmem => hregistered ⟨packet, plaintext, hmem⟩
    | returns ec _ hframe => exact Or.inr ⟨ec, hframe⟩
  · cases hframes i with
    | stays hsame => exact List.mem_append_left _ (h.returned i ec (hsame ▸ hframe))
    | begins _ hbusy | goes _ hbusy => exact absurd hframe (hbusy.2 ec)
    | returns ec' _ hframe' hreturned =>
        obtain rfl := SendFrame.returned.inj (hframe.symm.trans hframe')
        exact List.mem_append_right _ ((hreturned ec).mpr rfl)

/-! ## Numbers -/

/-- The numbers in flight have been drawn. -/
theorem below_step {t t' : ProtoHopZ P} {e : Event P} {out : List Observation}
    (hs : t.step e = some (t', out)) (hcounter : t.sequenceCounter ≤ t'.sequenceCounter)
    (hbelow : ∀ n ∈ t.inFlight, n < t.sequenceCounter) :
    ∀ n ∈ t'.inFlight, n < t'.sequenceCounter := by
  intro n hn
  have hold : n ∈ t.inFlight → n < t'.sequenceCounter := fun hmem =>
    UInt32.lt_of_lt_of_le (hbelow n hmem) hcounter
  cases flies_step hs with
  | same hkeys => exact hold (Finmap.mem_keys.mp (hkeys ▸ Finmap.mem_keys.mpr hn))
  | registered i source packet l _ _ _ _ hflight _ hout =>
      rw [hflight, Finmap.mem_insert] at hn
      rcases hn with rfl | hn
      · rcases (effect_step hs).registers with ⟨hnone, -⟩ | ⟨_, _, _, _, _, _, _, _, hnext⟩
        · exact absurd (by simp [hout]) (hnone i packet source.data)
        · rw [hnext] at hcounter ⊢
          rw [UInt32.le_iff_toNat_le, UInt32.toNat_add] at hcounter
          rw [UInt32.lt_iff_toNat_lt, UInt32.toNat_add]
          have hone : (1 : UInt32).toNat = 1 := rfl
          have := t.sequenceCounter.toNat_lt
          omega
      · exact hold hn
  | acked sequence _ hflight | failed _ sequence _ _ hflight =>
      rw [hflight] at hn
      exact hold (Finmap.mem_erase.mp hn).2
  | stopped _ hflight =>
      rw [hflight] at hn
      exact absurd hn Finmap.notMem_empty

/-- A call has failed. -/
def Failed (t : ProtoHopZ P) : Prop := ∃ i ec, t.sends i = .returned (some ec)

/-- The handshake has failed. -/
def ShakeFailed (t : ProtoHopZ P) : Prop := ∃ ec, t.handshake = .returned (some ec)

/-- The handshake is under way. -/
def Shaking (t : ProtoHopZ P) : Prop :=
  (∃ role i, t.handshake = .sending role i) ∨ ∃ role, t.handshake = .receiving role

theorem Shaking.of_going {t : ProtoHopZ P} (hbegun : t.handshake ≠ .idle)
    (hgoing : ∀ ec, t.handshake ≠ .returned ec) : t.Shaking := by
  unfold Shaking
  cases hframe : t.handshake with
  | idle => exact absurd hframe hbegun
  | sending role i => exact Or.inl ⟨role, i, rfl⟩
  | receiving role => exact Or.inr ⟨role, rfl⟩
  | returned ec => exact absurd hframe (hgoing ec)

/-- A handshake that is under way has not returned. -/
theorem Shaking.not_returned {t : ProtoHopZ P} (h : t.Shaking) (ec : Option Error) :
    t.handshake ≠ .returned ec := by
  rcases h with ⟨role, i, h⟩ | ⟨role, h⟩
  · simp [h]
  · simp [h]

/-- Where the handshake has been when it waits for its peer's packet first, or has made its call. -/
theorem Shakes.before {t t' : ProtoHopZ P} {out : List Observation} (h : Shakes t t' out)
    (hframe : t'.handshake = .receiving .responder ∨ ∃ role i, t'.handshake = .sending role i) :
    t.handshake = .idle ∨ t.handshake = .receiving .responder := by
  cases h with
  | begunInitiator _ _ hidle | begunResponder _ hidle => exact Or.inl hidle
  | installedResponder _ _ _ _ _ hreceiving => exact Or.inr hreceiving
  | failed | sentInitiator | sentResponder | interrupted | rejected | installedInitiator =>
      rcases hframe with hframe | ⟨role, i, hframe⟩
      · cases hframe
      · cases hframe

/-- The handshake goes on after its call when that has returned without an error. -/
theorem Shakes.after {t t' : ProtoHopZ P} {out : List Observation} (h : Shakes t t' out)
    {role : Role} {i : Nat} (hframe : t.handshake = .sending role i) :
    t'.ShakeFailed ∨ t.sends i = .returned none ∧ t'.sends i = .returned none := by
  cases h with
  | failed ec => exact Or.inl ⟨ec, rfl⟩
  | sentInitiator j hj hsent | sentResponder j hj hsent =>
      obtain ⟨-, rfl⟩ := HandshakeFrame.sending.inj (hframe.symm.trans hj)
      exact Or.inr ⟨hsent, hsent⟩
  | begunInitiator _ _ hj | begunResponder _ hj | interrupted _ _ _ _ hj | rejected _ _ _ _ _ hj
  | installedInitiator _ _ _ _ hj | installedResponder _ _ _ _ _ hj =>
      rw [hframe] at hj
      cases hj

/-- The handshake registers no packet by itself. -/
theorem registrations_shakes {t t' : ProtoHopZ P} {out : List Observation}
    (h : Shakes t t' out) : ProtoStream.registrations (out.map .transport) = [] := by
  cases h <;> rfl

theorem counter_shakes {t t' : ProtoHopZ P} {out : List Observation} (h : Shakes t t' out) :
    t'.sequenceCounter = t.sequenceCounter := by
  cases h <;> rfl

/-- `loop_error_` is set only when a loop has been started. -/
theorem loopError_step {t t' : ProtoHopZ P} {e : Event P} {out : List Observation}
    (hs : t.step e = some (t', out)) (hreceive : t.receiveLoop = .idle)
    (htimeout : t.timeoutLoop = .idle) (hnone : t.loopError = none) : t'.loopError = none := by
  cases step_cases hs with
  | receiveLoopResult _ hloop =>
      rw [hreceive] at hloop
      cases hloop
  | timeoutLoopResult _ hloop =>
      rw [htimeout] at hloop
      cases hloop
  | acked | unsent =>
      rw [signalIfDrained_eq]
      exact hnone
  | shakes _ _ _ _ h => cases h <;> exact hnone
  | startLoops => rfl
  | _ => exact hnone

end ProtoHopZ

namespace ProtoStream
variable {P : Primitives}

/-- **What a step of a session does to the calls of `send_packet`.** -/
theorem attends_step {s s' : ProtoStream P} {e : Event P} {out : List Observation}
    (hs : s.step e = some (s', out)) : ∃ e' : ProtoHopZ.Event P,
      (∀ i, s.transport.FrameStep e' s'.transport (transported out) i) ∧
      ∀ i source, e' = .sendPacket i source → ∃ data, e = .send i data := by
  have haside : s'.transport.sends = s.transport.sends → transported out = [] →
      ∃ e' : ProtoHopZ.Event P,
        (∀ i, s.transport.FrameStep e' s'.transport (transported out) i) ∧
        ∀ i source, e' = .sendPacket i source → ∃ data, e = .send i data := by
    intro hsends hout
    exact ⟨.stop, fun i => ProtoHopZ.frame_same hsends (by simp [hout]), by simp⟩
  cases step_cases hs with
  | transport e t' shown hinternal hstep =>
      rw [transported_transport]
      refine ⟨e, fun i => ProtoHopZ.frame_step hstep i, fun i source he => ?_⟩
      rw [he] at hinternal
      cases hinternal
  | callStartLoops now fault generated j _ _ hframe hfresh =>
      have hstep := @step_startHandshake P (s.transport.startLoops now) s.handshakeMode fault
        generated j hframe hfresh
      rw [transported_transport]
      refine ⟨.startHandshake s.handshakeMode fault generated j, fun i => ?_, by simp⟩
      -- `start_loops` leaves the calls alone
      cases ProtoHopZ.frame_step hstep i with
      | stays hsame hout => exact .stays hsame hout
      | begins hidle hbusy he hout => exact .begins hidle hbusy he hout
      | goes hbefore hbusy hkept hregistered hreturned =>
          exact .goes hbefore hbusy hkept hregistered hreturned
      | returns ec hbusy hreturn hreturned hregistered =>
          exact .returns ec hbusy hreturn hreturned hregistered
  | send j data _ _ hfresh =>
      have hstep : s.transport.step (.sendPacket j (dataPacket data)) =
          some (s.transport.callSendPacket j (dataPacket data), []) := if_pos hfresh
      refine ⟨_, fun i => ProtoHopZ.frame_step hstep i, fun i source he => ⟨data, ?_⟩⟩
      rw [(ProtoHopZ.Event.sendPacket.inj he).1]
  | chunk | lastChunk => exact haside rfl (by simp [transported, Observation.chunk])
  | _ => exact haside rfl rfl

/-- What a step of a session does to its handshake, and what calls it makes. -/
theorem handshake_step {s s' : ProtoStream P} {e : Event P} {out : List Observation}
    (hs : s.step e = some (s', out)) : s'.transport.handshake = s.transport.handshake ∧
        (∀ i p, s'.transport.Intends i p → s.transport.Intends i p ∨ p.header.type = .data) ∨
      ∃ t shown, ProtoHopZ.Shakes t s'.transport shown ∧ registrations out = [] ∧
        t.handshake = s.transport.handshake ∧ t.sends = s.transport.sends := by
  cases moves_step hs with
  | chunk he r queue queue' htake hqueue htransport hout =>
      rw [htransport]
      exact Or.inl ⟨rfl, fun i p hi => Or.inl hi⟩
  | transport e' shown heffect hdatagram hsend hhandshake hshakes hstop htake hexpected hbuffer hout =>
      cases hh : e'.handshakes with
      | false =>
          refine Or.inl ⟨(heffect.keys hh).2.2, fun i p hi => ?_⟩
          rcases heffect.intends i p hi with hi | he | ⟨hyes, -⟩
          · exact Or.inl hi
          · obtain ⟨data, -, rfl⟩ := hsend i p he
            exact Or.inr rfl
          · rw [hh] at hyes
            cases hyes
      | true =>
          obtain ⟨t, ht, hstep, -⟩ := hshakes hh
          have hsame : t.handshake = s.transport.handshake ∧ t.sends = s.transport.sends := by
            rcases ht with rfl | ⟨now, rfl⟩
            · exact ⟨rfl, rfl⟩
            · exact ⟨rfl, rfl⟩
          have hshake := ProtoHopZ.shakes_step hh hstep
          refine Or.inr ⟨t, shown, hshake, ?_, hsame⟩
          rcases hout with rfl | ⟨-, hquiet⟩
          · exact ProtoHopZ.registrations_shakes hshake
          · exact registrations_quiet hquiet

/-- A handshake that has failed stays so. -/
theorem shakeFailed_step {s s' : ProtoStream P} {e : Event P} {out : List Observation}
    (hs : s.step e = some (s', out)) (h : s.transport.ShakeFailed) : s'.transport.ShakeFailed := by
  obtain ⟨ec, h⟩ := h
  rcases handshake_step hs with ⟨hsame, -⟩ | ⟨t, shown, hshake, -, hframe, -⟩
  · exact ⟨ec, hsame.trans h⟩
  · exact absurd (hframe.trans h) (hshake.not_returned (some ec))

/-- What a step of a session registers: nothing, or the packet of one call, under the number drawn
for it, while no loop has failed. -/
inductive Registers (s s' : ProtoStream P) (out : List Observation) : Prop
  | nothing (hnone : registrations out = [])
  | packet (i : Nat) (source packet : Packet) (hsource : s.transport.Intends i source)
      (hheader : packet.header.type = source.header.type ∧
        packet.header.sequence = s.transport.sequenceCounter)
      (hcounter : s'.transport.sequenceCounter = s.transport.sequenceCounter + 1)
      (herror : s.transport.loopError = none)
      (hframe : s'.transport.handshake = s.transport.handshake)
      (hsame : s'.closing = s.closing ∧ s'.transport.loopError = s.transport.loopError)
      (hone : registrations out = [(packet, source.data)])
      (hmem : .transport (.registered i packet source.data) ∈ out)

theorem registers_step {s s' : ProtoStream P} {e : Event P} {out : List Observation}
    (hs : s.step e = some (s', out)) : Registers s s' out := by
  cases step_cases hs with
  | transport e t' shown hinternal hstep =>
      cases ProtoHopZ.step_cases hstep with
      | registered i source _ _ _ cwnd packet hcall herror _ hencrypt =>
          exact .packet i source packet hcall.intends (ProtoHopZ.header_encryptPacket hencrypt) rfl
            herror rfl ⟨rfl, rfl⟩ rfl (by simp)
      | shakes _ _ _ _ h => exact .nothing (ProtoHopZ.registrations_shakes h)
      | _ => exact .nothing rfl
  | callStartLoops now fault generated i _ _ hframe hfresh =>
      have hshakes := @ProtoHopZ.shakes_startHandshake P (s.transport.startLoops now) s.handshakeMode
        fault generated i hframe hfresh
      exact .nothing (ProtoHopZ.registrations_shakes hshakes)
  | chunk | lastChunk => exact .nothing (registrations_chunks _)
  | _ => exact .nothing rfl

/-! ## The first packet -/

/-- While the handshake is under way, so is the call of `start_loops`. -/
theorem starting_step {s s' : ProtoStream P} {e : Event P} {out : List Observation}
    (hs : s.step e = some (s', out)) (h : s.transport.Shaking → s.startLoops = .handshaking)
    (hshaking : s'.transport.Shaking) : s'.startLoops = .handshaking := by
  cases step_cases hs with
  | callStartLoops => rfl
  | unstarted _ _ hreturned | started _ hreturned => exact absurd hreturned (hshaking.not_returned _)
  | transport e t' shown hinternal hstep =>
      refine h ?_
      cases hh : e.handshakes with
      | false =>
          unfold ProtoHopZ.Shaking at hshaking ⊢
          rwa [← ((ProtoHopZ.effect_step hstep).keys hh).2.2]
      | true =>
          exact .of_going (ProtoHopZ.started_step hstep hinternal hh)
            (ProtoHopZ.shakes_step hh hstep).not_returned
  | _ => exact h hshaking

/-- What a side has registered while its handshake has not failed: its `HANDSHAKE` packet, and then
`DATA`. -/
structure Beginning (registered : List (Packet × Bytes)) (s : ProtoStream P) : Prop where
  starting : s.transport.Shaking → s.startLoops = .handshaking
  unfailed : s.transport.handshake = .idle → s.transport.loopError = none
  unsent : s.transport.handshake = .idle ∨ s.transport.handshake = .receiving .responder →
    registered = []
  hello : ∀ i p, s.transport.Intends i p → p.header.type = .handshake → registered = []
  data : ∀ r ∈ registered.tail, r.1.header.type = .data

theorem beginning_construct (peer : Endpoint) (mode : Role) : Beginning [] (construct P peer mode) where
  starting h := by
    rcases h with ⟨role, i, h⟩ | ⟨role, h⟩
    · cases h
    · cases h
  unfailed _ := rfl
  unsent _ := rfl
  hello _ _ _ _ := rfl
  data _ h := by cases h

/-- What a call that has registered its packet no longer does. -/
theorem not_intends_of_registered {s s' : ProtoStream P} {e : Event P} {out : List Observation}
    (hs : s.step e = some (s', out)) {i : Nat} {packet : Packet} {plaintext : Bytes}
    (hmem : .transport (.registered i packet plaintext) ∈ out) (source : Packet) :
    ¬ s'.transport.Intends i source := by
  intro hi
  have hshown : .registered i packet plaintext ∈ transported out :=
    List.mem_filterMap.mpr ⟨_, hmem, rfl⟩
  obtain ⟨e', hframes, -⟩ := attends_step hs
  cases hframes i with
  | stays _ hout | begins _ _ _ hout => exact hout _ hshown rfl
  | goes _ _ _ hregistered =>
      exact ProtoHopZ.not_hasRegistered hi (hregistered ⟨packet, plaintext, hshown⟩)
  | returns _ _ _ _ hregistered => exact hregistered _ _ hshown

section Beginning
variable {registered : List (Packet × Bytes)} {air : List (Endpoint × Bytes)} {s s' : ProtoStream P}
  {e : Event P} {out : List Observation}

/-- The packet that a call is going to register is `DATA`, or the handshake waits for the call. -/
theorem intends_cases (hsupplies : Session.Supplies registered air s)
    (hfine : ¬ s.transport.ShakeFailed) {i : Nat} {p : Packet} (hi : s.transport.Intends i p) :
    p.header.type = .data ∧ s.transport.handshake = .returned none ∨
      p.header.type = .handshake ∧ ∃ role, s.transport.handshake = .sending role i := by
  have hgreets := hsupplies.announcing.greets
  rcases (hsupplies.announcing.intends i p hi).2 with hdata | ⟨hhello, -⟩
  · exact Or.inl ⟨hdata, hgreets.encrypted.mp (hsupplies.intends i p hi hdata)⟩
  · exact Or.inr ⟨hhello, (hgreets.busy i p hi hhello).resolve_right hfine⟩

/-- **The step lemma.** -/
theorem Beginning.step (h : Beginning registered s) (hsupplies : Session.Supplies registered air s)
    (hidle : s.transport.handshake = .idle →
      s.transport.receiveLoop = .idle ∧ s.transport.timeoutLoop = .idle)
    (hs : s.step e = some (s', out)) (hfine : ¬ s'.transport.ShakeFailed) :
    Beginning (registered ++ registrations out) s' := by
  have hbefore : ¬ s.transport.ShakeFailed := fun hfailed => hfine (shakeFailed_step hs hfailed)
  have hregisters := registers_step hs
  have hsupplies' := hsupplies.step hs
  refine ⟨starting_step hs h.starting, fun hframe => ?_, fun hframe => ?_, fun i p hi htype => ?_, ?_⟩
  · cases step_cases hs with
    | transport e t' shown hinternal hstep =>
        have hnone : s.transport.handshake = .idle := by
          rcases handshake_step hs with ⟨hsame, -⟩ | ⟨t, shown', hshake, -⟩
          · exact hsame.symm.trans hframe
          · exact absurd hframe hshake.begun
        exact ProtoHopZ.loopError_step hstep (hidle hnone).1 (hidle hnone).2 (h.unfailed hnone)
    | callStartLoops now fault generated i _ _ hnone hfresh =>
        exact absurd hframe (@ProtoHopZ.shakes_startHandshake P (s.transport.startLoops now)
          s.handshakeMode fault generated i hnone hfresh).begun
    | _ => exact h.unfailed hframe
  · rcases handshake_step hs with ⟨hsame, -⟩ | ⟨t, shown, hshake, hnone, hbegan, -⟩
    · rw [hsame] at hframe
      rw [h.unsent hframe, List.nil_append]
      cases hregisters with
      | nothing hnone => exact hnone
      | packet i source packet hsource =>
          rcases intends_cases hsupplies hbefore hsource with ⟨-, hreturned⟩ | ⟨-, role, hsending⟩
          · simp [hreturned] at hframe
          · simp [hsending] at hframe
    · rw [hnone, List.append_nil]
      refine h.unsent (hbegan ▸ ?_)
      rcases hframe with hframe | hframe
      · exact absurd hframe hshake.begun
      · exact hshake.before (Or.inl hframe)
  · obtain ⟨role, hsending⟩ : ∃ role, s'.transport.handshake = .sending role i := by
      rcases intends_cases hsupplies' hfine hi with ⟨hdata, -⟩ | ⟨-, hsending⟩
      · rw [htype] at hdata
        cases hdata
      · exact hsending
    rcases handshake_step hs with ⟨hsame, hintends⟩ | ⟨t, shown, hshake, hnone, hbegan, -⟩
    · have hheld : s.transport.Intends i p := (hintends i p hi).resolve_right (by simp [htype])
      rw [h.hello i p hheld htype, List.nil_append]
      cases hregisters with
      | nothing hnone => exact hnone
      | packet j source packet hsource _ _ _ _ _ _ hmem =>
          -- the handshake makes one call
          rw [hsame] at hsending
          rcases intends_cases hsupplies hbefore hsource with ⟨-, hreturned⟩ | ⟨-, role', hsending'⟩
          · rw [hsending] at hreturned
            cases hreturned
          · obtain ⟨-, rfl⟩ := HandshakeFrame.sending.inj (hsending.symm.trans hsending')
            exact absurd hi (not_intends_of_registered hs hmem p)
    · rw [hnone, List.append_nil]
      exact h.unsent (hbegan ▸ hshake.before (Or.inr ⟨role, i, hsending⟩))
  · cases hregisters with
    | nothing hnone =>
        rw [hnone, List.append_nil]
        exact h.data
    | packet i source packet hsource hheader _ _ _ _ hone =>
        rw [hone]
        cases registered with
        | nil => simp
        | cons r rest =>
            rcases intends_cases hsupplies hbefore hsource with ⟨hdata, -⟩ | ⟨hhello, -⟩
            · intro r' hr'
              rcases List.mem_append.mp hr' with hr' | hr'
              · exact h.data r' hr'
              · rw [List.mem_singleton.mp hr']
                exact hheader.1.trans hdata
            · cases h.hello i source hsource hhello

end Beginning

/-! ## One number after the other -/

/-- The packets registered have the numbers from 0 on, as long as no call has failed. -/
structure Consecutive (registered : List (Packet × Bytes)) (s : ProtoStream P) : Prop where
  numbers : registered.map Session.number = List.range registered.length
  next : s.closing = .idle → s.transport.loopError = none →
    s.transport.sequenceCounter.toNat = registered.length

/-- A step that registers nothing draws no number, unless a call or a loop fails or `stop_loops`
runs. -/
theorem counter_step {s s' : ProtoStream P} {e : Event P} {out : List Observation}
    (hs : s.step e = some (s', out)) (hnone : registrations out = [])
    (hstop : s.transport.stop ≠ .posted)
    (hunfailed : s.transport.handshake = .idle → s.transport.loopError = none)
    (herror : s'.transport.loopError = none) (hcalls : ¬ s'.transport.Failed) :
    s'.transport.sequenceCounter = s.transport.sequenceCounter ∧ s.transport.loopError = none := by
  cases step_cases hs with
  | transport e t' shown hinternal hstep =>
      have hbefore : s.transport.loopError = none := by
        by_contra hne
        exact (ProtoHopZ.internal_step hstep hinternal).2 hstop hne herror
      refine ⟨?_, hbefore⟩
      cases ProtoHopZ.counts_step hstep with
      | same hcounter => exact hcounter
      | woke he =>
          rcases he with rfl | ⟨-, hfailed⟩
          · cases ProtoHopZ.step_cases hstep with
            | resumeStop hposted => exact absurd hposted hstop
            | shakes _ _ _ hh => cases hh
          · exact absurd herror hfailed
      | drew i source _ _ _ _ _ _ _ hout =>
          rcases hout with ⟨ec, -, rfl, -⟩ | ⟨packet, -, rfl⟩
          · refine absurd ⟨i, ec, ?_⟩ hcalls
            cases ProtoHopZ.frame_step hstep i with
            | stays _ hout | begins _ _ _ hout => exact absurd rfl (hout (.returned i (some ec)) (by simp))
            | goes _ _ _ _ hreturned => exact absurd (by simp) (hreturned (some ec))
            | returns ec' _ hframe hreturned =>
                rw [hframe, ← (hreturned (some ec)).mp (by simp)]
          · simp [registrations] at hnone
  | callStartLoops now fault generated i _ _ hframe hfresh =>
      refine ⟨?_, hunfailed hframe⟩
      have hshakes := @ProtoHopZ.shakes_startHandshake P (s.transport.startLoops now) s.handshakeMode
        fault generated i hframe hfresh
      have hsame := ProtoHopZ.counter_shakes hshakes
      exact hsame
  | _ => exact ⟨rfl, herror⟩

/-- A stream that is closing is not open again. -/
theorem closing_step {s s' : ProtoStream P} {e : Event P} {out : List Observation}
    (hs : s.step e = some (s', out)) (h : s.closing ≠ .idle) : s'.closing ≠ .idle := by
  cases step_cases hs with
  | callStartLoops _ _ _ _ _ hidle | close _ hidle => exact absurd hidle h
  | resumeClose | finishClose => simp
  | _ => exact h

/-- **The step lemma.** -/
theorem Consecutive.step {registered : List (Packet × Bytes)} {s s' : ProtoStream P} {e : Event P}
    {out : List Observation} (h : Consecutive registered s) (hs : s.step e = some (s', out))
    (hstop : s.transport.stop ≠ .idle → s.closing ≠ .idle)
    (hunfailed : s.transport.handshake = .idle → s.transport.loopError = none)
    (hopen : registrations out ≠ [] → s.closing = .idle)
    (hwrap : s.transport.sequenceCounter ≤ s'.transport.sequenceCounter)
    (hcalls : ¬ s'.transport.Failed) : Consecutive (registered ++ registrations out) s' := by
  cases registers_step hs with
  | nothing hnone =>
      rw [hnone, List.append_nil]
      refine ⟨h.numbers, fun hclosing herror => ?_⟩
      have hbefore : s.closing = .idle := by
        by_contra hne
        exact closing_step hs hne hclosing
      have hidle : s.transport.stop = .idle := by
        by_contra hne
        exact hstop hne hbefore
      obtain ⟨hcounter, hloop⟩ := counter_step hs hnone (by simp [hidle]) hunfailed herror hcalls
      rw [hcounter]
      exact h.next hbefore hloop
  | packet i source packet hsource hheader hcounter herror hframe hsame hone =>
      have hidle := hopen (by simp [hone])
      have hnumber := h.next hidle herror
      rw [hone]
      refine ⟨?_, fun _ _ => ?_⟩
      · rw [List.map_append, h.numbers, List.length_append, List.length_singleton, List.range_succ,
          List.map_singleton, Session.number, hheader.2, hnumber]
      · rw [List.length_append, List.length_singleton, ← hnumber, hcounter, UInt32.toNat_add]
        rw [hcounter, UInt32.le_iff_toNat_le, UInt32.toNat_add] at hwrap
        have := s.transport.sequenceCounter.toNat_lt
        have : (1 : UInt32).toNat = 1 := rfl
        omega

end ProtoStream
end FileHopZ

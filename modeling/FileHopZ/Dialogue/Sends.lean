import FileHopZ.Dialogue.Dialogue

/-! # What a program has sent

A call of `send` is suspended in `send_packet` until its packet is registered, or an error is
returned.  A program makes one call at a time, and none after an error: so what its stream has
registered is what it has passed to `send`, in this order, but perhaps for the last.
-/
namespace FileHopZ

namespace ProtoHopZ
variable {P : Primitives}

/-- What a step does to a call that has not registered its packet: nothing, or it registers
it, or it returns an error. -/
inductive CallStep (t' : ProtoHopZ P) (i : Nat) (p : Packet) (out : List Observation) : Prop
  | waits (hintends : t'.Intends i p) (hreturned : ∀ ec, .returned i ec ∉ out)
      (hregistered : ∀ packet plaintext, .registered i packet plaintext ∉ out)
  | registered (sequence : UInt32) (packet : Packet)
      (hout : out = [.drew sequence, .registered i packet p.data])
      (htype : packet.header.type = p.header.type) (hnot : ∀ q, ¬ t'.Intends i q)
  | failed (ec : Error) (hreturned : .returned i (some ec) ∈ out)
      (hnone : ∀ j ec', .returned j ec' ∈ out → j = i ∧ ec' = some ec)
      (hregistered : ∀ j packet plaintext, .registered j packet plaintext ∉ out)
      (hnot : ∀ q, ¬ t'.Intends i q)

theorem Intends.of_update {t t' : ProtoHopZ P} {i j : Nat} {p : Packet} {f : SendFrame}
    (h : t.Intends i p) (hij : i ≠ j) (hsends : t'.sends = Function.update t.sends j f) :
    t'.Intends i p := by
  unfold Intends at h ⊢
  rwa [hsends, Function.update_of_ne hij]

theorem not_intends_update {t' t : ProtoHopZ P} {i : Nat} {f : SendFrame}
    (hsends : t'.sends = Function.update t.sends i f)
    (hf : (∃ packet b, f = .sending packet b) ∨ ∃ ec, f = .returned ec) (q : Packet) :
    ¬ t'.Intends i q := by
  unfold Intends
  rw [hsends, Function.update_self]
  rcases hf with ⟨packet, b, rfl⟩ | ⟨ec, rfl⟩
  · simp
  · simp

/-- Two packets that a call is to send are one. -/
theorem Intends.unique {t : ProtoHopZ P} {i : Nat} {p q : Packet} (hp : t.Intends i p)
    (hq : t.Intends i q) : p = q := by
  rcases hp with hp | hp <;> rcases hq with hq | hq <;> rw [hp] at hq
  · exact SendFrame.posted.inj hq
  · cases hq
  · cases hq
  · exact SendFrame.waiting.inj hq

theorem Intends.ne_of_fresh {t : ProtoHopZ P} {i j : Nat} {p : Packet} (h : t.Intends i p)
    (hfresh : t.fresh j = true) : i ≠ j := by
  rintro rfl
  rcases h with h | h <;> rw [fresh, h] at hfresh <;> cases hfresh

/-- **What a step does to a call of `send_packet`.** -/
theorem call_step {t t' : ProtoHopZ P} {e : Event P} {out : List Observation}
    (hs : t.step e = some (t', out)) {i : Nat} {p : Packet} (h : t.Intends i p) :
    CallStep t' i p out := by
  have hquiet : t'.sends = t.sends → (∀ ec, .returned i ec ∉ out) →
      (∀ packet plaintext, .registered i packet plaintext ∉ out) → CallStep t' i p out := by
    intro hsends hreturned hregistered
    refine .waits ?_ hreturned hregistered
    unfold Intends at h ⊢
    rwa [hsends]
  -- a call that is suspended elsewhere is another one
  have hother : ∀ {j f}, t.sends j = f → (∀ q, f ≠ .posted q) → (∀ q, f ≠ .waiting q) → i ≠ j := by
    rintro j f hj hposted hwaiting rfl
    rcases h with h | h
    · exact hposted p (hj.symm.trans h)
    · exact hwaiting p (hj.symm.trans h)
  cases step_cases hs with
  | refused j source fault nonce now cwnd ec hcall =>
      by_cases hij : i = j
      · subst hij
        exact .failed ec (by simp) (by simp) (by simp) (not_intends_update rfl (Or.inr ⟨_, rfl⟩))
      · exact .waits (h.of_update hij rfl) (by simp [hij]) (by simp)
  | delayed j source fault nonce now cwnd hcall =>
      by_cases hij : i = j
      · subst hij
        obtain rfl := h.unique hcall.intends
        refine .waits ?_ (by simp) (by simp)
        unfold Intends
        simp
      · exact .waits (h.of_update hij rfl) (by simp) (by simp)
  | unencrypted j source fault nonce now cwnd ec hcall =>
      by_cases hij : i = j
      · subst hij
        exact .failed ec (by simp) (by simp) (by simp) (not_intends_update rfl (Or.inr ⟨_, rfl⟩))
      · exact .waits (h.of_update hij rfl) (by simp [hij]) (by simp)
  | registered j source fault nonce now cwnd packet hcall herror hopen hencrypt =>
      by_cases hij : i = j
      · subst hij
        obtain rfl := h.unique hcall.intends
        exact .registered _ packet rfl (header_encryptPacket hencrypt).1
          (not_intends_update rfl (Or.inl ⟨_, _, rfl⟩))
      · exact .waits (h.of_update hij rfl) (by simp) (by simp [hij])
  | sendPacket j source hfresh =>
      exact .waits (h.of_update (h.ne_of_fresh hfresh) rfl) (by simp) (by simp)
  | transmitSend j packet hframe =>
      exact .waits (h.of_update (hother hframe (by simp) (by simp)) rfl) (by simp) (by simp)
  | sent j packet hframe =>
      have hij := hother hframe (by simp) (by simp)
      exact .waits (h.of_update hij rfl) (by simp [hij]) (by simp)
  | unsent j packet ec hframe =>
      have hij := hother hframe (by simp) (by simp)
      rw [signalIfDrained_eq]
      exact .waits (h.of_update hij rfl) (by simp [hij]) (by simp)
  | acked =>
      rw [signalIfDrained_eq] at hquiet ⊢
      exact hquiet rfl (by simp) (by simp)
  | receiveLoopResult | timeoutLoopResult =>
      exact hquiet (sends_handleLoopResult _ _) (by simp) (by simp)
  | shakes _ _ _ _ hshakes =>
      cases hshakes with
      | begunInitiator generated j hframe hfresh =>
          exact .waits (h.of_update (h.ne_of_fresh hfresh) rfl) (by simp) (by simp)
      | installedResponder j r queue fault context hframe htake herror hsize hset hfresh =>
          exact .waits (h.of_update (h.ne_of_fresh hfresh) rfl) (by simp) (by simp)
      | _ => exact hquiet rfl (by simp) (by simp)
  | _ => exact hquiet rfl (by simp [sendAck]) (by simp [sendAck])

end ProtoHopZ

namespace ProtoStream
variable {P : Primitives}

/-- **What a step of a stream does to a call of `send_packet`.** -/
theorem call_step {s s' : ProtoStream P} {e : Event P} {out : List Observation}
    (hs : s.step e = some (s', out)) {i : Nat} {p : Packet} (h : s.transport.Intends i p) :
    ∃ shown, ProtoHopZ.CallStep s'.transport i p shown ∧
      (out = shown.map .transport ∨ shown = [] ∧ ∀ o, .transport o ∉ out) := by
  have hquiet : s'.transport.sends = s.transport.sends → (∀ o, .transport o ∉ out) →
      ∃ shown, ProtoHopZ.CallStep s'.transport i p shown ∧
        (out = shown.map .transport ∨ shown = [] ∧ ∀ o, .transport o ∉ out) := by
    intro hsends hnone
    refine ⟨[], .waits ?_ (by simp) (by simp), Or.inr ⟨rfl, hnone⟩⟩
    unfold ProtoHopZ.Intends at h ⊢
    rwa [hsends]
  cases step_cases hs with
  | transport e t' shown hinternal hstep =>
      exact ⟨shown, ProtoHopZ.call_step hstep h, Or.inl rfl⟩
  | callStartLoops now fault generated j _ _ hframe hfresh =>
      have hstep := @step_startHandshake P (s.transport.startLoops now) s.handshakeMode fault
        generated j hframe hfresh
      exact ⟨_, ProtoHopZ.call_step hstep h, Or.inl rfl⟩
  | send j data hrunning hlength hfresh =>
      exact ⟨[], .waits (h.of_update (h.ne_of_fresh hfresh) rfl) (by simp) (by simp), Or.inl rfl⟩
  | chunk | lastChunk => exact hquiet rfl (by simp [Observation.chunk])
  | _ => exact hquiet rfl (by simp)

/-- Only `send` is turned down. -/
theorem rejected_step {s s' : ProtoStream P} {e : Event P} {out : List Observation}
    (hs : s.step e = some (s', out)) {i : Nat} {ec : Error} (h : .rejected i ec ∈ out) :
    ∃ data, e = .send i data := by
  cases step_cases hs with
  | rejected j data =>
      obtain ⟨rfl, -⟩ := Observation.rejected.inj (List.mem_singleton.mp h)
      exact ⟨data, rfl⟩
  | transport | callStartLoops => simp at h
  | chunk | lastChunk => simp [Observation.chunk] at h
  | stored => simp at h
  | _ => simp at h

/-- A payload that is registered is that of a call. -/
theorem data_registered {s s' : ProtoStream P} {e : Event P} {out : List Observation}
    (hs : s.step e = some (s', out)) : Session.dataOf (registrations out) = [] ∨
      ∃ i p packet, s.transport.Intends i p ∧ p.header.type = .data ∧
        Session.dataOf (registrations out) = [(packet, p.data)] ∧
        .transport (.registered i packet p.data) ∈ out := by
  cases moves_step hs with
  | chunk he r queue queue' htake hqueue htransport hout =>
      rcases hout with ⟨-, rfl, -⟩ | ⟨-, rfl, -⟩
      · exact Or.inl rfl
      · rw [registrations_chunks]
        exact Or.inl rfl
  | transport e' shown heffect hdatagram hsend hhandshake hshakes hstop htake hexpected hbuffer hout =>
      rcases hout with rfl | ⟨-, hquiet⟩
      swap
      · rw [registrations_quiet hquiet]
        exact Or.inl rfl
      rcases heffect.registers with ⟨hnone, -⟩ | ⟨i, p, fault, nonce, packet, hi, hpacket, rfl, -⟩
      · have hnil : registrations (shown.map .transport) = [] := by
          refine List.eq_nil_iff_forall_not_mem.mpr fun r hr => ?_
          obtain ⟨i, hi⟩ := mem_registrations.mp hr
          simp only [List.mem_map, Observation.transport.injEq, exists_eq_right] at hi
          exact hnone _ _ _ hi
        rw [hnil]
        exact Or.inl rfl
      · have htype := (ProtoHopZ.header_encryptPacket hpacket).1
        by_cases hdata : p.header.type = .data
        · refine Or.inr ⟨i, p, packet, hi, hdata, ?_, by simp⟩
          rw [hdata] at htype
          simp [registrations, Session.dataOf, htype]
        · refine Or.inl ?_
          rw [← htype] at hdata
          simp [registrations, Session.dataOf, hdata]

end ProtoStream

namespace Dialogue
variable {P : Primitives} {program : Role → Program}
open ProtoStream

/-- The events by which a program calls its stream. -/
def isCall : ProtoStream.Event P → Bool
  | .callStartLoops _ _ _ _ | .send _ _ | .receive _ | .close => true
  | _ => false

/-- A program that is in a call, or asks for nothing, makes no call. -/
theorem not_isCall {call : ProgramFrame} {request : Request} {e : ProtoStream.Event P}
    (hadmits : admits call request e = true) (hbusy : call ≠ .idle ∨ request = .nothing) :
    isCall e = false := by
  cases e with
  | callStartLoops | send | receive | close =>
      obtain ⟨hidle, hrequest⟩ := of_decide_eq_true hadmits
      rcases hbusy with h | h
      · exact absurd hidle h
      · rw [h] at hrequest
        cases hrequest
  | _ => rfl

theorem begun_of_not_isCall (call : ProgramFrame) {e : ProtoStream.Event P} (h : isCall e = false) :
    begun call e = call ∧ askedData e = [] := by
  cases e with
  | callStartLoops | send | receive | close => cases h
  | _ => exact ⟨rfl, rfl⟩

/-- The payloads that have been registered. -/
def payloads (out : List ProtoStream.Observation) : List Bytes :=
  (Session.dataOf (registrations out)).map Prod.snd

theorem payloads_append (a b : List ProtoStream.Observation) :
    payloads (a ++ b) = payloads a ++ payloads b := by
  rw [payloads, registrations_append, Session.dataOf_append, List.map_append]
  rfl

/-- The program has returned. -/
def Stopped (program : Program) (s : program.State) : Prop :=
  program.request s = .nothing ∧ ∀ e, program.step s e = none

/-- How what a program has passed to `send` is ahead of what its stream has registered. -/
inductive Sent (call : ProgramFrame) (stopped : Prop) (registered asked : List Bytes)
    (t : ProtoHopZ P) : Prop
  | level (hasked : asked = registered) (hnone : ∀ i p, t.Intends i p → p.header.type ≠ .data)
  /-- A call waits in `send_packet`. -/
  | pending (i : Nat) (data : Bytes) (hcall : call = .sending i)
      (hasked : asked = registered ++ [data]) (hlength : data.length ≤ packetPayloadSize)
      (hintends : t.Intends i (dataPacket data))
      (honly : ∀ j p, t.Intends j p → p.header.type = .data → j = i)
  /-- A call has failed. -/
  | lost (data : Bytes) (hasked : asked = registered ++ [data])
      (hcall : (∃ ec, call = .returned (.sent (some ec))) ∨ stopped)
      (hnone : ∀ i p, t.Intends i p → p.header.type ≠ .data)

theorem Sent.first {call : ProgramFrame} {stopped : Prop} {registered asked : List Bytes}
    {t : ProtoHopZ P} (h : Sent call stopped registered asked t) : registered <+: asked := by
  cases h with
  | level hasked => rw [hasked]
  | pending _ _ _ hasked => exact ⟨_, hasked.symm⟩
  | lost _ hasked => exact ⟨_, hasked.symm⟩

section Step
variable {call : ProgramFrame} {stopped : Prop} {request : Request} {registered askedBefore : List Bytes}
  {s s' : ProtoStream P} {e : ProtoStream.Event P} {shown : List ProtoStream.Observation}

/-- A stream with no payload to register registers none, and gets one only by `send`. -/
theorem quiet_step (hs : s.step e = some (s', shown))
    (hnone : ∀ i p, s.transport.Intends i p → p.header.type ≠ .data) : payloads shown = [] ∧
      ((∀ i data, e ≠ .send i data) → ∀ i p, s'.transport.Intends i p → p.header.type ≠ .data) := by
  refine ⟨?_, fun hsend i p hi hdata => ?_⟩
  · rcases data_registered hs with hnil | ⟨i, p, packet, hi, hdata, -⟩
    · rw [payloads, hnil]
      rfl
    · exact absurd hdata (hnone i p hi)
  · rcases intends_step hs hi with hold | hhello | ⟨-, data, he, -⟩
    · exact hnone i p hold hdata
    · rw [hdata] at hhello
      cases hhello
    · exact hsend i data he

/-- A call goes on with `response` when that is what the stream shows for it. -/
theorem advance_eq {start : StartFrame} (hcall : isCall e = false) (hstarting : call ≠ .starting)
    (request : Request) : advance call request e start shown =
      match shown.findSome? (responseIn call) with
      | some response => .returned response
      | none => call := by
  unfold advance
  rw [(begun_of_not_isCall call hcall).1]
  cases call with
  | starting => exact absurd rfl hstarting
  | _ => rfl

/-- A program that has not gone on with the response of its call still has it. -/
theorem advance_returned {start : StartFrame} {response : Response}
    (hadmits : admits (.returned response) request e = true) :
    advance (.returned response) request e start shown = .returned response := by
  rw [advance_eq (not_isCall hadmits (Or.inl (by simp))) (by simp)]
  have hfind : shown.findSome? (responseIn (.returned response)) = none := by
    rw [List.findSome?_eq_none_iff]
    exact fun o _ => rfl
  rw [hfind]

/-- A call of `send` that waits goes on with what `send_packet` returns to it. -/
theorem responseIn_sending (hs : s.step e = some (s', shown)) (hsend : ∀ i data, e ≠ .send i data)
    {i : Nat} {o : ProtoStream.Observation} {r : Response} (ho : o ∈ shown)
    (hr : responseIn (.sending i) o = some r) :
    ∃ ec, o = .transport (.returned i ec) ∧ r = .sent ec := by
  unfold responseIn at hr
  split at hr
  · obtain ⟨data, he⟩ := rejected_step hs ho
    exact absurd he (hsend _ data)
  · rename_i hsame
    obtain rfl := ProgramFrame.sending.inj hsame
    split_ifs at hr with hij
    subst hij
    exact ⟨_, rfl, (Option.some.inj hr).symm⟩
  · rename_i hsame
    cases hsame
  · rename_i hsame
    cases hsame
  · cases hr

/-- **A call that waits in `send_packet`**: it goes on waiting, or its packet is registered, or
it fails. -/
theorem Sent.waiting {i : Nat} {data : Bytes}
    (hasked : askedBefore = registered ++ [data]) (hlength : data.length ≤ packetPayloadSize)
    (hintends : s.transport.Intends i (dataPacket data))
    (honly : ∀ j p, s.transport.Intends j p → p.header.type = .data → j = i)
    (hs : s.step e = some (s', shown)) (hadmits : admits (.sending i) request e = true) :
    Sent (advance (.sending i) request e s'.startLoops shown) stopped
      (registered ++ payloads shown) (askedBefore ++ asked (askedData e)) s'.transport := by
  have hno := not_isCall hadmits (Or.inl (by simp))
  have hsend : ∀ j data', e ≠ .send j data' := by
    rintro j data' rfl
    cases hno
  have hcarried : (dataPacket data).data = data := Packet.copyIn_data (hlength.trans (by decide))
  have hstarting : ProgramFrame.sending i ≠ .starting := by simp
  rw [(begun_of_not_isCall (.sending i) hno).2, asked_nil, List.append_nil,
    advance_eq hno hstarting]
  -- no other payload waits
  have hothers : ∀ j p, s'.transport.Intends j p → p.header.type = .data → j = i := by
    intro j p hj hdata
    rcases intends_step hs hj with hold | hhello | ⟨-, data', he, -⟩
    · exact honly j p hold hdata
    · rw [hdata] at hhello
      cases hhello
    · exact absurd he (hsend j data')
  obtain ⟨shown', hstep, hout⟩ := call_step hs hintends
  have hmem : ∀ o, .transport o ∈ shown → o ∈ shown' := by
    intro o ho
    rcases hout with rfl | ⟨-, hnone⟩
    · simpa using ho
    · exact absurd ho (hnone o)
  have hnil : (∀ packet plaintext, .registered i packet plaintext ∉ shown') →
      payloads shown = [] := by
    intro hregistered
    rcases data_registered hs with hnil | ⟨j, p, packet, hj, hdata, -, hmemj⟩
    · rw [payloads, hnil]
      rfl
    · obtain rfl := honly j p hj hdata
      exact absurd (hmem _ hmemj) (hregistered _ _)
  cases hstep with
  | waits hstill hreturned hregistered =>
      have hfind : shown.findSome? (responseIn (.sending i)) = none := by
        rw [List.findSome?_eq_none_iff]
        intro o ho
        by_contra hsome
        obtain ⟨r, hr⟩ := Option.ne_none_iff_exists'.mp hsome
        obtain ⟨ec, rfl, -⟩ := responseIn_sending hs hsend ho hr
        exact hreturned ec (hmem _ ho)
      rw [hnil hregistered, List.append_nil, hfind]
      exact .pending i data rfl hasked hlength hstill hothers
  | registered sequence packet hshown htype hnot =>
      have hone : payloads shown = [data] := by
        rcases hout with rfl | ⟨hempty, -⟩
        · have htype : packet.header.type = .data := htype
          rw [hshown]
          simp [payloads, registrations, Session.dataOf, htype, hcarried]
        · rw [hempty] at hshown
          cases hshown
      rw [hone]
      refine .level hasked fun j p hj hdata => ?_
      obtain rfl := hothers j p hj hdata
      exact hnot p hj
  | failed ec hreturned hnone hregistered hnot =>
      have hfind : shown.findSome? (responseIn (.sending i)) = some (.sent (some ec)) := by
        cases hfound : shown.findSome? (responseIn (.sending i)) with
        | none =>
            rw [List.findSome?_eq_none_iff] at hfound
            rcases hout with rfl | ⟨hempty, -⟩
            · have := hfound _ (List.mem_map_of_mem hreturned)
              simp [responseIn] at this
            · rw [hempty] at hreturned
              cases hreturned
        | some r =>
            obtain ⟨o, ho, hr⟩ := List.exists_of_findSome?_eq_some hfound
            obtain ⟨ec', rfl, rfl⟩ := responseIn_sending hs hsend ho hr
            rw [(hnone i ec' (hmem _ ho)).2]
      rw [hnil (hregistered i), List.append_nil, hfind]
      refine .lost data hasked (Or.inl ⟨ec, rfl⟩) fun j p hj hdata => ?_
      obtain rfl := hothers j p hj hdata
      exact hnot p hj

/-- **The step lemma of what a program has sent.** -/
theorem Sent.stream (h : Sent call stopped registered askedBefore s.transport)
    (hs : s.step e = some (s', shown)) (hadmits : admits call request e = true)
    (hstopped : stopped → request = .nothing) :
    Sent (advance call request e s'.startLoops shown) stopped (registered ++ payloads shown)
      (askedBefore ++ asked (askedData e)) s'.transport := by
  cases h with
  | level hasked hnone =>
      obtain ⟨hnil, hstill⟩ := quiet_step hs hnone
      rw [hnil, List.append_nil]
      by_cases hsend : ∃ i data, e = .send i data
      · obtain ⟨i, data, rfl⟩ := hsend
        cases step_cases hs with
        | rejected _ _ _ hlength =>
            refine .level ?_ hnone
            rw [askedData, if_pos hlength, asked_nil, List.append_nil, hasked]
        | send _ _ _ hlength =>
            refine .pending i data rfl ?_ hlength ?_ fun j p hj hdata => ?_
            · rw [askedData, if_neg (not_lt.mpr hlength), hasked]
              rfl
            · exact Or.inl (Function.update_self _ _ _)
            · rcases intends_step hs hj with hold | hhello | ⟨-, data', he, -⟩
              · exact absurd hdata (hnone j p hold)
              · rw [hdata] at hhello
                cases hhello
              · exact (ProtoStream.Event.send.inj he).1.symm
      · have hnot : asked (askedData e) = [] := by
          cases e with
          | send i data => exact absurd ⟨i, data, rfl⟩ hsend
          | _ => rfl
        rw [hnot, List.append_nil]
        exact .level hasked (hstill fun i data he => hsend ⟨i, data, he⟩)
  | pending i data hcall hasked hlength hintends honly =>
      rw [hcall] at hadmits ⊢
      exact Sent.waiting hasked hlength hintends honly hs hadmits
  | lost data hasked hcall hnone =>
      have hno : isCall e = false := not_isCall hadmits (by
        rcases hcall with ⟨ec, rfl⟩ | hstop
        · exact Or.inl (by simp)
        · exact Or.inr (hstopped hstop))
      obtain ⟨hnil, hstill⟩ := quiet_step hs hnone
      rw [hnil, (begun_of_not_isCall call hno).2, asked_nil, List.append_nil, List.append_nil]
      refine .lost data hasked ?_ (hstill ?_)
      · rcases hcall with ⟨ec, rfl⟩ | hstop
        · exact Or.inl ⟨ec, advance_returned hadmits⟩
        · exact Or.inr hstop
      · rintro i data' rfl
        cases hno

end Step

end Dialogue
end FileHopZ

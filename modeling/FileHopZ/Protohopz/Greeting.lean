import FileHopZ.Protohopz.Announcing
import FileHopZ.Protohopz.Draining

/-! # What the handshake takes for its peer's packet

Each handshake takes whatever packet is first in `received_packets_queue_` for its peer's
`HANDSHAKE` packet.  Nothing arrives before `start_loops`, the packets that end a loop's life
come with `loop_error_` set, and `stop_loops` is not called before `start_loops` has returned:
so that packet is the first that has arrived (`Greeting.step`).
-/
namespace FileHopZ
namespace ProtoHopZ
variable {P : Primitives}

/-- The handshake has not got its peer's packet yet. -/
def Waiting (t : ProtoHopZ P) : Prop :=
  (∃ i, t.handshake = .sending .initiator i) ∨ ∃ role, t.handshake = .receiving role

theorem Waiting.going {t : ProtoHopZ P} (h : t.Waiting) :
    t.handshake ≠ .idle ∧ ∀ ec, t.handshake ≠ .returned ec := by
  rcases h with ⟨i, h⟩ | ⟨role, h⟩
  · simp [h]
  · simp [h]

theorem Waiting.of_same {t t' : ProtoHopZ P} (h : t.Waiting) (hframe : t'.handshake = t.handshake) :
    t'.Waiting := by
  unfold Waiting
  rwa [hframe]

/-- A loop that fails sets `loop_error_`, or leaves the queue alone. -/
theorem queue_handleLoopResult (u : ProtoHopZ P) (ec : Option Error) :
    (u.handleLoopResult ec).receivedPacketsQueue = u.receivedPacketsQueue ∨
      (u.handleLoopResult ec).loopError ≠ none := by
  unfold handleLoopResult
  split_ifs
  · exact Or.inl rfl
  unfold storeLoopError
  split
  · exact Or.inr (by simp)
  · exact Or.inl rfl

/-- What can join the queue while `stop_loops` does not run. -/
theorem queue_grows {t t' : ProtoHopZ P} {e : Event P} {out : List Observation}
    (hs : t.step e = some (t', out)) (hinternal : e.isInternal = true)
    (hh : e.handshakes = false) (hstop : t.stop ≠ .posted) :
    t'.receivedPacketsQueue = t.receivedPacketsQueue ∨ t'.loopError ≠ none ∨
      ∃ r, t'.receivedPacketsQueue = t.receivedPacketsQueue.push r ∧
        ∃ remote buffer bytes now fault, e = .datagram remote buffer bytes now fault ∧
          (buffer.receiveFrom bytes).header.size.toNat ≤ packetSize ∧
          Accepts t.connectionEncrypted t.cryptoContext (buffer.receiveFrom bytes) r := by
  cases step_cases hs with
  | accepted remote buffer bytes now fault r _ _ hsize _ _ haccepts =>
      exact Or.inr (Or.inr ⟨r, rfl, remote, buffer, bytes, now, fault, rfl, hsize, haccepts⟩)
  | receiveLoopResult | timeoutLoopResult =>
      exact (queue_handleLoopResult _ _).imp_right Or.inl
  | unsent => exact Or.inl (by rw [signalIfDrained_eq])
  | acked => exact Or.inl (by rw [signalIfDrained_eq]; rfl)
  | resumeStop hposted => exact absurd hposted hstop
  | shakes _ _ _ he =>
      rw [hh] at he
      cases he
  | startLoops | sendPacket | awaitPacket | takePacket | cancelPacket | drain | stop =>
      cases hinternal
  | refused | delayed | unencrypted | registered | transmitSend | sent | ignored | unread | tooLarge
  | repeated | undecrypted | receiveError | idled | checked | timedOut | transmitResend | resent
  | unresent | timer | resumeDrain =>
      exact Or.inl rfl

/-- Before `start_loops` nothing arrives. -/
theorem unstarted_step {t t' : ProtoHopZ P} {e : Event P} {out : List Observation}
    (hreceive : t.receiveLoop = .idle) (htimeout : t.timeoutLoop = .idle)
    (hs : t.step e = some (t', out)) (hinternal : e.isInternal = true)
    (hh : e.handshakes = false) : t'.receiveLoop = .idle ∧ t'.timeoutLoop = .idle ∧
      (t.stop ≠ .posted → t'.receivedPacketsQueue = t.receivedPacketsQueue) := by
  -- neither loop runs
  cases step_cases hs with
  | ignored _ _ _ _ _ hloop | acked _ _ _ _ _ hloop | unread _ _ _ _ _ hloop
  | tooLarge _ _ _ _ _ hloop | repeated _ _ _ _ _ hloop | undecrypted _ _ _ _ _ hloop
  | accepted _ _ _ _ _ _ hloop | receiveError _ hloop | receiveLoopResult _ hloop =>
      rw [hreceive] at hloop
      cases hloop
  | timeoutLoopResult _ hloop | idled _ _ hloop | checked _ hloop | timedOut _ _ hloop
  | transmitResend _ _ hloop | resent _ _ _ hloop | unresent _ _ _ _ hloop | timer _ hloop =>
      rw [htimeout] at hloop
      cases hloop
  | shakes _ _ _ he =>
      rw [hh] at he
      cases he
  | startLoops | sendPacket | awaitPacket | takePacket | cancelPacket | drain | stop =>
      cases hinternal
  | unsent =>
      rw [signalIfDrained_eq]
      exact ⟨hreceive, htimeout, fun _ => rfl⟩
  | resumeStop hposted => exact ⟨hreceive, htimeout, fun h => absurd hposted h⟩
  | refused | delayed | unencrypted | registered | transmitSend | sent | resumeDrain =>
      exact ⟨hreceive, htimeout, fun _ => rfl⟩

end ProtoHopZ

namespace ProtoStream
variable {P : Primitives}

/-- What a step of a session does to its handshake and its queue. -/
inductive Stirs (s : ProtoStream P) (e : Event P) (s' : ProtoStream P) (out : List Observation) :
    Prop
  | quiet (queue : AsyncQueue Consumer ReceivedPacket) (drain : DrainFrame) (stop : StopFrame)
      (htransport : s'.transport =
        { s.transport with receivedPacketsQueue := queue, drain := drain, stop := stop })
      (hcontents : queue.contents = s.transport.receivedPacketsQueue.contents ∨
        s.receiveChunksLoop ≠ .idle)
      (hstop : stop = s.transport.stop ∨ s'.closing ≠ .idle)
      (hstart : s'.startLoops = s.startLoops ∨ ∃ ec, s.transport.handshake = .returned ec)
      (hclosing : s.closing ≠ .idle → s'.closing ≠ .idle)
      (hout : ∀ o, .transport o ∉ out)
  | transport (e' : ProtoHopZ.Event P) (he : e = .transport e') (hinternal : e'.isInternal = true)
      (shown : List FileHopZ.Observation)
      (hs : s.transport.step e' = some (s'.transport, shown))
      (hsame : s'.startLoops = s.startLoops ∧ s'.closing = s.closing)
      (hout : out = shown.map .transport)
  | sends (hsame : s'.startLoops = s.startLoops ∧ s'.closing = s.closing)
      (sends : Nat → SendFrame) (htransport : s'.transport = { s.transport with sends := sends })
      (hout : ∀ o, .transport o ∉ out)
  | starts (now : Nat) (shown : List FileHopZ.Observation)
      (hidle : s.transport.handshake = .idle) (hstart : s'.startLoops = .handshaking)
      (hclosing : s.closing = .idle ∧ s'.closing = .idle)
      (hs : ProtoHopZ.Shakes (s.transport.startLoops now) s'.transport shown)
      (hout : out = shown.map .transport)

/-- **What a step of a session does to its handshake and its queue.** -/
theorem stirs_step {s s' : ProtoStream P} {e : Event P} {out : List Observation}
    (hs : s.step e = some (s', out)) : Stirs s e s' out := by
  have hquiet : ∀ {out : List Observation}, (∀ o, .transport o ∉ out) → ∀ s' : ProtoStream P,
      s'.transport = s.transport → s'.startLoops = s.startLoops →
      (s.closing ≠ .idle → s'.closing ≠ .idle) → Stirs s e s' out :=
    fun hout s' htransport hstart hclosing =>
      .quiet _ _ _ htransport (Or.inl rfl) (Or.inl rfl) (Or.inl hstart) hclosing hout
  cases step_cases hs with
  | transport e t' shown hinternal hstep =>
      exact .transport e rfl hinternal shown hstep ⟨rfl, rfl⟩ rfl
  | callStartLoops now _ _ _ _ hopen hframe hfresh =>
      exact .starts now _ hframe rfl ⟨hopen, hopen⟩
        (ProtoHopZ.shakes_startHandshake (t := s.transport.startLoops now) hframe hfresh) rfl
  | unstarted ec _ hreturned =>
      exact .quiet _ _ _ rfl (Or.inl rfl) (Or.inl rfl) (Or.inr ⟨some ec, hreturned⟩) id (by simp)
  | started _ hreturned =>
      exact .quiet _ _ _ rfl (Or.inl (AsyncQueue.contents_pop _ _)) (Or.inl rfl)
        (Or.inr ⟨none, hreturned⟩) id (by simp)
  | send => exact .sends ⟨rfl, rfl⟩ _ rfl (by simp)
  | interrupted _ _ _ hrunning | chunk _ _ hrunning | lastChunk _ _ hrunning =>
      have hloop : s.receiveChunksLoop ≠ .idle := by simp [hrunning]
      exact .quiet _ _ _ rfl (Or.inr hloop) (Or.inl rfl) (Or.inl rfl) id
        (by simp [Observation.chunk])
  | stored =>
      exact .quiet _ _ _ rfl (Or.inl (AsyncQueue.contents_cancel _ _)) (Or.inl rfl)
        (Or.inl rfl) id (by simp)
  | resumeClose =>
      exact .quiet _ _ _ rfl (Or.inl (AsyncQueue.contents_cancel _ _)) (Or.inr (by simp))
        (Or.inl rfl) (by simp) (by simp)
  | close =>
      exact .quiet _ _ _ rfl (Or.inl rfl) (Or.inl rfl) (Or.inl rfl) (by simp) (by simp)
  | finishClose => exact hquiet (by simp) _ rfl rfl (by simp)
  | rejected | refused | receive | failed | received | aborted | ended =>
      exact hquiet (by simp) _ rfl rfl id

/-- A packet that arrives at `s` now is the first that its handshake gets. -/
def Ungreeted (t : ProtoHopZ P) : Prop :=
  t.Waiting ∧ t.loopError = none ∧ t.receivedPacketsQueue.contents = []

/-- While the handshake waits for its peer's packet, the first packet queued is one that
`greets`. -/
structure Greeting (greets : ReceivedPacket → Prop) (s : ProtoStream P) : Prop where
  single : Single s
  idle : s.transport.handshake = .idle →
    s.transport.receiveLoop = .idle ∧ s.transport.timeoutLoop = .idle ∧
      (s.closing = .idle → s.transport.receivedPacketsQueue.contents = [])
  waiting : s.transport.Waiting → s.startLoops = .handshaking
  first : s.transport.Waiting → s.transport.loopError = none →
    ∀ r ∈ s.transport.receivedPacketsQueue.contents.head?, greets r
  stop : s.transport.stop ≠ .idle → s.closing ≠ .idle

theorem greeting_construct (greets : ReceivedPacket → Prop) (peerEndpoint : Endpoint)
    (mode : Role) : Greeting greets (construct P peerEndpoint mode) where
  single := single_construct peerEndpoint mode
  idle _ := ⟨rfl, rfl, fun _ => rfl⟩
  waiting h := by
    rcases h with ⟨i, h⟩ | ⟨role, h⟩
    · cases h
    · cases h
  first _ _ r h := by cases h
  stop h := absurd rfl h

/-- What the handshake waits for while it waits does not change what it is. -/
theorem Greeting.weaken {greets greets' : ReceivedPacket → Prop} {s : ProtoStream P}
    (h : Greeting greets s) (hsub : ∀ r, greets r → greets' r) : Greeting greets' s :=
  ⟨h.single, h.idle, h.waiting, fun hwait herror r hr => hsub r (h.first hwait herror r hr), h.stop⟩

/-- While its handshake waits, `stop_loops` has not been called. -/
theorem Greeting.stop_idle {greets : ReceivedPacket → Prop} {s : ProtoStream P}
    (h : Greeting greets s) (hwait : s.transport.Waiting) : s.transport.stop = .idle := by
  by_contra hstop
  exact h.single.closing (h.stop hstop) (h.waiting hwait)

/-- The packet that the handshake gets is the first queued. -/
theorem Greeting.taken {greets : ReceivedPacket → Prop} {s : ProtoStream P} (h : Greeting greets s)
    {role : Role} {r : ReceivedPacket} {queue : AsyncQueue Consumer ReceivedPacket}
    (hframe : s.transport.handshake = .receiving role) (herror : s.transport.loopError = none)
    (htake : s.transport.receivedPacketsQueue.resume .handshake = some (r, queue)) : greets r := by
  obtain ⟨-, -, -, hcontents⟩ := h.single.orderly.resume htake
  refine h.first (Or.inr ⟨role, hframe⟩) herror r ?_
  rw [hcontents]
  rfl

end ProtoStream

namespace ProtoHopZ
variable {P : Primitives}

/-- A handshake that waits has just begun, or has just sent its own packet. -/
theorem Shakes.waiting {t t' : ProtoHopZ P} {out : List Observation} (h : Shakes t t' out)
    (hwait : t'.Waiting) : t'.loopError = t.loopError ∧
      t'.receivedPacketsQueue.contents = t.receivedPacketsQueue.contents ∧
      (t.handshake = .idle ∨ t.Waiting) := by
  cases h with
  | begunInitiator _ _ hframe => exact ⟨rfl, rfl, Or.inl hframe⟩
  | begunResponder _ hframe => exact ⟨rfl, AsyncQueue.contents_pop _ _, Or.inl hframe⟩
  | sentInitiator i hframe =>
      exact ⟨rfl, AsyncQueue.contents_pop _ _, Or.inr (Or.inl ⟨i, hframe⟩)⟩
  | failed | sentResponder | interrupted | rejected | installedInitiator | installedResponder =>
      rcases hwait with ⟨j, hj⟩ | ⟨role, hrole⟩
      · cases hj
      · cases hrole

theorem Shakes.begun {t t' : ProtoHopZ P} {out : List Observation} (h : Shakes t t' out) :
    t'.handshake ≠ .idle := by
  intro hidle
  cases h <;> cases hidle

theorem Shakes.stop {t t' : ProtoHopZ P} {out : List Observation} (h : Shakes t t' out) :
    t'.stop = t.stop := by
  cases h <;> rfl

/-- A step of the handshake that is not its start finds it started. -/
theorem started_step {t t' : ProtoHopZ P} {e : Event P} {out : List Observation}
    (hs : t.step e = some (t', out)) (hinternal : e.isInternal = true)
    (hh : e.handshakes = true) : t.handshake ≠ .idle := by
  intro hidle
  cases e with
  | startHandshake => cases hinternal
  | resumeHandshakeSend => simp [step, resumeHandshakeSend, hidle] at hs
  | resumeHandshakeReceive => simp [step, resumeHandshakeReceive, hidle] at hs
  | _ => cases hh

/-- A loop's error stays, and so does `stop_loops` unless it ends. -/
theorem internal_step {t t' : ProtoHopZ P} {e : Event P} {out : List Observation}
    (hs : t.step e = some (t', out)) (hinternal : e.isInternal = true) :
    (t'.stop ≠ .idle → t.stop ≠ .idle) ∧
      (t.stop ≠ .posted → t.loopError ≠ none → t'.loopError ≠ none) := by
  cases hcloses : e.closes with
  | false =>
      have hw := waits_step hs hcloses
      exact ⟨by rw [hw.stop]; exact id, fun _ => hw.loopError⟩
  | true =>
      cases step_cases hs with
      | resumeDrain => exact ⟨id, fun _ => id⟩
      | resumeStop hposted => exact ⟨fun _ => by simp [hposted], fun hnot => absurd hposted hnot⟩
      | startLoops | drain | stop => cases hinternal
      | shakes _ _ _ he =>
          rw [Event.closes_of_handshakes he] at hcloses
          cases hcloses
      | _ => cases hcloses

end ProtoHopZ

namespace ProtoStream
variable {P : Primitives}

/-- A step that leaves the handshake alone. -/
theorem Greeting.of_same {greets : ReceivedPacket → Prop} {s s' : ProtoStream P}
    (h : Greeting greets s) (hsingle : Single s')
    (hframe : s'.transport.handshake = s.transport.handshake)
    (hidle : s.transport.handshake = .idle → s'.transport.receiveLoop = .idle ∧
      s'.transport.timeoutLoop = .idle ∧ (s.closing = .idle →
        s'.transport.receivedPacketsQueue.contents = s.transport.receivedPacketsQueue.contents))
    (hstart : s.transport.Waiting → s'.startLoops = s.startLoops)
    (hfirst : s.transport.Waiting → s'.transport.loopError = none →
      s.transport.loopError = none ∧ ∀ r ∈ s'.transport.receivedPacketsQueue.contents.head?,
        r ∈ s.transport.receivedPacketsQueue.contents.head? ∨ greets r)
    (hstop : s'.transport.stop ≠ .idle → s.transport.stop ≠ .idle ∨ s'.closing ≠ .idle)
    (hclosing : s.closing ≠ .idle → s'.closing ≠ .idle) : Greeting greets s' := by
  have hwaiting : s'.transport.Waiting → s.transport.Waiting := fun h => h.of_same hframe.symm
  refine ⟨hsingle, fun hnone => ?_, fun hwait => ?_, fun hwait herror r hr => ?_, fun hne => ?_⟩
  · rw [hframe] at hnone
    obtain ⟨hreceive, htimeout, hsame⟩ := hidle hnone
    refine ⟨hreceive, htimeout, fun hopen => ?_⟩
    have hopen : s.closing = .idle := by
      by_contra hclosed
      exact hclosing hclosed hopen
    rw [hsame hopen]
    exact (h.idle hnone).2.2 hopen
  · rw [hstart (hwaiting hwait)]
    exact h.waiting (hwaiting hwait)
  · obtain ⟨hbefore, hhead⟩ := hfirst (hwaiting hwait) herror
    exact (hhead r hr).elim (h.first (hwaiting hwait) hbefore r) id
  · rcases hstop hne with hbefore | hclosed
    · exact hclosing (h.stop hbefore)
    · exact hclosed

/-- A step of the transport that is no step of the handshake. -/
theorem Greeting.transport {greets : ReceivedPacket → Prop} {s s' : ProtoStream P}
    {e : ProtoHopZ.Event P} {shown : List FileHopZ.Observation} (h : Greeting greets s)
    (hsingle : Single s') (hs : s.transport.step e = some (s'.transport, shown))
    (hinternal : e.isInternal = true) (hh : e.handshakes = false)
    (hsame : s'.startLoops = s.startLoops ∧ s'.closing = s.closing)
    (harrives : ∀ r, Arrives s (.transport e) r → Ungreeted s.transport → greets r) :
    Greeting greets s' := by
  obtain ⟨hstop, herror⟩ := ProtoHopZ.internal_step hs hinternal
  have hframe := ((ProtoHopZ.effect_step hs).keys hh).2.2
  refine h.of_same hsingle hframe (fun hidle => ?_) (fun _ => hsame.1) (fun hwait hnone => ?_)
    (fun hne => Or.inl (hstop hne)) (fun hclosed => by rwa [hsame.2])
  · obtain ⟨hreceive, htimeout, -⟩ := h.idle hidle
    obtain ⟨hreceive', htimeout', hqueue⟩ :=
      ProtoHopZ.unstarted_step hreceive htimeout hs hinternal hh
    refine ⟨hreceive', htimeout', fun hopen => ?_⟩
    have hnot : s.transport.stop ≠ .posted := fun hposted => h.stop (by simp [hposted]) hopen
    rw [hqueue hnot]
  · have hnot : s.transport.stop ≠ .posted := by
      rw [h.stop_idle hwait]
      simp
    have hbefore : s.transport.loopError = none := by
      by_contra hne
      exact herror hnot hne hnone
    refine ⟨hbefore, fun r hr => ?_⟩
    rcases ProtoHopZ.queue_grows hs hinternal hh hnot with hqueue | hfailed | ⟨p, hqueue, harrived⟩
    · rw [hqueue] at hr
      exact Or.inl hr
    · exact absurd hnone hfailed
    · obtain ⟨-, -, hcontents⟩ := h.single.orderly.push p
      rw [hqueue, hcontents] at hr
      -- the packet that arrives is the first one only if none was queued
      cases hempty : s.transport.receivedPacketsQueue.contents with
      | cons q rest =>
          rw [hempty] at hr
          exact Or.inl hr
      | nil =>
          rw [hempty] at hr
          obtain rfl := Option.some.inj hr
          obtain ⟨remote, buffer, bytes, now, fault, rfl, hsize, haccepts⟩ := harrived
          exact Or.inr (harrives p ⟨remote, buffer, bytes, now, fault, rfl, hsize, haccepts⟩
            ⟨hwait, hbefore, hempty⟩)

/-- A step of the handshake. -/
theorem Greeting.shake {greets : ReceivedPacket → Prop} {s s' : ProtoStream P} {t : ProtoHopZ P}
    {shown : List FileHopZ.Observation} (h : Greeting greets s) (hsingle : Single s')
    (hs : ProtoHopZ.Shakes t s'.transport shown)
    (hqueue : t.receivedPacketsQueue = s.transport.receivedPacketsQueue)
    (hframe : t.handshake = s.transport.handshake) (hstop : t.stop = s.transport.stop)
    (hclosing : s'.closing = s.closing)
    (hbegins : s.transport.handshake = .idle →
      s.closing = .idle ∧ s'.startLoops = .handshaking)
    (hgoes : s.transport.handshake ≠ .idle →
      s'.startLoops = s.startLoops ∧ t.loopError = s.transport.loopError) :
    Greeting greets s' := by
  refine ⟨hsingle, fun hidle => absurd hidle hs.begun, fun hwait => ?_,
    fun hwait herror r hr => ?_, fun hne => ?_⟩
  · obtain ⟨-, -, hidle | hwaits⟩ := hs.waiting hwait
    · exact (hbegins (hframe.symm.trans hidle)).2
    · have hwaits : s.transport.Waiting := hwaits.of_same hframe.symm
      rw [(hgoes hwaits.going.1).1]
      exact h.waiting hwaits
  · obtain ⟨hloop, hcontents, hidle | hwaits⟩ := hs.waiting hwait
    · have hidle := hframe.symm.trans hidle
      rw [hcontents, hqueue, (h.idle hidle).2.2 (hbegins hidle).1] at hr
      cases hr
    · have hwaits : s.transport.Waiting := hwaits.of_same hframe.symm
      rw [hcontents, hqueue] at hr
      rw [hloop, (hgoes hwaits.going.1).2] at herror
      exact h.first hwaits herror r hr
  · rw [hs.stop, hstop] at hne
    rw [hclosing]
    exact h.stop hne

/-- **The step lemma** of what the handshake waits for: what arrives first `greets`. -/
theorem Greeting.step {greets : ReceivedPacket → Prop} {s s' : ProtoStream P} {e : Event P}
    {out : List Observation} (h : Greeting greets s) (hs : s.step e = some (s', out))
    (harrives : ∀ r, Arrives s e r → Ungreeted s.transport → greets r) : Greeting greets s' := by
  have hsingle := (single_step h.single hs).1
  cases stirs_step hs with
  | quiet queue drain stop htransport hcontents hstop hstart hclosing hout =>
      have hsame : s.transport.handshake ≠ .returned none →
          queue.contents = s.transport.receivedPacketsQueue.contents := fun hnot =>
        hcontents.resolve_right fun hloop => hnot (h.single.spawned hloop).1
      refine h.of_same hsingle (by rw [htransport]) (fun hidle => ?_) (fun hwait => ?_)
        (fun hwait herror => ?_) (fun hne => ?_) hclosing
      · obtain ⟨hreceive, htimeout, -⟩ := h.idle hidle
        rw [htransport]
        exact ⟨hreceive, htimeout, fun _ => hsame (by simp [hidle])⟩
      · refine hstart.resolve_right ?_
        rintro ⟨ec, hreturned⟩
        exact hwait.going.2 ec hreturned
      · rw [htransport] at herror ⊢
        refine ⟨herror, fun r hr => Or.inl ?_⟩
        rw [← hsame (hwait.going.2 none)]
        exact hr
      · rcases hstop with hstop | hclosed
        · rw [htransport] at hne
          exact Or.inl (hstop ▸ hne)
        · exact Or.inr hclosed
  | transport e' he hinternal shown hstep hsame hout =>
      cases hh : e'.handshakes with
      | false =>
          subst he
          exact h.transport hsingle hstep hinternal hh hsame harrives
      | true =>
          have hnot := ProtoHopZ.started_step hstep hinternal hh
          exact h.shake hsingle (ProtoHopZ.shakes_step hh hstep) rfl rfl rfl hsame.2
            (fun hidle => absurd hidle hnot) (fun _ => ⟨hsame.1, rfl⟩)
  | sends hsame sends htransport hout =>
      refine h.of_same hsingle (by rw [htransport]) (fun hidle => ?_) (fun _ => hsame.1)
        (fun _ herror => ?_) (fun hne => ?_) (fun hclosed => by rwa [hsame.2])
      · obtain ⟨hreceive, htimeout, -⟩ := h.idle hidle
        rw [htransport]
        exact ⟨hreceive, htimeout, fun _ => rfl⟩
      · rw [htransport] at herror ⊢
        exact ⟨herror, fun r hr => Or.inl hr⟩
      · rw [htransport] at hne
        exact Or.inl hne
  | starts now shown hidle hstart hclosing hshakes hout =>
      exact h.shake hsingle hshakes rfl rfl rfl (hclosing.2.trans hclosing.1.symm)
        (fun _ => ⟨hclosing.1, hstart⟩) (fun hnot => absurd hidle hnot)

end ProtoStream
end FileHopZ

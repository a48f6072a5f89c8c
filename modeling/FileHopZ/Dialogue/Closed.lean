import FileHopZ.Dialogue.Closes
import FileHopZ.Protohopz.Closing
import FileHopZ.Protohopz.Retaining

/-! # What a `close` that succeeds tells its program

A program waits for its calls and then for `close`.  When that returns no error, everything it has
passed to `send` has been acknowledged; and as long as nothing has ended at the peer, and the peer
drops no packet, everything has got there.
-/
namespace FileHopZ
namespace Dialogue
variable {P : Primitives} {program : Role → Program}
open ProtoStream

/-- The condition on a step of the stream that is closed: the timer of `wait_in_flight_drained`
does not end the wait with packets in flight while nothing is known to have failed, and
`stop_loops` does not run after a failure that the stream has not been told of. -/
def ClosesFully (s : ProtoStream P) : ProtoStream.Event P → Prop
  | .transport (.resumeDrain true) =>
      s.transport.inFlight.keys = ∅ ∨ s.transport.loopError ≠ none ∨ s.streamError ≠ none
  | .transport .resumeStop => s.transport.loopError = none ∨ s.streamError ≠ none
  | _ => True

/-- What is known of a program and its stream while the handshake has not failed. -/
structure Unfailed (call : ProgramFrame) (stopped : Prop) (tr : List ProtoStream.Observation)
    (asked : List Bytes) (s : ProtoStream P) : Prop where
  beginning : Beginning (registrations tr) s
  tended : Tended call stopped tr s
  calls : s.transport.Failed ∨ Consecutive (registrations tr) s
  level : s.closing ≠ .idle → asked = payloads tr

/-- What is known of a program and its stream, which may be closing or closed. -/
structure Settling (call : ProgramFrame) (stopped : Prop) (tr : List ProtoStream.Observation)
    (asked : List Bytes) (s : ProtoStream P) : Prop where
  below : ∀ n ∈ s.transport.inFlight, n < s.transport.sequenceCounter
  phase : Phase tr s
  unfailed : s.transport.ShakeFailed ∨ Unfailed call stopped tr asked s
  shaken : asked ≠ [] → s.transport.connectionEncrypted = true

theorem settling_construct (stopped : Prop) (peer : Endpoint) (mode : Role) :
    Settling .idle stopped [] [] (ProtoStream.construct P peer mode) where
  below _ hn := absurd hn Finmap.notMem_empty
  phase := phase_construct peer mode
  unfailed := Or.inr ⟨beginning_construct peer mode, tended_construct stopped peer mode,
    Or.inr ⟨rfl, fun _ _ => rfl⟩, fun h => absurd rfl h⟩
  shaken h := absurd rfl h

section Step
variable {call : ProgramFrame} {stopped : Prop} {request : Request} {askedBefore : List Bytes}
  {tr out : List ProtoStream.Observation} {s s' : ProtoStream P} {e : ProtoStream.Event P}
  {air : List (Endpoint × Bytes)} {greets : ReceivedPacket → Prop}

/-- The number that is drawn next is free: those in use have been registered. -/
theorem numberFree (hsupplies : Session.Supplies (registrations tr) air s)
    (hnumbers : Session.Numbers (registrations tr) s.transport)
    (hbelow : ∀ n ∈ s.transport.inFlight, n < s.transport.sequenceCounter) :
    s.transport.NumberFree := by
  refine ⟨fun hmem => absurd (hbelow _ hmem) (UInt32.lt_irrefl _), fun i packet b hi heq => ?_⟩
  obtain ⟨plaintext, hreg⟩ := hsupplies.holds packet (ProtoHopZ.sending_holds hi)
  have hless := hnumbers.below _ hreg
  rw [Session.number, heq] at hless
  exact Nat.lt_irrefl _ hless

theorem settledClose (hcloses : ClosesFully s e) (hfree : s.transport.NumberFree) :
    s.SettledClose e := by
  unfold SettledClose
  split
  · exact hfree
  · exact hcloses
  · exact hcloses
  · trivial

/-- A call that has failed has failed for good. -/
theorem failed_step (hs : s.step e = some (s', out)) (h : s.transport.Failed) :
    s'.transport.Failed := by
  obtain ⟨i, ec, hframe⟩ := h
  obtain ⟨e', hframes, -⟩ := attends_step hs
  cases hframes i with
  | stays hsame => exact ⟨i, ec, hsame.trans hframe⟩
  | begins hidle =>
      rw [hframe] at hidle
      cases hidle
  | goes hbusy | returns _ hbusy => exact absurd hframe (hbusy.2 _)

/-- The numbers in flight have been drawn. -/
theorem below_step (hs : s.step e = some (s', out))
    (hbelow : ∀ n ∈ s.transport.inFlight, n < s.transport.sequenceCounter)
    (hwrap : s.transport.sequenceCounter ≤ s'.transport.sequenceCounter) :
    ∀ n ∈ s'.transport.inFlight, n < s'.transport.sequenceCounter := by
  cases step_cases hs with
  | transport e t' shown hinternal hstep => exact ProtoHopZ.below_step hstep hwrap hbelow
  | callStartLoops now fault generated i _ _ hidle hfresh =>
      exact ProtoHopZ.below_step (t := s.transport.startLoops now)
        (step_startHandshake hidle hfresh) hwrap hbelow
  | _ => exact hbelow

/-- What a program has passed to `send` it has passed to a stream that encrypts. -/
theorem asked_step (hsupplies : Session.Supplies (registrations tr) air s)
    (hs : s.step e = some (s', out)) (hne : asked (askedData e) ≠ []) :
    s.transport.connectionEncrypted = true := by
  cases step_cases hs with
  | rejected _ _ hrunning | send _ _ hrunning => exact hsupplies.encrypted hrunning
  | _ => exact absurd rfl hne

/-- A program that calls `close` has had everything registered that it has passed to `send`. -/
theorem Sent.level_close {registered : List Bytes} {t : ProtoHopZ P}
    (h : Sent .idle stopped registered askedBefore t) (hgoing : ¬ stopped) :
    askedBefore = registered := by
  cases h with
  | level hasked => exact hasked
  | pending i data hcall => cases hcall
  | lost data hasked hcall =>
      rcases hcall with ⟨ec, hcall⟩ | hstop
      · cases hcall
      · exact absurd hstop hgoing

/-- **The step lemma** while the handshake does not fail. -/
theorem Unfailed.stream (h : Unfailed call stopped tr askedBefore s)
    (hsupplies : Session.Supplies (registrations tr) air s) (hgreeting : Greeting greets s)
    (hsent : Sent call stopped (payloads tr) askedBefore s.transport)
    (hs : s.step e = some (s', out)) (hadmits : admits call request e = true)
    (hstopped : stopped → request = .nothing)
    (hwrap : s.transport.sequenceCounter ≤ s'.transport.sequenceCounter)
    (hfine : ¬ s'.transport.ShakeFailed) :
    Unfailed (advance call request e s'.startLoops out) stopped (tr ++ out)
      (askedBefore ++ asked (askedData e)) s' := by
  have hfrozen : s.closing ≠ .idle → registrations out = [] := by
    intro hclosing
    refine List.eq_nil_iff_forall_not_mem.mpr fun r hr => ?_
    obtain ⟨i, hi⟩ := mem_registrations.mp hr
    have hno := (h.tended.frozen hs hadmits (single_step hsupplies.single hs).1
      (starting_step hs h.beginning.starting) hclosing i).2
    exact hno _ (List.mem_filterMap.mpr ⟨_, hi, rfl⟩) rfl
  refine ⟨?_, h.tended.stream hs hadmits hstopped hsupplies.single h.beginning.starting hgreeting.stop
    hfine, ?_, fun hclosing => ?_⟩
  · rw [registrations_append]
    refine h.beginning.step hsupplies (fun hidle => ?_) hs hfine
    obtain ⟨hreceive, htimeout, -⟩ := hgreeting.idle hidle
    exact ⟨hreceive, htimeout⟩
  · by_cases hfailed : s'.transport.Failed
    · exact Or.inl hfailed
    have hconsecutive := h.calls.resolve_left fun hold => hfailed (failed_step hs hold)
    rw [registrations_append]
    refine Or.inr (hconsecutive.step hs hgreeting.stop h.beginning.unfailed (fun hne => ?_) hwrap
      hfailed)
    by_contra hclosing
    exact hne (hfrozen hclosing)
  · rw [payloads_append]
    by_cases hopen : s.closing = .idle
    · obtain ⟨rfl, rfl, -, -⟩ := closes_step hs hopen hclosing
      obtain ⟨rfl, hrequest⟩ := of_decide_eq_true hadmits
      have hgoing : ¬ stopped := by
        intro hstop
        rw [hstopped hstop] at hrequest
        cases hrequest
      rw [hsent.level_close hgoing]
      rfl
    · have hquiet : asked (askedData e) = [] := by
        cases e with
        | send i data => exact absurd rfl (h.tended.unsent hs hadmits hopen i data)
        | _ => rfl
      have hnone : payloads out = [] := by
        rw [payloads, hfrozen hopen]
        rfl
      rw [hquiet, hnone, List.append_nil, List.append_nil]
      exact h.level hopen

/-- **The step lemma.** -/
theorem Settling.stream (h : Settling call stopped tr askedBefore s)
    (hsupplies : Session.Supplies (registrations tr) air s)
    (hnumbers : Session.Numbers (registrations tr) s.transport) (hgreeting : Greeting greets s)
    (hsent : Sent call stopped (payloads tr) askedBefore s.transport)
    (hs : s.step e = some (s', out)) (hadmits : admits call request e = true)
    (hstopped : stopped → request = .nothing) (hcloses : ClosesFully s e)
    (hwrap : s.transport.sequenceCounter ≤ s'.transport.sequenceCounter) :
    Settling (advance call request e s'.startLoops out) stopped (tr ++ out)
      (askedBefore ++ asked (askedData e)) s' := by
  have hfree := numberFree hsupplies hnumbers h.below
  refine ⟨below_step hs h.below hwrap, phase_step h.phase (settledClose hcloses hfree) hs, ?_,
    fun hne => ?_⟩
  · by_cases hfine : s'.transport.ShakeFailed
    · exact Or.inl hfine
    have hunfailed := h.unfailed.resolve_left fun hfailed => hfine (shakeFailed_step hs hfailed)
    exact Or.inr (hunfailed.stream hsupplies hgreeting hsent hs hadmits hstopped hwrap hfine)
  · have hencrypted : s.transport.connectionEncrypted = true := by
      by_cases hbefore : askedBefore = []
      · refine asked_step hsupplies hs ?_
        rwa [hbefore, List.nil_append] at hne
      · exact h.shaken hbefore
    exact (hsupplies.announcing.encrypted (moves_step hs) hencrypted).1

/-- The program moves by itself. -/
theorem Settling.alone {stopped' : Prop} (h : Settling .idle stopped tr askedBefore s)
    (hgoing : ¬ stopped) : Settling .idle stopped' tr askedBefore s :=
  { h with unfailed := h.unfailed.imp_right fun h => { h with tended := h.tended.alone hgoing } }

/-- The program goes on with a response. -/
theorem Settling.took {stopped' : Prop} {response : Response}
    (h : Settling (.returned response) stopped tr askedBefore s) (hgoing : ¬ stopped)
    (hfailed : ∀ ec, response = .sent (some ec) → stopped') :
    Settling .idle stopped' tr askedBefore s :=
  { h with
    unfailed := h.unfailed.imp_right fun h => { h with tended := h.tended.took hgoing hfailed } }

/-! ## What a `close` without error means -/

theorem not_idle_of_closed (h : Phase tr s) (hclosed : .closed none ∈ tr) :
    s.closing ≠ .idle ∧ Concluded tr := by
  cases h with
  | running _ hmarks => exact absurd hclosed (not_closed_of_marks hmarks none)
  | draining called later _ htr hmarks | stopping called later _ _ htr hmarks =>
      have hmem : .closed none ∈ called ++ later := by simpa [htr] using hclosed
      exact absurd hmem (not_closed_of_marks hmarks none)
  | stopped _ _ hnot => exact absurd hclosed (hnot none)
  | returned ec hreturned hec h =>
      exact ⟨by simp [hreturned], h.resolve_left (by simp [← hec none hclosed])⟩

/-- What has been registered is acknowledged when `close` has returned no error. -/
theorem Tended.acked (h : Tended call stopped tr s) (hclosing : s.closing ≠ .idle)
    (hconcluded : Concluded tr) {r : Packet × Bytes} (hr : r ∈ registrations tr) :
    .transport (.acked r.1.header.sequence) ∈ tr := by
  obtain ⟨before, drained, rest, htr, hmarks, hdelivered⟩ := hconcluded
  obtain ⟨i, hi⟩ := mem_registrations.mp hr
  obtain ⟨hregistered, hreturned⟩ :=
    (h.closed hclosing).2 i r.1 r.2 (List.mem_filterMap.mpr ⟨_, hi, rfl⟩)
  have hcalled : called tr = before := by
    rw [called, htr]
    exact takeWhile_called fun o ho => hmarks o (List.mem_append_left _ ho)
  rw [hcalled] at hregistered hreturned
  obtain ⟨first, after, heq⟩ := List.append_of_mem hregistered
  have hacked := (hdelivered i hreturned).2 first r.1 r.2 after heq
  have hmem : .acked r.1.header.sequence ∈ transported tr := by
    rw [htr]
    rcases List.mem_append.mp hacked with hacked | hacked
    · rw [transported_append, heq]
      exact List.mem_append_left _ (by simp [hacked])
    · rw [transported_append]
      refine List.mem_append_right _ ?_
      show _ ∈ transported (drained ++ _)
      rw [transported_append]
      exact List.mem_append_left _ hacked
  obtain ⟨o, ho, hshown⟩ := List.mem_filterMap.mp hmem
  split at hshown
  · obtain rfl := Option.some.inj hshown
    exact ho
  · cases hshown

/-- **What a `close` without error means**: nothing was asked, or the handshake has not failed,
and everything that was asked is registered, under numbers without a gap, and acknowledged. -/
theorem Settling.concluded (h : Settling call stopped tr askedBefore s)
    (hsupplies : Session.Supplies (registrations tr) air s) (hclosed : .closed none ∈ tr) :
    askedBefore = [] ∨ askedBefore = payloads tr ∧
      (registrations tr).map Session.number = List.range (registrations tr).length ∧
      (∀ r ∈ (registrations tr).tail, r.1.header.type = .data) ∧
      ∀ r ∈ registrations tr, .transport (.acked r.1.header.sequence) ∈ tr := by
  obtain ⟨hclosing, hconcluded⟩ := not_idle_of_closed h.phase hclosed
  rcases h.unfailed with ⟨ec, hfailed⟩ | hunfailed
  · refine Or.inl ?_
    by_contra hne
    have hreturned := hsupplies.announcing.greets.encrypted.mp (h.shaken hne)
    rw [hfailed] at hreturned
    cases hreturned
  refine Or.inr ⟨hunfailed.level hclosing, ?_, hunfailed.beginning.data,
    fun r hr => hunfailed.tended.acked hclosing hconcluded hr⟩
  refine (hunfailed.calls.resolve_left ?_).numbers
  rintro ⟨i, ec, hframe⟩
  rcases hunfailed.tended.settled hclosing i with hsettled | hsettled
  · rw [hframe] at hsettled
    cases hsettled
  · rw [hframe] at hsettled
    cases hsettled

end Step

/-! ## Two sides, of which one closes -/

/-- The runs that are followed: the session is orderly, the stream of `side` closes fully, and its
peer drops no packet. -/
def Thorough (address : Role → Endpoint) (side : Role) (d : Dialogue P program) :
    Event P program → Prop
  | .stream mover e => d.session.Orderly address (mover, e) ∧
      (mover = side → ClosesFully (d.session.stream side) e) ∧
      (mover = side.peer → d.session.Spares (mover, e))
  | .program _ _ => True

theorem Thorough.fair {address : Role → Endpoint} {side : Role} {d : Dialogue P program}
    {e : Event P program} (h : Thorough address side d e) : Fair address d e := by
  cases e with
  | stream mover e => exact h.1
  | program mover e => trivial

/-- **The invariant of a side that may close, and its peer.** -/
structure Attending (side : Role) (tr : List (Role × Observation)) (d : Dialogue P program) :
    Prop where
  channel : Channel tr d
  settling : Settling (d.call side) (Stopped (program side) (d.state side)) (streamShown side tr)
    (asked (shown side tr)) (d.session.stream side)
  retains : (d.session.stream side.peer).transport.Ended ∨
    Session.Retains (sessionShown tr) d.session side.peer

theorem attending_construct (address : Role → Endpoint) (start : ∀ side, (program side).State)
    (side : Role) : Attending side [] (construct P program address start) where
  channel := channel_construct address start
  settling := by
    cases side with
    | initiator | responder => exact settling_construct _ _ _
  retains := Or.inr (Session.retains_construct address side.peer)

section Runs
variable {tr out : List (Role × Observation)} {d d' : Dialogue P program} {side : Role}
  {address : Role → Endpoint}

theorem Attending.settling_step (h : Attending side tr d) {e : Event P program}
    (hok : Thorough address side d e) (hs : d.step e = some (d', out)) :
    Settling (d'.call side) (Stopped (program side) (d'.state side)) (streamShown side (tr ++ out))
      (asked (shown side (tr ++ out))) (d'.session.stream side) := by
  have hsettling := h.settling
  have hcold := h.channel.session
  have hgoing : ∀ {e' : (program side).Event} {s : (program side).State},
      (program side).step (d.state side) e' = some s → ¬ Stopped (program side) (d.state side) := by
    intro e' s hstep hstop
    rw [hstop.2 e'] at hstep
    cases hstep
  cases @side_step P program tr out d d' e hs side with
  | stream shown' hadmits hmove hstate hcall hshown hstream =>
      obtain ⟨_, _, hstep, _⟩ := step_stream hs
      rw [hstream, hshown, asked_append, asked_append, asked_streams, List.append_nil, hstate, hcall]
      exact hsettling.stream (hcold.supplies side) (hcold.numbers side) (hcold.shaking.greeting side)
        (h.channel.sent side) hmove hadmits (fun hstop => hstop.1) (hok.2.1 rfl) (hok.1.2.1 _ hstep)
  | alone hstep hresponse hidle hcall hsession hshown hstream =>
      rw [hidle] at hsettling
      rw [hstream, hshown, hcall, hsession]
      exact hsettling.alone (hgoing hstep)
  | took response hstep hresponse hreturned hcall hsession hshown hstream =>
      rw [hreturned] at hsettling
      rw [hstream, hshown, asked_append, hcall, hsession]
      refine (List.append_nil (asked (shown side tr))).symm ▸
        hsettling.took (hgoing hstep) fun ec hec => ?_
      exact (program side).stops _ _ _ ec hstep (hec ▸ hresponse)
  | other hstate hcall hsession hshown hstream =>
      rw [hstream, hshown, hstate, hcall, hsession]
      exact hsettling

/-- **The step lemma.** -/
theorem attending_step (hP : P.Lawful) (h : Attending side tr d) {e : Event P program}
    (hok : Thorough address side d e) (hs : d.step e = some (d', out)) :
    Attending side (tr ++ out) d' := by
  have hchannel := channel_step hP h.channel hok.fair hs
  cases e with
  | stream mover e =>
      refine ⟨hchannel, h.settling_step hok hs, ?_⟩
      obtain ⟨out', -, hstep, hmove, -, -, rfl⟩ := step_stream hs
      by_cases hended : (d'.session.stream side.peer).transport.Ended
      · exact Or.inl hended
      have hretains := h.retains.resolve_left fun hbefore => hended ?_
      · rw [sessionShown_append, sessionShown_stream]
        exact Or.inr (hretains.step h.channel.session hok.1.1 hok.1.2.2 hok.2.2 hstep hended)
      · obtain ⟨-, -, -, hpeer, -, -⟩ := Session.step_eq hstep
        rcases Role.eq_or_eq_peer side.peer mover with hmover | hmover
        · subst hmover
          exact ended_step hmove (h.channel.session.shaking.greeting _).stop hbefore
        · rw [hmover, hpeer, ← hmover]
          exact hbefore
  | program mover e =>
      refine ⟨hchannel, h.settling_step hok hs, ?_⟩
      obtain ⟨s, -, hsession, -, hcase⟩ := step_program hs
      have hquiet : sessionShown (tr ++ out) = sessionShown tr := by
        rw [sessionShown_append]
        rcases hcase with ⟨-, -, -, rfl⟩ | ⟨response, -, -, -, rfl⟩
        · exact List.append_nil _
        · exact List.append_nil _
      rw [hsession, hquiet]
      exact h.retains

/-- The run lemma. -/
theorem attending_run (hP : P.Lawful) {start : ∀ side, (program side).State}
    (hrun : Transition.Run step (Thorough address side) (construct P program address start) tr d) :
    Attending side tr d :=
  hrun.invariant (I := Attending side) (attending_construct address start side)
    fun _ _ _ _ _ ih hok hs => attending_step hP ih hok hs

/-- Everything that a side has passed to `send` has got to its peer: its packet is pushed, buffered
or queued there, and when no `DATA` packet is queued any more, all of it is pushed. -/
structure Reached (side : Role) (tr : List (Role × Observation)) (d : Dialogue P program) : Prop where
  arrived : ∀ k < (asked (shown side tr)).length,
    Session.Arrived (d.session.stream side.peer) (UInt32.ofNat (k + 1))
  pushed : (∀ r ∈ (d.session.stream side.peer).transport.receivedPacketsQueue.contents,
      r.packet.header.type ≠ .data) →
    (chunks (streamShown side.peer tr)).filter (fun c => !c.empty) =
      (asked (shown side tr)).map Session.carrying

/-- A side that closes fully has reached its peer. -/
theorem Attending.reached (h : Attending side tr d)
    (hclosed : .closed none ∈ streamShown side tr) :
    (d.session.stream side.peer).transport.Ended ∨ Reached side tr d := by
  have hcold := h.channel.session
  refine h.retains.imp_right fun hretains => ?_
  have hpushed := hcold.delivered side.peer
  rcases h.settling.concluded (hcold.supplies side) hclosed with
    hnone | ⟨hlevel, hconsecutive, htail, hacked⟩
  · -- nothing has been asked, and nothing registered
    refine ⟨fun k hk => ?_, fun _ => ?_⟩
    · rw [hnone] at hk
      cases hk
    · have hfirst := (h.channel.sent side).first
      rw [hnone, List.prefix_nil, payloads, List.map_eq_nil_iff] at hfirst
      rw [Role.peer_peer] at hpushed
      rw [hnone]
      refine List.prefix_nil.mp (hpushed.trans ?_)
      rw [show registrations (Session.shown side (sessionShown tr)) =
        registrations (streamShown side tr) from rfl, hfirst]
      exact List.prefix_rfl
  · have hpeer := Role.peer_peer side
    have hshown : registrations (Session.shown side.peer.peer (sessionShown tr)) =
        registrations (streamShown side tr) := by rw [hpeer, streamShown]
    have hacked' : ∀ r ∈ registrations (streamShown side tr),
        .transport (.acked r.1.header.sequence) ∈ Session.shown side.peer.peer (sessionShown tr) := by
      rw [hpeer]
      exact hacked
    have hpayloads : Session.dataOf (registrations (streamShown side tr)) =
        (registrations (streamShown side tr)).tail :=
      Session.dataOf_eq_tail (hcold.numbers side) hconsecutive htail
    refine ⟨fun k hk => ?_, fun hqueue => ?_⟩
    · -- the packet of the `k`-th payload has number `k + 1`
      rw [hlevel, payloads, hpayloads, List.length_map, List.length_tail] at hk
      obtain ⟨r, hr, hnumber⟩ : ∃ r ∈ registrations (streamShown side tr),
          Session.number r = k + 1 := by
        refine List.mem_map.mp ?_
        rw [hconsecutive, List.mem_range]
        omega
      have harrived := hretains.arrived_of_acked hcold (hshown ▸ hconsecutive) (hshown ▸ htail)
        (hshown ▸ hr) (by omega) (hacked' r hr)
      have hsequence : r.1.header.sequence = UInt32.ofNat (k + 1) := by
        rw [← hnumber, Session.number, UInt32.ofNat_toNat]
      rwa [hsequence] at harrived
    · have hall := hretains.pushed hcold (hshown ▸ hconsecutive) (hshown ▸ htail)
        (hshown ▸ hacked') hqueue
      rw [hshown] at hall
      rw [hlevel, payloads, List.map_map]
      exact hall

/-- **A `close` without error has reached the peer.**  Two programs, whatever they are, use two
streams from their constructors on.  When the `close` of one has returned no error, everything it
has passed to `send` is at its peer, unless the transport there has ended, and once the peer's
`receive_chunks_loop` has taken what is queued, it has pushed exactly that. -/
theorem close_reaches (hP : P.Lawful) {start : ∀ side, (program side).State}
    (hrun : Transition.Run step (Thorough address side) (construct P program address start) tr d)
    (hclosed : .closed none ∈ streamShown side tr) :
    (d.session.stream side.peer).transport.Ended ∨ Reached side tr d :=
  (attending_run hP hrun).reached hclosed

end Runs

/-! ## A run with a `close` -/

/-- A test for `ClosesFully`: the timer does not end the wait, and no loop has failed. -/
def closesTest (s : ProtoStream P) : ProtoStream.Event P → Bool
  | .transport (.resumeDrain true) => false
  | .transport .resumeStop => s.transport.loopError.isNone
  | _ => true

theorem closesFully_of_test {s : ProtoStream P} {e : ProtoStream.Event P}
    (h : closesTest s e = true) : ClosesFully s e := by
  unfold closesTest at h
  unfold ClosesFully
  split at h
  · cases h
  · exact Or.inl (Option.isNone_iff_eq_none.mp h)
  · trivial

/-- A test for `Thorough`. -/
def thoroughTest (address : Role → Endpoint) (d : Dialogue P program) : Event P program → Bool
  | .stream mover e => decide (d.session.Orderly address (mover, e)) &&
      (closesTest (d.session.stream mover) e && decide (d.session.Spares (mover, e)))
  | .program _ _ => true

theorem thorough_of_test {address : Role → Endpoint} (side : Role) {d : Dialogue P program}
    {e : Event P program} (h : thoroughTest address d e = true) : Thorough address side d e := by
  cases e with
  | stream mover e =>
      obtain ⟨horderly, h⟩ := Bool.and_eq_true_iff.mp h
      obtain ⟨hcloses, hspares⟩ := Bool.and_eq_true_iff.mp h
      refine ⟨of_decide_eq_true horderly, ?_, fun _ => of_decide_eq_true hspares⟩
      rintro rfl
      exact closesFully_of_test hcloses
  | program mover e => trivial

/-- One sends and closes, the other receives. -/
def sampleClosers : Role → script.State
  | .initiator => [.send [65], .send [66, 67], .close]
  | .responder => [.receive, .receive]

/-- An acknowledgement gets to the initiator. -/
def sampleAcked (sequence : UInt32) : Role × ProtoStream.Event .additive :=
  (.initiator, .transport (.datagram (Session.sampleAddress .responder) (dataPacket [])
    (ProtoHopZ.ackPacket sequence).datagram 0 none))

/-- Two payloads arrive in the wrong order and are acknowledged; the sender closes. -/
theorem close_reaches_script : ∃ tr d,
    Transition.Run step (Thorough Session.sampleAddress .initiator)
      (construct .additive (fun _ => script) Session.sampleAddress sampleClosers) tr d ∧
      .closed none ∈ streamShown .initiator tr ∧
      ((d.session.stream .responder).transport.Ended ∨ Reached .initiator tr d) ∧
      chunks (streamShown .responder tr) = [Session.carrying [65], Session.carrying [66, 67]] := by
  obtain ⟨tr, d, hrun, hp⟩ := Transition.exists_run step (Thorough Session.sampleAddress .initiator)
    (construct .additive (fun _ => script) Session.sampleAddress sampleClosers)
    (sampleMoves Session.sampleShaken ++ sampleMoves (Session.sampleSent .initiator 1 [65]) ++
      sampleTakes .initiator (.sent none) ++
      sampleMoves (Session.sampleSent .initiator 2 [66, 67]) ++
      sampleTakes .initiator (.sent none) ++
      sampleMoves (Session.sampleTaken .responder (Session.sampleSealedPacket [66, 67] 2)) ++
      sampleMoves (Session.sampleTaken .responder (Session.sampleSealedPacket [65] 1)) ++
      sampleMoves [sampleAcked 0, sampleAcked 1, sampleAcked 2] ++
      sampleMoves ((ProtoStream.sampleClosing false).map (.initiator, ·)))
    (fun tr _ => (streamShown .initiator tr).any (·.closesWell) &&
      decide (chunks (streamShown .responder tr) =
        [Session.carrying [65], Session.carrying [66, 67]]))
    (thoroughTest Session.sampleAddress) (fun _ _ h => thorough_of_test .initiator h)
    (by decide +kernel)
  obtain ⟨hclosed, hchunks⟩ := Bool.and_eq_true_iff.mp hp
  obtain ⟨o, ho, hwell⟩ := List.any_eq_true.mp hclosed
  rw [eq_of_closesWell hwell] at ho
  exact ⟨tr, d, hrun, ho, close_reaches Primitives.additive_lawful hrun ho,
    of_decide_eq_true hchunks⟩

end Dialogue
end FileHopZ

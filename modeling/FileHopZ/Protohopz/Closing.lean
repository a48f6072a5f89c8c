import FileHopZ.Protohopz.ChunkSize
import FileHopZ.Protohopz.Draining

/-! # What a `close` without error means

`close` waits for `in_flight_` to empty, ignores whether it has, and stops the transport.
While nothing goes wrong the wait is enough: a packet that a successful call has registered
leaves `in_flight_` only when its number is acknowledged (`ProtoHopZ.Tracks`).  When the
wait ends by its timer, or a loop has failed and the stream has not been told, packets are
discarded and `close` returns no error all the same.
-/
namespace FileHopZ
namespace ProtoStream
variable {P : Primitives}

/-! ## What a step of a session does for `close` -/

/-- What the transport has shown. -/
def transported (tr : List Observation) : List FileHopZ.Observation :=
  tr.filterMap fun
    | .transport o => some o
    | _ => none

@[simp] theorem transported_append (tr out : List Observation) :
    transported (tr ++ out) = transported tr ++ transported out := List.filterMap_append

@[simp] theorem transported_transport (shown : List FileHopZ.Observation) :
    transported (shown.map .transport) = shown := by
  simp [transported, List.filterMap_map]

/-- `close` is called or returns, or `stop_loops` runs. -/
def Observation.marks : Observation → Bool
  | .closeCalled | .closed _ | .transport (.stopped _) => true
  | _ => false

/-- What a step of a session can do to what `close` looks at. -/
inductive Goes (s : ProtoStream P) (e : Event P) (s' : ProtoStream P) (out : List Observation) :
    Prop
  | quiet (hclosing : s'.closing = s.closing)
      (herror : s.streamError ≠ none → s'.streamError ≠ none)
      (htransport : ∃ queue, s'.transport = { s.transport with receivedPacketsQueue := queue })
      (hmarks : ∀ o ∈ out, o.marks = false) (hout : transported out = [])
  | transport (e' : ProtoHopZ.Event P) (shown : List FileHopZ.Observation)
      (he : e'.closes = false)
      (hsend : ∀ i fault nonce now, e' = .resumeSend i fault nonce now → e = .transport e')
      (hs : s.transport.step e' = some (s'.transport, shown)) (hclosing : s'.closing = s.closing)
      (herror : s'.streamError = s.streamError) (hout : out = shown.map .transport)
  | starts (now : Nat) (e' : ProtoHopZ.Event P) (shown : List FileHopZ.Observation)
      (he : e'.closes = false) (hsend : ∀ i fault nonce now, e' ≠ .resumeSend i fault nonce now)
      (hs : (s.transport.startLoops now).step e' = some (s'.transport, shown))
      (hclosing : s.closing = .idle ∧ s'.closing = .idle) (hout : out = shown.map .transport)
  | drains (timer : Bool) (he : e = .transport (.resumeDrain timer))
      (hs : s.transport.resumeDrain timer = some s'.transport) (hclosing : s'.closing = s.closing)
      (herror : s'.streamError = s.streamError) (hout : out = [])
  | stops (he : e = .transport .resumeStop) (hposted : s.transport.stop = .posted)
      (hstop : s'.transport.stop = .returned) (hclosing : s'.closing = s.closing)
      (herror : s'.streamError = s.streamError)
      (hout : out = [.transport (.stopped s.transport.loopError)])
  | close (hclosing : s.closing = .idle ∧ s'.closing = .draining)
      (htransport : s'.transport = { s.transport with drain := .posted })
      (hout : out = [.closeCalled])
  | resumeClose (drained : Bool) (hdrain : s.transport.drain = .returned drained)
      (hclosing : s.closing = .draining ∧ s'.closing = .stopping)
      (hstop : s'.transport.stop = .posted) (hloop : s'.transport.loopError = s.transport.loopError)
      (herror : s'.streamError = s.streamError) (hout : out = [])
  | finishClose (hclosing : s.closing = .stopping ∧ s'.closing = .returned s.streamError)
      (hstop : s.transport.stop = .returned) (hout : out = [.closed s.streamError])

theorem goes_transport {s : ProtoStream P} {e : ProtoHopZ.Event P} {t' : ProtoHopZ P}
    {shown : List FileHopZ.Observation} (hinternal : e.isInternal = true)
    (hs : s.transport.step e = some (t', shown)) :
    Goes s (.transport e) { s with transport := t' } (shown.map .transport) := by
  by_cases hcloses : e.closes = false
  · exact .transport e shown hcloses (fun _ _ _ _ _ => rfl) hs rfl rfl rfl
  · cases ProtoHopZ.step_cases hs with
    | resumeDrain timer signal frame hdrain => exact .drains timer rfl hdrain rfl rfl rfl
    | resumeStop hposted => exact .stops rfl hposted rfl rfl rfl rfl
    | startLoops | drain | stop => cases hinternal
    | shakes _ _ _ he => exact absurd (ProtoHopZ.Event.closes_of_handshakes he) hcloses
    | _ => exact absurd rfl hcloses

/-- **What a step of a session does for `close`.** -/
theorem goes_step {s s' : ProtoStream P} {e : Event P} {out : List Observation}
    (hs : s.step e = some (s', out)) : Goes s e s' out := by
  cases step_cases hs with
  | transport e t' shown hinternal hstep => exact goes_transport hinternal hstep
  | callStartLoops now fault generated i _ hclosing hframe hfresh =>
      exact .starts now (.startHandshake s.handshakeMode fault generated i) _ rfl (by simp)
        (step_startHandshake (t := s.transport.startLoops now) hframe hfresh)
        ⟨hclosing, hclosing⟩ rfl
  | send i data _ _ hfresh =>
      exact .transport (.sendPacket i (dataPacket data)) [] rfl (by simp) (if_pos hfresh) rfl rfl rfl
  | close _ hclosing => exact .close ⟨hclosing, rfl⟩ rfl rfl
  | resumeClose drained hclosing hdrain =>
      exact .resumeClose drained hdrain ⟨hclosing, rfl⟩ rfl rfl rfl rfl
  | finishClose hclosing hstop => exact .finishClose ⟨hclosing, rfl⟩ hstop rfl
  | stored =>
      exact .quiet rfl (fun _ => by simp [cancelReceiveChunks]) ⟨_, rfl⟩
        (by simp [Observation.marks]) rfl
  | chunk | lastChunk =>
      exact .quiet rfl id ⟨_, rfl⟩ (by simp [Observation.chunk, Observation.marks])
        (by simp [transported, Observation.chunk])
  | unstarted | started | rejected | refused | receive | failed | received | interrupted | aborted
  | ended =>
      exact .quiet rfl id ⟨_, rfl⟩ (by simp [Observation.marks]) rfl

/-! ## A session that closes -/

/-- The condition on a step: no number is drawn that is still in use; the timer of
`wait_in_flight_drained` does not end the wait with packets in flight while nothing is known
to have failed; and `stop_loops` does not run after a failure of a loop that the stream has
not been told of. -/
def SettledClose (s : ProtoStream P) : Event P → Prop
  | .transport (.resumeSend _ _ _ _) => s.transport.NumberFree
  | .transport (.resumeDrain true) =>
      s.transport.inFlight.keys = ∅ ∨ s.transport.loopError ≠ none ∨ s.streamError ≠ none
  | .transport .resumeStop => s.transport.loopError = none ∨ s.streamError ≠ none
  | _ => True

/-- `stop_loops` has run without a `loop_error_`, after a call of `close` when everything that
had been sent before was acknowledged. -/
def Concluded (tr : List Observation) : Prop :=
  ∃ called drained rest,
    tr = called ++ .closeCalled :: (drained ++ .transport (.stopped none) :: rest) ∧
      (∀ o ∈ called ++ drained, o.marks = false) ∧
      ProtoHopZ.Delivered (transported called) (transported drained)

theorem Concluded.append {tr : List Observation} (h : Concluded tr) (out : List Observation) :
    Concluded (tr ++ out) := by
  obtain ⟨called, drained, rest, rfl, hmarks, hdelivered⟩ := h
  exact ⟨called, drained, rest ++ out, by simp, hmarks, hdelivered⟩

/-- Where a session is between its first call and the end of `close`. -/
inductive Phase (tr : List Observation) (s : ProtoStream P) : Prop
  | running (hclosing : s.closing = .idle) (hmarks : ∀ o ∈ tr, o.marks = false)
      (hopen : ProtoHopZ.Open (transported tr) s.transport)
  | draining (called later : List Observation) (hclosing : s.closing = .draining)
      (htr : tr = called ++ .closeCalled :: later)
      (hmarks : ∀ o ∈ called ++ later, o.marks = false)
      (hdraining : ProtoHopZ.Draining (transported called) (transported later)
        (s.streamError ≠ none) s.transport)
  | stopping (called later : List Observation) (hclosing : s.closing = .stopping)
      (hstop : s.transport.stop = .posted) (htr : tr = called ++ .closeCalled :: later)
      (hmarks : ∀ o ∈ called ++ later, o.marks = false)
      (hsettled : ProtoHopZ.Settled (transported called) (transported later)
        (s.streamError ≠ none) s.transport)
  | stopped (hclosing : s.closing = .stopping) (hstop : s.transport.stop = .returned)
      (hclosed : ∀ ec, .closed ec ∉ tr) (h : s.streamError ≠ none ∨ Concluded tr)
  | returned (ec : Option Error) (hclosing : s.closing = .returned ec)
      (hclosed : ∀ ec', .closed ec' ∈ tr → ec' = ec) (h : ec ≠ none ∨ Concluded tr)

theorem marks_append {tr out : List Observation} (h : ∀ o ∈ tr, o.marks = false)
    (hout : ∀ o ∈ out, o.marks = false) : ∀ o ∈ tr ++ out, o.marks = false := by
  intro o ho
  exact (List.mem_append.mp ho).elim (h o) (hout o)

/-- What is shown after `close` has been called comes last. -/
theorem later_append {tr called later : List Observation} (out : List Observation)
    (htr : tr = called ++ .closeCalled :: later) :
    tr ++ out = called ++ .closeCalled :: (later ++ out) := by
  rw [htr, List.append_assoc, List.cons_append]

/-- Once `stop_loops` has run, nothing but the end of `close` matters. -/
theorem Phase.late {tr out : List Observation} {s s' : ProtoStream P} (h : Phase tr s)
    (hlate : s.closing = .stopping ∧ s.transport.stop = .returned ∨
      ∃ ec, s.closing = .returned ec) (hclosing : s'.closing = s.closing)
    (hstop : s.transport.stop = .returned → s'.transport.stop = .returned)
    (herror : s.streamError ≠ none → s'.streamError ≠ none) (hout : ∀ ec, .closed ec ∉ out) :
    Phase (tr ++ out) s' := by
  cases h with
  | running hidle | draining _ _ hidle =>
      rcases hlate with ⟨h, -⟩ | ⟨ec, h⟩
      all_goals
        rw [hidle] at h
        cases h
  | stopping _ _ hframe hposted =>
      rcases hlate with ⟨-, h⟩ | ⟨ec, h⟩
      · rw [hposted] at h
        cases h
      · rw [hframe] at h
        cases h
  | stopped hframe hreturned hclosed h =>
      refine .stopped (hclosing.trans hframe) (hstop hreturned) ?_
        (h.imp herror fun h => h.append out)
      intro ec hmem
      exact (List.mem_append.mp hmem).elim (hclosed ec) (hout ec)
  | returned ec hframe hclosed h =>
      refine .returned ec (hclosing.trans hframe) ?_ (h.imp_right fun h => h.append out)
      intro ec' hmem
      exact hclosed ec' ((List.mem_append.mp hmem).resolve_right (hout ec'))

theorem not_closed_of_marks {out : List Observation} (h : ∀ o ∈ out, o.marks = false)
    (ec : Option Error) : .closed ec ∉ out := by
  intro hmem
  cases h _ hmem

theorem phase_quiet {tr out : List Observation} {s s' : ProtoStream P} (h : Phase tr s)
    (hclosing : s'.closing = s.closing) (herror : s.streamError ≠ none → s'.streamError ≠ none)
    (htransport : ∃ queue, s'.transport = { s.transport with receivedPacketsQueue := queue })
    (hmarks : ∀ o ∈ out, o.marks = false) (hout : transported out = []) :
    Phase (tr ++ out) s' := by
  obtain ⟨queue, htransport⟩ := htransport
  have hstop : s'.transport.stop = s.transport.stop := by rw [htransport]
  cases h with
  | running hidle htr hopen =>
      refine .running (hclosing.trans hidle) (marks_append htr hmarks) ?_
      rw [transported_append, hout, List.append_nil, htransport]
      exact hopen.congr rfl rfl rfl rfl rfl
  | draining called later hframe htr hnone hdraining =>
      refine .draining called (later ++ out) (hclosing.trans hframe) (later_append out htr) ?_ ?_
      · rw [← List.append_assoc]
        exact marks_append hnone hmarks
      · rw [transported_append, hout, List.append_nil, htransport]
        exact hdraining.congr herror rfl rfl rfl rfl rfl rfl
  | stopping called later hframe hposted htr hnone hsettled =>
      refine .stopping called (later ++ out) (hclosing.trans hframe) (hstop.trans hposted)
        (later_append out htr) ?_ ?_
      · rw [← List.append_assoc]
        exact marks_append hnone hmarks
      · rw [transported_append, hout, List.append_nil, htransport]
        exact hsettled.imp_right fun h => h.imp_right herror
  | stopped hframe hreturned hclosed h =>
      exact (Phase.stopped hframe hreturned hclosed h).late (Or.inl ⟨hframe, hreturned⟩) hclosing
        (fun h => hstop.trans h) herror (not_closed_of_marks hmarks)
  | returned ec hframe hclosed h =>
      exact (Phase.returned ec hframe hclosed h).late (Or.inr ⟨ec, hframe⟩) hclosing
        (fun h => hstop.trans h) herror (not_closed_of_marks hmarks)

theorem marks_shown {t t' : ProtoHopZ P} {e : ProtoHopZ.Event P}
    {shown : List FileHopZ.Observation} (hs : t.step e = some (t', shown))
    (he : e.closes = false) : ∀ o ∈ shown.map Observation.transport, o.marks = false := by
  intro o ho
  obtain ⟨o, hmem, rfl⟩ := List.mem_map.mp ho
  have hstop : e ≠ .resumeStop := by
    rintro rfl
    cases he
  cases o with
  | stopped ec => exact absurd hmem (ProtoHopZ.not_stopped_step hs hstop ec)
  | _ => rfl

theorem phase_transport {tr : List Observation} {s s' : ProtoStream P} {e : ProtoHopZ.Event P}
    {shown : List FileHopZ.Observation} (h : Phase tr s) (he : e.closes = false)
    (hfree : ∀ i fault nonce now, e = .resumeSend i fault nonce now → s.transport.NumberFree)
    (hs : s.transport.step e = some (s'.transport, shown)) (hclosing : s'.closing = s.closing)
    (herror : s'.streamError = s.streamError) : Phase (tr ++ shown.map .transport) s' := by
  have hmarks := marks_shown hs he
  have hw := ProtoHopZ.waits_step hs he
  cases h with
  | running hidle htr hopen =>
      refine .running (hclosing.trans hidle) (marks_append htr hmarks) ?_
      rw [transported_append, transported_transport]
      exact hopen.step hs he hfree
  | draining called later hframe htr hnone hdraining =>
      refine .draining called (later ++ shown.map .transport) (hclosing.trans hframe)
        (later_append _ htr) ?_ ?_
      · rw [← List.append_assoc]
        exact marks_append hnone hmarks
      · rw [transported_append, transported_transport, herror]
        exact hdraining.step hs he hfree
  | stopping called later hframe hposted htr hnone hsettled =>
      refine .stopping called (later ++ shown.map .transport) (hclosing.trans hframe)
        (hw.stop.trans hposted) (later_append _ htr) ?_ ?_
      · rw [← List.append_assoc]
        exact marks_append hnone hmarks
      · rw [transported_append, transported_transport, herror]
        exact hsettled.imp (fun h => h.append shown) fun h => h.imp_left hw.loopError
  | stopped hframe hreturned hclosed h =>
      exact (Phase.stopped hframe hreturned hclosed h).late (Or.inl ⟨hframe, hreturned⟩) hclosing
        (fun h => hw.stop.trans h) (fun h => herror ▸ h) (not_closed_of_marks hmarks)
  | returned ec hframe hclosed h =>
      exact (Phase.returned ec hframe hclosed h).late (Or.inr ⟨ec, hframe⟩) hclosing
        (fun h => hw.stop.trans h) (fun h => herror ▸ h) (not_closed_of_marks hmarks)

theorem phase_starts {tr : List Observation} {s s' : ProtoStream P} {now : Nat}
    {e : ProtoHopZ.Event P} {shown : List FileHopZ.Observation} (h : Phase tr s)
    (he : e.closes = false) (hsend : ∀ i fault nonce now, e ≠ .resumeSend i fault nonce now)
    (hs : (s.transport.startLoops now).step e = some (s'.transport, shown))
    (hclosing : s.closing = .idle ∧ s'.closing = .idle) :
    Phase (tr ++ shown.map .transport) s' := by
  obtain ⟨hidle, hidle'⟩ := hclosing
  cases h with
  | running _ htr hopen =>
      refine .running hidle' (marks_append htr (marks_shown hs he)) ?_
      have hstarted : ProtoHopZ.Open (transported tr) (s.transport.startLoops now) :=
        hopen.congr rfl rfl rfl rfl rfl
      rw [transported_append, transported_transport]
      exact hstarted.step hs he fun i fault nonce now h => absurd h (hsend i fault nonce now)
  | draining _ _ hframe | stopping _ _ hframe | stopped hframe | returned _ hframe =>
      rw [hidle] at hframe
      cases hframe

theorem resumeDrain_frame {t t' : ProtoHopZ P} {timer : Bool} (hs : t.resumeDrain timer = some t') :
    t.drain ≠ .idle ∧ t'.stop = t.stop ∧ t'.loopError = t.loopError := by
  unfold ProtoHopZ.resumeDrain ProtoHopZ.startDrain ProtoHopZ.finishDrain at hs
  repeat' split at hs
  all_goals cases hs
  all_goals exact ⟨by simp [*], rfl, rfl⟩

theorem phase_drains {tr : List Observation} {s s' : ProtoStream P} {timer : Bool} (h : Phase tr s)
    (hs : s.transport.resumeDrain timer = some s'.transport)
    (htimer : timer = true →
      s.transport.inFlight.keys = ∅ ∨ s.transport.loopError ≠ none ∨ s.streamError ≠ none)
    (hclosing : s'.closing = s.closing) (herror : s'.streamError = s.streamError) :
    Phase tr s' := by
  obtain ⟨hdrain, hstop, hloop⟩ := resumeDrain_frame hs
  cases h with
  | running hidle htr hopen => exact absurd hopen.drain hdrain
  | draining called later hframe htr hnone hdraining =>
      refine .draining called later (hclosing.trans hframe) htr hnone ?_
      rw [herror]
      exact hdraining.resumeDrain hs htimer
  | stopping called later hframe hposted htr hnone hsettled =>
      refine .stopping called later (hclosing.trans hframe) (hstop.trans hposted) htr hnone ?_
      rw [ProtoHopZ.Settled, hloop, herror]
      exact hsettled
  | stopped hframe hreturned hclosed h =>
      refine .stopped (hclosing.trans hframe) (hstop.trans hreturned) hclosed ?_
      rwa [herror]
  | returned ec hframe hclosed h => exact .returned ec (hclosing.trans hframe) hclosed h

theorem phase_stops {tr : List Observation} {s s' : ProtoStream P} (h : Phase tr s)
    (hposted : s.transport.stop = .posted)
    (hok : s.transport.loopError = none ∨ s.streamError ≠ none)
    (hstop : s'.transport.stop = .returned) (hclosing : s'.closing = s.closing)
    (herror : s'.streamError = s.streamError) :
    Phase (tr ++ [.transport (.stopped s.transport.loopError)]) s' := by
  cases h with
  | running hidle htr hopen =>
      rw [hopen.stop] at hposted
      cases hposted
  | draining called later hframe htr hnone hdraining =>
      rw [hdraining.stop] at hposted
      cases hposted
  | stopping called later hframe _ htr hnone hsettled =>
      refine .stopped (hclosing.trans hframe) hstop ?_ ?_
      · intro ec hmem
        rw [htr] at hmem
        have hmem' : .closed ec ∈ called ++ later := by simpa using hmem
        exact not_closed_of_marks hnone ec hmem'
      · rw [herror]
        by_cases htold : s.streamError = none
        · have hloop := hok.resolve_right (not_not_intro htold)
          have hdelivered := hsettled.resolve_right (by simp [hloop, htold])
          refine Or.inr ⟨called, later, [], ?_, hnone, hdelivered⟩
          rw [htr, hloop, List.append_assoc, List.cons_append]
        · exact Or.inl htold
  | stopped hframe hreturned =>
      rw [hreturned] at hposted
      cases hposted
  | returned ec hframe hclosed h =>
      exact (Phase.returned ec hframe hclosed h).late (Or.inr ⟨ec, hframe⟩) hclosing
        (fun _ => hstop) (fun h => herror ▸ h) (by simp)

/-- **The step lemma.** -/
theorem phase_step {tr out : List Observation} {s s' : ProtoStream P} {e : Event P}
    (h : Phase tr s) (hok : s.SettledClose e) (hs : s.step e = some (s', out)) :
    Phase (tr ++ out) s' := by
  cases goes_step hs with
  | quiet hclosing herror htransport hmarks hout =>
      exact phase_quiet h hclosing herror htransport hmarks hout
  | transport e' shown he hsend hs hclosing herror hout =>
      rw [hout]
      refine phase_transport h he (fun i fault nonce now heq => ?_) hs hclosing herror
      rw [hsend i fault nonce now heq, heq] at hok
      exact hok
  | starts now e' shown he hsend hs hclosing hout =>
      rw [hout]
      exact phase_starts h he hsend hs hclosing
  | drains timer he hs hclosing herror hout =>
      rw [hout, List.append_nil]
      refine phase_drains h hs (fun htimer => ?_) hclosing herror
      rw [he, htimer] at hok
      exact hok
  | stops he hposted hstop hclosing herror hout =>
      rw [hout]
      rw [he] at hok
      exact phase_stops h hposted hok hstop hclosing herror
  | close hclosing htransport hout =>
      obtain ⟨hidle, hdraining⟩ := hclosing
      cases h with
      | running _ htr hopen =>
          refine .draining tr [] hdraining (by rw [hout]) (by simpa using htr) ?_
          rw [htransport]
          exact hopen.draining _
      | draining _ _ hframe | stopping _ _ hframe | stopped hframe | returned _ hframe =>
          rw [hidle] at hframe
          cases hframe
  | resumeClose drained hdrain hclosing hstop hloop herror hout =>
      obtain ⟨hdraining, hstopping⟩ := hclosing
      rw [hout, List.append_nil]
      cases h with
      | draining called later _ htr hnone hd =>
          refine .stopping called later hstopping hstop htr hnone ?_
          rw [ProtoHopZ.Settled, hloop, herror]
          cases hd.awaits with
          | returned _ _ hsettled => exact hsettled
          | posted hframe | waiting hframe =>
              rw [hdrain] at hframe
              cases hframe
      | running hframe | stopping _ _ hframe | stopped hframe | returned _ hframe =>
          rw [hdraining] at hframe
          cases hframe
  | finishClose hclosing hstop hout =>
      obtain ⟨hstopping, hreturned⟩ := hclosing
      cases h with
      | stopped _ _ hclosed h =>
          refine .returned s.streamError hreturned ?_ (h.imp_right fun h => h.append out)
          intro ec hmem
          rw [hout, List.mem_append, List.mem_singleton] at hmem
          exact Observation.closed.inj (hmem.resolve_left (hclosed ec))
      | stopping _ _ _ hposted =>
          rw [hstop] at hposted
          cases hposted
      | running hframe | draining _ _ hframe | returned _ hframe =>
          rw [hstopping] at hframe
          cases hframe

theorem phase_construct (peer : Endpoint) (mode : Role) : Phase [] (construct P peer mode) :=
  .running rfl (by simp) ⟨ProtoHopZ.tracks_construct peer, rfl, rfl, rfl, rfl⟩

/-- **A `close` without error has delivered everything.**  In every run whose steps meet the
condition, if `close` has returned no error, `stop_loops` had run without a `loop_error_`, and
before it every packet of the calls that had succeeded when `close` was called was
acknowledged: with `Sender`, which has awaited each of its calls, all its packets. -/
theorem close_delivers {peer : Endpoint} {mode : Role} {tr : List Observation} {s : ProtoStream P}
    (hrun : Transition.Run step SettledClose (construct P peer mode) tr s)
    (hclosed : .closed none ∈ tr) : Concluded tr := by
  have hphase : Phase tr s := by
    refine hrun.invariant (I := fun tr s => Phase tr s) (phase_construct peer mode) ?_
    intro tr s e s' out h hok hs
    exact phase_step h hok hs
  cases hphase with
  | running _ hmarks => exact absurd hclosed (not_closed_of_marks hmarks none)
  | draining called later _ htr hmarks | stopping called later _ _ htr hmarks =>
      have hmem : .closed none ∈ called ++ later := by simpa [htr] using hclosed
      exact absurd hmem (not_closed_of_marks hmarks none)
  | stopped _ _ hnot => exact absurd hclosed (hnot none)
  | returned ec _ hec h => exact h.resolve_left (by simp [← hec none hclosed])

/-! ## Closing an initiator -/

/-- What has been shown before a call of `close` is what has no marks. -/
theorem takeWhile_called {called rest : List Observation}
    (h : ∀ o ∈ called, o.marks = false) :
    (called ++ .closeCalled :: rest).takeWhile (fun o => !o.marks) = called := by
  have hrest : (Observation.closeCalled :: rest).takeWhile (fun o => !o.marks) = [] :=
    List.takeWhile_cons_of_neg (by simp [Observation.marks])
  rw [List.takeWhile_append_of_pos (by simpa using h), hrest, List.append_nil]

def Observation.closesWell : Observation → Bool
  | .closed none => true
  | _ => false

def Observation.returnsWell (i : Nat) : Observation → Bool
  | .transport (.returned j none) => decide (i = j)
  | _ => false

def Observation.acknowledges : Observation → Bool
  | .transport (.acked _) => true
  | _ => false

theorem eq_of_closesWell {o : Observation} (h : o.closesWell = true) : o = .closed none := by
  unfold Observation.closesWell at h
  split at h
  · rfl
  · cases h

theorem eq_of_returnsWell {o : Observation} {i : Nat} (h : o.returnsWell i = true) :
    o = .transport (.returned i none) := by
  unfold Observation.returnsWell at h
  split at h
  · rw [of_decide_eq_true h]
  · cases h

/-- Call `i` has succeeded before `close` is called, and nothing is acknowledged. -/
theorem not_concluded {tr : List Observation} {i : Nat}
    (hreturned : (tr.takeWhile fun o => !o.marks).any (·.returnsWell i) = true)
    (hacked : tr.all (!·.acknowledges) = true) : ¬ Concluded tr := by
  rintro ⟨called, drained, rest, rfl, hmarks, hdelivered⟩
  rw [takeWhile_called fun o ho => hmarks o (List.mem_append_left _ ho)] at hreturned
  obtain ⟨o, ho, hi⟩ := List.any_eq_true.mp hreturned
  rw [eq_of_returnsWell hi] at ho
  have hmem : .returned i none ∈ transported called :=
    List.mem_filterMap.mpr ⟨_, ho, rfl⟩
  obtain ⟨⟨packet, plaintext, hregistered⟩, hall⟩ := hdelivered i hmem
  obtain ⟨before, after, heq⟩ := List.append_of_mem hregistered
  have hack := hall before packet plaintext after heq
  have hshown : .acked packet.header.sequence ∈ transported (called ++ drained) := by
    rw [transported_append, heq]
    simp only [List.mem_append, List.mem_cons] at hack ⊢
    tauto
  obtain ⟨o, ho, hshow⟩ := List.mem_filterMap.mp hshown
  split at hshow
  · obtain rfl := Option.some.inj hshow
    have hno := List.all_eq_true.mp hacked (.transport (.acked packet.header.sequence)) (by
      rcases List.mem_append.mp ho with h | h
      · exact List.mem_append_left _ h
      · simp [h])
    cases hno
  · cases hshow

/-- An initiator shakes hands: its own `HANDSHAKE` packet is call 0. -/
def sampleInitiated : List (Event .additive) :=
  [.callStartLoops 0 none (5 : UInt8) 0, .transport (.resumeSend 0 none .zero 0),
    .transport (.transmitSend 0), .transport (.finishSend 0 none),
    .transport .resumeHandshakeSend, sampleDatagram sampleHandshake,
    .transport (.resumeHandshakeReceive none 1), .resumeStartLoops]

/-- `close` from its first step to its last; `timer` ends the wait. -/
def sampleClosing (timer : Bool) : List (Event .additive) :=
  [.close, .transport (.resumeDrain false)] ++
    (if timer then [.transport (.resumeDrain true)] else []) ++
    [.resumeClose, .transport .resumeStop, .finishClose]

/-- One byte is sent, to a peer that is gone. -/
def sampleUndelivered : List (Event .additive) :=
  sampleInitiated ++ [.send 1 [65], .transport (.resumeSend 1 none .zero 0),
    .transport (.transmitSend 1), .transport (.finishSend 1 none)] ++ sampleClosing true

/-- **A `close` without error that has not delivered.**  Call 1 of `send` succeeds and its
packet is never acknowledged; the timer ends the wait, `stop_loops` discards the packet, and
`close` returns no error. -/
theorem close_undelivered : ∃ tr s,
    Transition.Run step Transition.Always (construct .additive sampleRemote .initiator) tr s ∧
      .closed none ∈ tr ∧ .transport (.returned 1 none) ∈ tr ∧ ¬ Concluded tr := by
  obtain ⟨tr, s, hrun, hp⟩ := Transition.exists_run step Transition.Always
    (construct .additive sampleRemote .initiator) sampleUndelivered
    (fun tr _ => tr.any (·.closesWell) &&
      ((tr.takeWhile fun o => !o.marks).any (·.returnsWell 1) && tr.all (!·.acknowledges)))
    (fun _ _ => true) (fun _ _ _ => trivial) (by decide +kernel)
  rw [Bool.and_eq_true, Bool.and_eq_true] at hp
  obtain ⟨hclosed, hreturned, hacked⟩ := hp
  obtain ⟨o, ho, hwell⟩ := List.any_eq_true.mp hclosed
  obtain ⟨o', ho', hwell'⟩ := List.any_eq_true.mp hreturned
  refine ⟨tr, s, hrun, eq_of_closesWell hwell ▸ ho, ?_, not_concluded hreturned hacked⟩
  exact eq_of_returnsWell hwell' ▸ (List.takeWhile_sublist _).mem ho'

/-- A loop fails and its completion handler runs, but `close` cancels `receive_chunks_loop`
before that learns of it. -/
def sampleUntold : List (Event .additive) :=
  sampleInitiated ++ [.transport (.receiveError .operationAborted),
    .transport .receiveLoopResult] ++ sampleClosing false

def Observation.stopsFailed : Observation → Bool
  | .transport (.stopped (some _)) => true
  | _ => false

/-- **A `close` without error after a failure.**  `loop_error_` is set when `stop_loops` runs,
and `close` returns no error. -/
theorem close_untold : ∃ tr s ec,
    Transition.Run step Transition.Always (construct .additive sampleRemote .initiator) tr s ∧
      .closed none ∈ tr ∧ .transport (.stopped (some ec)) ∈ tr := by
  obtain ⟨tr, s, hrun, hp⟩ := Transition.exists_run step Transition.Always
    (construct .additive sampleRemote .initiator) sampleUntold
    (fun tr _ => tr.any (·.closesWell) && tr.any (·.stopsFailed))
    (fun _ _ => true) (fun _ _ _ => trivial) (by decide +kernel)
  rw [Bool.and_eq_true] at hp
  obtain ⟨o, ho, hwell⟩ := List.any_eq_true.mp hp.1
  obtain ⟨o', ho', hfailed⟩ := List.any_eq_true.mp hp.2
  unfold Observation.stopsFailed at hfailed
  split at hfailed
  · rename_i ec
    exact ⟨tr, s, ec, hrun, eq_of_closesWell hwell ▸ ho, ho'⟩
  · cases hfailed

/-- The initiator after its call of `start_loops`, and after call 0 has registered its packet. -/
def sampleStarted : ProtoStream .additive :=
  ((construct .additive sampleRemote .initiator).step (.callStartLoops 0 none (5 : UInt8) 0)).elim
    (construct .additive sampleRemote .initiator) Prod.fst

def sampleSent : ProtoStream .additive × List Observation :=
  (sampleStarted.step (.transport (.resumeSend 0 none .zero 0))).getD (sampleStarted, [])

theorem numberFree_sampleStarted : sampleStarted.transport.NumberFree := by
  refine ⟨by decide +kernel, fun i packet b hi => ?_⟩
  have hsends : sampleStarted.transport.sends = Function.update (fun _ => .idle) 0
      (.posted (sampleStarted.transport.selfHandshakePacket)) := rfl
  rw [hsends] at hi
  by_cases h0 : i = 0
  · subst h0
    rw [Function.update_self] at hi
    cases hi
  · rw [Function.update_of_ne h0] at hi
    cases hi

/-- The packet of call 0 is registered, sent and acknowledged; the session closes. -/
def sampleDelivered : List (Event .additive) :=
  [.transport (.transmitSend 0), .transport (.finishSend 0 none),
    sampleDatagram (ProtoHopZ.ackPacket 0), .transport .resumeHandshakeSend,
    sampleDatagram sampleHandshake, .transport (.resumeHandshakeReceive none 1),
    .resumeStartLoops] ++ sampleClosing false

/-- The condition on the steps of that run, as a test. -/
def settledCloseTest (s : ProtoStream .additive) : Event .additive → Bool
  | .transport (.resumeSend _ _ _ _) | .transport (.resumeDrain true) => false
  | .transport .resumeStop => s.transport.loopError.isNone
  | _ => true

theorem settledClose_of_test (s : ProtoStream .additive) (e : Event .additive)
    (h : settledCloseTest s e = true) : s.SettledClose e := by
  unfold settledCloseTest at h
  unfold SettledClose
  split at h
  · cases h
  · cases h
  · exact Or.inl (Option.isNone_iff_eq_none.mp h)
  · rename_i h₁ h₂ h₃
    split
    · exact absurd rfl (h₁ _ _ _ _)
    · exact absurd rfl h₂
    · exact absurd rfl h₃
    · trivial

/-- One packet, acknowledged before `close`. -/
theorem close_delivers_once : ∃ tr s,
    Transition.Run step SettledClose (construct .additive sampleRemote .initiator) tr s ∧
      .closed none ∈ tr ∧ Concluded tr := by
  have hstart : (construct .additive sampleRemote .initiator).step
      (.callStartLoops 0 none (5 : UInt8) 0) = some (sampleStarted, []) := rfl
  have hsend : sampleStarted.step (.transport (.resumeSend 0 none .zero 0)) = some sampleSent := rfl
  have hok : sampleStarted.SettledClose (.transport (.resumeSend 0 none .zero 0)) :=
    numberFree_sampleStarted
  have hsent : Transition.Run step SettledClose (construct .additive sampleRemote .initiator)
      ([] ++ [] ++ sampleSent.2) sampleSent.1 :=
    .next (.next .start (by trivial) hstart) hok hsend
  obtain ⟨tr, s, hrest, hp⟩ := Transition.exists_run step SettledClose sampleSent.1 sampleDelivered
    (fun tr _ => tr.any (·.closesWell)) settledCloseTest settledClose_of_test (by decide +kernel)
  obtain ⟨o, ho, hwell⟩ := List.any_eq_true.mp hp
  have hrun := hsent.append hrest
  have hclosed : Observation.closed none ∈ [] ++ [] ++ sampleSent.2 ++ tr :=
    List.mem_append_right _ (eq_of_closesWell hwell ▸ ho)
  exact ⟨_, s, hrun, hclosed, close_delivers hrun hclosed⟩

end ProtoStream
end FileHopZ

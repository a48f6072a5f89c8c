import FileHopZ.Protohopz.Flight

/-! # Waiting for `in_flight_` to empty

`wait_in_flight_drained` looks at `in_flight_` once and then waits for `drained_signal_`,
which is set when the last packet in flight is taken out and when a loop fails; a timer ends
the wait as well.  So it returns with everything delivered (`Tracks.delivered`), after a
failure, or by its timer.
-/
namespace FileHopZ
namespace ProtoHopZ
variable {P : Primitives}

/-! ## What ends the wait -/

/-- The event is of the start, of `wait_in_flight_drained` or of `stop_loops`. -/
def Event.closes : Event P → Bool
  | .startLoops _ | .drain | .resumeDrain _ | .stop | .resumeStop => true
  | _ => false

theorem Event.closes_of_handshakes {e : Event P} (he : e.handshakes = true) : e.closes = false := by
  cases e with
  | startHandshake | resumeHandshakeSend | resumeHandshakeReceive => rfl
  | _ => cases he

/-- What every other step does for one who waits: `drained_signal_` is set only when nothing
is in flight or a loop has failed. -/
structure Waits (t t' : ProtoHopZ P) : Prop where
  drain : t'.drain = t.drain
  stop : t'.stop = t.stop
  loopError : t.loopError ≠ none → t'.loopError ≠ none
  signal : t'.drainedSignal = t.drainedSignal ∨ t'.drainedSignal = t.drainedSignal.set true ∧
    (t'.inFlight.keys = ∅ ∨ t'.loopError ≠ none)

theorem waits_of_same {t t' : ProtoHopZ P} (hdrain : t'.drain = t.drain) (hstop : t'.stop = t.stop)
    (hloop : t'.loopError = t.loopError) (hsignal : t'.drainedSignal = t.drainedSignal) :
    Waits t t' := ⟨hdrain, hstop, fun h => hloop ▸ h, Or.inl hsignal⟩

theorem waits_signalIfDrained {t u : ProtoHopZ P} (hdrain : u.drain = t.drain)
    (hstop : u.stop = t.stop) (hloop : u.loopError = t.loopError)
    (hsignal : u.drainedSignal = t.drainedSignal) : Waits t u.signalIfDrained := by
  unfold signalIfDrained
  split_ifs with hempty
  · refine ⟨hdrain, hstop, fun h => ?_, Or.inr ⟨?_, Or.inl hempty⟩⟩
    · exact hloop ▸ h
    · show u.drainedSignal.set true = _
      rw [hsignal]
  · exact waits_of_same hdrain hstop hloop hsignal

theorem waits_handleLoopResult {t u : ProtoHopZ P} (ec : Option Error) (hdrain : u.drain = t.drain)
    (hstop : u.stop = t.stop) (hloop : u.loopError = t.loopError)
    (hsignal : u.drainedSignal = t.drainedSignal) : Waits t (u.handleLoopResult ec) := by
  unfold handleLoopResult
  split_ifs
  · exact waits_of_same hdrain hstop hloop hsignal
  unfold storeLoopError
  split
  · refine ⟨hdrain, hstop, fun _ => by simp, Or.inr ⟨?_, Or.inr (by simp)⟩⟩
    show u.drainedSignal.set true = _
    rw [hsignal]
  · exact waits_of_same hdrain hstop hloop hsignal

/-- **What a step does for one who waits.** -/
theorem waits_step {t t' : ProtoHopZ P} {e : Event P} {out : List Observation}
    (hs : t.step e = some (t', out)) (he : e.closes = false) : Waits t t' := by
  cases step_cases hs with
  | startLoops | drain | resumeDrain | stop | resumeStop => cases he
  | unsent | acked => exact waits_signalIfDrained rfl rfl rfl rfl
  | receiveLoopResult | timeoutLoopResult => exact waits_handleLoopResult _ rfl rfl rfl rfl
  | shakes _ _ _ _ h => cases h <;> exact waits_of_same rfl rfl rfl rfl
  | sendPacket | refused | delayed | unencrypted | registered | transmitSend | sent | ignored
  | unread | tooLarge | repeated | undecrypted | accepted | receiveError | idled | checked
  | timedOut | transmitResend | resent | unresent | timer | awaitPacket | takePacket
  | cancelPacket =>
      exact waits_of_same rfl rfl rfl rfl

/-! ## The wait -/

/-- Every call of `send_packet` that had returned without error in `called` had registered
its packet, and whatever it registered is acknowledged by the end of `later`. -/
def Delivered (called later : List Observation) : Prop :=
  ∀ i, .returned i none ∈ called →
    (∃ packet plaintext, .registered i packet plaintext ∈ called) ∧
      ∀ before packet plaintext after,
        called = before ++ .registered i packet plaintext :: after →
          .acked packet.header.sequence ∈ after ++ later

theorem Delivered.append {called later : List Observation} (h : Delivered called later)
    (more : List Observation) : Delivered called (later ++ more) := by
  intro i hi
  obtain ⟨hregistered, hacked⟩ := h i hi
  refine ⟨hregistered, fun before packet plaintext after heq => ?_⟩
  rw [← List.append_assoc]
  exact List.mem_append_left _ (hacked before packet plaintext after heq)

/-- The calls that had returned without error in `called` had registered their packets. -/
def Registered (called : List Observation) : Prop :=
  ∀ i, .returned i none ∈ called → ∃ packet plaintext, .registered i packet plaintext ∈ called

/-- **An empty `in_flight_` means delivered.** -/
theorem Tracks.delivered {called later : List Observation} {t : ProtoHopZ P}
    (h : Tracks (called ++ later) t) (hcalled : Registered called) (hempty : t.inFlight.keys = ∅) :
    Delivered called later := by
  intro i hi
  refine ⟨hcalled i hi, fun before packet plaintext after heq => ?_⟩
  by_contra hnot
  have hunacked : Unacked (called ++ later) i packet := by
    refine ⟨before, plaintext, after ++ later, ?_, hnot⟩
    rw [heq, List.append_assoc, List.cons_append]
  have hframe := (h.returned i none (List.mem_append_left _ hi)).1
  have hmem := h.flying i packet hunacked (by simp [hframe])
  rw [← Finmap.mem_keys, hempty] at hmem
  exact Finset.notMem_empty _ hmem

/-- What a wait is over for: everything is delivered, or a loop has failed, or `told`: the
stream knows of a failure. -/
def Settled (called later : List Observation) (told : Prop) (t : ProtoHopZ P) : Prop :=
  Delivered called later ∨ t.loopError ≠ none ∨ told

/-- Where `wait_in_flight_drained` is, when it returns only if `settled`. -/
inductive Awaits (settled : Prop) (t : ProtoHopZ P) : Prop
  | posted (hdrain : t.drain = .posted) (hwaiters : t.drainedSignal.waiters = [])
      (hcompletions : t.drainedSignal.completions = [])
  | waiting (hdrain : t.drain = .waiting) (hwoken : () ∈ t.drainedSignal.completions → settled)
  | returned (drained : Bool) (hdrain : t.drain = .returned drained) (h : settled)

theorem Awaits.step {settled settled' : Prop} {t t' : ProtoHopZ P} (h : Awaits settled t)
    (hw : Waits t t') (hkept : settled → settled')
    (hset : t'.inFlight.keys = ∅ ∨ t'.loopError ≠ none → settled') : Awaits settled' t' := by
  cases h with
  | posted hdrain hwaiters hcompletions =>
      rcases hw.signal with hsignal | ⟨hsignal, -⟩
      · exact .posted (hw.drain.trans hdrain) (by rw [hsignal, hwaiters])
          (by rw [hsignal, hcompletions])
      · refine .posted (hw.drain.trans hdrain) (by rw [hsignal]; rfl) ?_
        rw [hsignal, AsyncValue.set, hwaiters, hcompletions]
        rfl
  | waiting hdrain hwoken =>
      refine .waiting (hw.drain.trans hdrain) fun hmem => ?_
      rcases hw.signal with hsignal | ⟨-, hwhy⟩
      · rw [hsignal] at hmem
        exact hkept (hwoken hmem)
      · exact hset hwhy
  | returned drained hdrain h => exact .returned drained (hw.drain.trans hdrain) (hkept h)

/-- Before `close` is called. -/
structure Open (tr : List Observation) (t : ProtoHopZ P) : Prop where
  tracks : Tracks tr t
  drain : t.drain = .idle
  stop : t.stop = .idle
  waiters : t.drainedSignal.waiters = []
  completions : t.drainedSignal.completions = []

/-- While `close` is in `wait_in_flight_drained`; `called` is what had been shown when it was
called. -/
structure Draining (called later : List Observation) (told : Prop) (t : ProtoHopZ P) : Prop where
  tracks : Tracks (called ++ later) t
  registered : Registered called
  stop : t.stop = .idle
  awaits : Awaits (Settled called later told t) t

theorem Open.congr {tr : List Observation} {t t' : ProtoHopZ P} (h : Open tr t)
    (hflight : t'.inFlight = t.inFlight) (hsends : t'.sends = t.sends) (hdrain : t'.drain = t.drain)
    (hstop : t'.stop = t.stop) (hsignal : t'.drainedSignal = t.drainedSignal) : Open tr t' where
  tracks := h.tracks.congr hflight hsends
  drain := hdrain.trans h.drain
  stop := hstop.trans h.stop
  waiters := hsignal ▸ h.waiters
  completions := hsignal ▸ h.completions

theorem Open.step {tr out : List Observation} {t t' : ProtoHopZ P} {e : Event P} (h : Open tr t)
    (hs : t.step e = some (t', out)) (he : e.closes = false)
    (hfree : ∀ i fault nonce now, e = .resumeSend i fault nonce now → t.NumberFree) :
    Open (tr ++ out) t' := by
  have hw := waits_step hs he
  have hsignal : t'.drainedSignal.waiters = [] ∧ t'.drainedSignal.completions = [] := by
    rcases hw.signal with hsignal | ⟨hsignal, -⟩
    · rw [hsignal]
      exact ⟨h.waiters, h.completions⟩
    · rw [hsignal, AsyncValue.set, h.waiters, h.completions]
      exact ⟨rfl, rfl⟩
  refine ⟨h.tracks.step hs ?_ hfree, hw.drain.trans h.drain, hw.stop.trans h.stop, hsignal.1,
    hsignal.2⟩
  rintro rfl
  cases he

/-- `close` calls `wait_in_flight_drained`. -/
theorem Open.draining {called : List Observation} {t : ProtoHopZ P} (h : Open called t)
    (told : Prop) : Draining called [] told { t with drain := .posted } where
  tracks := by
    rw [List.append_nil]
    exact h.tracks.congr rfl rfl
  registered i hi := (h.tracks.returned i none hi).2 rfl
  stop := h.stop
  awaits := .posted rfl h.waiters h.completions

theorem Draining.congr {called later : List Observation} {told told' : Prop} {t t' : ProtoHopZ P}
    (h : Draining called later told t) (htold : told → told') (hflight : t'.inFlight = t.inFlight)
    (hsends : t'.sends = t.sends) (hdrain : t'.drain = t.drain) (hstop : t'.stop = t.stop)
    (hloop : t'.loopError = t.loopError) (hsignal : t'.drainedSignal = t.drainedSignal) :
    Draining called later told' t' where
  tracks := h.tracks.congr hflight hsends
  registered := h.registered
  stop := hstop.trans h.stop
  awaits := by
    refine h.awaits.step (waits_of_same hdrain hstop hloop hsignal) ?_ ?_
    · rintro (hdelivered | herror | htold')
      · exact Or.inl hdelivered
      · exact Or.inr (Or.inl (hloop ▸ herror))
      · exact Or.inr (Or.inr (htold htold'))
    · rintro (hempty | herror)
      · exact Or.inl ((h.tracks.congr hflight hsends).delivered h.registered hempty)
      · exact Or.inr (Or.inl herror)

theorem Draining.step {called later out : List Observation} {told : Prop} {t t' : ProtoHopZ P}
    {e : Event P} (h : Draining called later told t) (hs : t.step e = some (t', out))
    (he : e.closes = false)
    (hfree : ∀ i fault nonce now, e = .resumeSend i fault nonce now → t.NumberFree) :
    Draining called (later ++ out) told t' := by
  have hw := waits_step hs he
  have hstop : e ≠ .resumeStop := by
    rintro rfl
    cases he
  have htracks : Tracks (called ++ (later ++ out)) t' := by
    rw [← List.append_assoc]
    exact h.tracks.step hs hstop hfree
  refine ⟨htracks, h.registered, hw.stop.trans h.stop, h.awaits.step hw ?_ ?_⟩
  · rintro (hdelivered | herror | htold)
    · exact Or.inl (hdelivered.append out)
    · exact Or.inr (Or.inl (hw.loopError herror))
    · exact Or.inr (Or.inr htold)
  · rintro (hempty | herror)
    · exact Or.inl (htracks.delivered h.registered hempty)
    · exact Or.inr (Or.inl herror)

/-- **What `wait_in_flight_drained` has found when it returns.**  The condition is on its
timer: it does not end the wait with packets in flight. -/
theorem Draining.resumeDrain {called later : List Observation} {told : Prop} {t t' : ProtoHopZ P}
    {timer : Bool} (h : Draining called later told t) (hs : t.resumeDrain timer = some t')
    (htimer : timer = true → t.inFlight.keys = ∅ ∨ t.loopError ≠ none ∨ told) :
    Draining called later told t' := by
  unfold ProtoHopZ.resumeDrain at hs
  split at hs
  · rename_i hposted
    obtain rfl := Option.some.inj hs
    unfold startDrain
    split_ifs with herror hempty
    · exact ⟨h.tracks.congr rfl rfl, h.registered, h.stop,
        .returned false rfl (Or.inr (Or.inl herror))⟩
    · exact ⟨h.tracks.congr rfl rfl, h.registered, h.stop,
        .returned true rfl (Or.inl (h.tracks.delivered h.registered hempty))⟩
    · refine ⟨h.tracks.congr rfl rfl, h.registered, h.stop, .waiting rfl fun hmem => ?_⟩
      cases h.awaits with
      | posted hdrain hwaiters hcompletions =>
          rw [AsyncValue.completions_wait, hcompletions] at hmem
          cases hmem
      | waiting hdrain | returned drained hdrain =>
          rw [hposted] at hdrain
          cases hdrain
  · rename_i hwaiting
    split_ifs at hs with ht hmem
    · obtain rfl := Option.some.inj hs
      refine ⟨h.tracks.congr rfl rfl, h.registered, h.stop, .returned _ rfl ?_⟩
      rcases htimer ht with hempty | herror | htold
      · exact Or.inl (h.tracks.delivered h.registered hempty)
      · exact Or.inr (Or.inl herror)
      · exact Or.inr (Or.inr htold)
    · obtain rfl := Option.some.inj hs
      refine ⟨h.tracks.congr rfl rfl, h.registered, h.stop, .returned _ rfl ?_⟩
      cases h.awaits with
      | waiting hdrain hwoken => exact hwoken hmem
      | posted hdrain | returned drained hdrain =>
          rw [hwaiting] at hdrain
          cases hdrain
  · cases hs

end ProtoHopZ
end FileHopZ

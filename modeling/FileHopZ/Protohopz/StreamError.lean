import FileHopZ.Protohopz.LazyStart

/-! # What a recorded stream error does to later calls

Once `store_stream_error` has recorded an error, `receive` returns it at once.  `send`
does not look at it: it finds `loops_running_` false and starts everything anew, which
clears the error.  Without such a call the error stays, every later call returns an
error, nothing is started and nothing is sent.
-/
namespace FileHopZ
namespace LazyStream

/-- The condition on a step: `send` is not called after an error, except where it finds
the loops running and is turned down, for its length or by `loop_error_`. -/
def SendsInTime (s : LazyStream) : Event → Prop
  | .call _ (.send data) =>
      s.streamError = none ∨
        s.loopsRunning = true ∧ (packetPayloadSize < data.length ∨ s.loopError ≠ none)
  | _ => True

/-- Call `i` has not been made, or has returned, or will get `loop_error_`. -/
def Barred (s : LazyStream) (i : Nat) : Prop :=
  s.calls i = .idle ∨ s.calls i = .returned ∨ s.calls i = .sending ∧ s.loopError ≠ none

/-- Call `i` sends nothing, and returns an error if it returns: `receive` the error `ec`. -/
structure Refused (ec : Error) (i : Nat) (out : List Observation) : Prop where
  silent : .transmitted i ∉ out
  sent : ∀ r, .sent i r ∈ out → r ≠ none
  received : ∀ r, .received i r ∈ out → r = .error ec

/-- What a step keeps after the error `ec`. -/
structure Sticks (ec : Error) (s s' : LazyStream) (out : List Observation) : Prop where
  error : s'.streamError = some ec
  started : ∀ i, .startedLoops i ∉ out
  closed : ∀ r, .closed r ∈ out → r = some ec
  barred : ∀ i, s.Barred i → s'.Barred i ∧ Refused ec i out

/-- The call that an observation is about. -/
def Observation.caller : Observation → Option Nat
  | .startedLoops i | .transmitted i | .sent i _ | .received i _ => some i
  | .closed _ => none

theorem refused_of_other {ec : Error} {i j : Nat} {out : List Observation} (hij : i ≠ j)
    (hout : ∀ o ∈ out, o.caller = some j) : Refused ec i out := by
  have hno : ∀ o ∈ out, o.caller ≠ some i := by
    intro o ho h
    rw [hout o ho] at h
    exact hij (Option.some.inj h).symm
  exact ⟨fun h => hno _ h rfl, fun r h => absurd rfl (hno _ h), fun r h => absurd rfl (hno _ h)⟩

/-- A step of call `j`. -/
theorem sticks_goTo {ec : Error} {s s' : LazyStream} {out : List Observation} {j : Nat}
    {frame : CallFrame} (herror : s'.streamError = some ec) (hloop : s'.loopError = s.loopError)
    (hcalls : s'.calls = Function.update s.calls j frame)
    (hout : ∀ o ∈ out, o.caller = some j) (hstarted : .startedLoops j ∉ out)
    (hbarred : s.Barred j → (frame = .returned ∨ frame = .sending ∧ s.loopError ≠ none) ∧
      Refused ec j out) : Sticks ec s s' out where
  error := herror
  started i h := by
    obtain rfl := Option.some.inj (hout _ h)
    exact hstarted h
  closed r h := by cases hout _ h
  barred i hi := by
    by_cases hij : i = j
    · subst hij
      obtain ⟨hframe, hrefused⟩ := hbarred hi
      refine ⟨?_, hrefused⟩
      rw [Barred, hcalls, hloop, Function.update_self]
      exact Or.inr hframe
    · refine ⟨?_, refused_of_other hij hout⟩
      rw [Barred, hcalls, hloop, Function.update_of_ne hij]
      exact hi

/-- A step that is not one of a call. -/
theorem sticks_of_calls {ec : Error} {s s' : LazyStream} {out : List Observation}
    (herror : s'.streamError = some ec) (hloop : s.loopError ≠ none → s'.loopError ≠ none)
    (hcalls : s'.calls = s.calls) (hout : out = [] ∨ out = [.closed (some ec)]) :
    Sticks ec s s' out where
  error := herror
  started i h := by rcases hout with rfl | rfl <;> simp at h
  closed r h := by
    rcases hout with rfl | rfl
    · cases h
    · simpa using h
  barred i hi := by
    refine ⟨?_, ?_⟩
    · rw [Barred, hcalls]
      exact hi.imp_right fun h => h.imp_right fun h => ⟨h.1, hloop h.2⟩
    · rcases hout with rfl | rfl <;> exact ⟨by simp, by simp, by simp⟩

theorem handleLoopResult_sticky (ec : Option Error) (s : LazyStream) :
    (s.handleLoopResult ec).streamError = s.streamError ∧
      (s.handleLoopResult ec).calls = s.calls ∧
      (s.loopError ≠ none → (s.handleLoopResult ec).loopError ≠ none) := by
  unfold handleLoopResult storeLoopError
  repeat' split
  all_goals exact ⟨rfl, rfl, by simp_all⟩

/-- **The first error stays.** -/
theorem handleReceiveChunksResult_sticky {s : LazyStream} {ec : Error}
    (h : s.streamError = some ec) (r : Option Error) : s.handleReceiveChunksResult r = s := by
  have hstore : ∀ code, s.storeStreamError code = s := fun code => by rw [storeStreamError, h]
  cases r with
  | none => rfl
  | some code =>
      rw [handleReceiveChunksResult]
      split_ifs
      · rfl
      · exact hstore code

theorem not_barred {s : LazyStream} {i : Nat} {frame : CallFrame} (h : s.calls i = frame)
    (hframe : frame ≠ .idle ∧ frame ≠ .returned ∧ (frame = .sending → s.loopError = none)) :
    ¬ s.Barred i := by
  rintro (hi | hi | ⟨hi, hloop⟩) <;> rw [h] at hi
  · exact hframe.1 hi
  · exact hframe.2.1 hi
  · exact hloop (hframe.2.2 hi)

/-- The call turned down by `fail`. -/
theorem caller_fail (i : Nat) (c : Call) (ec : Error) (s : LazyStream) :
    (∀ o ∈ (s.fail i c ec).2, o.caller = some i) ∧ .startedLoops i ∉ (s.fail i c ec).2 := by
  unfold fail
  split <;> simp [Observation.caller]

theorem caller_proceed (i : Nat) (c : Call) (s : LazyStream) :
    (∀ o ∈ (s.proceed i c).2, o.caller = some i) ∧ .startedLoops i ∉ (s.proceed i c).2 := by
  unfold proceed
  split
  · split_ifs
    · exact caller_fail i _ _ s
    · simp
  · simp

/-- **The step lemma.** -/
theorem sticks_step {ec : Error} {s s' : LazyStream} {e : Event} {out : List Observation}
    (herror : s.streamError = some ec) (hok : s.SendsInTime e)
    (hs : s.step e = some (s', out)) : Sticks ec s s' out := by
  cases e with
  | call i c =>
      rw [step] at hs
      split at hs
      case h_2 => cases hs
      cases c with
      | receive =>
          have hcall : s.call i .receive = (s.goTo i .returned, [.received i (.error ec)]) := by
            rw [call, herror]
            rfl
          rw [hcall] at hs
          obtain ⟨rfl, rfl⟩ := Prod.mk.inj (Option.some.inj hs)
          exact sticks_goTo herror rfl rfl (by simp [Observation.caller]) (by simp)
            fun _ => ⟨Or.inl rfl, by simp, by simp, by simp⟩
      | send data =>
          obtain ⟨hrunning, hdown⟩ := hok.resolve_left (by simp [herror])
          have hcall : s.call i (.send data) = s.proceed i (.send data) := by
            rw [call, ensureLoops, if_neg (by simp [hrunning])]
          rw [hcall, proceed] at hs
          split_ifs at hs with hlong
          · obtain ⟨rfl, rfl⟩ := Prod.mk.inj (Option.some.inj hs)
            exact sticks_goTo herror rfl rfl (by simp [Observation.caller]) (by simp)
              fun _ => ⟨Or.inl rfl, by simp, by simp, by simp⟩
          · obtain ⟨rfl, rfl⟩ := Prod.mk.inj (Option.some.inj hs)
            exact sticks_goTo herror rfl rfl (by simp) (by simp)
              fun _ => ⟨Or.inr ⟨rfl, hdown.resolve_left hlong⟩, by simp, by simp, by simp⟩
  | resumeStartLoops i r =>
      rw [step] at hs
      split at hs
      case h_2 => cases hs
      rename_i c hstarting
      have hbarred := not_barred hstarting ⟨by simp, by simp, by simp⟩
      cases r with
      | some code =>
          have hcaller := caller_fail i c code s
          have hfail := fail_eq i c code s
          rw [resumeStartLoops] at hs
          rw [Option.some.inj hs] at hcaller hfail
          obtain rfl : s' = s.goTo i .returned := hfail
          exact sticks_goTo herror rfl rfl hcaller.1 hcaller.2 fun h => absurd h hbarred
      | none =>
          have hcaller := caller_proceed i c { s with
            loopsRunning := true
            receiveChunksLoops := insert i s.receiveChunksLoops }
          obtain ⟨frame, ready, more, hproceed, -⟩ := proceed_eq i c { s with
            loopsRunning := true
            receiveChunksLoops := insert i s.receiveChunksLoops }
          rw [resumeStartLoops, hproceed] at hs
          rw [hproceed] at hcaller
          obtain ⟨rfl, rfl⟩ := Prod.mk.inj (Option.some.inj hs)
          exact sticks_goTo herror rfl rfl hcaller.1 hcaller.2 fun h => absurd h hbarred
  | resumeSend i outcome =>
      rw [step] at hs
      split at hs
      case h_2 => cases hs
      rename_i hsending
      unfold resumeSend at hs
      split at hs <;> obtain ⟨rfl, rfl⟩ := Prod.mk.inj (Option.some.inj hs)
      · exact sticks_goTo herror rfl rfl (by simp [Observation.caller]) (by simp)
          fun _ => ⟨Or.inl rfl, by simp, by simp, by simp⟩
      · exact sticks_of_calls herror id rfl (Or.inl rfl)
      · exact sticks_goTo herror rfl rfl (by simp [Observation.caller]) (by simp)
          fun _ => ⟨Or.inl rfl, by simp, by simp, by simp⟩
      · rename_i hloop
        have hbarred := not_barred hsending ⟨by simp, by simp, fun _ => hloop⟩
        exact sticks_goTo herror rfl rfl (by simp [Observation.caller]) (by simp)
          fun h => absurd h hbarred
  | finishSend i r =>
      rw [step] at hs
      split at hs
      case h_2 => cases hs
      rename_i hframe
      obtain ⟨rfl, rfl⟩ := Prod.mk.inj (Option.some.inj hs)
      have hbarred := not_barred hframe ⟨by simp, by simp, by simp⟩
      exact sticks_goTo herror rfl rfl (by simp [Observation.caller]) (by simp)
        fun h => absurd h hbarred
  | resumeReceive i =>
      rw [step] at hs
      split at hs
      case h_2 => cases hs
      rename_i hframe
      obtain ⟨r, -, hr⟩ := Option.map_eq_some_iff.mp hs
      obtain ⟨rfl, rfl⟩ := Prod.mk.inj hr
      have hbarred := not_barred hframe ⟨by simp, by simp, by simp⟩
      exact sticks_goTo herror rfl rfl (by simp [Observation.caller]) (by simp)
        fun h => absurd h hbarred
  | pushChunk _ | receiveLoopReturns _ _ | timeoutLoopReturns _ _ | receiveChunksLoopReturns _ _ =>
      rw [step] at hs
      split_ifs at hs
      obtain ⟨rfl, rfl⟩ := Prod.mk.inj (Option.some.inj hs)
      exact sticks_of_calls herror id rfl (Or.inl rfl)
  | loopResult r =>
      rw [step] at hs
      split_ifs at hs
      obtain ⟨rfl, rfl⟩ := Prod.mk.inj (Option.some.inj hs)
      obtain ⟨hstream, hcalls, hloop⟩ :=
        handleLoopResult_sticky r { s with loopResults := s.loopResults.erase r }
      exact sticks_of_calls (hstream.trans herror) hloop hcalls (Or.inl rfl)
  | receiveChunksResult r =>
      rw [step] at hs
      split_ifs at hs
      have hsame := @handleReceiveChunksResult_sticky
        { s with chunksResults := s.chunksResults.erase r } ec herror r
      rw [hsame] at hs
      obtain ⟨rfl, rfl⟩ := Prod.mk.inj (Option.some.inj hs)
      exact sticks_of_calls herror id rfl (Or.inl rfl)
  | close | resumeClose | stopLoops =>
      rw [step] at hs
      split at hs
      case h_2 => cases hs
      obtain ⟨rfl, rfl⟩ := Prod.mk.inj (Option.some.inj hs)
      exact sticks_of_calls herror id rfl (Or.inl rfl)
  | finishClose =>
      rw [step] at hs
      split at hs
      case h_2 => cases hs
      obtain ⟨rfl, rfl⟩ := Prod.mk.inj (Option.some.inj hs)
      exact sticks_of_calls herror id rfl (Or.inr (by rw [herror]))

theorem Refused.append {ec : Error} {i : Nat} {out out' : List Observation}
    (h : Refused ec i out) (h' : Refused ec i out') : Refused ec i (out ++ out') where
  silent hmem := (List.mem_append.mp hmem).elim h.silent h'.silent
  sent r hmem := (List.mem_append.mp hmem).elim (h.sent r) (h'.sent r)
  received r hmem := (List.mem_append.mp hmem).elim (h.received r) (h'.received r)

theorem Sticks.trans {ec : Error} {s t u : LazyStream} {out out' : List Observation}
    (h : Sticks ec s t out) (h' : Sticks ec t u out') : Sticks ec s u (out ++ out') where
  error := h'.error
  started i hmem := (List.mem_append.mp hmem).elim (h.started i) (h'.started i)
  closed r hmem := (List.mem_append.mp hmem).elim (h.closed r) (h'.closed r)
  barred i hi := by
    obtain ⟨hbarred, hrefused⟩ := h.barred i hi
    obtain ⟨hbarred', hrefused'⟩ := h'.barred i hbarred
    exact ⟨hbarred', hrefused.append hrefused'⟩

/-- **A stream failure is sticky.**  In every run whose steps meet the condition, from
whatever state in which `stream_error_` is `ec`: the error stays and `close` reports it,
no call runs `start_loops` of the transport, and the calls made from then on send
nothing and return an error, `receive` this one. -/
theorem stream_error_sticky {s : LazyStream} {ec : Error} (herror : s.streamError = some ec)
    {after : List Observation} {t : LazyStream}
    (hafter : Transition.Run step SendsInTime s after t) :
    t.streamError = some ec ∧ (∀ r, .closed r ∈ after → r = some ec) ∧
      (∀ i, .startedLoops i ∉ after) ∧
      ∀ i, s.calls i = .idle → t.Barred i ∧ Refused ec i after := by
  have hsticks : Sticks ec s t after := by
    refine hafter.invariant (I := fun tr u => Sticks ec s u tr) ?_ ?_
    · exact sticks_of_calls herror id rfl (Or.inl rfl)
    · intro tr u e u' out h hok hs
      exact h.trans (sticks_step h.error hok hs)
  exact ⟨hsticks.error, hsticks.closed, hsticks.started,
    fun i hi => hsticks.barred i (Or.inl hi)⟩

/-- A call of `send` that finds the loops stopped starts them again and clears the error. -/
theorem send_restarts {s : LazyStream} (hstopped : s.loopsRunning = false) {i : Nat}
    (hidle : s.calls i = .idle) (data : Bytes) :
    ∃ t, s.step (.call i (.send data)) = some (t, [.startedLoops i]) ∧ t.streamError = none ∧
      t.Starting i := by
  have hcall : s.call i (.send data) = s.callStartLoops i (.send data) := by
    rw [call, ensureLoops, if_pos hstopped]
  refine ⟨(s.callStartLoops i (.send data)).1, ?_, rfl, .send data, Function.update_self _ _ _⟩
  rw [step, hidle]
  dsimp only
  rw [hcall]
  rfl

/-- The stream is started, its `receive_chunks_loop` fails and the error is recorded. -/
def sampleFailure : List Event :=
  [.call 0 .receive, .resumeStartLoops 0 none,
    .receiveChunksLoopReturns 0 (some (.filehopz .connectionIdleTimeout)),
    .receiveChunksResult (some (.filehopz .connectionIdleTimeout))]

def sendsInTimeTest (s : LazyStream) : Event → Bool
  | .call _ (.send _) => s.streamError.isNone
  | _ => true

theorem sendsInTime_of_test (s : LazyStream) (e : Event) (h : sendsInTimeTest s e = true) :
    s.SendsInTime e := by
  unfold sendsInTimeTest at h
  unfold SendsInTime
  split at h
  · exact Or.inl (Option.isNone_iff_eq_none.mp h)
  · trivial

/-- The failed stream, and a call of `receive`. -/
theorem stream_error_sticky_receive : ∃ before s after t,
    Transition.Run step SendsInTime {} before s ∧ Transition.Run step SendsInTime s after t ∧
      t.streamError = some (.filehopz .connectionIdleTimeout) ∧ t.Barred 1 ∧
      ∀ r, .received 1 r ∈ after → r = .error (.filehopz .connectionIdleTimeout) := by
  obtain ⟨before, s, hbefore, hp⟩ := Transition.exists_run step SendsInTime {} sampleFailure
    (fun _ s => decide (s.streamError = some (.filehopz .connectionIdleTimeout)) &&
      decide (s.calls 1 = .idle)) sendsInTimeTest sendsInTime_of_test (by decide +kernel)
  rw [Bool.and_eq_true, decide_eq_true_eq, decide_eq_true_eq] at hp
  have hcall : s.step (.call 1 .receive) = some (s.goTo 1 .returned,
      [.received 1 (.error (.filehopz .connectionIdleTimeout))]) := by
    rw [step, hp.2]
    dsimp only
    rw [call, hp.1]
    rfl
  have hok : s.SendsInTime (.call 1 .receive) := trivial
  have hafter := Transition.Run.single hok hcall
  obtain ⟨herror, -, -, hlater⟩ := stream_error_sticky hp.1 hafter
  obtain ⟨hbarred, hrefused⟩ := hlater 1 hp.2
  exact ⟨before, s, _, _, hbefore, hafter, herror, hbarred, hrefused.received⟩

/-- **A failed stream is started again.**  After the error, `send` starts the loops of
the transport and a handshake, and the error is gone. -/
theorem stream_error_cleared : ∃ before s after t,
    Transition.Run step Transition.Always {} before s ∧
      s.streamError = some (.filehopz .connectionIdleTimeout) ∧ s.calls 1 = .idle ∧
      Transition.Run step Transition.Always s after t ∧
      t.streamError = none ∧ .startedLoops 1 ∈ after ∧ t.Starting 1 := by
  obtain ⟨before, s, hbefore, hp⟩ := Transition.exists_run step Transition.Always {} sampleFailure
    (fun _ s => decide (s.streamError = some (.filehopz .connectionIdleTimeout)) &&
      decide (s.calls 1 = .idle) && decide (s.loopsRunning = false)) (fun _ _ => true)
    (fun _ _ _ => trivial) (by decide +kernel)
  simp only [Bool.and_eq_true, decide_eq_true_eq] at hp
  obtain ⟨⟨herror, hidle⟩, hstopped⟩ := hp
  obtain ⟨t, hs, hcleared, hstarting⟩ := send_restarts hstopped hidle [66]
  exact ⟨before, s, _, t, hbefore, herror, hidle,
    @Transition.Run.single _ _ _ step Transition.Always s _ _ _ trivial hs, hcleared, by simp,
    hstarting⟩

end LazyStream
end FileHopZ

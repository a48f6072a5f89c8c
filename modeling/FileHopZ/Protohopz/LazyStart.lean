import FileHopZ.Protohopz.ProtoStream

/-! # `send` and `receive` start the loops

A stream is started by whichever call of `send` or `receive` finds `loops_running_`
false: it runs `start_loops`, which spawns the two loops of the transport, does the
handshake and then spawns `receive_chunks_loop`.  Calls may be made at any time, also
while another one is suspended in `start_loops`, and after an error; so the machine
here knows each loop by the call that has started it.  When a handshake returns, when a
loop ends, and with what error, is left to the environment.
-/
namespace FileHopZ

/-- What an application calls. -/
inductive Call
  | send (data : Bytes)
  | receive
  deriving DecidableEq

/-- Where a call is. -/
inductive CallFrame
  | idle
  /-- in `start_loops`, waiting for the handshake -/
  | handshaking (call : Call)
  /-- in `send_packet`, before the packet is registered -/
  | sending
  /-- in `async_send_to` -/
  | transmitting
  /-- in `ready_chunks_.pop` -/
  | popping
  | returned
  deriving DecidableEq

/-- Where `close` is. -/
inductive ClosingFrame
  | idle
  | draining
  | stopping
  | stopped
  | returned

/-- The flags of `ProtoStream` and `ProtoHopZ` that decide on starting, the coroutines
that are alive, and the results whose completion handlers have still to run. -/
structure LazyStream where
  loopsRunning : Bool := false
  stoppingLoops : Bool := false
  streamError : Option Error := none
  readyChunks : AsyncQueue Nat Chunk := {}
  transportStopping : Bool := false
  loopError : Option Error := none
  loopsStarted : Bool := false
  receiveLoops : Finset Nat := ∅
  timeoutLoops : Finset Nat := ∅
  receiveChunksLoops : Finset Nat := ∅
  loopResults : List (Option Error) := []
  chunksResults : List (Option Error) := []
  calls : Nat → CallFrame := fun _ => .idle
  closing : ClosingFrame := .idle

namespace LazyStream

/-- What a step shows. -/
inductive Observation
  /-- Call `i` ran `start_loops` of the transport. -/
  | startedLoops (i : Nat)
  /-- Call `i` of `send` gave its packet to the socket. -/
  | transmitted (i : Nat)
  /-- Call `i` of `send` returned. -/
  | sent (i : Nat) (ec : Option Error)
  /-- Call `i` of `receive` returned. -/
  | received (i : Nat) (result : Except Error Chunk)
  /-- `close` returned. -/
  | closed (ec : Option Error)

/-! ## Errors of the loops -/

/-- `ProtoHopZ::store_loop_error`. -/
def storeLoopError (ec : Error) (s : LazyStream) : LazyStream :=
  match s.loopError with
  | some _ => s
  | none => { s with loopError := some ec, loopsStarted := false }

/-- `ProtoHopZ::handle_loop_result`. -/
def handleLoopResult (ec : Option Error) (s : LazyStream) : LazyStream :=
  match ec with
  | none => s
  | some ec =>
      if s.transportStopping = true ∧ ec = .operationAborted then s else s.storeLoopError ec

/-- `store_stream_error`. -/
def storeStreamError (ec : Error) (s : LazyStream) : LazyStream :=
  match s.streamError with
  | some _ => s
  | none =>
      { s with
        streamError := some ec
        loopsRunning := false
        readyChunks := s.readyChunks.push .null }

/-- `handle_receive_chunks_result`. -/
def handleReceiveChunksResult (ec : Option Error) (s : LazyStream) : LazyStream :=
  match ec with
  | none => s
  | some ec =>
      if s.stoppingLoops = true ∧ ec = .operationAborted then s else s.storeStreamError ec

/-! ## Calls -/

/-- Call `i` goes on to `frame`. -/
def goTo (i : Nat) (frame : CallFrame) (s : LazyStream) : LazyStream :=
  { s with calls := Function.update s.calls i frame }

/-- Call `i` returns the error `ec`. -/
def fail (i : Nat) (call : Call) (ec : Error) (s : LazyStream) : LazyStream × List Observation :=
  match call with
  | .send _ => (s.goTo i .returned, [.sent i (some ec)])
  | .receive => (s.goTo i .returned, [.received i (.error ec)])

/-- `start_loops`, to its call of the handshake; `ProtoHopZ::start_loops` in between. -/
def callStartLoops (i : Nat) (call : Call) (s : LazyStream) : LazyStream × List Observation :=
  ({ s with
      stoppingLoops := false
      streamError := none
      transportStopping := false
      loopError := none
      receiveLoops := insert i s.receiveLoops
      timeoutLoops := insert i s.timeoutLoops
      loopsStarted := true }.goTo i (.handshaking call), [.startedLoops i])

/-- `send` and `receive` once the loops are running. -/
def proceed (i : Nat) (call : Call) (s : LazyStream) : LazyStream × List Observation :=
  match call with
  | .send data =>
      if packetPayloadSize < data.length then
        s.fail i call (.filehopz .streamPayloadTooLarge)
      else (s.goTo i .sending, [])
  | .receive => ({ s with readyChunks := s.readyChunks.pop i }.goTo i .popping, [])

/-- What both do about the loops. -/
def ensureLoops (i : Nat) (call : Call) (s : LazyStream) : LazyStream × List Observation :=
  if s.loopsRunning = false then s.callStartLoops i call else s.proceed i call

/-- `send` and `receive`, to their first suspension.  Only `receive` looks at
`stream_error_`. -/
def call (i : Nat) (call : Call) (s : LazyStream) : LazyStream × List Observation :=
  match call with
  | .send _ => s.ensureLoops i call
  | .receive =>
      match s.streamError with
      | some ec => s.fail i call ec
      | none => s.ensureLoops i call

/-- `start_loops` goes on when the handshake has returned, and the call with it. -/
def resumeStartLoops (i : Nat) (call : Call) (ec : Option Error) (s : LazyStream) :
    LazyStream × List Observation :=
  match ec with
  | some ec => s.fail i call ec
  | none =>
      { s with
        loopsRunning := true
        receiveChunksLoops := insert i s.receiveChunksLoops }.proceed i call

/-- What `send_packet` finds when `loop_error_` is not set. -/
inductive Outcome
  /-- The window is closed, and it waits. -/
  | waits
  | failed (ec : Error)
  | registered

/-- `send_packet` goes on after `post`, or after a wait. -/
def resumeSend (i : Nat) (outcome : Outcome) (s : LazyStream) : LazyStream × List Observation :=
  match s.loopError, outcome with
  | some ec, _ => (s.goTo i .returned, [.sent i (some ec)])
  | none, .waits => (s, [])
  | none, .failed ec => (s.goTo i .returned, [.sent i (some ec)])
  | none, .registered => (s.goTo i .transmitting, [.transmitted i])

/-- `receive` goes on when its `pop` has completed. -/
def resumeReceive (i : Nat) (s : LazyStream) : Option (LazyStream × List Observation) :=
  (s.readyChunks.resume i).map fun r =>
    ({ s with readyChunks := r.2 }.goTo i .returned,
      [.received i (match s.streamError with
        | some ec => .error ec
        | none => .ok r.1)])

/-! ## The machine -/

inductive Event
  | call (i : Nat) (call : Call)
  /-- The handshake of call `i` returns. -/
  | resumeStartLoops (i : Nat) (ec : Option Error)
  | resumeSend (i : Nat) (outcome : Outcome)
  | finishSend (i : Nat) (ec : Option Error)
  | resumeReceive (i : Nat)
  /-- `receive_chunks_loop` pushes a chunk. -/
  | pushChunk (chunk : Chunk)
  /-- The `receive_loop` that call `i` has started returns. -/
  | receiveLoopReturns (i : Nat) (ec : Option Error)
  | timeoutLoopReturns (i : Nat) (ec : Option Error)
  | receiveChunksLoopReturns (i : Nat) (ec : Option Error)
  /-- The completion handler of a loop of the transport runs. -/
  | loopResult (ec : Option Error)
  | receiveChunksResult (ec : Option Error)
  | close
  /-- `close` goes on after `wait_in_flight_drained`. -/
  | resumeClose
  | stopLoops
  | finishClose

/-- The step function. -/
def step (s : LazyStream) : Event → Option (LazyStream × List Observation)
  | .call i c =>
      match s.calls i with
      | .idle => some (s.call i c)
      | _ => none
  | .resumeStartLoops i ec =>
      match s.calls i with
      | .handshaking c => some (s.resumeStartLoops i c ec)
      | _ => none
  | .resumeSend i outcome =>
      match s.calls i with
      | .sending => some (s.resumeSend i outcome)
      | _ => none
  | .finishSend i ec =>
      match s.calls i with
      | .transmitting => some (s.goTo i .returned, [.sent i ec])
      | _ => none
  | .resumeReceive i =>
      match s.calls i with
      | .popping => s.resumeReceive i
      | _ => none
  | .pushChunk chunk =>
      if s.receiveChunksLoops = ∅ then none
      else some ({ s with readyChunks := s.readyChunks.push chunk }, [])
  | .receiveLoopReturns i ec =>
      if i ∈ s.receiveLoops then
        some ({ s with
          receiveLoops := s.receiveLoops.erase i
          loopResults := ec :: s.loopResults }, [])
      else none
  | .timeoutLoopReturns i ec =>
      if i ∈ s.timeoutLoops then
        some ({ s with
          timeoutLoops := s.timeoutLoops.erase i
          loopResults := ec :: s.loopResults }, [])
      else none
  | .receiveChunksLoopReturns i ec =>
      if i ∈ s.receiveChunksLoops then
        some ({ s with
          receiveChunksLoops := s.receiveChunksLoops.erase i
          chunksResults := ec :: s.chunksResults }, [])
      else none
  | .loopResult ec =>
      if ec ∈ s.loopResults then
        some ({ s with loopResults := s.loopResults.erase ec }.handleLoopResult ec, [])
      else none
  | .receiveChunksResult ec =>
      if ec ∈ s.chunksResults then
        some ({ s with chunksResults := s.chunksResults.erase ec }.handleReceiveChunksResult ec, [])
      else none
  | .close =>
      match s.closing with
      | .idle => some ({ s with closing := .draining }, [])
      | _ => none
  | .resumeClose =>
      match s.closing with
      | .draining =>
          some ({ s with loopsRunning := false, stoppingLoops := true, closing := .stopping }, [])
      | _ => none
  | .stopLoops =>
      match s.closing with
      | .stopping =>
          some ({ s with transportStopping := true, loopsStarted := false, closing := .stopped }, [])
      | _ => none
  | .finishClose =>
      match s.closing with
      | .stopped => some ({ s with closing := .returned }, [.closed s.streamError])
      | _ => none

/-! ## What a step does to the loops -/

/-- Call `i` is in its handshake. -/
def Starting (s : LazyStream) (i : Nat) : Prop := ∃ c, s.calls i = .handshaking c

/-- A call made now runs `start_loops`. -/
def Starts (s : LazyStream) (c : Call) : Prop :=
  s.loopsRunning = false ∧ (c = .receive → s.streamError = none)

/-- What a step can do to the loops and the handshakes. -/
inductive StartStep (s : LazyStream) (e : Event) (s' : LazyStream) : Prop
  | starts (i : Nat) (c : Call) (he : e = .call i c) (hstarts : s.Starts c)
      (hidle : s.calls i = .idle)
      (hcalls : s'.calls = Function.update s.calls i (.handshaking c))
      (hreceive : s'.receiveLoops = insert i s.receiveLoops)
      (htimeout : s'.timeoutLoops = insert i s.timeoutLoops)
      (hchunks : s'.receiveChunksLoops = s.receiveChunksLoops)
  | runs (i : Nat) (frame : CallFrame) (he : e = .resumeStartLoops i none) (hstarting : s.Starting i)
      (hframe : frame ≠ .idle ∧ ∀ c, frame ≠ .handshaking c)
      (hcalls : s'.calls = Function.update s.calls i frame)
      (hreceive : s'.receiveLoops = s.receiveLoops) (htimeout : s'.timeoutLoops = s.timeoutLoops)
      (hchunks : s'.receiveChunksLoops = insert i s.receiveChunksLoops)
  | quiet (hcall : ∀ i c, e = .call i c → ¬ s.Starts c)
      (hruns : ∀ i, e ≠ .resumeStartLoops i none)
      (hcalls : ∀ j c, s'.calls j = .handshaking c → s.calls j = .handshaking c)
      (hidle : ∀ j, s'.calls j = .idle → s.calls j = .idle)
      (hreceive : s'.receiveLoops ⊆ s.receiveLoops) (htimeout : s'.timeoutLoops ⊆ s.timeoutLoops)
      (hchunks : s'.receiveChunksLoops ⊆ s.receiveChunksLoops)

/-- The two states agree on the loops and the calls. -/
structure SameLoops (s s' : LazyStream) : Prop where
  calls : s'.calls = s.calls
  receive : s'.receiveLoops = s.receiveLoops
  timeout : s'.timeoutLoops = s.timeoutLoops
  chunks : s'.receiveChunksLoops = s.receiveChunksLoops

theorem sameLoops_handleLoopResult (ec : Option Error) (s : LazyStream) :
    SameLoops s (s.handleLoopResult ec) := by
  unfold handleLoopResult storeLoopError
  repeat' split
  all_goals exact ⟨rfl, rfl, rfl, rfl⟩

theorem sameLoops_handleReceiveChunksResult (ec : Option Error) (s : LazyStream) :
    SameLoops s (s.handleReceiveChunksResult ec) := by
  unfold handleReceiveChunksResult storeStreamError
  repeat' split
  all_goals exact ⟨rfl, rfl, rfl, rfl⟩

/-- A call that goes on elsewhere than to the handshake. -/
theorem quiet_goTo {s s' : LazyStream} {e : Event} {i : Nat} {frame : CallFrame}
    (hcall : ∀ i c, e = .call i c → ¬ s.Starts c) (hruns : ∀ i, e ≠ .resumeStartLoops i none)
    (hframe : frame ≠ .idle ∧ ∀ c, frame ≠ .handshaking c)
    (hcalls : s'.calls = Function.update s.calls i frame)
    (hreceive : s'.receiveLoops = s.receiveLoops) (htimeout : s'.timeoutLoops = s.timeoutLoops)
    (hchunks : s'.receiveChunksLoops = s.receiveChunksLoops) : StartStep s e s' := by
  refine .quiet hcall hruns ?_ ?_ hreceive.subset htimeout.subset hchunks.subset
  · intro j c hj
    rw [hcalls] at hj
    by_cases hji : j = i
    · rw [hji, Function.update_self] at hj
      exact absurd hj (hframe.2 c)
    · rwa [Function.update_of_ne hji] at hj
  · intro j hj
    rw [hcalls] at hj
    by_cases hji : j = i
    · rw [hji, Function.update_self] at hj
      exact absurd hj hframe.1
    · rwa [Function.update_of_ne hji] at hj

/-- A step that only takes loops away. -/
theorem quiet_of_calls {s s' : LazyStream} {e : Event}
    (hcall : ∀ i c, e ≠ .call i c) (hruns : ∀ i, e ≠ .resumeStartLoops i none)
    (hcalls : s'.calls = s.calls)
    (hreceive : s'.receiveLoops ⊆ s.receiveLoops) (htimeout : s'.timeoutLoops ⊆ s.timeoutLoops)
    (hchunks : s'.receiveChunksLoops ⊆ s.receiveChunksLoops) : StartStep s e s' :=
  .quiet (fun i c he => absurd he (hcall i c)) hruns (fun j c hj => by rwa [hcalls] at hj)
    (fun j hj => by rwa [hcalls] at hj) hreceive htimeout hchunks

theorem quiet_of_same {s s' s'' : LazyStream} {e : Event}
    (hcall : ∀ i c, e ≠ .call i c) (hruns : ∀ i, e ≠ .resumeStartLoops i none)
    (h : SameLoops s' s'') (hcalls : s'.calls = s.calls)
    (hreceive : s'.receiveLoops = s.receiveLoops) (htimeout : s'.timeoutLoops = s.timeoutLoops)
    (hchunks : s'.receiveChunksLoops = s.receiveChunksLoops) : StartStep s e s'' :=
  quiet_of_calls hcall hruns (h.calls.trans hcalls) (h.receive.trans hreceive).subset
    (h.timeout.trans htimeout).subset (h.chunks.trans hchunks).subset

/-- Where `proceed` leads. -/
theorem proceed_eq (i : Nat) (c : Call) (s : LazyStream) : ∃ frame ready out,
    s.proceed i c = ({ s with readyChunks := ready }.goTo i frame, out) ∧
      frame ≠ .idle ∧ ∀ c', frame ≠ .handshaking c' := by
  unfold proceed fail
  split
  · split_ifs
    · exact ⟨_, s.readyChunks, _, rfl, by simp, by simp⟩
    · exact ⟨_, s.readyChunks, _, rfl, by simp, by simp⟩
  · exact ⟨_, _, _, rfl, by simp, by simp⟩

theorem fail_eq (i : Nat) (c : Call) (ec : Error) (s : LazyStream) :
    (s.fail i c ec).1 = s.goTo i .returned := by
  unfold fail
  split <;> rfl

/-- The three ways a call can begin. -/
theorem call_cases (i : Nat) (c : Call) (s : LazyStream) :
    (∃ ec, c = .receive ∧ s.streamError = some ec ∧ s.call i c = s.fail i c ec) ∨
    (s.Starts c ∧ s.call i c = s.callStartLoops i c) ∨
    (s.loopsRunning = true ∧ s.call i c = s.proceed i c) := by
  have hensure : (c = .receive → s.streamError = none) → s.call i c = s.ensureLoops i c →
      s.Starts c ∧ s.call i c = s.callStartLoops i c ∨
        s.loopsRunning = true ∧ s.call i c = s.proceed i c := by
    intro hopen hcall
    rw [hcall, ensureLoops]
    by_cases hrunning : s.loopsRunning = false
    · exact Or.inl ⟨⟨hrunning, hopen⟩, if_pos hrunning⟩
    · exact Or.inr ⟨by simpa using hrunning, if_neg hrunning⟩
  cases c with
  | send data => exact Or.inr (hensure (by simp) rfl)
  | receive =>
      cases herror : s.streamError with
      | some ec => exact Or.inl ⟨ec, rfl, rfl, by rw [call, herror]⟩
      | none => exact Or.inr (hensure (fun _ => herror) (by rw [call, herror]))

/-- **What a step can do** to the loops and the handshakes. -/
theorem startStep {s s' : LazyStream} {e : Event} {out : List Observation}
    (hs : s.step e = some (s', out)) : StartStep s e s' := by
  cases e with
  | call i c =>
      rw [step] at hs
      split at hs
      case h_2 => cases hs
      rename_i hidle
      rcases call_cases i c s with ⟨ec, rfl, herror, hcall⟩ | ⟨hstarts, hcall⟩ | ⟨hrunning, hcall⟩
      · have hnot : ∀ j d, Event.call i .receive = .call j d → ¬ s.Starts d := by
          rintro j d he ⟨-, hnone⟩
          obtain ⟨-, rfl⟩ := Event.call.inj he
          rw [hnone rfl] at herror
          cases herror
        obtain rfl : s' = s.goTo i .returned := by
          rw [← fail_eq i .receive ec s, ← hcall, Option.some.inj hs]
        exact quiet_goTo hnot (by simp) ⟨by simp, by simp⟩ rfl rfl rfl rfl
      · rw [hcall] at hs
        obtain ⟨rfl, -⟩ := Prod.mk.inj (Option.some.inj hs)
        exact .starts i c rfl hstarts hidle rfl rfl rfl rfl
      · have hnot : ∀ j d, Event.call i c = .call j d → ¬ s.Starts d := by
          rintro j d - ⟨hstopped, -⟩
          rw [hrunning] at hstopped
          cases hstopped
        obtain ⟨frame, ready, more, hproceed, hframe⟩ := proceed_eq i c s
        rw [hcall, hproceed] at hs
        obtain ⟨rfl, -⟩ := Prod.mk.inj (Option.some.inj hs)
        exact quiet_goTo hnot (by simp) hframe rfl rfl rfl rfl
  | resumeStartLoops i ec =>
      rw [step] at hs
      split at hs
      case h_2 => cases hs
      rename_i c hstarting
      cases ec with
      | some ec =>
          obtain rfl : s' = s.goTo i .returned := by
            rw [← fail_eq i c ec s]
            exact (congrArg Prod.fst (Option.some.inj hs)).symm
          exact quiet_goTo (by simp) (by simp) ⟨by simp, by simp⟩ rfl rfl rfl rfl
      | none =>
          obtain ⟨frame, ready, more, hproceed, hframe⟩ := proceed_eq i c
            { s with
              loopsRunning := true
              receiveChunksLoops := insert i s.receiveChunksLoops }
          rw [resumeStartLoops, hproceed] at hs
          obtain ⟨rfl, -⟩ := Prod.mk.inj (Option.some.inj hs)
          exact .runs i frame rfl ⟨c, hstarting⟩ hframe rfl rfl rfl rfl
  | resumeSend i outcome =>
      rw [step] at hs
      split at hs
      case h_2 => cases hs
      unfold resumeSend at hs
      split at hs <;> obtain ⟨rfl, -⟩ := Prod.mk.inj (Option.some.inj hs)
      · exact quiet_goTo (by simp) (by simp) ⟨by simp, by simp⟩ rfl rfl rfl rfl
      · exact quiet_of_calls (by simp) (by simp) rfl subset_rfl subset_rfl subset_rfl
      · exact quiet_goTo (by simp) (by simp) ⟨by simp, by simp⟩ rfl rfl rfl rfl
      · exact quiet_goTo (by simp) (by simp) ⟨by simp, by simp⟩ rfl rfl rfl rfl
  | finishSend i ec =>
      rw [step] at hs
      split at hs
      case h_2 => cases hs
      obtain ⟨rfl, -⟩ := Prod.mk.inj (Option.some.inj hs)
      exact quiet_goTo (by simp) (by simp) ⟨by simp, by simp⟩ rfl rfl rfl rfl
  | resumeReceive i =>
      rw [step] at hs
      split at hs
      case h_2 => cases hs
      obtain ⟨r, -, hr⟩ := Option.map_eq_some_iff.mp hs
      obtain ⟨rfl, -⟩ := Prod.mk.inj hr
      exact quiet_goTo (by simp) (by simp) ⟨by simp, by simp⟩ rfl rfl rfl rfl
  | pushChunk chunk =>
      rw [step] at hs
      split_ifs at hs
      obtain ⟨rfl, -⟩ := Prod.mk.inj (Option.some.inj hs)
      exact quiet_of_calls (by simp) (by simp) rfl subset_rfl subset_rfl subset_rfl
  | receiveLoopReturns i ec =>
      rw [step] at hs
      split_ifs at hs
      obtain ⟨rfl, -⟩ := Prod.mk.inj (Option.some.inj hs)
      exact quiet_of_calls (by simp) (by simp) rfl (Finset.erase_subset _ _) subset_rfl subset_rfl
  | timeoutLoopReturns i ec =>
      rw [step] at hs
      split_ifs at hs
      obtain ⟨rfl, -⟩ := Prod.mk.inj (Option.some.inj hs)
      exact quiet_of_calls (by simp) (by simp) rfl subset_rfl (Finset.erase_subset _ _) subset_rfl
  | receiveChunksLoopReturns i ec =>
      rw [step] at hs
      split_ifs at hs
      obtain ⟨rfl, -⟩ := Prod.mk.inj (Option.some.inj hs)
      exact quiet_of_calls (by simp) (by simp) rfl subset_rfl subset_rfl (Finset.erase_subset _ _)
  | loopResult ec =>
      rw [step] at hs
      split_ifs at hs
      obtain ⟨rfl, -⟩ := Prod.mk.inj (Option.some.inj hs)
      exact quiet_of_same (by simp) (by simp) (sameLoops_handleLoopResult ec _) rfl rfl rfl rfl
  | receiveChunksResult ec =>
      rw [step] at hs
      split_ifs at hs
      obtain ⟨rfl, -⟩ := Prod.mk.inj (Option.some.inj hs)
      exact quiet_of_same (by simp) (by simp) (sameLoops_handleReceiveChunksResult ec _) rfl rfl rfl
        rfl
  | close | resumeClose | stopLoops | finishClose =>
      rw [step] at hs
      split at hs
      case h_2 => cases hs
      obtain ⟨rfl, -⟩ := Prod.mk.inj (Option.some.inj hs)
      exact quiet_of_calls (by simp) (by simp) rfl subset_rfl subset_rfl subset_rfl

/-! ## At most one of each -/

/-- At most one handshake is in progress, and at most one loop of each kind is alive. -/
structure Single (s : LazyStream) : Prop where
  handshake : ∀ i j, s.Starting i → s.Starting j → i = j
  receive : s.receiveLoops.card ≤ 1
  timeout : s.timeoutLoops.card ≤ 1
  chunks : s.receiveChunksLoops.card ≤ 1

/-- A loop is known by a call that has been made, and `receive_chunks_loop` by one
whose handshake is over. -/
structure Named (s : LazyStream) : Prop where
  made : ∀ i, s.calls i = .idle →
    i ∉ s.receiveLoops ∧ i ∉ s.timeoutLoops ∧ i ∉ s.receiveChunksLoops
  started : ∀ i, s.Starting i → i ∉ s.receiveChunksLoops

/-- The condition on a step: `start_loops` is entered only when no handshake is in
progress and the loops of the transport have ended, and a handshake succeeds only when
`receive_chunks_loop` has. -/
def StartsAlone (s : LazyStream) : Event → Prop
  | .call _ c => s.Starts c →
      (∀ j, ¬ s.Starting j) ∧ s.receiveLoops = ∅ ∧ s.timeoutLoops = ∅
  | .resumeStartLoops _ none => s.receiveChunksLoops = ∅
  | _ => True

/-- The step leads to a state with at most one of each. -/
def KeepsSingle (s : LazyStream) (e : Event) : Prop := ∀ r ∈ s.step e, r.1.Single

theorem card_insert_le_one {s : Finset Nat} {i : Nat} (hi : i ∉ s) :
    (insert i s).card ≤ 1 ↔ s = ∅ := by
  rw [Finset.card_insert_of_notMem hi, ← Finset.card_eq_zero]
  omega

theorem Named.step {s s' : LazyStream} {e : Event} {out : List Observation} (h : s.Named)
    (hs : s.step e = some (s', out)) : s'.Named := by
  cases startStep hs with
  | starts i c he hstarts hidle hcalls hreceive htimeout hchunks =>
      constructor
      · intro j hj
        have hne : j ≠ i := by
          rintro rfl
          rw [hcalls, Function.update_self] at hj
          cases hj
        rw [hcalls, Function.update_of_ne hne] at hj
        obtain ⟨hr, ht, hc⟩ := h.made j hj
        rw [hreceive, htimeout, hchunks]
        exact ⟨by simp [hne, hr], by simp [hne, ht], hc⟩
      · rintro j ⟨d, hj⟩
        rw [hchunks]
        by_cases hji : j = i
        · rw [hji]
          exact (h.made i hidle).2.2
        · rw [hcalls, Function.update_of_ne hji] at hj
          exact h.started j ⟨d, hj⟩
  | runs i frame he hstarting hframe hcalls hreceive htimeout hchunks =>
      constructor
      · intro j hj
        have hne : j ≠ i := by
          rintro rfl
          rw [hcalls, Function.update_self] at hj
          exact hframe.1 hj
        rw [hcalls, Function.update_of_ne hne] at hj
        obtain ⟨hr, ht, hc⟩ := h.made j hj
        rw [hreceive, htimeout, hchunks]
        exact ⟨hr, ht, by simp [hne, hc]⟩
      · rintro j ⟨d, hj⟩
        have hne : j ≠ i := by
          rintro rfl
          rw [hcalls, Function.update_self] at hj
          exact hframe.2 d hj
        rw [hcalls, Function.update_of_ne hne] at hj
        rw [hchunks]
        simp [hne, h.started j ⟨d, hj⟩]
  | quiet hcall hruns hcalls hidle hreceive htimeout hchunks =>
      constructor
      · intro j hj
        obtain ⟨hr, ht, hc⟩ := h.made j (hidle j hj)
        exact ⟨fun hmem => hr (hreceive hmem), fun hmem => ht (htimeout hmem),
          fun hmem => hc (hchunks hmem)⟩
      · rintro j ⟨d, hj⟩ hmem
        exact h.started j ⟨d, hcalls j d hj⟩ (hchunks hmem)

/-- **One step**: from a state with at most one of each it leads to another if and only
if it meets the condition. -/
theorem keepsSingle_iff {s : LazyStream} (h : s.Single) (hnamed : s.Named) {e : Event}
    {r : LazyStream × List Observation} (hs : s.step e = some r) :
    r.1.Single ↔ s.StartsAlone e := by
  cases startStep (show s.step e = some (r.1, r.2) from hs) with
  | starts i c he hstarts hidle hcalls hreceive htimeout hchunks =>
      obtain ⟨hr, ht, -⟩ := hnamed.made i hidle
      have hi : r.1.Starting i := ⟨c, by rw [hcalls, Function.update_self]⟩
      have hother : ∀ j, j ≠ i → (r.1.Starting j ↔ s.Starting j) := by
        intro j hne
        rw [Starting, Starting, hcalls, Function.update_of_ne hne]
      have hni : ¬ s.Starting i := by
        rintro ⟨d, hd⟩
        rw [hidle] at hd
        cases hd
      rw [he]
      constructor
      · intro h' _
        refine ⟨fun j hj => ?_, ?_, ?_⟩
        · by_cases hji : j = i
          · exact hni (hji ▸ hj)
          · exact hji (h'.handshake j i ((hother j hji).mpr hj) hi)
        · exact (card_insert_le_one hr).mp (hreceive ▸ h'.receive)
        · exact (card_insert_le_one ht).mp (htimeout ▸ h'.timeout)
      · intro halone
        obtain ⟨hnone, hreceives, htimeouts⟩ := halone hstarts
        refine ⟨?_, ?_, ?_, hchunks ▸ h.chunks⟩
        · have honly : ∀ j, r.1.Starting j → j = i := fun j hj => by
            by_contra hji
            exact hnone j ((hother j hji).mp hj)
          intro j k hj hk
          rw [honly j hj, honly k hk]
        · rw [hreceive]
          exact (card_insert_le_one hr).mpr hreceives
        · rw [htimeout]
          exact (card_insert_le_one ht).mpr htimeouts
  | runs i frame he hstarting hframe hcalls hreceive htimeout hchunks =>
      have hc : i ∉ s.receiveChunksLoops := hnamed.started i hstarting
      rw [he]
      constructor
      · intro h'
        exact (card_insert_le_one hc).mp (hchunks ▸ h'.chunks)
      · intro halone
        refine ⟨?_, hreceive ▸ h.receive, htimeout ▸ h.timeout, ?_⟩
        · have hold : ∀ j, r.1.Starting j → s.Starting j := by
            rintro j ⟨d, hj⟩
            by_cases hji : j = i
            · rw [hji]
              exact hstarting
            · exact ⟨d, by rwa [hcalls, Function.update_of_ne hji] at hj⟩
          exact fun j k hj hk => h.handshake j k (hold j hj) (hold k hk)
        · rw [hchunks]
          exact (card_insert_le_one hc).mpr halone
  | quiet hcall hruns hcalls hidle hreceive htimeout hchunks =>
      have hold : ∀ j, r.1.Starting j → s.Starting j := fun j ⟨d, hj⟩ => ⟨d, hcalls j d hj⟩
      have halone : s.StartsAlone e := by
        cases e with
        | call i c => exact fun hstarts => absurd hstarts (hcall i c rfl)
        | resumeStartLoops i ec =>
            cases ec with
            | none => exact absurd rfl (hruns i)
            | some ec => trivial
        | _ => trivial
      refine ⟨fun _ => halone, fun _ => ⟨?_, ?_, ?_, ?_⟩⟩
      · exact fun j k hj hk => h.handshake j k (hold j hj) (hold k hk)
      · exact (Finset.card_le_card hreceive).trans h.receive
      · exact (Finset.card_le_card htimeout).trans h.timeout
      · exact (Finset.card_le_card hchunks).trans h.chunks

theorem named_start : Named {} :=
  ⟨fun _ _ => ⟨Finset.notMem_empty _, Finset.notMem_empty _, Finset.notMem_empty _⟩,
    fun _ _ => Finset.notMem_empty _⟩

theorem single_start : Single {} :=
  ⟨fun _ _ ⟨_, h⟩ => (by cases h), by decide, by decide, by decide⟩

/-- The run lemma, for every guard under which a step keeps `Single`. -/
theorem single_of_run {ok : LazyStream → Event → Prop}
    (hok : ∀ (s : LazyStream) (e : Event), s.Single → s.Named → ok s e → s.KeepsSingle e)
    {tr : List Observation} {s : LazyStream} (hrun : Transition.Run step ok {} tr s) :
    s.Single ∧ s.Named := by
  refine hrun.invariant (I := fun _ s => s.Single ∧ s.Named) ⟨single_start, named_start⟩ ?_
  intro _ s e s' out h he hs
  exact ⟨hok s e h.1 h.2 he _ hs, h.2.step hs⟩

theorem keepsSingle_of_startsAlone (s : LazyStream) (e : Event) (hsingle : s.Single)
    (hnamed : s.Named) (he : s.StartsAlone e) : s.KeepsSingle e :=
  fun _ hs => (keepsSingle_iff hsingle hnamed hs).mpr he

/-- **Single start.**  In every run whose steps all meet the condition there is at most
one handshake in progress and at most one loop of each kind alive, in every state; and
these are the only runs in which this is so after every step. -/
theorem single_start_iff (tr : List Observation) (s : LazyStream) :
    (Transition.Run step StartsAlone {} tr s → s.Single) ∧
      (Transition.Run step KeepsSingle {} tr s ↔ Transition.Run step StartsAlone {} tr s) := by
  refine ⟨fun hrun => (single_of_run keepsSingle_of_startsAlone hrun).1, ?_, ?_⟩
  · intro hrun
    induction hrun with
    | start => exact .start
    | next hbefore hok hs ih =>
        obtain ⟨hsingle, hnamed⟩ := single_of_run (fun _ _ _ _ h => h) hbefore
        exact ih.next ((keepsSingle_iff hsingle hnamed hs).mp (hok _ hs)) hs
  · intro hrun
    induction hrun with
    | start => exact .start
    | next hbefore hok hs ih =>
        obtain ⟨hsingle, hnamed⟩ := single_of_run keepsSingle_of_startsAlone hbefore
        exact ih.next (keepsSingle_of_startsAlone _ _ hsingle hnamed hok) hs

/-- A call of `send` starts the loops, its handshake succeeds, and the next call finds
them running. -/
theorem single_start_iff_once : ∃ tr s, Transition.Run step StartsAlone {} tr s ∧ s.Single ∧
    s.receiveLoops = {0} ∧ s.timeoutLoops = {0} ∧ s.receiveChunksLoops = {0} := by
  have hstart : StartsAlone {} (.call 0 (.send [65])) :=
    fun _ => ⟨fun _ ⟨_, h⟩ => (by cases h), rfl, rfl⟩
  have hcall : step {} (.call 0 (.send [65])) = some _ := rfl
  have hfirst := Transition.Run.single hstart hcall
  have hshook := hfirst.next (e := Event.resumeStartLoops 0 none) rfl rfl
  have hrun := hshook.next (e := Event.call 1 .receive) (fun h => absurd h.1 (by decide)) rfl
  exact ⟨_, _, hrun, (single_start_iff _ _).1 hrun, by decide, by decide, by decide⟩

/-- **Two starts.**  Two calls made one after the other, before a handshake has
succeeded, start two handshakes and two loops of each kind. -/
theorem started_twice : ∃ tr s, Transition.Run step Transition.Always {} tr s ∧
    s.Starting 0 ∧ s.Starting 1 ∧ s.receiveLoops.card = 2 ∧ s.timeoutLoops.card = 2 ∧
    ¬ s.Single := by
  have hcall : step {} (.call 0 (.send [65])) = some _ := rfl
  have hfirst := @Transition.Run.single _ _ _ step Transition.Always {} _ _ _ trivial hcall
  have hrun := hfirst.next (e := Event.call 1 .receive) trivial rfl
  refine ⟨_, _, hrun, ⟨_, rfl⟩, ⟨_, rfl⟩, by decide, by decide, fun h => ?_⟩
  exact absurd (h.handshake 0 1 ⟨_, rfl⟩ ⟨_, rfl⟩) (by decide)

end LazyStream
end FileHopZ

import FileHopZ.Protohopz.ColdStart

/-! # Two programs and their streams

A `Program` is a coroutine that uses one stream: what it asks of the stream next, and how it
goes on with what a call returns.  A `Dialogue` is two programs with the session of their
streams.  A program makes one call at a time and waits for it; its first call runs `start_loops`
before anything else.  Everything else -- the network, the clocks, which coroutine goes on, what
the programs get from elsewhere -- is as it comes.

A call that would start the loops a second time, after an error has stopped the stream, is no
step.
-/
namespace FileHopZ

/-- What a program asks of its stream. -/
inductive Request
  | send (data : Bytes)
  | receive
  | close
  /-- It waits for something else, or has returned. -/
  | nothing
  deriving DecidableEq

/-- What a call of the stream returns. -/
inductive Response
  | sent (ec : Option Error)
  | received (result : Except Error Chunk)
  | closed (ec : Option Error)
  deriving DecidableEq

/-- A coroutine that uses a stream.  An event may deliver the response of a call; what else the
program gets at that moment is part of the event. -/
structure Program where
  State : Type
  Event : Type
  step : State → Event → Option State
  request : State → Request
  response : Event → Option Response
  /-- A program whose `send` has failed returns. -/
  stops : ∀ s e s' ec, step s e = some s' → response e = some (.sent (some ec)) →
    request s' = .nothing ∧ ∀ e', step s' e' = none

/-- Where a program is with its call. -/
inductive ProgramFrame
  | idle
  /-- In `start_loops`, which its first call has called. -/
  | starting
  | sending (i : Nat)
  | receiving (i : Nat)
  | closing
  /-- The call has returned, and the program has not gone on yet. -/
  | returned (response : Response)
  deriving DecidableEq

/-- Two programs with the session of their streams. -/
structure Dialogue (P : Primitives) (program : Role → Program) where
  session : Session P
  state : ∀ side, (program side).State
  call : Role → ProgramFrame := fun _ => .idle

namespace Dialogue
variable {P : Primitives} {program : Role → Program}

/-- What a step shows. -/
inductive Observation
  | stream (o : ProtoStream.Observation)
  /-- The program has called `send` with data that fits. -/
  | asked (data : Bytes)
  /-- The program has gone on with what its call has returned. -/
  | took (response : Response)

/-- What can happen. -/
inductive Event (P : Primitives) (program : Role → Program)
  | stream (side : Role) (e : ProtoStream.Event P)
  | program (side : Role) (e : (program side).Event)

/-- A request that starts the stream if it does not run. -/
def starts : Request → Bool
  | .send _ | .receive => true
  | _ => false

/-- The calls of a stream are those that its program makes: one at a time. -/
def admits (call : ProgramFrame) (request : Request) : ProtoStream.Event P → Bool
  | .callStartLoops _ _ _ _ => decide (call = .idle ∧ starts request = true)
  | .send _ data => decide (call = .idle ∧ request = .send data)
  | .receive _ => decide (call = .idle ∧ request = .receive)
  | .close => decide (call = .idle ∧ request = .close)
  | _ => true

/-- The call that a program is in when its stream has begun to move. -/
def begun (call : ProgramFrame) : ProtoStream.Event P → ProgramFrame
  | .callStartLoops _ _ _ _ => .starting
  | .send i _ => .sending i
  | .receive i => .receiving i
  | .close => .closing
  | _ => call

/-- What the call `start_loops` was called by returns when `start_loops` has failed. -/
def unstarted (ec : Error) : Request → Response
  | .receive => .received (.error ec)
  | _ => .sent (some ec)

/-- The observation with which a call returns. -/
def responseIn (call : ProgramFrame) (o : ProtoStream.Observation) : Option Response :=
  match call, o with
  | .sending i, .rejected j ec => if i = j then some (.sent (some ec)) else none
  | .sending i, .transport (.returned j ec) => if i = j then some (.sent ec) else none
  | .receiving i, .received j result => if i = j then some (.received result) else none
  | .closing, .closed ec => some (.closed ec)
  | _, _ => none

/-- Where a program is with its call when its stream has moved. -/
def advance (call : ProgramFrame) (request : Request) (e : ProtoStream.Event P)
    (start : StartFrame) (out : List ProtoStream.Observation) : ProgramFrame :=
  match begun call e with
  | .starting =>
      match start with
      | .returned none => .idle
      | .returned (some ec) => .returned (unstarted ec request)
      | _ => .starting
  | call =>
      match out.findSome? (responseIn call) with
      | some response => .returned response
      | none => call

/-- The data that the event passes to `send`, if the stream does not turn it down. -/
def askedData : ProtoStream.Event P → List Observation
  | .send _ data => if packetPayloadSize < data.length then [] else [.asked data]
  | _ => []

/-- The step function. -/
def step (d : Dialogue P program) :
    Event P program → Option (Dialogue P program × List (Role × Observation))
  | .stream side e =>
      if admits (d.call side) ((program side).request (d.state side)) e then
        (d.session.step (side, e)).map fun r =>
          ({ d with
              session := r.1
              call := Function.update d.call side (advance (d.call side)
                ((program side).request (d.state side)) e (r.1.stream side).startLoops
                (r.2.map Prod.snd)) },
            (askedData e ++ r.2.map fun o => .stream o.2).map (side, ·))
      else none
  | .program side e =>
      match (program side).response e, (program side).step (d.state side) e with
      | none, some s =>
          if d.call side = .idle then
            some ({ d with state := Function.update d.state side s }, [])
          else none
      | some response, some s =>
          if d.call side = .returned response then
            some ({ d with
                state := Function.update d.state side s
                call := Function.update d.call side .idle }, [(side, .took response)])
          else none
      | _, none => none

/-- Two programs at the start, over two streams that have been constructed. -/
def construct (P : Primitives) (program : Role → Program) (address : Role → Endpoint)
    (start : ∀ side, (program side).State) : Dialogue P program where
  session := .construct P address
  state := start

/-! ## What has been observed -/

/-- What one side showed. -/
def shown (side : Role) (tr : List (Role × Observation)) : List Observation :=
  tr.filterMap fun o => if o.1 = side then some o.2 else none

/-- What the session showed. -/
def sessionShown (tr : List (Role × Observation)) : List (Role × ProtoStream.Observation) :=
  tr.filterMap fun
    | (side, .stream o) => some (side, o)
    | _ => none

/-- The data that the program has passed to `send`. -/
def asked (out : List Observation) : List Bytes :=
  out.filterMap fun
    | .asked data => some data
    | _ => none

/-- The chunks with which the program has gone on. -/
def got (out : List Observation) : List Chunk :=
  out.filterMap fun
    | .took (.received (.ok chunk)) => some chunk
    | _ => none

section Trace
variable (side : Role) (tr more : List (Role × Observation)) (a b out : List Observation)

@[simp] theorem asked_append : asked (a ++ b) = asked a ++ asked b := List.filterMap_append
@[simp] theorem got_append : got (a ++ b) = got a ++ got b := List.filterMap_append
@[simp] theorem asked_nil : asked [] = [] := rfl
@[simp] theorem got_nil : got [] = [] := rfl

@[simp] theorem sessionShown_append :
    sessionShown (tr ++ more) = sessionShown tr ++ sessionShown more := List.filterMap_append

@[simp] theorem asked_streams (shown : List ProtoStream.Observation) :
    asked (shown.map .stream) = [] := by
  simp [asked]

@[simp] theorem got_streams (shown : List ProtoStream.Observation) :
    got (shown.map .stream) = [] := by
  simp [got]

theorem shown_append_self : shown side (tr ++ out.map (side, ·)) = shown side tr ++ out := by
  simp [shown, List.filterMap_append, List.filterMap_map]

theorem shown_append_of_ne {side mover : Role} (h : mover ≠ side)
    (tr : List (Role × Observation)) (out : List Observation) :
    shown side (tr ++ out.map (mover, ·)) = shown side tr := by
  simp [shown, List.filterMap_append, List.filterMap_map, h]

/-- The session shows what the stream that moves shows. -/
theorem sessionShown_stream (e : ProtoStream.Event P) (shown : List ProtoStream.Observation) :
    sessionShown ((askedData e ++ shown.map Observation.stream).map (side, ·)) =
      shown.map (side, ·) := by
  have hasked : sessionShown ((askedData e).map (side, ·)) = [] := by
    unfold askedData
    split
    · split_ifs
      · rfl
      · rfl
    · rfl
  rw [List.map_append, sessionShown_append, hasked, List.nil_append]
  simp [sessionShown, List.filterMap_map, Function.comp_def]

end Trace

/-! ## Steps -/

/-- What a step of a stream is. -/
theorem step_stream {d d' : Dialogue P program} {side : Role} {e : ProtoStream.Event P}
    {out : List (Role × Observation)} (hs : d.step (.stream side e) = some (d', out)) :
    ∃ shown, admits (d.call side) ((program side).request (d.state side)) e = true ∧
      d.session.step (side, e) = some (d'.session, shown.map (side, ·)) ∧
      (d.session.stream side).step e = some (d'.session.stream side, shown) ∧
      d'.state = d.state ∧
      d'.call = Function.update d.call side (advance (d.call side)
        ((program side).request (d.state side)) e (d'.session.stream side).startLoops shown) ∧
      out = (askedData e ++ shown.map Observation.stream).map (side, ·) := by
  simp only [step] at hs
  split_ifs at hs with hadmits
  obtain ⟨⟨session', shown'⟩, hstep, heq⟩ := Option.map_eq_some_iff.mp hs
  obtain ⟨rfl, rfl⟩ := Prod.mk.inj heq.symm
  obtain ⟨shown, hmove, rfl, -⟩ := Session.step_eq hstep
  have hsnd : (shown.map (side, ·)).map Prod.snd = shown := by
    rw [List.map_map]
    exact List.map_id _
  refine ⟨shown, hadmits, hstep, hmove, rfl, ?_, ?_⟩
  · rw [hsnd]
  · rw [List.map_map]
    rfl

/-- What a step of a program is. -/
theorem step_program {d d' : Dialogue P program} {side : Role} {e : (program side).Event}
    {out : List (Role × Observation)} (hs : d.step (.program side e) = some (d', out)) :
    ∃ s, (program side).step (d.state side) e = some s ∧ d'.session = d.session ∧
      d'.state = Function.update d.state side s ∧
      ((program side).response e = none ∧ d.call side = .idle ∧ d'.call = d.call ∧ out = [] ∨
        ∃ response, (program side).response e = some response ∧
          d.call side = .returned response ∧ d'.call = Function.update d.call side .idle ∧
          out = [(side, .took response)]) := by
  simp only [step] at hs
  split at hs
  · rename_i s hresponse hstep
    split_ifs at hs with hcall
    obtain ⟨rfl, rfl⟩ := Prod.mk.inj (Option.some.inj hs).symm
    exact ⟨s, hstep, rfl, rfl, Or.inl ⟨hresponse, hcall, rfl, rfl⟩⟩
  · rename_i response s hresponse hstep
    split_ifs at hs with hcall
    obtain ⟨rfl, rfl⟩ := Prod.mk.inj (Option.some.inj hs).symm
    exact ⟨s, hstep, rfl, rfl, Or.inr ⟨response, hresponse, hcall, rfl, rfl⟩⟩
  · cases hs


end Dialogue
end FileHopZ

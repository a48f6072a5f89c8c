import FileHopZ.Dialogue.Receives

/-! # Two programs over their streams

Put together: what a program has gone on with is a first part of what the other one has passed to
`send`, chunk by chunk, whatever the two programs are.
-/
namespace FileHopZ
namespace Dialogue
variable {P : Primitives} {program : Role → Program}
open ProtoStream

/-- The runs that are followed: the session is orderly, and the programs are free. -/
def Fair (address : Role → Endpoint) (d : Dialogue P program) : Event P program → Prop
  | .stream side e => d.session.Orderly address (side, e)
  | .program _ _ => True

instance (address : Role → Endpoint) (d : Dialogue P program) (e : Event P program) :
    Decidable (Fair address d e) :=
  match e with
  | .stream side e => inferInstanceAs (Decidable (d.session.Orderly address (side, e)))
  | .program _ _ => inferInstanceAs (Decidable True)

/-- What the stream of a side has shown. -/
def streamShown (side : Role) (tr : List (Role × Observation)) : List ProtoStream.Observation :=
  Session.shown side (sessionShown tr)

section Shown
variable {tr : List (Role × Observation)} (side : Role) (e : ProtoStream.Event P)
  (shown' : List ProtoStream.Observation)

theorem streamShown_self :
    streamShown side (tr ++ (askedData e ++ shown'.map Observation.stream).map (side, ·)) =
      streamShown side tr ++ shown' := by
  rw [streamShown, sessionShown_append, sessionShown_stream, Session.shown_append_self]
  rfl

theorem streamShown_other :
    streamShown side.peer (tr ++ (askedData e ++ shown'.map Observation.stream).map (side, ·)) =
      streamShown side.peer tr := by
  rw [streamShown, sessionShown_append, sessionShown_stream,
    Session.shown_append_of_ne (Role.peer_ne side).symm]
  rfl

/-- A stream shows nothing when a program goes on. -/
theorem streamShown_took (other : Role) (response : Response) :
    streamShown other (tr ++ [(side, .took response)]) = streamShown other tr := by
  rw [streamShown, sessionShown_append]
  exact congrArg (Session.shown other) (List.append_nil _)

end Shown

/-- What a step does to one side. -/
inductive SideStep (side : Role) (tr : List (Role × Observation)) (d : Dialogue P program) :
    Event P program → Dialogue P program → List (Role × Observation) → Prop
  | stream {e : ProtoStream.Event P} {d' : Dialogue P program} {out : List (Role × Observation)}
      (shown' : List ProtoStream.Observation)
      (hadmits : admits (d.call side) ((program side).request (d.state side)) e = true)
      (hmove : (d.session.stream side).step e = some (d'.session.stream side, shown'))
      (hstate : d'.state side = d.state side)
      (hcall : d'.call side = advance (d.call side) ((program side).request (d.state side)) e
        (d'.session.stream side).startLoops shown')
      (hshown : shown side (tr ++ out) =
        shown side tr ++ (askedData e ++ shown'.map Observation.stream))
      (hstream : streamShown side (tr ++ out) = streamShown side tr ++ shown') :
      SideStep side tr d (.stream side e) d' out
  | alone {e : (program side).Event} {d' : Dialogue P program} {out : List (Role × Observation)}
      (hstep : (program side).step (d.state side) e = some (d'.state side))
      (hresponse : (program side).response e = none) (hidle : d.call side = .idle)
      (hcall : d'.call side = .idle) (hsession : d'.session.stream side = d.session.stream side)
      (hshown : shown side (tr ++ out) = shown side tr)
      (hstream : streamShown side (tr ++ out) = streamShown side tr) :
      SideStep side tr d (.program side e) d' out
  | took {e : (program side).Event} {d' : Dialogue P program} {out : List (Role × Observation)}
      (response : Response) (hstep : (program side).step (d.state side) e = some (d'.state side))
      (hresponse : (program side).response e = some response)
      (hreturned : d.call side = .returned response) (hcall : d'.call side = .idle)
      (hsession : d'.session.stream side = d.session.stream side)
      (hshown : shown side (tr ++ out) = shown side tr ++ [.took response])
      (hstream : streamShown side (tr ++ out) = streamShown side tr) :
      SideStep side tr d (.program side e) d' out
  /-- The other side moves. -/
  | other {e : Event P program} {d' : Dialogue P program} {out : List (Role × Observation)}
      (hstate : d'.state side = d.state side) (hcall : d'.call side = d.call side)
      (hsession : d'.session.stream side = d.session.stream side)
      (hshown : shown side (tr ++ out) = shown side tr)
      (hstream : streamShown side (tr ++ out) = streamShown side tr) : SideStep side tr d e d' out

theorem side_step {tr out : List (Role × Observation)} {d d' : Dialogue P program}
    {e : Event P program} (hs : d.step e = some (d', out)) (side : Role) :
    SideStep side tr d e d' out := by
  cases e with
  | stream mover e =>
      obtain ⟨out', hadmits, hstep, hmove, hstate, hcall, rfl⟩ := step_stream hs
      rcases Role.eq_or_eq_peer side mover with rfl | rfl
      · exact .stream out' hadmits hmove (congrFun hstate side)
          (by rw [hcall, Function.update_self]) (shown_append_self side tr _)
          (streamShown_self side e out')
      · obtain ⟨-, -, -, hpeer, -, -⟩ := Session.step_eq hstep
        exact .other (congrFun hstate _) (by rw [hcall, Function.update_of_ne (Role.peer_ne mover)])
          hpeer (shown_append_of_ne (Role.peer_ne mover).symm tr _) (streamShown_other mover e out')
  | program mover e =>
      obtain ⟨s, hstep, hsession, hstate, hcase⟩ := step_program hs
      have hstream : d'.session.stream side = d.session.stream side := by rw [hsession]
      rcases Role.eq_or_eq_peer side mover with rfl | rfl
      · have hself : d'.state side = s := by rw [hstate, Function.update_self]
        rw [← hself] at hstep
        rcases hcase with ⟨hresponse, hidle, hcall, rfl⟩ | ⟨response, hresponse, hreturned, hcall, rfl⟩
        · exact .alone hstep hresponse hidle (by rw [hcall, hidle]) hstream (by rw [List.append_nil])
            (by rw [List.append_nil])
        · exact .took response hstep hresponse hreturned (by rw [hcall, Function.update_self]) hstream
            (shown_append_self side tr [.took response]) (streamShown_took side side response)
      · have hother : d'.state mover.peer = d.state mover.peer := by
          rw [hstate, Function.update_of_ne (Role.peer_ne mover)]
        rcases hcase with ⟨-, -, hcall, rfl⟩ | ⟨response, -, -, hcall, rfl⟩
        · exact .other hother (by rw [hcall]) hstream (by rw [List.append_nil])
            (by rw [List.append_nil])
        · exact .other hother (by rw [hcall, Function.update_of_ne (Role.peer_ne mover)]) hstream
            (shown_append_of_ne (Role.peer_ne mover).symm tr [.took response])
            (streamShown_took mover mover.peer response)

/-- **The invariant of two programs over their streams.** -/
structure Channel (tr : List (Role × Observation)) (d : Dialogue P program) : Prop where
  session : Session.ColdStarted (sessionShown tr) d.session
  sent : ∀ side, Sent (d.call side) (Stopped (program side) (d.state side))
    (payloads (streamShown side tr)) (asked (shown side tr)) (d.session.stream side).transport
  gets : ∀ side, Gets (d.call side) (chunks (streamShown side tr))
    (received (streamShown side tr)) (d.session.stream side)
  held : ∀ side, got (shown side tr) ++ (d.call side).held = received (streamShown side tr)

theorem channel_construct (address : Role → Endpoint) (start : ∀ side, (program side).State) :
    Channel [] (construct P program address start) where
  session := Session.coldStarted_construct address
  sent side := by
    refine .level rfl fun i p hi => ?_
    cases side with
    | initiator | responder => rcases hi with hi | hi <;> cases hi
  gets side := by
    cases side with
    | initiator => exact gets_construct _ _
    | responder => exact gets_construct _ _
  held side := rfl

section Step
variable {tr out : List (Role × Observation)} {d d' : Dialogue P program} {side : Role}

/-- A stream has moved. -/
theorem Channel.stream (hP : P.Lawful) {address : Role → Endpoint} (h : Channel tr d)
    {e : ProtoStream.Event P} (hfair : d.session.Orderly address (side, e))
    (hs : d.step (.stream side e) = some (d', out)) : Channel (tr ++ out) d' := by
  obtain ⟨out', hadmits, hstep, hmove, hstate, hcall, rfl⟩ := step_stream hs
  obtain ⟨-, -, -, hpeer, -, -⟩ := Session.step_eq hstep
  have hsession := sessionShown_stream side e out'
  have hself := @streamShown_self P tr side e out'
  have hother := @streamShown_other P tr side e out'
  have hpeercall : d'.call side.peer = d.call side.peer := by
    rw [hcall, Function.update_of_ne (Role.peer_ne side)]
  have hstopped : Stopped (program side) (d.state side) →
      (program side).request (d.state side) = .nothing := fun hstop => hstop.1
  refine ⟨?_, fun other => ?_, fun other => ?_, fun other => ?_⟩
  · rw [sessionShown_append, hsession]
    exact Session.coldStarted_step hP h.session hfair.1 hfair.2.1 hfair.2.2 hstep
  · rcases Role.eq_or_eq_peer other side with rfl | rfl
    · rw [hself, shown_append_self, payloads_append, asked_append, asked_append, asked_streams,
        List.append_nil, hstate, hcall, Function.update_self]
      exact (h.sent other).stream hmove hadmits hstopped
    · rw [hother, shown_append_of_ne (Role.peer_ne side).symm, hstate, hpeercall, hpeer]
      exact h.sent _
  · rcases Role.eq_or_eq_peer other side with rfl | rfl
    · rw [hself, chunks_append, received_append, hcall, Function.update_self]
      exact (h.gets other).stream (h.session.supplies other).single (h.session.error other) hmove
        hadmits
    · rw [hother, hpeercall, hpeer]
      exact h.gets _
  · rcases Role.eq_or_eq_peer other side with rfl | rfl
    · have hquiet : got (askedData e) = [] := by
        unfold askedData
        split
        · split_ifs
          · rfl
          · rfl
        · rfl
      rw [hself, shown_append_self, got_append, got_append, got_streams, hquiet, List.append_nil,
        List.append_nil, received_append, hcall, Function.update_self,
        (h.gets other).held hmove hadmits, ← List.append_assoc, h.held other]
    · rw [hother, shown_append_of_ne (Role.peer_ne side).symm, hpeercall]
      exact h.held _

/-- A program that goes on by itself has lost nothing. -/
theorem Sent.alone {stopped stopped' : Prop} {registered asked : List Bytes} {t : ProtoHopZ P}
    (h : Sent .idle stopped registered asked t) (hgoing : ¬ stopped) :
    Sent .idle stopped' registered asked t := by
  cases h with
  | level hasked hnone => exact .level hasked hnone
  | pending i data hcall => cases hcall
  | lost data hasked hcall =>
      rcases hcall with ⟨ec, hcall⟩ | hstop
      · cases hcall
      · exact absurd hstop hgoing

/-- A program that goes on after a failed `send` returns. -/
theorem Sent.took {stopped stopped' : Prop} {registered asked : List Bytes} {t : ProtoHopZ P}
    {response : Response} (h : Sent (.returned response) stopped registered asked t)
    (hgoing : ¬ stopped) (hfailed : ∀ ec, response = .sent (some ec) → stopped') :
    Sent .idle stopped' registered asked t := by
  cases h with
  | level hasked hnone => exact .level hasked hnone
  | pending i data hcall => cases hcall
  | lost data hasked hcall hnone =>
      rcases hcall with ⟨ec, hcall⟩ | hstop
      · exact .lost data hasked (Or.inr (hfailed ec (ProgramFrame.returned.inj hcall))) hnone
      · exact absurd hstop hgoing

theorem Gets.of_call {call call' : ProgramFrame} {pushed got : List Chunk} {s : ProtoStream P}
    (h : Gets call pushed got s) (hcall : call'.receiver = call.receiver) :
    Gets call' pushed got s :=
  { h with pending := h.pending.trans hcall.symm }

/-- A program has moved. -/
theorem Channel.proceed (h : Channel tr d) {e : (program side).Event}
    (hs : d.step (.program side e) = some (d', out)) : Channel (tr ++ out) d' := by
  obtain ⟨s, hstep, hsession, hstate, hcase⟩ := step_program hs
  have hgoing : ¬ Stopped (program side) (d.state side) := by
    intro hstop
    rw [hstop.2 e] at hstep
    cases hstep
  have hself : d'.state side = s := by rw [hstate, Function.update_self]
  have hother : d'.state side.peer = d.state side.peer := by
    rw [hstate, Function.update_of_ne (Role.peer_ne side)]
  rcases hcase with ⟨-, hidle, hcall, rfl⟩ | ⟨response, hresponse, hreturned, hcall, rfl⟩
  · rw [List.append_nil]
    refine ⟨hsession ▸ h.session, fun other => ?_, fun other => ?_, fun other => ?_⟩
    · rw [hcall, hsession]
      rcases Role.eq_or_eq_peer other side with rfl | rfl
      · have hsent := h.sent other
        rw [hidle] at hsent ⊢
        exact hsent.alone hgoing
      · rw [hother]
        exact h.sent _
    · rw [hcall, hsession]
      exact h.gets other
    · rw [hcall]
      exact h.held other
  · have hpeercall : d'.call side.peer = d.call side.peer := by
      rw [hcall, Function.update_of_ne (Role.peer_ne side)]
    have hshownself : shown side (tr ++ [(side, .took response)]) =
        shown side tr ++ [.took response] := shown_append_self side tr [.took response]
    have hshownother : shown side.peer (tr ++ [(side, .took response)]) = shown side.peer tr :=
      shown_append_of_ne (Role.peer_ne side).symm tr [.took response]
    refine ⟨?_, fun other => ?_, fun other => ?_, fun other => ?_⟩
    · rw [sessionShown_append, hsession]
      exact (List.append_nil (sessionShown tr)).symm ▸ h.session
    · rw [streamShown_took, hsession]
      rcases Role.eq_or_eq_peer other side with rfl | rfl
      · have hsent := h.sent other
        rw [hreturned] at hsent
        rw [hshownself, asked_append, hcall, Function.update_self]
        refine (List.append_nil (asked (shown other tr))).symm ▸ hsent.took hgoing fun ec hec => ?_
        rw [hself]
        exact (program other).stops _ _ _ ec hstep (hec ▸ hresponse)
      · rw [hshownother, hother, hpeercall]
        exact h.sent _
    · rw [streamShown_took, hsession]
      rcases Role.eq_or_eq_peer other side with rfl | rfl
      · refine (h.gets other).of_call ?_
        rw [hreturned, hcall, Function.update_self]
        rfl
      · rw [hpeercall]
        exact h.gets _
    · rw [streamShown_took]
      rcases Role.eq_or_eq_peer other side with rfl | rfl
      · have hheld := h.held other
        rw [hreturned] at hheld
        rw [hshownself, got_append, hcall, Function.update_self, ← hheld, List.append_assoc]
        rcases response with ec | result | ec
        · rfl
        · rcases result with ec | chunk <;> rfl
        · rfl
      · rw [hshownother, hpeercall]
        exact h.held _

/-- **The step lemma.** -/
theorem channel_step (hP : P.Lawful) {address : Role → Endpoint} (h : Channel tr d)
    {e : Event P program} (hfair : Fair address d e) (hs : d.step e = some (d', out)) :
    Channel (tr ++ out) d' := by
  cases e with
  | stream side e => exact h.stream hP hfair hs
  | program side e => exact h.proceed hs

/-- The run lemma. -/
theorem channel_run (hP : P.Lawful) {address : Role → Endpoint}
    {start : ∀ side, (program side).State}
    (hrun : Transition.Run step (Fair address) (construct P program address start) tr d) :
    Channel tr d :=
  hrun.invariant (I := Channel) (channel_construct address start)
    fun _ _ _ _ _ ih hfair hs => channel_step hP ih hfair hs

/-- What a program has gone on with is a first part of what the other one has sent. -/
theorem Channel.exchanged (h : Channel tr d) (side : Role) :
    got (shown side tr) <+: (asked (shown side.peer tr)).map Session.carrying := by
  have hgot : got (shown side tr) <+: received (streamShown side tr) :=
    ⟨_, h.held side⟩
  have hsent : (payloads (streamShown side.peer tr)).map Session.carrying <+:
      (asked (shown side.peer tr)).map Session.carrying := (h.sent side.peer).first.map _
  have hpushed := h.session.delivered side
  rw [payloads, List.map_map] at hsent
  exact hgot.trans ((h.gets side).first.trans (hpushed.trans hsent))

end Step

/-- **Exactly once, in order, unaltered.**  Two programs, whatever they are, use two streams from
their constructors on, over an honest network that may lose, repeat and reorder what they send.
The chunks that the calls of `receive` of one have returned to it are, one for one, the first data
that the other has passed to `send`. -/
theorem exchanged_in_order (hP : P.Lawful) {address : Role → Endpoint}
    {start : ∀ side, (program side).State} {tr : List (Role × Observation)}
    {d : Dialogue P program}
    (hrun : Transition.Run step (Fair address) (construct P program address start) tr d)
    (side : Role) :
    got (shown side tr) <+: (asked (shown side.peer tr)).map Session.carrying :=
  (channel_run hP hrun).exchanged side

/-! ## Two programs to run -/

/-- A program that makes the calls of a list, up to the first error. -/
def script : Program where
  State := List Request
  Event := Response
  step
    | [], _ => none
    | _ :: _, .sent (some _) => some []
    | _ :: rest, _ => some rest
  request requests := requests.headD .nothing
  response := some
  stops := by
    intro requests response requests' ec hs he
    obtain rfl := Option.some.inj he
    cases requests with
    | nil => cases hs
    | cons request rest =>
        obtain rfl := Option.some.inj hs
        exact ⟨rfl, fun _ => rfl⟩

/-- What the two programs are to do. -/
def sampleScripts : Role → script.State
  | .initiator => [.send [65], .send [66, 67], .receive]
  | .responder => [.receive, .send [68], .receive]

/-- The streams move. -/
def sampleMoves (es : List (Role × ProtoStream.Event .additive)) :
    List (Event .additive fun _ => script) :=
  es.map fun e => .stream e.1 e.2

/-- A program goes on. -/
def sampleTakes (side : Role) (response : Response) : List (Event .additive fun _ => script) :=
  [.program side response]

/-- One sends twice, and its packets arrive in the wrong order; the other sends between its two
calls of `receive`. -/
theorem exchanged_in_order_script : ∃ tr d,
    Transition.Run step (Fair Session.sampleAddress)
      (construct .additive (fun _ => script) Session.sampleAddress sampleScripts) tr d ∧
      got (shown .responder tr) <+: (asked (shown .initiator tr)).map Session.carrying ∧
      got (shown .responder tr) = [Session.carrying [65], Session.carrying [66, 67]] := by
  obtain ⟨tr, d, hrun, hp⟩ := Transition.exists_run step (Fair Session.sampleAddress)
    (construct .additive (fun _ => script) Session.sampleAddress sampleScripts)
    (sampleMoves Session.sampleShaken ++ sampleMoves [(.responder, .receive 0)] ++
      sampleMoves (Session.sampleSent .initiator 1 [65]) ++ sampleTakes .initiator (.sent none) ++
      sampleMoves (Session.sampleSent .initiator 2 [66, 67]) ++
      sampleMoves (Session.sampleTaken .responder (Session.sampleSealedPacket [66, 67] 2)) ++
      sampleMoves (Session.sampleTaken .responder (Session.sampleSealedPacket [65] 1)) ++
      sampleMoves [(.responder, .resumeReceive 0)] ++
      sampleTakes .responder (.received (.ok (Session.carrying [65]))) ++
      sampleMoves (Session.sampleSent .responder 1 [68]) ++ sampleTakes .responder (.sent none) ++
      sampleMoves [(.responder, .receive 2), (.responder, .resumeReceive 2)] ++
      sampleTakes .responder (.received (.ok (Session.carrying [66, 67]))))
    (fun tr _ => decide (got (shown .responder tr) =
      [Session.carrying [65], Session.carrying [66, 67]]))
    (fun d e => decide (Fair Session.sampleAddress d e)) (fun _ _ h => of_decide_eq_true h)
    (by decide +kernel)
  exact ⟨tr, d, hrun, exchanged_in_order Primitives.additive_lawful hrun .responder,
    of_decide_eq_true hp⟩

end Dialogue
end FileHopZ

import FileHopZ.Dialogue.Channel

/-! # The history of a program

What a program has passed to `send`, and the chunks with which it has gone on, are a history of
the program by itself: the stream only answers its calls.
-/
namespace FileHopZ

/-- What a program has passed to `send` when it goes on with a response.  A call that fails has
or has not got as far as the transport. -/
inductive Request.Passed : Request → Option Response → List Bytes → Prop
  | sent (data : Bytes) : Passed (.send data) (some (.sent none)) [data]
  | failed (data : Bytes) (ec : Error) : Passed (.send data) (some (.sent (some ec))) [data]
  | unsent (request : Request) (ec : Error) : Passed request (some (.sent (some ec))) []
  | received (request : Request) (result : Except Error Chunk) :
      Passed request (some (.received result)) []
  | closed (request : Request) (ec : Option Error) : Passed request (some (.closed ec)) []
  | alone (request : Request) : Passed request none []

namespace Request.Passed
variable {request : Request} {more : List Bytes}

theorem eq_of_sent {response : Option Response} {data : Bytes}
    (h : Request.Passed request response more) (hrequest : request = .send data)
    (hresponse : response = some (.sent none)) : more = [data] := by
  cases h with
  | sent data' => rw [Request.send.inj hrequest]
  | _ => cases hresponse

theorem of_failed {ec : Error} (h : Request.Passed request (some (.sent (some ec))) more) :
    more = [] ∨ ∃ data, request = .send data ∧ more = [data] := by
  cases h with
  | failed data => exact Or.inr ⟨data, rfl, rfl⟩
  | unsent => exact Or.inl rfl

theorem eq_nil {response : Option Response} (h : Request.Passed request response more)
    (hresponse : ∀ ec, response ≠ some (.sent ec)) : more = [] := by
  cases h with
  | sent | failed => exact absurd rfl (hresponse _)
  | unsent | received | closed | alone => rfl

theorem requested {response : Option Response} {data : Bytes}
    (h : Request.Passed request response more) (hdata : data ∈ more) : request = .send data := by
  cases h with
  | sent | failed => rw [List.mem_singleton.mp hdata]
  | unsent | received | closed | alone => cases hdata

end Request.Passed

/-- The chunk that a response brings. -/
def Response.chunk : Option Response → List Chunk
  | some (.received (.ok chunk)) => [chunk]
  | _ => []

/-- The program can get from `start` to a state, having passed `asked` to `send` and gone on
with the chunks `got`. -/
inductive Program.Reaches (program : Program) (start : program.State) :
    List Bytes → List Chunk → program.State → Prop
  | start : Reaches program start [] [] start
  | next {asked more : List Bytes} {got : List Chunk} {s s' : program.State} {e : program.Event}
      (h : Reaches program start asked got s) (hs : program.step s e = some s')
      (hpassed : (program.request s).Passed (program.response e) more) :
      Reaches program start (asked ++ more) (got ++ Response.chunk (program.response e)) s'

/-- **The invariant rule for histories.** -/
theorem Program.Reaches.invariant {program : Program} {start : program.State}
    {I : List Bytes → List Chunk → program.State → Prop} (h0 : I [] [] start)
    (hstep : ∀ asked more got s e s', I asked got s → program.step s e = some s' →
      (program.request s).Passed (program.response e) more →
      I (asked ++ more) (got ++ Response.chunk (program.response e)) s')
    {asked : List Bytes} {got : List Chunk} {s : program.State}
    (h : program.Reaches start asked got s) : I asked got s := by
  induction h with
  | start => exact h0
  | next _ hs hpassed ih => exact hstep _ _ _ _ _ _ ih hs hpassed

/-- What has been passed to `send` was asked for in some state. -/
theorem Program.Reaches.requested {program : Program} {start s : program.State}
    {asked : List Bytes} {got : List Chunk} (h : program.Reaches start asked got s) {data : Bytes}
    (hdata : data ∈ asked) : ∃ s, program.request s = .send data := by
  induction h with
  | start => cases hdata
  | @next _ _ _ s _ _ _ _ hpassed ih =>
      rcases List.mem_append.mp hdata with hdata | hdata
      · exact ih hdata
      · exact ⟨s, hpassed.requested hdata⟩

namespace Dialogue
variable {P : Primitives} {program : Role → Program}
open ProtoStream

/-- How a program and its stream stand: the program has got to its state having passed `before`
to `send`, and the call it is in may have passed on more. -/
inductive Follows (program : Program) (start : program.State) (call : ProgramFrame) (asked : List Bytes)
    (got : List Chunk) (s : program.State) : Prop
  | silent (hreaches : program.Reaches start asked got s) (hsending : ∀ i, call ≠ .sending i)
      (hreturned : call ≠ .returned (.sent none))
  | sending (before : List Bytes) (data : Bytes) (hreaches : program.Reaches start before got s)
      (hrequest : program.request s = .send data) (hasked : asked = before ++ [data])
      (hcall : (∃ i, call = .sending i) ∨ ∃ ec, call = .returned (.sent ec))

/-- The program has got to its state with the chunks it has gone on with. -/
theorem Follows.reaches {program : Program} {start s : program.State} {call : ProgramFrame}
    {asked : List Bytes} {got : List Chunk} (h : Follows program start call asked got s) :
    ∃ before, program.Reaches start before got s ∧
      (asked = before ∨ ∃ data, program.request s = .send data ∧ asked = before ++ [data]) := by
  cases h with
  | silent hreaches => exact ⟨asked, hreaches, Or.inl rfl⟩
  | sending before data hreaches hrequest hasked =>
      exact ⟨before, hreaches, Or.inr ⟨data, hrequest, hasked⟩⟩

theorem Follows.requested {program : Program} {start s : program.State} {call : ProgramFrame}
    {asked : List Bytes} {got : List Chunk} (h : Follows program start call asked got s)
    {data : Bytes} (hdata : data ∈ asked) : ∃ s, program.request s = .send data := by
  obtain ⟨before, hreaches, rfl | ⟨data', hrequest, rfl⟩⟩ := h.reaches
  · exact hreaches.requested hdata
  · rcases List.mem_append.mp hdata with hdata | hdata
    · exact hreaches.requested hdata
    · exact ⟨s, List.mem_singleton.mp hdata ▸ hrequest⟩

section Step
variable {call : ProgramFrame} {request : Request} {e : ProtoStream.Event P} {start : StartFrame}
  {shown : List ProtoStream.Observation}

/-- A call of `send` that has not returned goes on, or returns. -/
theorem sending_advance (hadmits : admits call request e = true)
    (hcall : (∃ i, call = .sending i) ∨ ∃ ec, call = .returned (.sent ec)) :
    (∃ i, advance call request e start shown = .sending i) ∨
      ∃ ec, advance call request e start shown = .returned (.sent ec) := by
  rcases hcall with ⟨i, rfl⟩ | ⟨ec, rfl⟩
  · have hno := not_isCall hadmits (Or.inl (by simp))
    rw [advance_eq hno (by simp)]
    cases hfound : shown.findSome? (responseIn (.sending i)) with
    | none => exact Or.inl ⟨i, rfl⟩
    | some r =>
        obtain ⟨o, -, hr⟩ := List.exists_of_findSome?_eq_some hfound
        unfold responseIn at hr
        split at hr
        · split_ifs at hr
          exact Or.inr ⟨_, congrArg ProgramFrame.returned (Option.some.inj hr).symm⟩
        · split_ifs at hr
          exact Or.inr ⟨_, congrArg ProgramFrame.returned (Option.some.inj hr).symm⟩
        · rename_i hsame
          cases hsame
        · rename_i hsame
          cases hsame
        · cases hr
  · exact Or.inr ⟨ec, advance_returned hadmits⟩

/-- No other call becomes a call of `send` that sends. -/
theorem silent_advance (hadmits : admits call request e = true) (hsend : ∀ i data, e ≠ .send i data)
    (hsending : ∀ i, call ≠ .sending i) (hreturned : call ≠ .returned (.sent none)) :
    (∀ i, advance call request e start shown ≠ .sending i) ∧
      advance call request e start shown ≠ .returned (.sent none) := by
  by_cases hdone : ∃ r, call = .returned r
  · obtain ⟨r, rfl⟩ := hdone
    rw [advance_returned hadmits]
    exact ⟨hsending, hreturned⟩
  have hbegun : (∀ i, begun call e ≠ .sending i) ∧ ∀ r, begun call e ≠ .returned r := by
    cases e with
    | send i data => exact absurd rfl (hsend i data)
    | callStartLoops | receive | close => exact ⟨by simp [begun], by simp [begun]⟩
    | _ => exact ⟨hsending, fun r hr => hdone ⟨r, hr⟩⟩
  unfold advance
  split
  · split
    · exact ⟨by simp, by simp⟩
    · refine ⟨by simp, fun hunstarted => ?_⟩
      unfold unstarted at hunstarted
      split at hunstarted
      · cases hunstarted
      · cases hunstarted
    · exact ⟨by simp, by simp⟩
  · split
    · rename_i r hfound
      refine ⟨by simp, fun hsent => ?_⟩
      obtain rfl := ProgramFrame.returned.inj hsent
      obtain ⟨o, -, hr⟩ := List.exists_of_findSome?_eq_some hfound
      unfold responseIn at hr
      split at hr
      · rename_i hbegan
        exact hbegun.1 _ hbegan
      · rename_i hbegan
        exact hbegun.1 _ hbegan
      · split_ifs at hr
        cases hr
      · cases hr
      · cases hr
    · exact ⟨hbegun.1, hbegun.2 _⟩

end Step

section Moves
variable {p : Program} {first s s' : p.State} {call : ProgramFrame} {askedBefore : List Bytes}
  {gotBefore : List Chunk}

/-- The stream of a program moves. -/
theorem Follows.stream (h : Follows p first call askedBefore gotBefore s)
    {stream stream' : ProtoStream P} {e : ProtoStream.Event P}
    {shown : List ProtoStream.Observation} (hs : stream.step e = some (stream', shown))
    (hadmits : admits call (p.request s) e = true) :
    Follows p first (advance call (p.request s) e stream'.startLoops shown)
      (askedBefore ++ asked (askedData e)) gotBefore s := by
  cases h with
  | silent hreaches hsending hreturned =>
      by_cases hsend : ∃ i data, e = .send i data
      · obtain ⟨i, data, rfl⟩ := hsend
        obtain ⟨-, hrequest⟩ := of_decide_eq_true hadmits
        cases ProtoStream.step_cases hs with
        | rejected _ _ _ hlength =>
            rw [askedData, if_pos hlength, asked_nil, List.append_nil]
            refine .silent hreaches ?_ ?_
            · simp [advance, begun, responseIn]
            · simp [advance, begun, responseIn]
        | send _ _ _ hlength =>
            rw [askedData, if_neg (not_lt.mpr hlength)]
            exact .sending askedBefore data hreaches hrequest rfl (Or.inl ⟨i, rfl⟩)
      · have hnone : asked (askedData e) = [] := by
          cases e with
          | send i data => exact absurd ⟨i, data, rfl⟩ hsend
          | _ => rfl
        rw [hnone, List.append_nil]
        obtain ⟨hsending', hreturned'⟩ :=
          @silent_advance P call (p.request s) e stream'.startLoops shown hadmits
            (fun i data he => hsend ⟨i, data, he⟩) hsending hreturned
        exact .silent hreaches hsending' hreturned'
  | sending before data hreaches hrequest hasked hcall =>
      have hbusy : call ≠ .idle := by
        rcases hcall with ⟨i, rfl⟩ | ⟨ec, rfl⟩
        · simp
        · simp
      rw [(begun_of_not_isCall call (not_isCall hadmits (Or.inl hbusy))).2, asked_nil,
        List.append_nil]
      exact .sending before data hreaches hrequest hasked (sending_advance hadmits hcall)

/-- The program moves by itself. -/
theorem Follows.alone (h : Follows p first .idle askedBefore gotBefore s) {e : p.Event}
    (hs : p.step s e = some s') (hresponse : p.response e = none) :
    Follows p first .idle askedBefore gotBefore s' := by
  cases h with
  | silent hreaches =>
      have hnext := hreaches.next hs (hresponse ▸ Request.Passed.alone _)
      rw [hresponse, List.append_nil] at hnext
      refine .silent ?_ (by simp) (by simp)
      exact (List.append_nil gotBefore) ▸ hnext
  | sending _ _ _ _ _ hcall => rcases hcall with ⟨i, hcall⟩ | ⟨ec, hcall⟩ <;> cases hcall

/-- The program goes on with a response. -/
theorem Follows.took {response : Response}
    (h : Follows p first (.returned response) askedBefore gotBefore s) {e : p.Event}
    (hs : p.step s e = some s') (hresponse : p.response e = some response) :
    Follows p first .idle askedBefore (gotBefore ++ got [.took response]) s' := by
  have hgot : got [.took response] = Response.chunk (p.response e) := by
    rw [hresponse]
    rcases response with ec | result | ec
    · rfl
    · rcases result with ec | chunk
      · rfl
      · rfl
    · rfl
  rw [hgot]
  cases h with
  | silent hreaches _ hreturned =>
      have hpassed : (p.request s).Passed (p.response e) [] := by
        rw [hresponse]
        rcases response with ec | result | ec
        · rcases ec with - | ec
          · exact absurd rfl hreturned
          · exact .unsent _ ec
        · exact .received _ result
        · exact .closed _ ec
      have hnext := hreaches.next hs hpassed
      rw [List.append_nil] at hnext
      exact .silent hnext (by simp) (by simp)
  | sending before data hreaches hrequest hasked hcall =>
      have hpassed : (p.request s).Passed (p.response e) [data] := by
        rw [hrequest, hresponse]
        rcases hcall with ⟨i, hcall⟩ | ⟨ec, hcall⟩
        · cases hcall
        · obtain rfl := ProgramFrame.returned.inj hcall
          rcases ec with - | ec
          · exact .sent data
          · exact .failed data ec
      rw [hasked]
      exact .silent (hreaches.next hs hpassed) (by simp) (by simp)

end Moves

/-- **The step lemma.** -/
theorem follows_step {start : ∀ side, (program side).State} {tr out : List (Role × Observation)}
    {d d' : Dialogue P program} {e : Event P program}
    (h : ∀ side, Follows (program side) (start side) (d.call side) (asked (shown side tr))
      (got (shown side tr)) (d.state side)) (hs : d.step e = some (d', out)) (side : Role) :
    Follows (program side) (start side) (d'.call side) (asked (shown side (tr ++ out)))
      (got (shown side (tr ++ out))) (d'.state side) := by
  have hside := h side
  cases e with
  | stream mover e =>
      obtain ⟨out', hadmits, -, hmove, hstate, hcall, rfl⟩ := step_stream hs
      rw [hstate]
      rcases Role.eq_or_eq_peer side mover with rfl | rfl
      · have hquiet : got (askedData e) = [] := by
          unfold askedData
          split
          · split_ifs
            · rfl
            · rfl
          · rfl
        rw [shown_append_self, asked_append, asked_append, got_append, got_append, asked_streams,
          got_streams, hquiet, List.append_nil, List.append_nil, List.append_nil, hcall,
          Function.update_self]
        exact hside.stream hmove hadmits
      · rw [shown_append_of_ne (Role.peer_ne mover).symm, hcall,
          Function.update_of_ne (Role.peer_ne mover)]
        exact hside
  | program mover e =>
      obtain ⟨s, hstep, -, hstate, hcase⟩ := step_program hs
      rcases Role.eq_or_eq_peer side mover with rfl | rfl
      · have hself : d'.state side = s := by rw [hstate, Function.update_self]
        rw [hself]
        rcases hcase with ⟨hresponse, hidle, hcall, rfl⟩ | ⟨response, hresponse, hreturned, hcall, rfl⟩
        · rw [hcall, hidle, List.append_nil]
          rw [hidle] at hside
          exact hside.alone hstep hresponse
        · have hshown : shown side (tr ++ [(side, .took response)]) =
              shown side tr ++ [.took response] := shown_append_self side tr [.took response]
          rw [hshown, asked_append, got_append, hcall, Function.update_self]
          rw [hreturned] at hside
          exact (List.append_nil (asked (shown side tr))).symm ▸ hside.took hstep hresponse
      · rw [hstate, Function.update_of_ne (Role.peer_ne mover)]
        rcases hcase with ⟨-, -, hcall, rfl⟩ | ⟨response, -, -, hcall, rfl⟩
        · rw [hcall, List.append_nil]
          exact hside
        · have hshown : shown mover.peer (tr ++ [(mover, .took response)]) = shown mover.peer tr :=
            shown_append_of_ne (Role.peer_ne mover).symm tr [.took response]
          rw [hshown, hcall, Function.update_of_ne (Role.peer_ne mover)]
          exact hside

/-- The run lemma. -/
theorem follows_run {address : Role → Endpoint} {start : ∀ side, (program side).State}
    {ok : Dialogue P program → Event P program → Prop} {tr : List (Role × Observation)}
    {d : Dialogue P program}
    (hrun : Transition.Run step ok (construct P program address start) tr d) (side : Role) :
    Follows (program side) (start side) (d.call side) (asked (shown side tr))
      (got (shown side tr)) (d.state side) :=
  hrun.invariant
    (I := fun tr d => ∀ side, Follows (program side) (start side) (d.call side)
      (asked (shown side tr)) (got (shown side tr)) (d.state side))
    (fun _ => .silent .start (by simp [construct]) (by simp [construct]))
    (fun _ _ _ _ _ ih _ hs => follows_step ih hs) side

end Dialogue
end FileHopZ

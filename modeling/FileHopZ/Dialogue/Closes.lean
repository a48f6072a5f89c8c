import FileHopZ.Dialogue.Channel
import FileHopZ.Protohopz.Calls

/-! # A program that closes its stream

A program waits for each of its calls, so when it calls `close` no call of `send_packet` is under
way, and none has failed; and none is made after that.
-/
namespace FileHopZ
namespace Dialogue
variable {P : Primitives} {program : Role → Program}
open ProtoStream

/-- What had been shown when `close` was called. -/
def called (tr : List ProtoStream.Observation) : List ProtoStream.Observation :=
  tr.takeWhile fun o => !o.marks

theorem called_append {tr : List ProtoStream.Observation} (h : .closeCalled ∈ tr)
    (out : List ProtoStream.Observation) : called (tr ++ out) = called tr := by
  have hstops : ∃ o ∈ tr, (!o.marks) = false := ⟨_, h, rfl⟩
  induction tr with
  | nil => cases h
  | cons o tr ih =>
      unfold called
      rw [List.cons_append, List.takeWhile_cons, List.takeWhile_cons]
      cases hmarks : o.marks with
      | true => rfl
      | false =>
          have hmem : .closeCalled ∈ tr := by
            refine (List.mem_cons.mp h).resolve_left ?_
            rintro rfl
            cases hmarks
          exact congrArg (o :: ·) (ih hmem ⟨_, hmem, rfl⟩)

theorem called_of_unmarked {tr : List ProtoStream.Observation} (h : ∀ o ∈ tr, o.marks = false) :
    called (tr ++ [.closeCalled]) = tr := takeWhile_called h

/-- How a program and its stream stand when the handshake has not failed. -/
structure Tended (call : ProgramFrame) (stopped : Prop) (tr : List ProtoStream.Observation)
    (s : ProtoStream P) : Prop where
  recorded : s.transport.Recorded (transported tr)
  busy : ∀ i, s.transport.Busy i →
    call = .sending i ∨ ∃ role, s.transport.handshake = .sending role i
  failed : ∀ i ec, s.transport.sends i = .returned (some ec) →
    (∃ role, s.transport.handshake = .sending role i) ∨
      (∃ ec, call = .returned (.sent (some ec))) ∨ stopped
  opened : s.closing = .idle → ∀ o ∈ tr, o.marks = false
  draining : s.closing = .draining → call = .closing
  stopping : s.closing ≠ .idle → s.closing ≠ .draining → s.loopsRunning = false
  /-- Once `close` has been called, every call has returned without an error, or has not been made. -/
  settled : s.closing ≠ .idle → ∀ i, s.transport.sends i = .idle ∨ s.transport.sends i = .returned none
  closed : s.closing ≠ .idle → .closeCalled ∈ tr ∧ ∀ i packet plaintext,
    .registered i packet plaintext ∈ transported tr →
      .registered i packet plaintext ∈ transported (called tr) ∧
        .returned i none ∈ transported (called tr)

theorem tended_construct (stopped : Prop) (peer : Endpoint) (mode : Role) :
    Tended .idle stopped [] (ProtoStream.construct P peer mode) where
  recorded := ⟨fun _ _ _ h => absurd h List.not_mem_nil, fun _ _ h => nomatch h⟩
  busy i h := absurd rfl h.1
  failed i ec h := by cases h
  opened _ o ho := by cases ho
  draining h := by cases h
  stopping h := absurd rfl h
  settled h := absurd rfl h
  closed h := absurd rfl h

section Step
variable {call : ProgramFrame} {stopped : Prop} {request : Request}
  {tr out : List ProtoStream.Observation} {s s' : ProtoStream P} {e : ProtoStream.Event P}

/-- A call of `send` that waits goes on waiting until its `send_packet` returns. -/
theorem advance_sending (hs : s.step e = some (s', out)) {i : Nat}
    (hadmits : admits (.sending i) request e = true) :
    (∀ ec, .returned i ec ∉ transported out) ∧
        advance (.sending i) request e s'.startLoops out = .sending i ∨
      ∃ ec, .returned i ec ∈ transported out ∧
        advance (.sending i) request e s'.startLoops out = .returned (.sent ec) := by
  have hno := not_isCall hadmits (Or.inl (by simp))
  have hsend : ∀ j data, e ≠ .send j data := by
    rintro j data rfl
    cases hno
  rw [advance_eq hno (by simp)]
  cases hfound : out.findSome? (responseIn (.sending i)) with
  | none =>
      refine Or.inl ⟨fun ec hmem => ?_, rfl⟩
      rw [List.findSome?_eq_none_iff] at hfound
      obtain ⟨o, ho, hshown⟩ := List.mem_filterMap.mp hmem
      split at hshown
      · obtain rfl := Option.some.inj hshown
        have := hfound _ ho
        simp [responseIn] at this
      · cases hshown
  | some r =>
      obtain ⟨o, ho, hr⟩ := List.exists_of_findSome?_eq_some hfound
      obtain ⟨ec, rfl, rfl⟩ := responseIn_sending hs hsend ho hr
      exact Or.inr ⟨ec, List.mem_filterMap.mpr ⟨_, ho, rfl⟩, rfl⟩

/-- The handshake goes on only when its own call has returned. -/
theorem sending_step (hs : s.step e = some (s', out)) (hfine : ¬ s'.transport.ShakeFailed)
    {role : Role} {i : Nat} (hsending : s.transport.handshake = .sending role i) :
    s'.transport.handshake = .sending role i ∨
      s.transport.sends i = .returned none ∧ s'.transport.sends i = .returned none := by
  rcases handshake_step hs with ⟨hsame, -⟩ | ⟨t, shown, hshake, -, hframe, hsends⟩
  · exact Or.inl (hsame.trans hsending)
  · obtain ⟨hsent, hsent'⟩ := (hshake.after (hframe.trans hsending)).resolve_left hfine
    exact Or.inr ⟨hsends ▸ hsent, hsent'⟩

theorem Tended.busy_step (h : Tended call stopped tr s) (hs : s.step e = some (s', out))
    (hadmits : admits call request e = true) (hfine : ¬ s'.transport.ShakeFailed) {i : Nat}
    (hbusy : s'.transport.Busy i) : advance call request e s'.startLoops out = .sending i ∨
      ∃ role, s'.transport.handshake = .sending role i := by
  have hgoes : s.transport.Busy i → (∀ ec, .returned i ec ∉ transported out) →
      advance call request e s'.startLoops out = .sending i ∨
        ∃ role, s'.transport.handshake = .sending role i := by
    intro hold hnone
    rcases h.busy i hold with hcall | ⟨role, hsending⟩
    · subst hcall
      rcases advance_sending hs hadmits with ⟨-, hstill⟩ | ⟨ec, hreturned, -⟩
      · exact Or.inl hstill
      · exact absurd hreturned (hnone ec)
    · rcases sending_step hs hfine hsending with hstill | ⟨-, hreturned⟩
      · exact Or.inr ⟨role, hstill⟩
      · exact absurd hreturned (hbusy.2 none)
  obtain ⟨e', hframes, hsend⟩ := attends_step hs
  cases hframes i with
  | stays hsame hout =>
      refine hgoes ?_ fun ec hmem => hout _ hmem rfl
      unfold ProtoHopZ.Busy at hbusy ⊢
      rwa [hsame] at hbusy
  | begins hidle _ he =>
      rcases he with ⟨source, he⟩ | ⟨-, hrole⟩
      · obtain ⟨data, rfl⟩ := hsend i source he
        cases step_cases hs with
        | rejected => exact absurd hidle hbusy.1
        | send => exact Or.inl rfl
      · exact Or.inr hrole
  | goes hold _ _ _ hreturned => exact hgoes hold hreturned
  | returns ec _ hframe => exact absurd hframe (hbusy.2 ec)

theorem Tended.failed_step (h : Tended call stopped tr s) (hs : s.step e = some (s', out))
    (hadmits : admits call request e = true) (hfine : ¬ s'.transport.ShakeFailed) {i : Nat}
    {ec : Error} (hfailed : s'.transport.sends i = .returned (some ec)) :
    (∃ role, s'.transport.handshake = .sending role i) ∨
      (∃ ec, advance call request e s'.startLoops out = .returned (.sent (some ec))) ∨ stopped := by
  obtain ⟨e', hframes, -⟩ := attends_step hs
  cases hframes i with
  | stays hsame =>
      rw [hsame] at hfailed
      rcases h.failed i ec hfailed with ⟨role, hsending⟩ | ⟨ec', hcall⟩ | hstop
      · rcases sending_step hs hfine hsending with hstill | ⟨hreturned, -⟩
        · exact Or.inl ⟨role, hstill⟩
        · rw [hreturned] at hfailed
          cases hfailed
      · subst hcall
        exact Or.inr (Or.inl ⟨ec', advance_returned hadmits⟩)
      · exact Or.inr (Or.inr hstop)
  | begins _ hbusy | goes _ hbusy => exact absurd hfailed (hbusy.2 _)
  | returns ec' hbusy hframe hreturned =>
      obtain rfl := SendFrame.returned.inj (hframe.symm.trans hfailed)
      rcases h.busy i hbusy with hcall | ⟨role, hsending⟩
      · subst hcall
        rcases advance_sending hs hadmits with ⟨hnone, -⟩ | ⟨ec', hmem, hcall⟩
        · exact absurd ((hreturned _).mpr rfl) (hnone _)
        · rw [(hreturned ec').mp hmem] at hcall
          exact Or.inr (Or.inl ⟨ec, hcall⟩)
      · rcases sending_step hs hfine hsending with hstill | ⟨-, hsent⟩
        · exact Or.inl ⟨role, hstill⟩
        · rw [hsent] at hfailed
          cases hfailed

/-- A stream begins to close when its program calls `close`. -/
theorem closes_step (hs : s.step e = some (s', out)) (hopen : s.closing = .idle)
    (hclosing : s'.closing ≠ .idle) : e = .close ∧ out = [.closeCalled] ∧
      s.startLoops ≠ .handshaking ∧ s'.transport.sends = s.transport.sends := by
  cases step_cases hs with
  | close hstart => exact ⟨rfl, rfl, hstart, rfl⟩
  | resumeClose _ hdraining =>
      rw [hopen] at hdraining
      cases hdraining
  | finishClose hstopping =>
      rw [hopen] at hstopping
      cases hstopping
  | _ => exact absurd hopen hclosing

theorem Tended.opened_step (h : Tended call stopped tr s) (hs : s.step e = some (s', out))
    (hstop : s.transport.stop ≠ .idle → s.closing ≠ .idle) (hopen : s'.closing = .idle) :
    ∀ o ∈ tr ++ out, o.marks = false := by
  have hbefore : s.closing = .idle := by
    by_contra hne
    exact closing_step hs hne hopen
  refine marks_append (h.opened hbefore) ?_
  cases goes_step hs with
  | quiet _ _ _ hmarks => exact hmarks
  | transport e' shown he _ hstep _ _ hout | starts _ e' shown he _ hstep _ hout =>
      rw [hout]
      exact marks_shown hstep he
  | drains _ _ _ _ _ hout | resumeClose _ _ _ _ _ _ hout =>
      rw [hout]
      simp
  | stops _ hposted => exact absurd hbefore (hstop (by simp [hposted]))
  | close hclosing =>
      rw [hclosing.2] at hopen
      cases hopen
  | finishClose hclosing =>
      rw [hclosing.2] at hopen
      cases hopen

/-- While `close` waits for `in_flight_` to empty, its program waits for `close`. -/
theorem Tended.draining_step (h : Tended call stopped tr s) (hs : s.step e = some (s', out))
    (hadmits : admits call request e = true) (hdraining : s'.closing = .draining) :
    advance call request e s'.startLoops out = .closing := by
  by_cases hopen : s.closing = .idle
  · obtain ⟨rfl, rfl, -, -⟩ := closes_step hs hopen (by simp [hdraining])
    rfl
  have hsame : s.closing = .draining ∧ ∀ ec, .closed ec ∉ out := by
    cases goes_step hs with
    | quiet hclosing _ _ hmarks =>
        exact ⟨hclosing.symm.trans hdraining, not_closed_of_marks hmarks⟩
    | transport e' shown _ _ _ hclosing _ hout =>
        exact ⟨hclosing.symm.trans hdraining, by simp [hout]⟩
    | drains _ _ _ hclosing _ hout | stops _ _ _ hclosing _ hout =>
        exact ⟨hclosing.symm.trans hdraining, by simp [hout]⟩
    | starts _ _ _ _ _ _ hclosing => exact absurd hclosing.1 hopen
    | close hclosing => exact absurd hclosing.1 hopen
    | resumeClose _ _ hclosing | finishClose hclosing =>
        rw [hclosing.2] at hdraining
        cases hdraining
  obtain rfl := h.draining hsame.1
  rw [advance_eq (not_isCall hadmits (Or.inl (by simp))) (by simp)]
  have hfind : out.findSome? (responseIn .closing) = none := by
    rw [List.findSome?_eq_none_iff]
    intro o ho
    unfold responseIn
    split
    · rename_i hsending
      cases hsending
    · rename_i hsending
      cases hsending
    · rename_i hreceiving
      cases hreceiving
    · exact absurd ho (hsame.2 _)
    · rfl
  rw [hfind]

theorem Tended.stopping_step (h : Tended call stopped tr s) (hs : s.step e = some (s', out))
    (hsingle : Single s) (hclosing : s'.closing ≠ .idle) (hnot : s'.closing ≠ .draining) :
    s'.loopsRunning = false := by
  cases step_cases hs with
  | started hstart => exact absurd hstart (hsingle.closing hclosing)
  | close => exact absurd rfl hnot
  | finishClose hstopping => exact h.stopping (by simp [hstopping]) (by simp [hstopping])
  | resumeClose | stored => rfl
  | _ => exact h.stopping hclosing hnot

/-- Once `close` has been called nothing is passed to `send` any more. -/
theorem Tended.unsent (h : Tended call stopped tr s) (hs : s.step e = some (s', out))
    (hadmits : admits call request e = true) (hclosing : s.closing ≠ .idle) (i : Nat)
    (data : Bytes) : e ≠ .send i data := by
  rintro rfl
  have hrunning : s.loopsRunning = true := by
    cases step_cases hs with
    | rejected _ _ hrunning | send _ _ hrunning => exact hrunning
  by_cases hdraining : s.closing = .draining
  · rw [h.draining hdraining] at hadmits
    simp [admits] at hadmits
  · rw [h.stopping hclosing hdraining] at hrunning
    cases hrunning

/-- Once `close` has been called no call of `send_packet` goes on or begins. -/
theorem Tended.frozen (h : Tended call stopped tr s) (hs : s.step e = some (s', out))
    (hadmits : admits call request e = true) (hsingle : Single s')
    (hstarting : s'.transport.Shaking → s'.startLoops = .handshaking) (hclosing : s.closing ≠ .idle)
    (i : Nat) : s'.transport.sends i = s.transport.sends i ∧
      ∀ o ∈ transported out, o.call ≠ some i := by
  have hidle : ¬ s.transport.Busy i := by
    intro hbusy
    rcases h.settled hclosing i with hframe | hframe
    · exact hbusy.1 hframe
    · exact hbusy.2 none hframe
  obtain ⟨e', hframes, hsend⟩ := attends_step hs
  cases hframes i with
  | stays hsame hout => exact ⟨hsame, hout⟩
  | goes hbusy | returns _ hbusy => exact absurd hbusy hidle
  | begins _ _ he =>
      exfalso
      rcases he with ⟨source, he⟩ | ⟨-, role, hrole⟩
      · obtain ⟨data, hcalled⟩ := hsend i source he
        exact h.unsent hs hadmits hclosing i data hcalled
      · exact hsingle.closing (closing_step hs hclosing) (hstarting (Or.inl ⟨role, i, hrole⟩))

/-- When a program calls `close`, all its calls have returned, without an error. -/
theorem Tended.settled_close (h : Tended .idle stopped tr s)
    (hstarting : s.transport.Shaking → s.startLoops = .handshaking) (hgoing : ¬ stopped)
    (hstart : s.startLoops ≠ .handshaking) (i : Nat) :
    s.transport.sends i = .idle ∨ s.transport.sends i = .returned none := by
  have hshaken : ∀ role, s.transport.handshake ≠ .sending role i := fun role hsending =>
    hstart (hstarting (Or.inl ⟨role, i, hsending⟩))
  cases hframe : s.transport.sends i with
  | idle => exact Or.inl rfl
  | returned ec =>
      cases ec with
      | none => exact Or.inr rfl
      | some ec =>
          rcases h.failed i ec hframe with ⟨role, hsending⟩ | ⟨ec', hcall⟩ | hstop
          · exact absurd hsending (hshaken role)
          · cases hcall
          · exact absurd hstop hgoing
  | posted | waiting | sending =>
      rcases h.busy i ⟨by simp [hframe], by simp [hframe]⟩ with hcall | ⟨role, hsending⟩
      · cases hcall
      · exact absurd hsending (hshaken role)

/-- The stream of a program moves. -/
theorem Tended.stream (h : Tended call stopped tr s) (hs : s.step e = some (s', out))
    (hadmits : admits call request e = true) (hstopped : stopped → request = .nothing)
    (hsingle : Single s) (hstarting : s.transport.Shaking → s.startLoops = .handshaking)
    (hstop : s.transport.stop ≠ .idle → s.closing ≠ .idle) (hfine : ¬ s'.transport.ShakeFailed) :
    Tended (advance call request e s'.startLoops out) stopped (tr ++ out) s' := by
  have hsingle' := (single_step hsingle hs).1
  have hstarting' := starting_step hs hstarting
  -- what is the case when `close` is called
  have hclose : s.closing = .idle → s'.closing ≠ .idle → out = [.closeCalled] ∧
      s'.transport.sends = s.transport.sends ∧
      ∀ i, s.transport.sends i = .idle ∨ s.transport.sends i = .returned none := by
    intro hopen hclosing
    obtain ⟨rfl, rfl, hstart, hsends⟩ := closes_step hs hopen hclosing
    obtain ⟨rfl, hrequest⟩ := of_decide_eq_true hadmits
    refine ⟨rfl, hsends, h.settled_close hstarting (fun hstop => ?_) hstart⟩
    rw [hstopped hstop] at hrequest
    cases hrequest
  refine ⟨?_, fun i => h.busy_step hs hadmits hfine, fun i ec => h.failed_step hs hadmits hfine,
    h.opened_step hs hstop, h.draining_step hs hadmits, h.stopping_step hs hsingle,
    fun hclosing i => ?_, fun hclosing => ?_⟩
  · obtain ⟨e', hframes, -⟩ := attends_step hs
    rw [transported_append]
    exact h.recorded.step hframes
  · by_cases hopen : s.closing = .idle
    · obtain ⟨-, hsends, hsettled⟩ := hclose hopen hclosing
      rw [hsends]
      exact hsettled i
    · rw [(h.frozen hs hadmits hsingle' hstarting' hopen i).1]
      exact h.settled hopen i
  · by_cases hopen : s.closing = .idle
    · obtain ⟨rfl, -, hsettled⟩ := hclose hopen hclosing
      rw [called_of_unmarked (h.opened hopen)]
      refine ⟨by simp, fun i packet plaintext hmem => ?_⟩
      have hmem : .registered i packet plaintext ∈ transported tr := by
        simpa [transported_append, transported] using hmem
      refine ⟨hmem, h.recorded.returned i none ?_⟩
      rcases h.recorded.registered i packet plaintext hmem with ⟨p, b, hframe⟩ | ⟨ec, hframe⟩
      · rcases hsettled i with hidle | hreturned
        · rw [hframe] at hidle
          cases hidle
        · rw [hframe] at hreturned
          cases hreturned
      · exact (hsettled i).resolve_left (by simp [hframe])
    · obtain ⟨hcalled, hall⟩ := h.closed hopen
      rw [called_append hcalled]
      refine ⟨List.mem_append_left _ hcalled, fun i packet plaintext hmem => ?_⟩
      rw [transported_append] at hmem
      refine hall i packet plaintext ((List.mem_append.mp hmem).resolve_right fun hnew => ?_)
      exact (h.frozen hs hadmits hsingle' hstarting' hopen i).2 _ hnew rfl

/-- The program moves by itself. -/
theorem Tended.alone {stopped' : Prop} (h : Tended .idle stopped tr s) (hgoing : ¬ stopped) :
    Tended .idle stopped' tr s := by
  refine { h with failed := fun i ec hfailed => ?_ }
  rcases h.failed i ec hfailed with hsending | ⟨ec', hcall⟩ | hstop
  · exact Or.inl hsending
  · cases hcall
  · exact absurd hstop hgoing

/-- The program goes on with a response. -/
theorem Tended.took {stopped' : Prop} {response : Response}
    (h : Tended (.returned response) stopped tr s) (hgoing : ¬ stopped)
    (hfailed : ∀ ec, response = .sent (some ec) → stopped') : Tended .idle stopped' tr s := by
  refine { h with
    busy := fun i hbusy => Or.inr ((h.busy i hbusy).resolve_left (by simp))
    failed := fun i ec hframe => ?_
    draining := fun hdraining => absurd (h.draining hdraining) (by simp) }
  rcases h.failed i ec hframe with hsending | ⟨ec', hcall⟩ | hstop
  · exact Or.inl hsending
  · exact Or.inr (Or.inr (hfailed ec' (ProgramFrame.returned.inj hcall)))
  · exact absurd hstop hgoing

end Step

end Dialogue
end FileHopZ

import FileHopZ.Dialogue.History
import FileHopZ.Receiver.Unhindered

/-! # The receiver's side

`Receiver::start` as a program that uses a stream.  Until the user has agreed it builds nothing;
then it handles the chunks that it receives one after the other, each of them accepted, up to the
one that ends the transfer.
-/
namespace FileHopZ
namespace Receiver

/-- What `start` asks of the stream.  A packet without payload is its header. -/
def request (r : Receiver) : Request :=
  match r.frame with
  | .announcing => .receive
  | .asking => .nothing
  | .confirming => .send (answerHeader .confirm).toBytes
  | .refusing => .send (answerHeader .confirmFailed).toBytes
  | .transferring => .receive
  | .closing => .close
  | .returned _ => .nothing

def Event.response : Event → Option Response
  | .received arrival => some (.received arrival.result)
  | .answered _ => none
  | .sent ec => some (.sent ec)
  | .closed ec => some (.closed ec)

/-- The possible steps. -/
inductive Step (r : Receiver) : Event → Receiver → Prop
  | announced (arrival : Arrival) (hframe : r.frame = .announcing) :
      Step r (.received arrival) (r.announced arrival)
  | answered (line : String) (hframe : r.frame = .asking) :
      Step r (.answered line) (r.answered line).1
  | unconfirmed (ec : Error) (hframe : r.frame = .confirming) :
      Step r (.sent (some ec)) { r with frame := .returned (some ec) }
  | confirmed (hframe : r.frame = .confirming) : Step r (.sent none) { r with frame := .transferring }
  | refused (ec : Option Error) (hframe : r.frame = .refusing) :
      Step r (.sent ec) { r with frame := .returned ec }
  | transferred (arrival : Arrival) (hframe : r.frame = .transferring) :
      Step r (.received arrival) (r.transferred arrival).1
  | closed (ec : Option Error) (hframe : r.frame = .closing) :
      Step r (.closed ec) { r with frame := .returned ec }

theorem step_cases {r r' : Receiver} {e : Event} {out : List Observation}
    (hs : r.step e = some (r', out)) : Step r e r' := by
  unfold step at hs
  split at hs
  · obtain ⟨rfl, -⟩ := Prod.mk.inj (Option.some.inj hs)
    exact .announced _ ‹_›
  · have hanswered := (Prod.mk.inj (Option.some.inj hs)).1
    exact hanswered ▸ .answered _ ‹_›
  · obtain ⟨rfl, -⟩ := Prod.mk.inj (Option.some.inj hs)
    exact .unconfirmed _ ‹_›
  · obtain ⟨rfl, -⟩ := Prod.mk.inj (Option.some.inj hs)
    exact .confirmed ‹_›
  · obtain ⟨rfl, -⟩ := Prod.mk.inj (Option.some.inj hs)
    exact .refused _ ‹_›
  · have htransferred := (Prod.mk.inj (Option.some.inj hs)).1
    exact htransferred ▸ .transferred _ ‹_›
  · obtain ⟨rfl, -⟩ := Prod.mk.inj (Option.some.inj hs)
    exact .closed _ ‹_›
  · cases hs

/-- A call of `send` that fails ends `start`. -/
theorem stops (r : Receiver) (e : Event) (r' : Receiver) (ec : Error)
    (hs : (r.step e).map Prod.fst = some r') (he : e.response = some (.sent (some ec))) :
    r'.request = .nothing ∧ ∀ e', (r'.step e').map Prod.fst = none := by
  obtain ⟨⟨r'', out⟩, hstep, rfl⟩ := Option.map_eq_some_iff.mp hs
  cases step_cases hstep with
  | unconfirmed | refused => exact ⟨rfl, fun e' => rfl⟩
  | announced | answered | confirmed | transferred | closed => cases he

/-- `Receiver::start` as a program. -/
def program : Program where
  State := Receiver
  Event := Event
  step r e := (r.step e).map Prod.fst
  request := request
  response := Event.response
  stops := stops

/-! ## What it has taken -/

/-- The packets by which the user agrees, and does not. -/
def agreement : Bytes := (answerHeader .confirm).toBytes
def refusal : Bytes := (answerHeader .confirmFailed).toBytes

/-- The receiver sends nothing but its answer. -/
theorem request_eq {r : Receiver} {data : Bytes} (h : r.request = .send data) :
    data = agreement ∧ r.frame = .confirming ∨ data = refusal ∧ r.frame = .refusing := by
  cases hframe : r.frame with
  | confirming =>
      rw [request, hframe] at h
      exact Or.inl ⟨(Request.send.inj h).symm, rfl⟩
  | refusing =>
      rw [request, hframe] at h
      exact Or.inr ⟨(Request.send.inj h).symm, rfl⟩
  | _ =>
      rw [request, hframe] at h
      cases h

/-- What has been passed to `send` and received when the receiver is in a frame. -/
inductive Takes (start r : Receiver) : ReceiverFrame → List Bytes → List Chunk → Prop
  | announcing (hr : r = start) : Takes start r .announcing [] []
  /-- The announcement has come, and the user has not agreed or `CONFIRM` has not been sent. -/
  | announced (arrival : Arrival) (chunk : Chunk) (frame : ReceiverFrame)
      (hresult : arrival.result = .ok chunk) (hr : r = { start.announced arrival with frame := frame })
      (hframe : frame = .asking ∨ frame = .confirming ∨ frame = .refusing) :
      Takes start r frame [] [chunk]
  | transferring (arrival : Arrival) (chunk : Chunk) (arrivals : List Arrival)
      (chunks : List Chunk) (hresult : arrival.result = .ok chunk)
      (hresults : List.Forall₂ (fun a c => a.result = .ok c) arrivals chunks)
      (hrun : arrivals.foldlM acceptArrival { start.announced arrival with frame := .transferring } =
        some r) (hflag : r.endTransferFlag = false) :
      Takes start r .transferring [agreement] (chunk :: chunks)
  | closing (asked : List Bytes) (got : List Chunk) (hagreed : agreement ∈ asked) :
      Takes start r .closing asked got
  | returned (ec : Option Error) (asked : List Bytes) (got : List Chunk)
      (hquiet : agreement ∈ asked ∨ r.disk = start.disk) : Takes start r (.returned ec) asked got

section Takes
variable {start r r' : Receiver} {asked more : List Bytes} {got : List Chunk}

/-- The announcement changes nothing on the disk. -/
theorem announced_frame (start : Receiver) (arrival : Arrival) :
    (start.announced arrival).disk = start.disk ∧
      (start.announced arrival).endTransferFlag = start.endTransferFlag ∧
      ((∃ chunk, arrival.result = .ok chunk ∧ (start.announced arrival).frame = .asking) ∨
        ∃ ec, (start.announced arrival).frame = .returned (some ec)) := by
  unfold announced
  cases arrival.result with
  | error ec => exact ⟨rfl, rfl, Or.inr ⟨ec, rfl⟩⟩
  | ok chunk =>
      simp only [bind, Except.bind]
      split
      · exact ⟨rfl, rfl, Or.inr ⟨_, rfl⟩⟩
      · exact ⟨rfl, rfl, Or.inl ⟨chunk, rfl, rfl⟩⟩

theorem announced_builder (r : Receiver) (arrival : Arrival) :
    (r.announced arrival).fileBuilder = r.fileBuilder := by
  unfold announced
  split
  · rfl
  · rfl

/-- What the loop of `start_transfer` does with what `receive` has returned. -/
inductive Transferred (r : Receiver) (arrival : Arrival) : Receiver → Prop
  | malformed (ec : Error)
      (hresult : arrival.result >>= startTransferPacket arrival.memory = .error ec) :
      Transferred r arrival (r.abandon arrival ec)
  | refused (chunk : Chunk) (packet : FTProto.Packet) (r₁ : Receiver) (ec : Error)
      (out : List Observation) (hresult : arrival.result = .ok chunk)
      (hpacket : startTransferPacket arrival.memory chunk = .ok packet)
      (hhandled : r.handlePacket arrival.faults arrival.beyond packet = (r₁, some ec, out)) :
      Transferred r arrival (r₁.abandon arrival ec)
  | accepted (chunk : Chunk) (packet : FTProto.Packet) (r₁ : Receiver) (out : List Observation)
      (hresult : arrival.result = .ok chunk)
      (hpacket : startTransferPacket arrival.memory chunk = .ok packet)
      (hhandled : r.handlePacket arrival.faults arrival.beyond packet = (r₁, none, out))
      (hflag : r₁.endTransferFlag = false) : Transferred r arrival r₁
  | ended (chunk : Chunk) (packet : FTProto.Packet) (r₁ : Receiver) (out : List Observation)
      (hresult : arrival.result = .ok chunk)
      (hpacket : startTransferPacket arrival.memory chunk = .ok packet)
      (hhandled : r.handlePacket arrival.faults arrival.beyond packet = (r₁, none, out))
      (hflag : r₁.endTransferFlag = true) : Transferred r arrival (r₁.finishTransfer arrival)

theorem transferred_cases (r : Receiver) (arrival : Arrival) :
    Transferred r arrival (r.transferred arrival).1 := by
  unfold transferred
  cases hpacket : arrival.result >>= startTransferPacket arrival.memory with
  | error ec => exact .malformed ec hpacket
  | ok packet =>
      cases hresult : arrival.result with
      | error ec =>
          rw [hresult] at hpacket
          cases hpacket
      | ok chunk =>
          rw [hresult] at hpacket
          dsimp only
          obtain ⟨r₁, ec, out, hhandled⟩ : ∃ r₁ ec out,
              r.handlePacket arrival.faults arrival.beyond packet = (r₁, ec, out) :=
            ⟨_, _, _, rfl⟩
          rw [hhandled]
          cases ec with
          | some ec => exact .refused chunk packet r₁ ec out hresult hpacket hhandled
          | none =>
              cases hflag : r₁.endTransferFlag with
              | false =>
                  dsimp only
                  rw [hflag]
                  exact .accepted chunk packet r₁ out hresult hpacket hhandled hflag
              | true =>
                  dsimp only
                  rw [hflag]
                  exact .ended chunk packet r₁ out hresult hpacket hhandled hflag

theorem acceptArrival_eq {arrival : Arrival} {chunk : Chunk} {packet : FTProto.Packet}
    (hresult : arrival.result = .ok chunk)
    (hpacket : startTransferPacket arrival.memory chunk = .ok packet) (r : Receiver) :
    r.acceptArrival arrival =
      r.accept { packet := packet, beyond := arrival.beyond, faults := arrival.faults } := by
  have hboth : arrival.result >>= startTransferPacket arrival.memory = .ok packet := by
    rw [hresult]
    exact hpacket
  rw [acceptArrival, hboth]

theorem acceptArrival_of_handled {arrival : Arrival} {chunk : Chunk} {packet : FTProto.Packet}
    {out : List Observation} (hresult : arrival.result = .ok chunk)
    (hpacket : startTransferPacket arrival.memory chunk = .ok packet)
    (hhandled : r.handlePacket arrival.faults arrival.beyond packet = (r', none, out)) :
    r.acceptArrival arrival = some r' := by
  rw [acceptArrival_eq hresult hpacket, accept, hhandled]

theorem finishTransfer_frame (r : Receiver) (arrival : Arrival) :
    (r.finishTransfer arrival).endTransferFlag = r.endTransferFlag ∧
      ((r.finishTransfer arrival).frame = .closing ∨
        ∃ ec, (r.finishTransfer arrival).frame = .returned (some ec)) := by
  unfold finishTransfer
  split
  dsimp only
  split
  · exact ⟨rfl, Or.inr ⟨_, rfl⟩⟩
  · exact ⟨rfl, Or.inl rfl⟩

/-- A packet that is accepted only builds. -/
theorem keeps_acceptArrival {arrival : Arrival} (h : r.acceptArrival arrival = some r') :
    r'.frame = r.frame ∧ r'.fileBuilder.root = r.fileBuilder.root := by
  unfold acceptArrival accept at h
  split at h
  · cases h
  · rename_i packet _
    obtain ⟨hkeeps, hframe⟩ := keeps_handlePacket arrival.faults arrival.beyond packet r
    dsimp only at h
    split at h
    · rename_i hhandled
      obtain rfl := Option.some.inj h
      rw [hhandled] at hkeeps hframe
      exact ⟨hframe, hkeeps.root⟩
    · cases h

theorem root_accepted {arrivals : List Arrival} (h : arrivals.foldlM acceptArrival r = some r') :
    r'.fileBuilder.root = r.fileBuilder.root := by
  induction arrivals generalizing r with
  | nil => rw [← Option.some.inj h]
  | cons arrival arrivals ih =>
      rw [List.foldlM_cons] at h
      obtain ⟨r₁, hfirst, hrest⟩ := Option.bind_eq_some_iff.mp h
      rw [ih hrest, (keeps_acceptArrival hfirst).2]

/-- Only `END_TRANSFER` ends the transfer, and it does nothing else. -/
theorem handlePacket_flag (faults : PacketFaults) (beyond : Nat → UInt8) (packet : FTProto.Packet)
    (r : Receiver) : (r.handlePacket faults beyond packet).1.endTransferFlag = r.endTransferFlag ∨
      packet.header.type = .endTransfer ∧
        r.handlePacket faults beyond packet = ({ r with endTransferFlag := true }, none, []) := by
  unfold handlePacket
  dsimp only
  split
  · exact Or.inl rfl
  · exact Or.inl rfl
  · split
    · exact Or.inl rfl
    · exact Or.inl rfl
  · split_ifs
    · split
      · exact Or.inl rfl
      · exact Or.inl rfl
    · exact Or.inl rfl
  · exact Or.inl rfl
  · rename_i htype
    split_ifs
    · exact Or.inl rfl
    · exact Or.inr ⟨htype, rfl⟩
  · exact Or.inl rfl

theorem endTransfer_of_flag {faults : PacketFaults} {beyond : Nat → UInt8}
    {packet : FTProto.Packet} {ec : Option Error} {out : List Observation}
    (h : r.handlePacket faults beyond packet = (r', ec, out)) (hbefore : r.endTransferFlag = false)
    (hafter : r'.endTransferFlag = true) :
    packet.header.type = .endTransfer ∧ r' = { r with endTransferFlag := true } := by
  obtain hsame | ⟨htype, heq⟩ := handlePacket_flag faults beyond packet r
  · rw [h] at hsame
    rw [show r'.endTransferFlag = _ from hsame, hbefore] at hafter
    cases hafter
  · exact ⟨htype, (Prod.mk.inj (h.symm.trans heq)).1⟩

/-- The packet that has ended the transfer. -/
theorem ended_by_packet {arrival : Arrival} (hbefore : r.endTransferFlag = false)
    (hended : (r.transferred arrival).1.endTransferFlag = true) :
    ∃ chunk packet, arrival.result = .ok chunk ∧
      startTransferPacket arrival.memory chunk = .ok packet ∧ packet.header.type = .endTransfer ∧
      (r.transferred arrival).1 = finishTransfer arrival { r with endTransferFlag := true } := by
  have hcases := transferred_cases r arrival
  generalize (r.transferred arrival).1 = r' at hcases hended
  cases hcases with
  | malformed ec =>
      rw [show r.endTransferFlag = true from hended] at hbefore
      cases hbefore
  | refused chunk packet r₁ ec out hresult hpacket hhandled =>
      obtain hsame | ⟨-, heq⟩ := handlePacket_flag arrival.faults arrival.beyond packet r
      · rw [hhandled] at hsame
        rw [← show r₁.endTransferFlag = _ from hsame, show r₁.endTransferFlag = true from hended]
          at hbefore
        cases hbefore
      · cases hhandled.symm.trans heq
  | accepted _ _ _ _ _ _ _ hflag =>
      rw [hflag] at hended
      cases hended
  | ended chunk packet r₁ out hresult hpacket hhandled hflag =>
      obtain ⟨hend, rfl⟩ := endTransfer_of_flag hhandled hbefore hflag
      exact ⟨chunk, packet, hresult, hpacket, hend, rfl⟩

/-- The loop is left for `close` when the transfer has ended. -/
theorem ended_of_closing {arrival : Arrival} (hframe : r.frame = .transferring)
    (h : (r.transferred arrival).1.frame = .closing) :
    (r.transferred arrival).1.endTransferFlag = true := by
  have hcases := transferred_cases r arrival
  generalize (r.transferred arrival).1 = r' at hcases h
  cases hcases with
  | malformed | refused => cases h
  | accepted _ _ _ _ hresult hpacket hhandled =>
      rw [(keeps_acceptArrival (acceptArrival_of_handled hresult hpacket hhandled)).1, hframe] at h
      cases h
  | ended _ _ r₁ _ _ _ _ hflag => rw [(finishTransfer_frame r₁ arrival).1, hflag]

/-- **The step lemma.** -/
theorem takes_step (hflag : start.endTransferFlag = false)
    (h : Takes start r r.frame asked got) {e : Event} {out : List Observation}
    (hs : r.step e = some (r', out)) (hpassed : r.request.Passed e.response more) :
    Takes start r' r'.frame (asked ++ more) (got ++ Response.chunk e.response) := by
  cases step_cases hs with
  | announced arrival hframe =>
      rw [hframe] at h
      obtain rfl := hpassed.eq_nil (by simp [Event.response])
      cases h with
      | announcing hr =>
          subst hr
          obtain ⟨hdisk, -, ⟨chunk, hresult, hasking⟩ | ⟨ec, hreturned⟩⟩ := announced_frame r arrival
          · rw [hasking, Event.response, hresult]
            exact .announced arrival chunk .asking hresult (by rw [← hasking]) (Or.inl rfl)
          · rw [hreturned]
            exact .returned _ _ _ (Or.inr hdisk)
      | announced _ _ _ _ _ hkind => simp at hkind
  | answered line hframe =>
      rw [hframe] at h
      obtain rfl := hpassed.eq_nil (by simp [Event.response])
      cases h with
      | announced arrival chunk _ hresult hr =>
          subst hr
          unfold answered
          split_ifs
          · exact .announced arrival chunk .confirming hresult rfl (Or.inr (Or.inl rfl))
          · exact .announced arrival chunk .refusing hresult rfl (Or.inr (Or.inr rfl))
          · exact .announced arrival chunk .asking hresult rfl (Or.inl rfl)
  | unconfirmed ec hframe =>
      rw [hframe] at h
      cases h with
      | announced arrival chunk _ hresult hr =>
          subst hr
          exact .returned _ _ _ (Or.inr (announced_frame start arrival).1)
  | confirmed hframe =>
      have hmore : more = [agreement] := hpassed.eq_of_sent (by rw [request, hframe]; rfl) rfl
      rw [hframe] at h
      cases h with
      | announced arrival chunk _ hresult hr =>
          subst hr hmore
          exact .transferring arrival chunk [] [] hresult .nil rfl
            ((announced_frame start arrival).2.1.trans hflag)
  | refused ec hframe =>
      rw [hframe] at h
      cases h with
      | announced arrival chunk _ hresult hr =>
          subst hr
          exact .returned _ _ _ (Or.inr (announced_frame start arrival).1)
  | transferred arrival hframe =>
      rw [hframe] at h
      obtain rfl := hpassed.eq_nil (by simp [Event.response])
      cases h with
      | announced _ _ _ _ _ hkind => simp at hkind
      | transferring first chunk arrivals chunks hresult hresults hrun hflag =>
          have hagreed : agreement ∈ [agreement] ++ [] := List.mem_singleton_self _
          have hcases := transferred_cases r arrival
          generalize (r.transferred arrival).1 = r' at hcases
          cases hcases with
          | malformed | refused => exact .returned _ _ _ (Or.inl hagreed)
          | accepted chunk' packet _ _ hresult' hpacket hhandled hflag' =>
              have haccept := acceptArrival_of_handled hresult' hpacket hhandled
              rw [(keeps_acceptArrival haccept).1, hframe, Event.response, hresult']
              refine .transferring first chunk (arrivals ++ [arrival]) (chunks ++ [chunk']) hresult
                (List.rel_append hresults (.cons hresult' .nil)) ?_ hflag'
              rw [List.foldlM_append, hrun]
              exact (congrArg (fun o => o >>= fun r => some r) haccept)
          | ended _ _ r₁ =>
              obtain ⟨-, hclosing | ⟨ec, hreturned⟩⟩ := finishTransfer_frame r₁ arrival
              · rw [hclosing]
                exact .closing _ _ hagreed
              · rw [hreturned]
                exact .returned _ _ _ (Or.inl hagreed)
  | closed ec hframe =>
      rw [hframe] at h
      cases h with
      | announced _ _ _ _ _ hkind => simp at hkind
      | closing _ _ hagreed => exact .returned _ _ _ (Or.inl (List.mem_append_left _ hagreed))

/-- **The run lemma.** -/
theorem takes_reaches (hframe : start.frame = .announcing) (hflag : start.endTransferFlag = false)
    (h : program.Reaches start asked got r) : Takes start r r.frame asked got := by
  refine h.invariant (I := fun asked got (r : Receiver) => Takes start r r.frame asked got)
    (by rw [hframe]; exact .announcing rfl) ?_
  intro asked more got r e r' ih hs hpassed
  obtain ⟨⟨r'', out⟩, hstep, rfl⟩ := Option.map_eq_some_iff.mp hs
  exact takes_step hflag ih hstep hpassed

/-- Nothing has been sent before the user has answered. -/
theorem Takes.unanswered {frame : ReceiverFrame} (h : Takes start r frame asked got)
    (hearly : frame = .announcing ∨ frame = .asking ∨ frame = .refusing) : asked = [] := by
  cases h with
  | announcing | announced => rfl
  | transferring | closing | returned => simp at hearly

/-- Nothing is built before `CONFIRM` has been sent. -/
theorem Takes.quiet {frame : ReceiverFrame} (h : Takes start r frame asked got) :
    agreement ∈ asked ∨ r.disk = start.disk := by
  cases h with
  | announcing hr => exact Or.inr (congrArg disk hr)
  | announced arrival _ _ _ hr =>
      rw [hr]
      exact Or.inr (announced_frame start arrival).1
  | transferring => exact Or.inl (List.mem_singleton_self _)
  | closing _ _ hagreed => exact Or.inl hagreed
  | returned _ _ _ hquiet => exact hquiet

end Takes

end Receiver
end FileHopZ

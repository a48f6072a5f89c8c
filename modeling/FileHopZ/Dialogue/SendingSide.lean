import FileHopZ.Dialogue.History
import FileHopZ.Sender.Process

/-! # The sender's side

`Sender::start` as a program that uses a stream.  However it ends, what it has passed to `send` is
a first part of a transcript of the source: the announcement, the entries one after the other, and
`END_TRANSFER`.
-/
namespace FileHopZ
open FileSystem FileBuilder

namespace SenderProcess

/-- What `start` asks of the stream. -/
def request (p : SenderProcess) : Request :=
  match p.frame with
  | .announcing packet => .send packet.asBytes
  | .confirming => .receive
  | .handling packet _ => .send packet.asBytes
  | .ending packet => .send packet.asBytes
  | .closing => .close
  | .returned _ => .nothing

def Event.response : Event → Option Response
  | .sent ec _ => some (.sent ec)
  | .received result _ => some (.received result)
  | .closed ec => some (.closed ec)

/-- A call of `send` that fails ends `start`. -/
theorem stops (sys : System) (p : SenderProcess) (e : Event) (p' : SenderProcess) (ec : Error)
    (hs : p.step sys e = some p') (he : e.response = some (.sent (some ec))) :
    p'.request = .nothing ∧ ∀ e', p'.step sys e' = none := by
  cases e with
  | received | closed => cases he
  | sent ec' memory =>
      obtain rfl := Response.sent.inj (Option.some.inj he)
      have hreturned : p'.frame = .returned (some ec) := by
        cases step_cases hs
        rfl
      refine ⟨by rw [request, hreturned], fun e' => ?_⟩
      unfold step
      rw [hreturned]

/-- `Sender::start` as a program. -/
def program (sys : System) : Program where
  State := SenderProcess
  Event := Event
  step := step sys
  request := request
  response := Event.response
  stops := stops sys

/-! ## What it is going to send -/

/-- All that is sent when nothing fails. -/
def Transcript (source : Source) (total : List Bytes) : Prop :=
  ∃ ms groups memory memory', Enumerates source.tree [] ms ∧
    List.Forall₂ (Sender.EntryChunks source) ms groups ∧
    total = (Sender.announcementPacket memory (.ofNat source.size)).asBytes ::
      (groups.flatten ++ [(Sender.endTransferPacket memory').asBytes])

/-- A first part of it: the announcement and the entries `visited`. -/
def Begun (source : Source) (visited : List (List Bytes)) (asked : List Bytes) : Prop :=
  ∃ memory groups, List.Forall₂ (Sender.EntryChunks source) visited groups ∧
    asked = (Sender.announcementPacket memory (.ofNat source.size)).asBytes :: groups.flatten

/-- What has been passed to `send` when the process is in a frame. -/
inductive Passes (sys : System) (source : Source) (p : SenderProcess) :
    SenderFrame → List Bytes → Prop
  | announcing (memory : FTProto.Packet) (ms : List (List Bytes))
      (henum : Enumerates source.tree [] ms)
      (hsees : List.Forall₂ (Sees sys source) (p.walker.visits sys).1 ms) :
      Passes sys source p (.announcing (Sender.announcementPacket memory (.ofNat source.size))) []
  | confirming (asked : List Bytes) (ms : List (List Bytes)) (hbegun : Begun source [] asked)
      (henum : Enumerates source.tree [] ms)
      (hsees : List.Forall₂ (Sees sys source) (p.walker.visits sys).1 ms) :
      Passes sys source p .confirming asked
  | handling (visited ms : List (List Bytes)) (m : List Bytes) (v : FileSystem.Node Bytes UInt8)
      (memory : Nat → FTProto.Packet) (fileId : UInt32) (before asked : List Bytes)
      (done : List FTProto.Packet) (packet : FTProto.Packet) (left : List FTProto.Packet)
      (hbegun : Begun source visited before) (henum : Enumerates source.tree [] (visited ++ m :: ms))
      (hsees : List.Forall₂ (Sees sys source) (p.walker.visits sys).1 ms)
      (hnode : source.tree.node m = some v)
      (hpackets : Sender.entryPackets memory fileId (FsPath.joined m) v = done ++ packet :: left)
      (hasked : asked = before ++ done.map FTProto.Packet.asBytes) :
      Passes sys source p (.handling packet left) asked
  | ending (visited : List (List Bytes)) (asked : List Bytes) (memory : FTProto.Packet)
      (hbegun : Begun source visited asked) (henum : Enumerates source.tree [] visited) :
      Passes sys source p (.ending (Sender.endTransferPacket memory)) asked
  | closing (total : List Bytes) (htotal : Transcript source total) :
      Passes sys source p .closing total
  | returned (ec : Option Error) (asked total : List Bytes) (htotal : Transcript source total)
      (hpart : asked <+: total) : Passes sys source p (.returned ec) asked

section Passes
variable {sys : System} {source : Source} {visited ms : List (List Bytes)} {asked : List Bytes}

/-- The entries that are left could be sent. -/
theorem exists_groups (hms : ∀ m ∈ ms, m ∈ source.entries) :
    ∃ groups, List.Forall₂ (Sender.EntryChunks source) ms groups := by
  induction ms with
  | nil => exact ⟨[], .nil⟩
  | cons m ms ih =>
      obtain ⟨groups, hgroups⟩ := ih fun m' hm' => hms m' (List.mem_cons_of_mem _ hm')
      obtain ⟨-, v, hv⟩ := Source.there (hms m List.mem_cons_self)
      exact ⟨_ :: groups, .cons ⟨fun _ => Sender.zeroPacket, 0, v, hv, rfl⟩ hgroups⟩

/-- So what has begun is a first part of a transcript. -/
theorem Begun.extends (h : Begun source visited asked)
    (henum : Enumerates source.tree [] (visited ++ ms)) :
    ∃ total, Transcript source total ∧ asked <+: total := by
  obtain ⟨memory, groups, hgroups, rfl⟩ := h
  obtain ⟨groups', hgroups'⟩ := @exists_groups source ms fun m hm =>
    (Source.mem_entries_iff henum m).mp (List.mem_append_right _ hm)
  refine ⟨_, ⟨visited ++ ms, groups ++ groups', memory, Sender.zeroPacket, henum,
    List.rel_append hgroups hgroups', rfl⟩, ?_⟩
  rw [List.flatten_append, List.append_assoc, ← List.cons_append]
  exact List.prefix_append _ _

/-- One entry more. -/
theorem Begun.next (h : Begun source visited asked) {m : List Bytes}
    {v : FileSystem.Node Bytes UInt8} (hv : source.tree.node m = some v)
    (memory : Nat → FTProto.Packet) (fileId : UInt32) :
    Begun source (visited ++ [m]) (asked ++
      (Sender.entryPackets memory fileId (FsPath.joined m) v).map FTProto.Packet.asBytes) := by
  obtain ⟨memory', groups, hgroups, rfl⟩ := h
  refine ⟨memory', groups ++ [_],
    List.rel_append hgroups (.cons ⟨memory, fileId, v, hv, rfl⟩ .nil), ?_⟩
  rw [List.flatten_append, List.flatten_singleton, List.cons_append]

/-- What has been passed to `send`, and what is being passed to it, is a first part of a
transcript. -/
theorem Passes.first {p : SenderProcess} {frame : SenderFrame}
    (h : Passes sys source p frame asked) (hframe : p.frame = frame) :
    (∃ total, Transcript source total ∧ asked <+: total) ∧
      ∀ data, p.request = .send data → ∃ total, Transcript source total ∧ asked ++ [data] <+: total := by
  have hwhole : (∃ data, p.request = .send data ∧
      ∃ total, Transcript source total ∧ asked ++ [data] <+: total) →
      (∃ total, Transcript source total ∧ asked <+: total) ∧
        ∀ data, p.request = .send data →
          ∃ total, Transcript source total ∧ asked ++ [data] <+: total := by
    rintro ⟨data, hdata, total, htotal, hpart⟩
    refine ⟨⟨total, htotal, (List.prefix_append _ _).trans hpart⟩, fun data' hdata' => ?_⟩
    obtain rfl := Request.send.inj (hdata.symm.trans hdata')
    exact ⟨total, htotal, hpart⟩
  unfold request at hwhole ⊢
  rw [hframe] at hwhole ⊢
  cases h with
  | announcing memory ms henum =>
      exact hwhole ⟨_, rfl, @Begun.extends source [] ms _ ⟨memory, [], .nil, rfl⟩ henum⟩
  | confirming _ ms hbegun henum => exact ⟨hbegun.extends henum, by simp⟩
  | handling visited ms m v memory fileId before _ done packet left hbegun henum _ hnode hpackets
      hasked =>
      refine hwhole ⟨_, rfl, ?_⟩
      have hnext := hbegun.next hnode memory fileId
      rw [List.append_cons] at henum
      obtain ⟨total, htotal, hpart⟩ := hnext.extends henum
      refine ⟨total, htotal, List.IsPrefix.trans ?_ hpart⟩
      rw [hasked, hpackets, List.map_append, List.map_cons, List.append_assoc,
        List.prefix_append_right_inj, List.prefix_append_right_inj]
      exact ⟨_, rfl⟩
  | ending visited _ memory hbegun henum =>
      obtain ⟨memory', groups, hgroups, rfl⟩ := hbegun
      exact hwhole ⟨_, rfl, _, ⟨visited, groups, memory', memory, henum, hgroups, rfl⟩,
        List.prefix_rfl⟩
  | closing _ htotal => exact ⟨⟨_, htotal, List.prefix_rfl⟩, by simp⟩
  | returned ec _ total htotal hpart => exact ⟨⟨total, htotal, hpart⟩, by simp⟩

/-- The loop of `start_transfer` goes on with the next entry. -/
theorem passes_goOn (hroom : Sender.AllHaveRoom source) {p : SenderProcess}
    (hbegun : Begun source visited asked) (henum : Enumerates source.tree [] (visited ++ ms))
    (hsees : List.Forall₂ (Sees sys source) (p.walker.visits sys).1 ms)
    (memory : Nat → FTProto.Packet) :
    Passes sys source (p.goOn sys memory) (p.goOn sys memory).frame asked := by
  unfold goOn
  split
  · rename_i w hnext
    rw [FileWalker.visits_of_false hnext] at hsees
    obtain rfl := List.forall₂_nil_left_iff.mp hsees
    rw [List.append_nil] at henum
    exact .ending visited asked (memory 0) hbegun henum
  · rename_i w hnext
    rw [FileWalker.visits_of_true hnext] at hsees
    cases hsees with
    | @cons _ m _ ms hw hrest =>
        have hmem : m ∈ source.entries := (Source.mem_entries_iff henum m).mp (by simp)
        obtain ⟨hne, v, hv⟩ := Source.there hmem
        obtain ⟨s', packet, left, hpackets, hentry⟩ :=
          pathPackets_eq memory (hroom m v hne hv) p.sender
        rw [hw.relative, (hw.shown v hv).status, hpackets]
        exact .handling visited ms m v memory p.sender.fileIdCounter asked asked [] packet left
          hbegun henum hrest hv hentry (List.append_nil _).symm

/-- **The step lemma.** -/
theorem passes_step (hroom : Sender.AllHaveRoom source) {p p' : SenderProcess} {e : Event}
    {more : List Bytes} (h : Passes sys source p p.frame asked) (hs : p.step sys e = some p')
    (hpassed : p.request.Passed e.response more) :
    Passes sys source p' p'.frame (asked ++ more) := by
  obtain ⟨hnow, hdata⟩ := h.first rfl
  -- an error ends `start`
  have hfailed : ∀ (q : SenderProcess) (ec : Option Error), q.frame = .returned ec →
      (more = [] ∨ ∃ data, p.request = .send data ∧ more = [data]) →
      Passes sys source q q.frame (asked ++ more) := by
    rintro q ec hq hmore
    rw [hq]
    rcases hmore with rfl | ⟨data, hrequest, rfl⟩
    · obtain ⟨total, htotal, hpart⟩ := hnow
      rw [List.append_nil]
      exact .returned ec asked total htotal hpart
    · obtain ⟨total, htotal, hpart⟩ := hdata data hrequest
      exact .returned ec _ total htotal hpart
  cases step_cases hs with
  | failed packet ec memory hframe =>
      exact hfailed _ _ rfl hpassed.of_failed
  | announced packet memory hframe =>
      have hmore : more = [packet.asBytes] := hpassed.eq_of_sent (by rw [request, hframe]) rfl
      rw [hmore]
      rw [hframe] at h
      cases h with
      | announcing memory ms henum hsees =>
          exact .confirming _ ms ⟨memory, [], .nil, rfl⟩ henum hsees
  | unanswered ec memory hframe =>
      obtain rfl := hpassed.eq_nil (by simp [Event.response])
      exact hfailed _ _ rfl (Or.inl rfl)
  | answered chunk memory hframe =>
      obtain rfl := hpassed.eq_nil (by simp [Event.response])
      unfold SenderProcess.answered
      split_ifs
      · exact hfailed _ _ rfl (Or.inl rfl)
      · rw [hframe] at h
        rw [List.append_nil]
        cases h with
        | confirming _ ms hbegun henum hsees => exact passes_goOn hroom hbegun henum hsees memory
      · exact hfailed _ _ rfl (Or.inl rfl)
  | more packet next left memory hframe =>
      have hmore : more = [packet.asBytes] := hpassed.eq_of_sent (by rw [request, hframe]) rfl
      rw [hmore]
      rw [hframe] at h
      cases h with
      | handling visited ms m v memory' fileId before _ done _ _ hbegun henum hsees hnode hpackets
          hasked =>
          refine .handling visited ms m v memory' fileId before _ (done ++ [packet]) next left hbegun
            henum hsees hnode ?_ ?_
          · rw [hpackets, List.append_cons]
          · rw [hasked, List.map_append, List.append_assoc]
            rfl
  | handled packet memory hframe =>
      have hmore : more = [packet.asBytes] := hpassed.eq_of_sent (by rw [request, hframe]) rfl
      rw [hmore]
      rw [hframe] at h
      cases h with
      | handling visited ms m v memory' fileId before _ done _ _ hbegun henum hsees hnode hpackets
          hasked =>
          have hnext := hbegun.next hnode memory' fileId
          rw [hpackets, List.map_append, ← List.append_assoc, ← hasked] at hnext
          rw [List.append_cons] at henum
          exact passes_goOn hroom hnext henum hsees memory
  | ended packet memory hframe =>
      have hmore : more = [packet.asBytes] := hpassed.eq_of_sent (by rw [request, hframe]) rfl
      rw [hmore]
      rw [hframe] at h
      cases h with
      | ending visited _ memory' hbegun henum =>
          obtain ⟨memory, groups, hgroups, rfl⟩ := hbegun
          exact .closing _ ⟨visited, groups, memory, memory', henum, hgroups, rfl⟩
  | closed ec hframe =>
      obtain rfl := hpassed.eq_nil (by simp [Event.response])
      exact hfailed _ _ rfl (Or.inl rfl)

/-- Where it starts. -/
theorem passes_start {root : List Bytes} (hshows : Shows sys root source)
    (memory : FTProto.Packet) :
    Passes sys source (start sys root memory) (start sys root memory).frame [] := by
  obtain ⟨⟨ms₀, henum₀, hsees₀⟩, ms, henum, hsees⟩ := Source.visits_construct hshows
  have hcount := Sender.countBytes_eq hsees₀
    (fun m hm => (Source.mem_entries_iff henum₀ m).mp hm) {}
  rw [Source.sum_sizeAt henum₀, UInt64.zero_add] at hcount
  unfold start
  dsimp only
  rw [hcount]
  exact .announcing memory ms henum hsees

/-- **The run lemma.** -/
theorem passes_reaches {root : List Bytes} (hshows : Shows sys root source)
    (hroom : Sender.AllHaveRoom source) {memory : FTProto.Packet} {got : List Chunk}
    {p : SenderProcess} (h : (program sys).Reaches (start sys root memory) asked got p) :
    Passes sys source p p.frame asked :=
  h.invariant (I := fun asked _ (p : SenderProcess) => Passes sys source p p.frame asked)
    (passes_start hshows memory)
    (fun _ _ _ _ _ _ ih hs hpassed => passes_step hroom ih hs hpassed)

/-! ## Success -/

/-- Nothing but the announcement is sent before the receiver has agreed. -/
inductive Agreed (asked : List Bytes) (got : List Chunk) : SenderFrame → Prop
  | announcing (packet : FTProto.Packet) (hasked : asked = []) : Agreed asked got (.announcing packet)
  | waiting (frame : SenderFrame) (hasked : asked.length ≤ 1)
      (hframe : frame = .confirming ∨ ∃ ec, frame = .returned ec) : Agreed asked got frame
  | agreed (frame : SenderFrame) (chunk : Chunk) (hgot : chunk ∈ got)
      (htype : (FTProto.PacketHeader.ofBytes (Receiver.chunkBytes chunk)).type = .confirm) :
      Agreed asked got frame

theorem agreed_step {p p' : SenderProcess} {e : Event} {more : List Bytes} {got : List Chunk}
    (h : Agreed asked got p.frame) (hs : p.step sys e = some p')
    (hpassed : p.request.Passed e.response more) :
    Agreed (asked ++ more) (got ++ Response.chunk e.response) p'.frame := by
  have hkept : (∃ chunk ∈ got,
      (FTProto.PacketHeader.ofBytes (Receiver.chunkBytes chunk)).type = .confirm) →
      Agreed (asked ++ more) (got ++ Response.chunk e.response) p'.frame := by
    rintro ⟨chunk, hgot, htype⟩
    exact .agreed _ chunk (List.mem_append_left _ hgot) htype
  cases step_cases hs with
  | failed packet ec memory hframe =>
      generalize hsame : p.frame = frame at h
      cases h with
      | announcing packet' hasked =>
          refine .waiting _ ?_ (Or.inr ⟨_, rfl⟩)
          rcases hpassed.of_failed with rfl | ⟨data, -, rfl⟩ <;> simp [hasked]
      | waiting _ _ hwaiting =>
          rw [hsame] at hframe
          rcases hwaiting with rfl | ⟨ec', rfl⟩ <;> simp at hframe
      | agreed _ chunk hgot htype => exact hkept ⟨chunk, hgot, htype⟩
  | announced packet memory hframe =>
      have hmore : more = [packet.asBytes] := hpassed.eq_of_sent (by rw [request, hframe]) rfl
      rw [hframe] at h
      cases h with
      | announcing _ hasked => exact .waiting _ (by simp [hasked, hmore]) (Or.inl rfl)
      | waiting _ _ hwaiting => simp at hwaiting
      | agreed _ chunk hgot htype => exact hkept ⟨chunk, hgot, htype⟩
  | unanswered ec memory hframe =>
      obtain rfl := hpassed.eq_nil (by simp [Event.response])
      rw [hframe] at h
      rw [List.append_nil]
      cases h with
      | waiting _ hasked => exact .waiting _ hasked (Or.inr ⟨_, rfl⟩)
      | agreed _ chunk hgot htype => exact .agreed _ chunk (List.mem_append_left _ hgot) htype
  | answered chunk memory hframe =>
      obtain rfl := hpassed.eq_nil (by simp [Event.response])
      rw [hframe] at h
      rw [List.append_nil]
      cases h with
      | waiting _ hasked =>
          unfold SenderProcess.answered
          split_ifs with hsize htype
          · exact .waiting _ hasked (Or.inr ⟨_, rfl⟩)
          · exact .agreed _ chunk (by simp [Event.response, Response.chunk]) htype
          · exact .waiting _ hasked (Or.inr ⟨_, rfl⟩)
      | agreed _ chunk' hgot htype => exact .agreed _ chunk' (List.mem_append_left _ hgot) htype
  | more packet next left memory hframe | handled packet memory hframe
  | ended packet memory hframe | closed ec hframe =>
      rw [hframe] at h
      cases h with
      | waiting _ _ hwaiting => simp at hwaiting
      | agreed _ chunk hgot htype => exact hkept ⟨chunk, hgot, htype⟩

theorem agreed_reaches {root : List Bytes} {memory : FTProto.Packet} {got : List Chunk}
    {p : SenderProcess} (h : (program sys).Reaches (start sys root memory) asked got p) :
    Agreed asked got p.frame :=
  h.invariant (I := fun asked got (p : SenderProcess) => Agreed asked got p.frame)
    (.announcing _ rfl) (fun _ _ _ _ _ _ ih hs hpassed => agreed_step ih hs hpassed)

end Passes

end SenderProcess
end FileHopZ

import FileHopZ.Dialogue.SendingSide
import FileHopZ.Receiver.Abandoning

/-! # A transfer

A sender and a receiver, each with its stream, from their constructors to the end, over a network
that loses, repeats and reorders packets.
-/
namespace FileHopZ
open FileSystem FileTree FileBuilder

namespace Transfer
variable {P : Primitives}
open Dialogue

/-- The sender initiates the handshake, the receiver responds. -/
def party (sys : System) : Role → Program
  | .initiator => SenderProcess.program sys
  | .responder => Receiver.program

/-- Both at the start. -/
def start (sys : System) (root : List Bytes) (memory : FTProto.Packet) (r : Receiver) :
    ∀ side, (party sys side).State
  | .initiator => SenderProcess.start sys root memory
  | .responder => r

/-- A transfer that has been started. -/
def construct (P : Primitives) (sys : System) (root : List Bytes) (memory : FTProto.Packet)
    (r : Receiver) (address : Role → Endpoint) : Dialogue P (party sys) :=
  Dialogue.construct P (party sys) address (start sys root memory r)

/-- The receiver in a transfer. -/
def receiver {sys : System} (d : Dialogue P (party sys)) : Receiver := d.state .responder

section Run
variable {sys : System} {root : List Bytes} {memory : FTProto.Packet} {r : Receiver}
  {address : Role → Endpoint} {tr : List (Role × Dialogue.Observation)} {d : Dialogue P (party sys)}

/-- What the receiver has got and passed on. -/
theorem takes_run {ok : Dialogue P (party sys) → Event P (party sys) → Prop}
    (hframe : r.frame = .announcing) (hflag : r.endTransferFlag = false)
    (hrun : Transition.Run step ok (construct P sys root memory r address) tr d) :
    ∃ before, Receiver.Takes r (receiver d) (receiver d).frame before (got (shown .responder tr)) ∧
      (asked (shown .responder tr) = before ∨ ∃ data, (receiver d).request = .send data ∧
        asked (shown .responder tr) = before ++ [data]) := by
  obtain ⟨before, hreaches, hasked⟩ := (follows_run hrun .responder).reaches
  exact ⟨before, Receiver.takes_reaches hframe hflag hreaches, hasked⟩

/-- **Agreement.**  While the user has been shown nothing, or has been asked, or has refused,
`CONFIRM` has not been sent; and before it has been sent, the sender has sent at most the
announcement, and nothing has been built. -/
theorem agreement_first (hP : P.Lawful) (hframe : r.frame = .announcing)
    (hflag : r.endTransferFlag = false)
    (hrun : Transition.Run step (Fair address) (construct P sys root memory r address) tr d) :
    ((receiver d).frame = .announcing ∨ (receiver d).frame = .asking ∨
        (receiver d).frame = .refusing → Receiver.agreement ∉ asked (shown .responder tr)) ∧
      (Receiver.agreement ∉ asked (shown .responder tr) →
        (asked (shown .initiator tr)).length ≤ 1 ∧ (receiver d).disk = r.disk) := by
  obtain ⟨before, htakes, hasked⟩ := takes_run hframe hflag hrun
  refine ⟨fun hearly hagreed => ?_, fun hnone => ⟨?_, ?_⟩⟩
  · rw [htakes.unanswered hearly] at hasked
    rcases hasked with hasked | ⟨data, hrequest, hasked⟩
    · rw [hasked] at hagreed
      cases hagreed
    · rw [hasked, List.nil_append, List.mem_singleton] at hagreed
      subst hagreed
      rcases Receiver.request_eq hrequest with ⟨-, hconfirming⟩ | ⟨hsame, -⟩
      · rw [hconfirming] at hearly
        simp at hearly
      · exact absurd hsame (by decide)
  · obtain ⟨passed, hreaches, hpassed⟩ := (follows_run hrun .initiator).reaches
    have hagreed := SenderProcess.agreed_reaches hreaches
    have hsilent : (∀ data, SenderProcess.request (d.state .initiator) ≠ .send data) →
        asked (shown .initiator tr) = passed := by
      intro hnot
      rcases hpassed with hsame | ⟨data, hrequest, -⟩
      · exact hsame
      · exact absurd hrequest (hnot data)
    generalize hsender : SenderProcess.frame (d.state .initiator) = frame at hagreed
    cases hagreed with
    | announcing packet hnil =>
        rcases hpassed with hsame | ⟨data, -, hsame⟩
        · rw [hsame, hnil]
          exact Nat.zero_le _
        · rw [hsame, hnil]
          exact le_refl _
    | waiting _ hlength hwaiting =>
        rw [hsilent]
        · exact hlength
        · intro data
          unfold SenderProcess.request
          rcases hwaiting with rfl | ⟨ec, rfl⟩
          · rw [hsender]
            simp
          · rw [hsender]
            simp
    | agreed _ chunk hgot htype =>
        -- what the sender has received is what the receiver has sent
        have hmem := ((channel_run hP hrun).exchanged .initiator).subset hgot
        obtain ⟨data, hdata, rfl⟩ := List.mem_map.mp hmem
        obtain ⟨s, hs⟩ := (follows_run hrun .responder).requested hdata
        rcases Receiver.request_eq hs with ⟨rfl, -⟩ | ⟨rfl, -⟩
        · exact absurd hdata hnone
        · exact absurd htype (by decide)
  · rcases htakes.quiet with hagreed | hdisk
    · refine absurd ?_ hnone
      rcases hasked with hasked | ⟨data, -, hasked⟩
      · rw [hasked]
        exact hagreed
      · rw [hasked]
        exact List.mem_append_left _ hagreed
    · exact hdisk

/-! ## The end of the transfer -/

/-- No packet of an entry ends the transfer. -/
theorem type_entryPackets {memory : Nat → FTProto.Packet} {fileId : UInt32} {relativePath : Bytes}
    {v : FileSystem.Node Bytes UInt8} {p : FTProto.Packet} (hroom : Sender.HasRoom relativePath v)
    (hp : p ∈ Sender.entryPackets memory fileId relativePath v) : p.header.type ≠ .endTransfer := by
  cases v with
  | directory =>
      rw [List.mem_singleton.mp hp, Sender.directoryPacket_eq _ _ hroom.path]
      simp [Sender.filled]
  | symlink target =>
      rw [List.mem_singleton.mp hp]
      simp [Sender.symlinkPacket, Sender.filled]
  | file contents =>
      rcases List.mem_cons.mp hp with rfl | hp
      · simp [Sender.filePacket]
      · rcases List.mem_append.mp hp with hp | hp
        · obtain ⟨m, data, -, rfl⟩ := Sender.dataPackets_mem hp
          simp [Sender.dataPacket, Sender.filled]
        · rw [List.mem_singleton.mp hp]
          simp [Sender.endFilePacket]

theorem entry_of_mem {source : Source} {ms groups : List (List Bytes)}
    (h : List.Forall₂ (Sender.EntryChunks source) ms groups) {group : List Bytes}
    (hgroup : group ∈ groups) : ∃ m ∈ ms, Sender.EntryChunks source m group := by
  induction h with
  | nil => cases hgroup
  | @cons m _ ms _ hchunks _ ih =>
      rcases List.mem_cons.mp hgroup with rfl | hgroup
      · exact ⟨m, List.mem_cons_self, hchunks⟩
      · obtain ⟨m', hm', hchunks'⟩ := ih hgroup
        exact ⟨m', List.mem_cons_of_mem _ hm', hchunks'⟩

/-- A chunk that ends the transfer is the last one: all entries have come. -/
theorem whole_of_end {source : Source} (hroom : Sender.AllHaveRoom source) {rest : List Bytes}
    (hrest : Receiver.Entries source rest) {chunk : Chunk} {chunks : List Chunk}
    (hpart : chunks ++ [chunk] <+: rest.map Session.carrying)
    {memory q : FTProto.Packet} (hq : Receiver.startTransferPacket memory chunk = .ok q)
    (hend : q.header.type = .endTransfer) :
    ∃ ms groups, Enumerates source.tree [] ms ∧
      List.Forall₂ (Sender.EntryChunks source) ms groups ∧
      chunks = groups.flatten.map Session.carrying := by
  obtain ⟨ms, groups, memory', henum, hgroups, rfl⟩ := hrest
  rw [List.map_append, List.map_singleton, List.prefix_concat_iff] at hpart
  rcases hpart with hall | hshort
  · exact ⟨ms, groups, henum, hgroups, (List.append_inj' hall rfl).1⟩
  · -- the chunk would be one of an entry
    obtain ⟨bytes, hbytes, hchunk⟩ := List.mem_map.mp (hshort.subset (List.mem_append_right _
      (List.mem_singleton_self chunk)))
    obtain ⟨group, hgroup, hbytes⟩ := List.mem_flatten.mp hbytes
    obtain ⟨m, hm, memory₁, fileId, v, hv, rfl⟩ := entry_of_mem hgroups hgroup
    obtain ⟨p, hp, rfl⟩ := List.mem_map.mp hbytes
    have hhas := hroom m v (Source.there ((Source.mem_entries_iff henum m).mp hm)).1 hv
    have hreadable := Sender.readable_entryPackets hhas p hp
    obtain ⟨q', hq', hheader, -⟩ :=
      Receiver.startTransferPacket_asBytes memory hreadable.type hreadable.size
    rw [← hchunk] at hq
    obtain rfl := Except.ok.inj (hq.symm.trans hq')
    rw [hheader] at hend
    exact absurd hend (type_entryPackets hhas hp)

/-- The receiver goes on with what a call of `receive` has returned. -/
def arrives (P : Primitives) (sys : System) (arrival : Receiver.Arrival) : Event P (party sys) :=
  .program .responder (Receiver.Event.received arrival)

/-- What happens to the receiver with the events of a transfer. -/
theorem receiver_step {d' : Dialogue P (party sys)} {e : Event P (party sys)}
    {out : List (Role × Dialogue.Observation)} (hs : d.step e = some (d', out)) :
    receiver d' = receiver d ∨ ∃ e' : Receiver.Event, e = .program .responder e' ∧
      Receiver.Step (receiver d) e' (receiver d') := by
  cases e with
  | stream mover e =>
      obtain ⟨-, -, -, -, hstate, -⟩ := step_stream hs
      exact Or.inl (by rw [receiver, hstate, receiver])
  | program mover e =>
      obtain ⟨s, hstep, -, hstate, -⟩ := step_program hs
      cases mover with
      | initiator => exact Or.inl (by rw [receiver, hstate, Function.update_of_ne (by simp), receiver])
      | responder =>
          have hself : receiver d' = s := by rw [receiver, hstate, Function.update_self]
          obtain ⟨⟨r', shown'⟩, hreceiver, hsame⟩ := Option.map_eq_some_iff.mp hstep
          refine Or.inr ⟨e, rfl, ?_⟩
          rw [hself, ← hsame]
          exact Receiver.step_cases hreceiver

/-- In the loop of `start_transfer` it goes on with the chunk. -/
theorem receiver_arrives {arrival : Receiver.Arrival} {d' : Dialogue P (party sys)}
    {out : List (Role × Dialogue.Observation)} (hs : d.step (arrives P sys arrival) = some (d', out))
    (hbefore : (receiver d).frame = .transferring) :
    receiver d' = ((receiver d).transferred arrival).1 := by
  obtain ⟨s, hstep, -, hstate, -⟩ := step_program hs
  have hself : receiver d' = s := by rw [receiver, hstate, Function.update_self]
  obtain ⟨⟨r', shown'⟩, hreceiver, hsame⟩ := Option.map_eq_some_iff.mp hstep
  rw [hself, ← hsame]
  cases Receiver.step_cases hreceiver with
  | transferred => rfl
  | announced _ hframe =>
      rw [show (receiver d).frame = _ from hframe] at hbefore
      cases hbefore

/-- When the receiver goes on with a chunk, the sender has sent nothing more. -/
theorem arrives_step {arrival : Receiver.Arrival} {d' : Dialogue P (party sys)}
    {out : List (Role × Dialogue.Observation)} (hs : d.step (arrives P sys arrival) = some (d', out))
    {chunk : Chunk} (hresult : arrival.result = .ok chunk) :
    got (shown .responder (tr ++ out)) = got (shown .responder tr) ++ [chunk] ∧
      asked (shown .initiator (tr ++ out)) = asked (shown .initiator tr) := by
  obtain ⟨s, -, -, -, hcase⟩ := step_program hs
  obtain ⟨hnone, -⟩ | ⟨response, hresponse, -, -, hout⟩ := hcase
  · cases hnone
  · have htook : response = .received (.ok chunk) := by
      rw [← hresult]
      exact (Option.some.inj hresponse).symm
    rw [hout, htook]
    have hresponder : shown .responder (tr ++ [(.responder, .took (.received (.ok chunk)))]) =
        shown .responder tr ++ [.took (.received (.ok chunk))] :=
      shown_append_self .responder tr [.took (.received (.ok chunk))]
    have hinitiator : shown .initiator (tr ++ [(.responder, .took (.received (.ok chunk)))]) =
        shown .initiator tr :=
      shown_append_of_ne (by simp) tr [.took (.received (.ok chunk))]
    rw [hresponder, hinitiator, got_append]
    exact ⟨rfl, rfl⟩

/-- The receiver is in the loop of `start_transfer`: it has been told the size of the source, and
has accepted a first part of what comes after the announcement. -/
structure Underway (source : Source) (staging : Location Bytes) (r r₀ : Receiver)
    (d : Dialogue P (party sys)) (arrivals : List Receiver.Arrival) (chunks : List Chunk)
    (rest : List Bytes) : Prop where
  told : r₀.Told source staging
  disk : r₀.disk = r.disk
  root : r₀.fileBuilder.root = r.fileBuilder.root
  entries : Receiver.Entries source rest
  accepted : arrivals.foldlM Receiver.acceptArrival r₀ = some (receiver d)
  took : Receiver.Took arrivals chunks
  first : chunks <+: rest.map Session.carrying
  flag : (receiver d).endTransferFlag = false
  next : ∀ arrival d' out chunk, d.step (arrives P sys arrival) = some (d', out) →
    arrival.result = .ok chunk → chunks ++ [chunk] <+: rest.map Session.carrying

/-- What the sender has sent is a first part of a transcript. -/
theorem asked_first {source : Source} (hshows : Shows sys root source)
    (hroom : Sender.AllHaveRoom source)
    (hrun : Transition.Run step (Fair address) (construct P sys root memory r address) tr d) :
    ∃ total, SenderProcess.Transcript source total ∧ asked (shown .initiator tr) <+: total := by
  obtain ⟨passed, hreaches, hpassed⟩ := (follows_run hrun .initiator).reaches
  obtain ⟨hnow, hdata⟩ := (SenderProcess.passes_reaches hshows hroom hreaches).first rfl
  rcases hpassed with hsame | ⟨data, hrequest, hsame⟩
  · rw [hsame]
    exact hnow
  · rw [hsame]
    exact hdata data hrequest

theorem underway_run (hP : P.Lawful) {source : Source} (hshows : Shows sys root source)
    (hroom : Sender.AllHaveRoom source) (htotal : source.size < 2 ^ 64)
    {staging : Location Bytes} (hfresh : r.Fresh staging) (hframe : r.frame = .announcing)
    (hflag : r.endTransferFlag = false)
    (hrun : Transition.Run step (Fair address) (construct P sys root memory r address) tr d)
    (hbefore : (receiver d).frame = .transferring) :
    ∃ r₀ arrivals chunks rest, Underway source staging r r₀ d arrivals chunks rest := by
  obtain ⟨before, htakes, -⟩ := takes_run hframe hflag hrun
  rw [hbefore] at htakes
  obtain ⟨total, ⟨ms, groups, memory', memory'', henum, hgroups, rfl⟩, hasked⟩ :=
    asked_first hshows hroom hrun
  have hexchanged := ((channel_run hP hrun).exchanged .responder).trans (hasked.map Session.carrying)
  have hnext : ∀ arrival d' out chunk, d.step (arrives P sys arrival) = some (d', out) →
      arrival.result = .ok chunk → got (shown .responder tr) ++ [chunk] <+:
        ((Sender.announcementPacket memory' (.ofNat source.size)).asBytes ::
          (groups.flatten ++ [(Sender.endTransferPacket memory'').asBytes])).map Session.carrying := by
    intro arrival d' out chunk hs hresult
    obtain ⟨hgot, hsame⟩ := @arrives_step P sys tr d arrival d' out hs chunk hresult
    have hmore := ((channel_run hP hrun).proceed hs).exchanged .responder
    rw [hgot, show Role.responder.peer = .initiator from rfl, hsame] at hmore
    exact hmore.trans (hasked.map Session.carrying)
  generalize got (shown .responder tr) = taken at htakes hexchanged hnext
  cases htakes with
  | announced _ _ _ _ _ hkind => simp at hkind
  | transferring announcement first arrivals chunks hannounced hresults hrun' hnot =>
      rw [List.map_cons, List.cons_prefix_cons] at hexchanged
      obtain ⟨rfl, hfirst⟩ := hexchanged
      refine ⟨_, arrivals, chunks, _, Receiver.told_announced hfresh htotal hannounced,
        (Receiver.announced_frame r announcement).1,
        congrArg FileBuilder.root (Receiver.announced_builder r announcement),
        ⟨ms, groups, memory'', henum, hgroups, rfl⟩, hrun', hresults, hfirst, hnot, ?_⟩
      intro arrival d' out chunk hs hresult
      have hmore := hnext arrival d' out chunk hs hresult
      rw [List.cons_append, List.map_cons, List.cons_prefix_cons] at hmore
      exact hmore.2

/-- **The packet that ends the transfer.**  When the receiver has accepted `END_TRANSFER`, it has
received all that there was, and the staging directory is a copy of the source. -/
theorem copied_of_ended (hP : P.Lawful) {source : Source} (hshows : Shows sys root source)
    (hroom : Sender.AllHaveRoom source) (htotal : source.size < 2 ^ 64)
    {staging : Location Bytes} (hfresh : r.Fresh staging) (hframe : r.frame = .announcing)
    (hflag : r.endTransferFlag = false)
    (hrun : Transition.Run step (Fair address) (construct P sys root memory r address) tr d)
    {arrival : Receiver.Arrival} {d' : Dialogue P (party sys)}
    {out : List (Role × Dialogue.Observation)} (hs : d.step (arrives P sys arrival) = some (d', out))
    (hbefore : (receiver d).frame = .transferring)
    (hended : ((receiver d).transferred arrival).1.endTransferFlag = true) :
    (∃ ms, Enumerates source.tree [] ms ∧
      Receiver.Copied source.tree staging ms r.disk (receiver d)) ∧
      (receiver d).fileBuilder.root = r.fileBuilder.root ∧
      ((receiver d).transferred arrival).1 =
        Receiver.finishTransfer arrival { receiver d with endTransferFlag := true } := by
  obtain ⟨r₀, arrivals, chunks, rest, hway⟩ :=
    underway_run hP hshows hroom htotal hfresh hframe hflag hrun hbefore
  obtain ⟨chunk, packet, hresult, hpacket, hend, heq⟩ :=
    Receiver.ended_by_packet hway.flag hended
  obtain ⟨ms, groups, henum, hgroups, rfl⟩ :=
    whole_of_end hroom hway.entries (hway.next arrival d' out chunk hs hresult) hpacket hend
  refine ⟨⟨ms, henum, ?_⟩, ?_, heq⟩
  · have hcarries : List.Forall₂ Receiver.Carries (arrivals.map Receiver.Arrival.unhindered)
        groups.flatten := by
      rw [List.forall₂_map_left_iff]
      have htook := hway.took
      rw [Receiver.Took, List.forall₂_map_right_iff] at htook
      exact htook.imp fun a bytes h => ⟨h, a.faults.absent_cleared⟩
    obtain ⟨r', hall, hcopied, -⟩ := @Receiver.copies_entries source staging _ hroom ms groups
      hgroups [] _ _ henum (hway.told.fresh.copied source.tree)
      (by rw [Source.sum_sizeAt henum]; exact hway.told.remaining.ge) hcarries
    obtain rfl := Option.some.inj ((Receiver.accepted_unhindered hway.accepted).symm.trans hall)
    rw [← hway.disk]
    exact hcopied
  · rw [Receiver.root_accepted hway.accepted, hway.root]

/-- Once all entries have come, the staging directory is a copy of the source. -/
theorem whole_copy {source : Source} {ms : List (List Bytes)} (henum : Enumerates source.tree [] ms)
    {staging : Location Bytes} {start : Disk} {r : Receiver}
    (h : Receiver.Copied source.tree staging ms start r) (m : List Bytes) :
    r.disk.node (staging ++ m) = source.tree.node m := by
  by_cases hm : m = []
  · rw [hm, List.append_nil, source.tree.root]
    exact h.there
  · rw [h.copied m hm]
    split_ifs with hmem
    · rfl
    · by_contra hthere
      exact hmem ((henum.complete m).mpr ⟨hm, Ne.symm hthere⟩)

/-- So what goes through the one goes through the other. -/
theorem enumerates_copy {source : Source} {ms : List (List Bytes)} {disk : Disk}
    {staging : Location Bytes} (henum : Enumerates source.tree [] ms)
    (hcopy : ∀ m, disk.node (staging ++ m) = source.tree.node m) : Enumerates disk staging ms := by
  refine ⟨henum.nodup, fun m => ?_, henum.parents⟩
  rw [hcopy, henum.complete m, List.nil_append]

/-- The disk holds the source in `root`, is otherwise as before, and has no staging directory. -/
structure Delivered (source : Source) (staging root : Location Bytes) (before after : Disk) :
    Prop where
  placed : ∀ m, source.tree.node m ≠ none → after.node (root ++ m) = source.tree.node m
  kept : ∀ q, ¬ staging <+: q → (∀ m, q = root ++ m → source.tree.node m = none) →
    after.node q = before.node q
  removed : ∀ q, staging <+: q → after.node q = none

end Run

/-! ## A transfer to run -/

theorem bare_root : Source.bare.tree.node [] = some .directory := rfl

theorem directory_targets (target : Bytes)
    (h : (FileSystem.Node.directory : FileSystem.Node Bytes UInt8) = .symlink target) :
    target ≠ [] ∧ 0 ∉ target := by
  cases h

/-- The directory `e`, and the link `k` to it. -/
def sampleSource : Source :=
  (Source.bare.add [] [101] .directory bare_root rfl (Receiver.fileName_letter (by decide))
    directory_targets).add
    [] [107] (.symlink [101]) (by decide) (by decide) (Receiver.fileName_letter (by decide))
      (by rintro _ ⟨⟩; decide)

/-- It is in the directory `s`. -/
def sampleSystem : System := Receiver.holding sampleSource

def sampleStart : Dialogue .additive (party sampleSystem) :=
  construct .additive sampleSystem [[115]] Sender.zeroPacket Receiver.sampleReceiver
    Session.sampleAddress

/-- What the sender passes to `send`. -/
def sampleAnnouncement : Bytes := (Sender.announcementPacket Sender.zeroPacket 0).asBytes
def sampleDirectory : Bytes := (Sender.directoryPacket Sender.zeroPacket 0 [101]).asBytes
def sampleLink : Bytes := (Sender.symlinkPacket Sender.zeroPacket [107] [101]).asBytes
def sampleEnd : Bytes := (Sender.endTransferPacket Sender.zeroPacket).asBytes

/-- The streams move. -/
def sampleStreams (es : List (Role × ProtoStream.Event .additive)) :
    List (Event .additive (party sampleSystem)) :=
  es.map fun e => .stream e.1 e.2

def sampleSender (e : SenderProcess.Event) : List (Event .additive (party sampleSystem)) :=
  [.program .initiator e]

def sampleReceives (e : Receiver.Event) : List (Event .additive (party sampleSystem)) :=
  [.program .responder e]

/-- The sender sends, and goes on. -/
def sampleSends (i : Nat) (data : Bytes) : List (Event .additive (party sampleSystem)) :=
  sampleStreams (Session.sampleSent .initiator i data) ++
    sampleSender (.sent none fun _ => Sender.zeroPacket)

/-- A packet arrives, and a call of `receive` returns its chunk. -/
def sampleArrives (side : Role) (i : Nat) (data : Bytes) (sequence : UInt32) :
    List (Event .additive (party sampleSystem)) :=
  sampleStreams ((side, .receive i) ::
    (Session.sampleTaken side (Session.sampleSealedPacket data sequence) ++
      [(side, .resumeReceive i)]))

def sampleArrival (data : Bytes) : Receiver.Arrival :=
  { result := .ok (Session.carrying data), memory := Sender.zeroPacket }

/-- Up to the announcement. -/
def sampleAsked : List (Event .additive (party sampleSystem)) :=
  sampleStreams Session.sampleShaken ++ sampleSends 1 sampleAnnouncement ++
    sampleArrives .responder 0 sampleAnnouncement 1 ++
    sampleReceives (.received (sampleArrival sampleAnnouncement))

/-- From the user's agreement to the arrival of the link. -/
def sampleConfirmed : List (Event .additive (party sampleSystem)) :=
  sampleReceives (.answered "y") ++
    sampleStreams (Session.sampleSent .responder 1 Receiver.agreement) ++
    sampleReceives (.sent none) ++ sampleArrives .initiator 0 Receiver.agreement 1 ++
    sampleSender (.received (.ok (Session.carrying Receiver.agreement)) fun _ => Sender.zeroPacket) ++
    sampleSends 2 sampleDirectory ++ sampleSends 3 sampleLink ++ sampleSends 4 sampleEnd ++
    sampleArrives .responder 1 sampleDirectory 2 ++
    sampleReceives (.received (sampleArrival sampleDirectory)) ++
    sampleArrives .responder 2 sampleLink 3

/-- And to the arrival of the last packet. -/
def sampleTransferred : List (Event .additive (party sampleSystem)) :=
  sampleConfirmed ++ sampleReceives (.received (sampleArrival sampleLink)) ++
    sampleArrives .responder 3 sampleEnd 4

/-- The last packet; `commit` goes through the two entries. -/
def sampleLast : Receiver.Arrival :=
  { sampleArrival sampleEnd with commit := { entries := [([[101]], {}), ([[107]], {})] } }

/-- The sender has sent the announcement, and the user refuses. -/
theorem agreement_first_refused : ∃ tr d,
    Transition.Run step (Fair Session.sampleAddress) sampleStart tr d ∧
      asked (shown .initiator tr) = [sampleAnnouncement] ∧
      (asked (shown .initiator tr)).length ≤ 1 ∧
      (receiver d).disk = Receiver.sampleReceiver.disk := by
  obtain ⟨tr, d, hrun, hp⟩ := Transition.exists_run step (Fair Session.sampleAddress) sampleStart
    (sampleAsked ++ sampleReceives (.answered "n"))
    (fun tr d => decide ((receiver d).frame = .refusing) &&
      decide (asked (shown .initiator tr) = [sampleAnnouncement]))
    (fun d e => decide (Fair Session.sampleAddress d e)) (fun _ _ h => of_decide_eq_true h)
    (by decide +kernel)
  rw [Bool.and_eq_true] at hp
  obtain ⟨hearly, hquiet⟩ := agreement_first Primitives.additive_lawful rfl rfl hrun
  obtain ⟨hlength, hdisk⟩ := hquiet (hearly (Or.inr (Or.inr (of_decide_eq_true hp.1))))
  exact ⟨tr, d, hrun, of_decide_eq_true hp.2, hlength, hdisk⟩

theorem node_sampleSource {m : List Bytes} {v : FileSystem.Node Bytes UInt8} (hne : m ≠ [])
    (hv : sampleSource.tree.node m = some v) :
    (FsPath.joined m).length = 1 ∧ (v = .directory ∨ v = .symlink [101]) := by
  have hmem : m ∈ [[[101]], [[107]]] :=
    (sampleSource.enumerates.complete m).mpr ⟨hne, by
      rw [List.nil_append, hv]
      simp⟩
  simp only [List.mem_cons, List.not_mem_nil, or_false] at hmem
  rcases hmem with rfl | rfl
  · exact ⟨by decide, Or.inl (Option.some.inj hv).symm⟩
  · exact ⟨by decide, Or.inr (Option.some.inj hv).symm⟩

theorem sampleSource_room : Sender.AllHaveRoom sampleSource := by
  intro m v hne hv
  obtain ⟨hpath, hkind⟩ := node_sampleSource hne hv
  have hroom : 2 + 1 + 1 ≤ FTProto.packetSize := by decide
  refine ⟨by omega, fun target htarget => ?_⟩
  rw [htarget] at hkind
  obtain rfl : target = [101] := by simpa using hkind
  rw [hpath]
  exact hroom

theorem sampleSource_shown : Shows sampleSystem [[115]] sampleSource := by
  refine Receiver.shows_holding fun m contents hv => ?_
  by_cases hm : m = []
  · rw [hm, sampleSource.tree.root] at hv
    cases hv
  · have hkind := (node_sampleSource hm hv).2
    simp at hkind

end Transfer
end FileHopZ

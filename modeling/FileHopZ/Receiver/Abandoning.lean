import FileHopZ.Dialogue.ReceivingSide
import FileHopZ.RoundTrip

/-! # A transfer that fails

The packets of a source lead nowhere but into the staging directory: what is on the way to an
entry has been made by the packets before it.  So as long as the transfer has not ended, what has
been built is inside, also when a call of the system fails half way, and `cleanup` takes it away.
-/
namespace FileHopZ
open FileSystem FileTree FileBuilder

namespace Receiver

/-! ## The first packet of an entry -/

section Copied
variable {tree start : Disk} {staging : Location Bytes} {visited : List (List Bytes)}
  {r : Receiver} {m : List Bytes} {v : FileSystem.Node Bytes UInt8}

/-- The path of the next entry leads into the staging directory. -/
theorem Copied.opensInside (h : Copied tree staging visited start r)
    (hnext : Next tree visited m v) (hnames : ∀ n ∈ m, FsPath.FileName n) :
    MadeInside r.disk staging (FsPath.joined m) ∧ OpenedInside r.disk staging (FsPath.joined m) := by
  obtain ⟨hpath, hstaged⟩ := endsInName_joined hnext.ne hnames
  obtain ⟨n, heq, hnames'⟩ := hpath.stagedNames_eq
  have hparent : parentNames (FsPath.joined m) = m.dropLast := by rw [← hpath.dropLast, hstaged]
  have hdir : r.disk.node (staging ++ parentNames (FsPath.joined m)) = some .directory :=
    h.above hnext (by rw [hparent])
  have hmissing : r.disk.MissingInside staging (stagedPath (FsPath.joined m)) := by
    rw [heq]
    exact missingInside_through hpath.parent_not_mem hdir
  refine ⟨fun _ => hmissing, fun hvalid => ⟨hmissing.of_append (stagedPath_eq hvalid), ?_⟩⟩
  intro q hq
  have hfree : r.disk.node (staging ++ parentNames (FsPath.joined m) ++ [n]) = none := by
    rw [List.append_assoc, ← hnames', hstaged]
    exact h.free hnext
  have hlocate : r.disk.locate true staging (stagedPath (FsPath.joined m)) =
      .ok (staging ++ parentNames (FsPath.joined m) ++ [n]) := by
    rw [heq]
    exact locate_through hpath.parent_not_mem hdir
      fun _ target htarget => by cases hfree.symm.trans htarget
  rw [← Except.ok.inj (hlocate.symm.trans hq), List.append_assoc]
  exact Or.inl (List.prefix_append _ _)

/-- So the packet that makes it stays inside. -/
theorem Copied.staysInside (h : Copied tree staging visited start r)
    (hnext : Next tree visited m v) (hnames : ∀ n ∈ m, FsPath.FileName n)
    (hroom : Sender.HasRoom (FsPath.joined m) v) {memory : Nat → FTProto.Packet} {fileId : UInt32}
    {p : FTProto.Packet} {rest : List FTProto.Packet}
    (hp : Sender.entryPackets memory fileId (FsPath.joined m) v = p :: rest) {handling : Handling}
    (hheader : handling.packet.header = p.header) (hbytes : handling.bytes = p.payload) :
    r.StaysInside handling := by
  obtain ⟨hmade, hopened⟩ := h.opensInside hnext hnames
  intro staging' hstaging
  obtain rfl := Option.some.inj (h.stagingRoot.symm.trans hstaging)
  rw [Handling.bytes] at hbytes
  rw [hheader, hbytes]
  cases v with
  | directory =>
      obtain rfl := (List.cons.inj hp).1
      rw [Sender.directoryPacket_eq _ _ hroom.path, Sender.payload_filled hroom.path rfl]
      exact hmade
  | file contents =>
      obtain rfl := (List.cons.inj hp).1
      rw [Sender.filePacket_eq _ _ hroom.path, Sender.payload_filled hroom.path rfl]
      exact hopened
  | symlink target =>
      obtain rfl := (List.cons.inj hp).1
      have hlink := hroom.link target rfl
      have hlength := Sender.length_symlinkPayload (FsPath.joined m) target
      have hshort : (FsPath.joined m).length < 256 ^ 2 := by
        have : FTProto.packetSize < 256 ^ 2 := by decide
        omega
      rw [Sender.symlinkPacket, Sender.payload_filled (by rw [hlength]; exact hlink) (by rw [hlength])]
      intro path target' hextract
      rw [Sender.extractSymlink_symlinkPayload target hshort] at hextract
      obtain ⟨rfl, -⟩ := Prod.mk.inj (Except.ok.inj hextract)
      exact hmade

end Copied

/-! ## A first part of the packets -/

/-- What comes next, after a first part of what has been put together from groups. -/
theorem split_groups {α β : Type*} {R : α → List β → Prop} {ms : List α} {groups : List (List β)}
    (h : List.Forall₂ R ms groups) {bs : List β} {b : β} (hpart : bs ++ [b] <+: groups.flatten) :
    ∃ done m later dones part rest, ms = done ++ m :: later ∧ List.Forall₂ R done dones ∧
      R m (part ++ b :: rest) ∧ bs = dones.flatten ++ part := by
  induction h generalizing bs with
  | nil =>
      have := hpart.length_le
      simp at this
  | @cons m group ms groups hgroup _ ih =>
      rw [List.flatten_cons] at hpart
      have hhere : bs ++ [b] <+: group → ∃ done m' later dones part rest,
          m :: ms = done ++ m' :: later ∧ List.Forall₂ R done dones ∧
            R m' (part ++ b :: rest) ∧ bs = dones.flatten ++ part := by
        rintro ⟨rest, hrest⟩
        rw [← hrest, List.append_assoc] at hgroup
        exact ⟨[], m, ms, [], bs, rest, rfl, .nil, hgroup, rfl⟩
      rcases List.prefix_or_prefix_of_prefix hpart (List.prefix_append group _) with hin | hout
      · exact hhere hin
      · rcases List.prefix_concat_iff.mp hout with heq | ⟨bs', rfl⟩
        · exact hhere (heq ▸ List.prefix_rfl)
        · rw [List.append_assoc, List.prefix_append_right_inj] at hpart
          obtain ⟨done, m', later, dones, part, rest, rfl, hdone, hm', rfl⟩ := ih hpart
          exact ⟨m :: done, m', later, group :: dones, part, rest, rfl, .cons hgroup hdone, hm',
            by rw [List.flatten_cons, List.append_assoc]⟩

/-- After its first packet, an entry has only packets that make nothing. -/
theorem type_of_tail {memory : Nat → FTProto.Packet} {fileId : UInt32} {relativePath : Bytes}
    {v : FileSystem.Node Bytes UInt8} {p q : FTProto.Packet} {rest : List FTProto.Packet}
    (hp : Sender.entryPackets memory fileId relativePath v = p :: rest) (hq : q ∈ rest) :
    q.header.type = .fileData ∨ q.header.type = .endFile := by
  cases v with
  | directory | symlink target =>
      obtain rfl := (List.cons.inj hp).2
      cases hq
  | file contents =>
      obtain rfl := (List.cons.inj hp).2
      rcases List.mem_append.mp hq with hq | hq
      · obtain ⟨k, data, -, rfl⟩ := Sender.dataPackets_mem hq
        exact Or.inl rfl
      · rw [List.mem_singleton.mp hq]
        exact Or.inr rfl

theorem staysInside_of_type {r : Receiver} {handling : Handling}
    (h : handling.packet.header.type = .fileData ∨ handling.packet.header.type = .endFile ∨
      handling.packet.header.type = .endTransfer) : r.StaysInside handling := by
  intro staging _
  rcases h with h | h | h <;> rw [h] <;> trivial

/-- A receiver that has built nothing yet, and has been told the size of `source`. -/
structure Told (source : Source) (staging : Location Bytes) (r : Receiver) : Prop where
  fresh : r.Fresh staging
  remaining : r.bytesRemaining.toNat = source.size

section Part
variable {source : Source} {staging : Location Bytes} {r₀ r r' : Receiver} {ms : List (List Bytes)}
  {groups : List (List Bytes)} {arrivals : List Arrival} {chunks : List Chunk}

/-- The announcement tells it. -/
theorem told_announced (hfresh : r.Fresh staging) (htotal : source.size < 2 ^ 64)
    {announcement : Arrival} {memory : FTProto.Packet} (hresult : announcement.result =
      .ok (Session.carrying (Sender.announcementPacket memory (.ofNat source.size)).asBytes)) :
    Told source staging { r.announced announcement with frame := .transferring } := by
  obtain ⟨-, -, htold⟩ := announced_total r
    (show Carries announcement.unhindered _ from ⟨hresult, announcement.faults.absent_cleared⟩)
  have hopened : r.announced announcement = _ := htold
  rw [hopened]
  exact ⟨⟨hfresh.stagingRoot, hfresh.there, hfresh.empty, hfresh.openFiles⟩,
    UInt64.toNat_ofNat_of_lt' htotal⟩

/-- The chunks that a receiver has gone on with. -/
def Took (arrivals : List Arrival) (chunks : List Chunk) : Prop :=
  List.Forall₂ (fun a c => a.result = .ok c) arrivals chunks

theorem next_of_enumerates {done later : List (List Bytes)} {m : List Bytes}
    {v : FileSystem.Node Bytes UInt8} (henum : Enumerates source.tree [] (done ++ m :: later))
    (hv : source.tree.node m = some v) : Next source.tree done m v := by
  have hmem : m ∈ source.entries := (Source.mem_entries_iff henum m).mp (by simp)
  refine ⟨(Source.there hmem).1, hv, fun hdone => ?_, henum.parents done m later rfl⟩
  have hnodup := henum.nodup
  rw [List.nodup_append] at hnodup
  exact hnodup.2.2 m hdone m List.mem_cons_self rfl

/-- The entries that have come whole are copied, whatever comes after them. -/
theorem copies_first (hroom : Sender.AllHaveRoom source) {start : Disk}
    {done : List (List Bytes)} {dones : List (List Bytes)}
    (hdone : List.Forall₂ (Sender.EntryChunks source) done dones) :
    ∀ {visited later : List (List Bytes)} {r : Receiver} {arrivals : List Arrival},
      Enumerates source.tree [] (visited ++ (done ++ later)) →
      Copied source.tree staging visited start r →
      (done.map source.sizeAt).sum ≤ r.bytesRemaining.toNat →
      List.Forall₂ Carries arrivals dones.flatten →
      ∃ r', arrivals.foldlM acceptArrival r = some r' ∧
        Copied source.tree staging (visited ++ done) start r' := by
  induction hdone with
  | nil =>
      intro visited later r arrivals _ hcopied _ hcarries
      obtain rfl := List.forall₂_nil_right_iff.mp hcarries
      exact ⟨r, rfl, by rwa [List.append_nil]⟩
  | @cons m chunks done dones hchunks _ ih =>
      intro visited later r arrivals henum hcopied hfits hcarries
      have hmem : m ∈ source.entries := (Source.mem_entries_iff henum m).mp (by simp)
      obtain ⟨hne, v, hv⟩ := Source.there hmem
      have hsize : source.sizeAt m = sizeOf v := by
        rw [Source.sizeAt, hv]
        rfl
      rw [List.map_cons, List.sum_cons, hsize] at hfits
      rw [List.flatten_cons] at hcarries
      have hhere := List.forall₂_take_append _ _ _ hcarries
      have hlater := List.forall₂_drop_append _ _ _ hcarries
      obtain ⟨r', hrun, hcopied', hcount⟩ := adds_entry hcopied (next_of_enumerates henum hv) hmem
        (hroom m v hne hv) (by omega) hchunks hhere
      obtain ⟨r'', hrun', hcopied''⟩ := @ih (visited ++ [m]) later r' _
        (by rwa [List.append_assoc]) hcopied' (by omega) hlater
      refine ⟨r'', ?_, by rwa [List.append_assoc] at hcopied''⟩
      rw [← List.take_append_drop chunks.length arrivals, List.foldlM_append, hrun]
      exact hrun'

/-- A packet of an entry stays inside, whatever fails. -/
theorem staysInside_entry (hroom : Sender.AllHaveRoom source) (hstart : r₀.Told source staging)
    (henum : Enumerates source.tree [] ms)
    (hgroups : List.Forall₂ (Sender.EntryChunks source) ms groups)
    (hrun : arrivals.foldlM acceptArrival r₀ = some r) (htook : Took arrivals chunks)
    {chunk : Chunk} (hpart : chunks ++ [chunk] <+: groups.flatten.map Session.carrying)
    {memory packet : FTProto.Packet} (hpacket : startTransferPacket memory chunk = .ok packet)
    (faults : PacketFaults) (beyond : Nat → UInt8) :
    r.StaysInside { packet := packet, beyond := beyond, faults := faults } := by
  -- the chunk is one of an entry
  obtain ⟨l, hl, hmap⟩ := List.prefix_map_iff.mp hpart
  obtain ⟨bs, l', rfl, rfl, hlast⟩ := List.map_eq_append_iff.mp hmap.symm
  obtain ⟨b, rfl, rfl⟩ := List.map_eq_singleton_iff.mp hlast
  obtain ⟨done, m, later, dones, part, rest, rfl, hdone, ⟨memory', fileId, v, hv, hchunks⟩, rfl⟩ :=
    split_groups hgroups hl
  have hnext : Next source.tree done m v := next_of_enumerates henum hv
  have hroom' := hroom m v hnext.ne hv
  obtain ⟨before, after, hpackets, rfl, hafter⟩ := List.map_eq_append_iff.mp hchunks.symm
  obtain ⟨p, after', rfl, rfl, rfl⟩ := List.map_eq_cons_iff.mp hafter
  obtain ⟨htype, hsize⟩ := Sender.readable_entryPackets hroom' p (by rw [hpackets]; simp)
  obtain ⟨q, hq, hheader, hpayload⟩ := startTransferPacket_asBytes memory htype hsize
  obtain rfl := Except.ok.inj (hpacket.symm.trans hq)
  cases before with
  | nil =>
      -- it is the first of its entry: those before it have been copied
      rw [List.map_nil, List.append_nil] at htook
      have hcarries : List.Forall₂ Carries (arrivals.map Arrival.unhindered) dones.flatten := by
        rw [List.forall₂_map_left_iff]
        rw [Took, List.forall₂_map_right_iff] at htook
        exact htook.imp fun a bytes h => ⟨h, a.faults.absent_cleared⟩
      have hsum := Source.sum_sizeAt henum
      rw [List.map_append, List.sum_append] at hsum
      obtain ⟨r', hall, hcopied⟩ := @copies_first source staging hroom r₀.disk done dones hdone
        [] (m :: later) r₀ _ henum (hstart.fresh.copied source.tree)
        (by rw [hstart.remaining]; omega) hcarries
      obtain rfl := Option.some.inj ((accepted_unhindered hrun).symm.trans hall)
      have hnames := source.names m ((Source.mem_entries_iff henum m).mp (by simp))
      refine hcopied.staysInside hnext hnames hroom' hpackets hheader ?_
      rw [Handling.bytes, FTProto.Packet.read_eq_payload (by rw [hheader]; exact hsize), hpayload]
  | cons p₀ before =>
      refine staysInside_of_type ?_
      dsimp only
      rw [hheader]
      exact (type_of_tail hpackets (by simp)).imp id Or.inl

/-- What comes after the announcement. -/
def Entries (source : Source) (rest : List Bytes) : Prop :=
  ∃ ms groups memory, Enumerates source.tree [] ms ∧
    List.Forall₂ (Sender.EntryChunks source) ms groups ∧
    rest = groups.flatten ++ [(Sender.endTransferPacket memory).asBytes]

/-- **The next packet stays inside.** -/
theorem staysInside_next (hroom : Sender.AllHaveRoom source) (hstart : r₀.Told source staging)
    {rest : List Bytes} (hrest : Entries source rest)
    (hrun : arrivals.foldlM acceptArrival r₀ = some r) (htook : Took arrivals chunks)
    {chunk : Chunk} (hpart : chunks ++ [chunk] <+: rest.map Session.carrying)
    {memory packet : FTProto.Packet} (hpacket : startTransferPacket memory chunk = .ok packet)
    (faults : PacketFaults) (beyond : Nat → UInt8) :
    r.StaysInside { packet := packet, beyond := beyond, faults := faults } := by
  obtain ⟨ms, groups, memory', henum, hgroups, rfl⟩ := hrest
  rw [List.map_append, List.map_singleton, List.prefix_concat_iff] at hpart
  rcases hpart with hall | hpart
  · -- it ends the transfer
    have hlast := List.singleton_inj.mp (List.append_inj' hall rfl).2
    obtain ⟨q, hq, hheader, -⟩ := @startTransferPacket_asBytes (Sender.endTransferPacket memory') memory
      rfl (Nat.zero_le _)
    rw [hlast] at hpacket
    obtain rfl := Except.ok.inj (hpacket.symm.trans hq)
    refine staysInside_of_type (Or.inr (Or.inr ?_))
    dsimp only
    rw [hheader]
    rfl
  · exact staysInside_entry hroom hstart henum hgroups hrun htook hpart hpacket faults beyond

/-- What `handle_packet` leaves when its packet stays inside. -/
theorem Inside.handled (hr : r.Inside staging) {faults : PacketFaults} {beyond : Nat → UInt8}
    {packet : FTProto.Packet} {ec : Option Error} {out : List Observation}
    (hstays : r.StaysInside { packet := packet, beyond := beyond, faults := faults })
    (hhandled : r.handlePacket faults beyond packet = (r', ec, out)) :
    r.disk.SameOutside staging r'.disk ∧ r'.Inside staging := by
  obtain ⟨hsame, hfiles⟩ := inside_handlePacket hr hstays
  obtain ⟨hkeeps, -⟩ := keeps_handlePacket faults beyond packet r
  dsimp only at hsame hfiles
  rw [hhandled] at hsame hfiles hkeeps
  exact ⟨hsame, hkeeps.stagingRoot.trans hr.stagingRoot, hkeeps.directories _ hr.there, hfiles⟩

/-- How a packet has been accepted. -/
theorem handled_of_accepted {arrival : Arrival} {chunk : Chunk} (hresult : arrival.result = .ok chunk)
    (h : r.acceptArrival arrival = some r') : ∃ packet out,
      startTransferPacket arrival.memory chunk = .ok packet ∧
        r.handlePacket arrival.faults arrival.beyond packet = (r', none, out) := by
  cases hpacket : startTransferPacket arrival.memory chunk with
  | error ec =>
      have hboth : arrival.result >>= startTransferPacket arrival.memory = .error ec := by
        rw [hresult]
        exact hpacket
      rw [acceptArrival, hboth] at h
      cases h
  | ok packet =>
      rw [acceptArrival_eq hresult hpacket, accept] at h
      dsimp only at h
      split at h
      · rename_i out hhandled
        obtain rfl := Option.some.inj h
        exact ⟨packet, _, rfl, hhandled⟩
      · cases h

/-- **The run lemma.**  What has been accepted has been built inside. -/
theorem inside_accepted (hroom : Sender.AllHaveRoom source) (hstart : r₀.Told source staging)
    {rest : List Bytes} (hrest : Entries source rest)
    (hrun : arrivals.foldlM acceptArrival r₀ = some r) (htook : Took arrivals chunks)
    (hpart : chunks <+: rest.map Session.carrying) :
    r₀.disk.SameOutside staging r.disk ∧ r.Inside staging := by
  induction chunks using List.reverseRecOn generalizing arrivals r with
  | nil =>
      obtain rfl := List.forall₂_nil_right_iff.mp htook
      obtain rfl := Option.some.inj hrun
      refine ⟨.refl _ _, hstart.fresh.stagingRoot, hstart.fresh.there, fun fileId file hfile => ?_⟩
      rw [hstart.fresh.openFiles, Finmap.lookup_empty] at hfile
      cases hfile
  | append_singleton chunks chunk ih =>
      have hbefore := List.forall₂_take_append _ _ _ htook
      have hlast := List.forall₂_drop_append _ _ _ htook
      rw [← List.take_append_drop chunks.length arrivals] at hrun
      generalize arrivals.take chunks.length = before at hbefore hrun
      generalize arrivals.drop chunks.length = last at hlast hrun
      obtain ⟨arrival, _, hresult, hnil, rfl⟩ := List.forall₂_cons_right_iff.mp hlast
      obtain rfl := List.forall₂_nil_right_iff.mp hnil
      rw [List.foldlM_append] at hrun
      obtain ⟨r₁, hfirst, hrun⟩ := Option.bind_eq_some_iff.mp hrun
      rw [List.foldlM_cons] at hrun
      obtain ⟨r₂, haccept, hsame⟩ := Option.bind_eq_some_iff.mp hrun
      obtain rfl := Option.some.inj hsame
      obtain ⟨hsame, hinside⟩ := ih hfirst hbefore ((List.prefix_append _ _).trans hpart)
      obtain ⟨packet, out, hpacket, hhandled⟩ := handled_of_accepted hresult haccept
      obtain ⟨hsame', hinside'⟩ := hinside.handled (staysInside_next hroom hstart hrest hfirst
        hbefore hpart hpacket arrival.faults arrival.beyond) hhandled
      exact ⟨hsame.trans hsame', hinside'⟩

end Part

/-! ## The end of the loop -/

section End
variable {staging : Location Bytes} {r : Receiver}

/-- `cleanup` takes away what is inside. -/
theorem abandoned (hr : r.Inside staging) (hne : staging ≠ []) (arrival : Arrival) (ec : Error) :
    r.disk.SameOutside staging (r.abandon arrival ec).disk ∧
      (arrival.removeAll = none →
        ∀ q, staging <+: q → (r.abandon arrival ec).disk.node q = none) := by
  have hdisk : (r.abandon arrival ec).disk =
      ((r.fileBuilder.closeAll arrival.close r.disk).2.1.removeAll arrival.removeAll staging).1 := by
    rw [abandon, FileBuilder.cleanup, hr.stagingRoot]
  rw [hdisk]
  -- what the streams have held back is put inside
  refine ⟨(FileBuilder.closeAll_inside arrival.close hr.files).trans
    fun q hq => node_removeAll_outside _ hq, fun hremoves q hq => ?_⟩
  rw [hremoves, removeAll, node_prune hne, if_pos hq]

/-- **The loop of `start_transfer` goes on**, and the transfer does not end: what is built is
inside, and if the loop is left, it is taken away. -/
theorem untouched_transferred (hr : r.Inside staging) (hne : staging ≠ []) {arrival : Arrival}
    (hstays : ∀ chunk packet, arrival.result = .ok chunk →
      startTransferPacket arrival.memory chunk = .ok packet →
      r.StaysInside { packet := packet, beyond := arrival.beyond, faults := arrival.faults })
    (hflag : (r.transferred arrival).1.endTransferFlag = false) :
    r.disk.SameOutside staging (r.transferred arrival).1.disk ∧
      ((r.transferred arrival).1.frame = r.frame ∨
        (arrival.removeAll = none →
          ∀ q, staging <+: q → (r.transferred arrival).1.disk.node q = none)) := by
  have hcases := transferred_cases r arrival
  generalize (r.transferred arrival).1 = r' at hcases hflag
  cases hcases with
  | malformed ec =>
      obtain ⟨hsame, hgone⟩ := abandoned hr hne arrival ec
      exact ⟨hsame, Or.inr hgone⟩
  | refused chunk packet r₁ ec out hresult hpacket hhandled =>
      obtain ⟨hsame, hinside⟩ := hr.handled (hstays chunk packet hresult hpacket) hhandled
      obtain ⟨hsame', hgone⟩ := abandoned hinside hne arrival ec
      exact ⟨hsame.trans hsame', Or.inr hgone⟩
  | accepted chunk packet _ out hresult hpacket hhandled =>
      obtain ⟨hsame, -⟩ := hr.handled (hstays chunk packet hresult hpacket) hhandled
      exact ⟨hsame, Or.inl (keeps_acceptArrival (acceptArrival_of_handled hresult hpacket hhandled)).1⟩
  | ended _ _ r₁ _ _ _ _ hended =>
      rw [(finishTransfer_frame r₁ arrival).1, hended] at hflag
      cases hflag

end End

end Receiver
end FileHopZ

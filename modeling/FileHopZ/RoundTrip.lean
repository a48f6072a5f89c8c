import FileHopZ.Receiver.Copying

/-! # From the source to the staging directory

What the sender gives to its stream for a source, the receiver accepts, packet by packet, if
its stream delivers it, and the staging directory is then a copy of the source.
-/
namespace FileHopZ
open FileSystem FileTree FileBuilder

namespace Receiver

/-- `transfer_confirmation` and the loop of `start_transfer`, for packets that are accepted and a
user who agrees. -/
def acceptTransfer (r : Receiver) : List Arrival → Option Receiver
  | [] => some r
  | announcement :: arrivals =>
      match announcement.result >>= transferConfirmationPacket announcement.memory with
      | .error _ => none
      | .ok _ => arrivals.foldlM acceptArrival (r.announced announcement)

section Copy
variable {source : Source} {staging : Location Bytes} {visited : List (List Bytes)}
  {start : Disk} {r : Receiver} {m : List Bytes}

/-- **The step lemma.**  The packets of the next entry add it. -/
theorem adds_entry (h : Copied source.tree staging visited start r) {v : FileSystem.Node Bytes UInt8}
    (hnext : Next source.tree visited m v) (hmem : m ∈ source.entries)
    (hroom : Sender.HasRoom (FsPath.joined m) v) (hfits : sizeOf v ≤ r.bytesRemaining.toNat)
    {chunks : List Bytes} (hchunks : Sender.EntryChunks source m chunks) {arrivals : List Arrival}
    (hcarries : List.Forall₂ Carries arrivals chunks) :
    ∃ r', arrivals.foldlM acceptArrival r = some r' ∧
      Copied source.tree staging (visited ++ [m]) start r' ∧
      r'.bytesRemaining.toNat + sizeOf v = r.bytesRemaining.toNat := by
  obtain ⟨memory, fileId, v', hv', rfl⟩ := hchunks
  obtain rfl := Option.some.inj (hnext.node.symm.trans hv')
  obtain ⟨hs, hdelivers, hfold⟩ :=
    delivers_all (Sender.readable_entryPackets hroom) hcarries
  rw [hfold]
  have hnames := source.names m hmem
  cases v with
  | directory => exact adds_directory h hnext hnames hroom rfl hdelivers
  | file contents => exact adds_file h hnext hnames hroom rfl hfits hdelivers
  | symlink target =>
      obtain ⟨hne, hzero⟩ := source.targets m target hnext.node
      exact adds_symlink h hnext hnames hroom rfl hne hzero hdelivers

/-- **The run lemma.** -/
theorem copies_entries (hroom : Sender.AllHaveRoom source) {ms : List (List Bytes)}
    {groups : List (List Bytes)} (hgroups : List.Forall₂ (Sender.EntryChunks source) ms groups) :
    ∀ {visited : List (List Bytes)} {r : Receiver} {arrivals : List Arrival},
      Enumerates source.tree [] (visited ++ ms) → Copied source.tree staging visited start r →
      (ms.map source.sizeAt).sum ≤ r.bytesRemaining.toNat →
      List.Forall₂ Carries arrivals groups.flatten →
      ∃ r', arrivals.foldlM acceptArrival r = some r' ∧
        Copied source.tree staging (visited ++ ms) start r' ∧
          r'.bytesRemaining.toNat + (ms.map source.sizeAt).sum = r.bytesRemaining.toNat := by
  induction hgroups with
  | nil =>
      intro visited r arrivals _ hcopied _ hcarries
      obtain rfl := List.forall₂_nil_right_iff.mp hcarries
      exact ⟨r, rfl, by rwa [List.append_nil], rfl⟩
  | @cons m chunks ms groups hchunks _ ih =>
      intro visited r arrivals henum hcopied hfits hcarries
      have hmem : m ∈ source.entries := (Source.mem_entries_iff henum m).mp (by simp)
      obtain ⟨hne, v, hv⟩ := Source.there hmem
      have hnext : Next source.tree visited m v := by
        refine ⟨hne, hv, fun hvisited => ?_, henum.parents visited m ms rfl⟩
        have := henum.nodup
        rw [List.nodup_append] at this
        exact this.2.2 m hvisited m List.mem_cons_self rfl
      have hsize : source.sizeAt m = sizeOf v := by
        rw [Source.sizeAt, hv]
        rfl
      rw [List.map_cons, List.sum_cons, hsize] at hfits ⊢
      -- what arrives for this entry, and for those after it
      rw [List.flatten_cons] at hcarries
      have hhere := List.forall₂_take_append _ _ _ hcarries
      have hlater := List.forall₂_drop_append _ _ _ hcarries
      obtain ⟨r', hrun, hcopied', hcount⟩ := adds_entry hcopied hnext hmem (hroom m v hne hv)
        (by omega) hchunks hhere
      obtain ⟨r'', hrun', hcopied'', hcount'⟩ := @ih (visited ++ [m]) r' _
        (by rwa [List.append_assoc]) hcopied' (by omega) hlater
      refine ⟨r'', ?_, by rwa [List.append_assoc] at hcopied'', by omega⟩
      rw [← List.take_append_drop chunks.length arrivals, List.foldlM_append, hrun]
      exact hrun'

end Copy

/-! ## The announcement and the end -/

theorem accept_endTransfer {r : Receiver} {h : Handling}
    (htype : h.packet.header.type = .endTransfer) (hremaining : r.bytesRemaining = 0) :
    r.accept h = some { r with endTransferFlag := true } := by
  rw [accept, handlePacket, htype]
  dsimp only
  rw [if_neg (not_not.mpr hremaining)]

/-- What passes the checks of `start_transfer` passes those of `transfer_confirmation`, if there
is room for the announcement. -/
theorem transferConfirmationPacket_of_startTransfer {memory q : FTProto.Packet} {chunk : Chunk}
    (hq : startTransferPacket memory chunk = .ok q) (hne : chunk.empty = false)
    (hsize : announcementSize ≤ q.header.size.toNat) :
    transferConfirmationPacket memory chunk = .ok q := by
  unfold startTransferPacket at hq
  unfold transferConfirmationPacket transferConfirmationHeader
  rw [if_neg (by rw [hne]; simp)]
  cases hheader : startTransferHeader chunk with
  | error ec =>
      rw [hheader] at hq
      cases hq
  | ok header =>
      rw [hheader] at hq
      obtain rfl := Except.ok.inj hq
      have hsize' : announcementSize ≤ header.size.toNat := hsize
      simp only [bind, Except.bind]
      rw [if_neg (not_lt.mpr hsize')]
      rfl

/-- The receiver reads the total that the sender has announced. -/
theorem announced_total (r : Receiver) {announcement : Arrival} {memory : FTProto.Packet}
    {total : UInt64}
    (h : Carries announcement (Sender.announcementPacket memory total).asBytes) : ∃ q,
      announcement.result >>= transferConfirmationPacket announcement.memory = .ok q ∧
        r.announced announcement =
          { r with bytesToTransfer := total, bytesRemaining := total, frame := .asking } := by
  have hlength : (LittleEndian.encode announcementSize total.toNat).length = announcementSize :=
    LittleEndian.length_encode _ _
  have hpacket := Sender.announcementPacket_eq memory total
  have hsize : (Sender.announcementPacket memory total).header.size = 8 := by rw [hpacket]; rfl
  have htype : FTProto.PacketType.ofByte (Sender.announcementPacket memory total).header.type.toByte =
      (Sender.announcementPacket memory total).header.type := by rw [hpacket]; rfl
  have hpayload : (Sender.announcementPacket memory total).payload =
      LittleEndian.encode announcementSize total.toNat := by
    rw [hpacket]
    exact Sender.payload_filled (by rw [hlength]; decide) (by rw [hlength]; rfl)
  obtain ⟨q, hq, hheader, hread⟩ := startTransferPacket_asBytes announcement.memory htype
    (by rw [hsize]; decide)
  have hconfirmed := transferConfirmationPacket_of_startTransfer hq rfl
    (by rw [hheader, hsize]; decide)
  refine ⟨q, ?_, ?_⟩
  · rw [h.result]
    exact hconfirmed
  · unfold announced
    rw [h.result]
    simp only [bind, Except.bind]
    rw [hconfirmed]
    dsimp only
    rw [FTProto.Packet.read_eq_payload (by rw [hheader, hsize]; decide), hread, hpayload,
      List.take_of_length_le hlength.le, LittleEndian.decode_encode_of_lt total.toNat_lt,
      UInt64.ofNat_toNat]

/-- **The round trip.**  Whatever order the entries come in and whatever lies in the memory of
either side: if the files have less than 2^64 bytes together, all that the sender sends is
accepted, nothing remains to come and no file is open, and the staging directory is a copy of
the source. -/
theorem transfer_round_trip {sys : System} {root : List Bytes} {source : Source}
    (hshows : Shows sys root source) (hroom : Sender.AllHaveRoom source)
    (htotal : source.size < 2 ^ 64) {calls : Sender.TransferCalls} (hcalls : calls.Succeed)
    {r : Receiver} {staging : Location Bytes} (hfresh : r.Fresh staging) {arrivals : List Arrival}
    (harrivals : List.Forall₂ Carries arrivals
      (({} : Sender).transferConfirmation calls sys (.construct sys root)).2.1) :
    ∃ r', r.acceptTransfer arrivals = some r' ∧ r'.bytesRemaining = 0 ∧
      r'.endTransferFlag = true ∧ r'.fileBuilder.openFiles = ∅ ∧
      ∀ m, r'.disk.node (staging ++ m) = source.tree.node m := by
  obtain ⟨ms, groups, henum, hgroups, hsent⟩ :=
    Sender.transferConfirmation_sends hshows hcalls hroom
  rw [hsent] at harrivals
  obtain ⟨announcement, rest, hannouncement, hrest, rfl⟩ :=
    List.forall₂_cons_right_iff.mp harrivals
  have hentries := List.forall₂_take_append _ _ _ hrest
  have hend := List.forall₂_drop_append _ _ _ hrest
  obtain ⟨q, hq, hannounced⟩ := announced_total r hannouncement
  have hremaining : (UInt64.ofNat source.size).toNat = source.size :=
    UInt64.toNat_ofNat_of_lt' htotal
  -- the entries
  have hfresh' : (r.announced announcement).Fresh staging := by
    rw [hannounced]
    exact ⟨hfresh.stagingRoot, hfresh.there, hfresh.empty, hfresh.openFiles⟩
  have hcounter : (r.announced announcement).bytesRemaining.toNat = source.size := by
    rw [hannounced]
    exact hremaining
  obtain ⟨r', hrun, hcopied, hcount⟩ := @copies_entries source staging _ hroom ms groups hgroups
    [] (r.announced announcement) _ henum (hfresh'.copied source.tree)
    (by rw [hcounter, Source.sum_sizeAt henum]) hentries
  rw [hcounter, Source.sum_sizeAt henum] at hcount
  have hzero : r'.bytesRemaining = 0 := UInt64.toNat_inj.mp (by
    show r'.bytesRemaining.toNat = 0
    omega)
  -- `END_TRANSFER`
  obtain ⟨last, _, hlast, hnil, hdrop⟩ := List.forall₂_cons_right_iff.mp hend
  obtain rfl := List.forall₂_nil_right_iff.mp hnil
  obtain ⟨handling, hdelivers, haccept⟩ :=
    delivers_of_carries ⟨rfl, Nat.zero_le _⟩ hlast
  have hended : r'.accept handling = some { r' with endTransferFlag := true } :=
    accept_endTransfer (by rw [hdelivers.header]; rfl) hzero
  refine ⟨{ r' with endTransferFlag := true }, ?_, hzero, rfl, hcopied.openFiles, fun m => ?_⟩
  · rw [acceptTransfer, hq]
    dsimp only
    rw [← List.take_append_drop groups.flatten.length rest, List.foldlM_append, hrun, hdrop]
    simp only [Option.bind_eq_bind, Option.bind_some]
    rw [List.foldlM_cons, haccept, hended]
    rfl
  · by_cases hm : m = []
    · rw [hm, List.append_nil, source.tree.root]
      exact hcopied.there
    · refine (hcopied.copied m hm).trans ?_
      split_ifs with hmem
      · rfl
      · -- what is no entry is not there
        by_contra hthere
        exact hmem ((henum.complete m).mpr ⟨hm, Ne.symm hthere⟩)

/-! ## Too many bytes -/

/-- How much a packet makes `bytes_remaining_` go down. -/
def dataLength (p : FTProto.Packet) : Nat :=
  if p.header.type = .fileData then p.payload.length else 0

theorem accept_remaining {r r' : Receiver} {h : Handling} {p : FTProto.Packet}
    (hdelivers : Delivers h p) (haccept : r.accept h = some r') :
    r'.bytesRemaining.toNat + dataLength p ≤ r.bytesRemaining.toNat := by
  have hcounted := (accounts_handlePacket h.faults h.beyond h.packet r).remaining
  rw [accept] at haccept
  split at haccept
  · rename_i r'' out hhandled
    obtain rfl := Option.some.inj haccept
    rw [hhandled] at hcounted
    dsimp only at hcounted
    have hwritten : dataLength p ≤ written out := by
      rw [dataLength]
      split_ifs with htype
      · -- what was accepted was written
        rw [← hdelivers.header] at htype
        rw [handlePacket, htype] at hhandled
        dsimp only at hhandled
        split_ifs at hhandled
        · split at hhandled
          · cases hhandled
          · obtain ⟨-, hout⟩ := Prod.mk.inj hhandled
            obtain ⟨-, rfl⟩ := Prod.mk.inj hout
            rw [written_wrote, ← hdelivers.bytes]
            exact le_refl _
        · cases hhandled
      · exact Nat.zero_le _
    omega
  · cases haccept

theorem accept_all_remaining {hs : List Handling} {ps : List FTProto.Packet}
    (hdelivers : List.Forall₂ Delivers hs ps) :
    ∀ {r r' : Receiver}, hs.foldlM accept r = some r' →
      r'.bytesRemaining.toNat + (ps.map dataLength).sum ≤ r.bytesRemaining.toNat := by
  induction hdelivers with
  | nil =>
      intro r r' hrun
      obtain rfl := Option.some.inj hrun
      exact le_refl _
  | @cons h p hs ps hd _ ih =>
      intro r r' hrun
      rw [List.foldlM_cons] at hrun
      cases haccept : r.accept h with
      | none =>
          rw [haccept] at hrun
          cases hrun
      | some r₁ =>
          rw [haccept] at hrun
          have hfirst := accept_remaining hd haccept
          have hrest := ih hrun
          rw [List.map_cons, List.sum_cons]
          omega

theorem sum_dataLength_entryPackets {memory : Nat → FTProto.Packet} {fileId : UInt32}
    {relativePath : Bytes} {v : FileSystem.Node Bytes UInt8}
    (hroom : Sender.HasRoom relativePath v) :
    ((Sender.entryPackets memory fileId relativePath v).map dataLength).sum = sizeOf v := by
  cases v with
  | directory =>
      rw [Sender.entryPackets, Sender.directoryPacket_eq _ _ hroom.path]
      rfl
  | symlink target => rfl
  | file contents =>
      have hdata : (Sender.dataPackets memory fileId 1 contents).map dataLength =
          (Sender.dataPackets memory fileId 1 contents).map
            fun p => p.payload.length := by
        refine List.map_congr_left fun p hp => ?_
        obtain ⟨_, _, -, rfl⟩ := Sender.dataPackets_mem hp
        exact if_pos rfl
      have hlength := congrArg List.length (@Sender.dataPackets_payload memory fileId 1 contents)
      rw [List.length_flatMap] at hlength
      rw [Sender.entryPackets, Sender.filePacket_eq _ _ hroom.path, List.map_cons, List.map_append,
        List.sum_cons, List.sum_append, hdata, hlength]
      exact (Nat.zero_add _).trans (Nat.add_zero _)

/-- The packets of the entries. -/
theorem packets_of_groups {source : Source} (hroom : Sender.AllHaveRoom source)
    {ms : List (List Bytes)} {groups : List (List Bytes)}
    (hgroups : List.Forall₂ (Sender.EntryChunks source) ms groups)
    (hms : ∀ m ∈ ms, m ∈ source.entries) : ∃ ps : List FTProto.Packet,
      groups.flatten = ps.map FTProto.Packet.asBytes ∧ (∀ p ∈ ps, Sender.Readable p) ∧
        (ps.map dataLength).sum = (ms.map source.sizeAt).sum := by
  induction hgroups with
  | nil => exact ⟨[], rfl, by simp, rfl⟩
  | @cons m chunks ms groups hchunks _ ih =>
      obtain ⟨ps, hps, hreadable, hsum⟩ := ih fun m' hm' => hms m' (List.mem_cons_of_mem _ hm')
      obtain ⟨memory, fileId, v, hv, rfl⟩ := hchunks
      have hfit := hroom m v (Source.there (hms m List.mem_cons_self)).1 hv
      refine ⟨Sender.entryPackets memory fileId (FsPath.joined m) v ++ ps, ?_, ?_, ?_⟩
      · rw [List.flatten_cons, hps, List.map_append]
      · intro p hp
        rcases List.mem_append.mp hp with hp | hp
        · exact Sender.readable_entryPackets hfit p hp
        · exact hreadable p hp
      · rw [List.map_append, List.sum_append, sum_dataLength_entryPackets hfit, hsum, List.map_cons,
          List.sum_cons, Source.sizeAt, hv]
        rfl

/-- **The converse.**  The announcement has 64 bits: a source of more bytes is not accepted. -/
theorem size_lt_of_accepted {sys : System} {root : List Bytes} {source : Source}
    (hshows : Shows sys root source) (hroom : Sender.AllHaveRoom source)
    {calls : Sender.TransferCalls} (hcalls : calls.Succeed) {r r' : Receiver}
    {arrivals : List Arrival} (harrivals : List.Forall₂ Carries arrivals
      (({} : Sender).transferConfirmation calls sys (.construct sys root)).2.1)
    (haccepted : r.acceptTransfer arrivals = some r') : source.size < 2 ^ 64 := by
  obtain ⟨ms, groups, henum, hgroups, hsent⟩ :=
    Sender.transferConfirmation_sends hshows hcalls hroom
  rw [hsent] at harrivals
  obtain ⟨announcement, rest, hannouncement, hrest, rfl⟩ :=
    List.forall₂_cons_right_iff.mp harrivals
  obtain ⟨ps, hps, hreadable, hsum⟩ := packets_of_groups hroom hgroups
    fun m hm => (Source.mem_entries_iff henum m).mp hm
  obtain ⟨q, hq, hannounced⟩ := announced_total r hannouncement
  rw [acceptTransfer, hq] at haccepted
  dsimp only at haccepted
  -- all but the last
  have hentries := List.forall₂_take_append _ _ _ hrest
  rw [← List.take_append_drop groups.flatten.length rest, List.foldlM_append] at haccepted
  rw [hps] at hentries haccepted
  obtain ⟨hs, hdelivers, hfold⟩ := delivers_all hreadable hentries
  rw [hfold] at haccepted
  cases hrun : hs.foldlM accept (r.announced announcement) with
  | none =>
      rw [hrun] at haccepted
      cases haccepted
  | some r₁ =>
      have hcount := accept_all_remaining hdelivers hrun
      rw [hsum, Source.sum_sizeAt henum, hannounced] at hcount
      have hlt := (UInt64.ofNat source.size).toNat_lt
      dsimp only at hcount
      omega

/-! ## Sources to send -/

/-- A system that has the source in the directory `s`. -/
def holding (source : Source) : System where
  symlinkStatus path := (source.tree.node path.tail).elim .other statusOf
  fileSize path := .ofNat ((source.tree.node path.tail).elim 0 sizeOf)
  iterate _ _ := source.entries.map (FsPath.entryPath [[115]])

theorem shows_holding {source : Source}
    (hsizes : ∀ m contents, source.tree.node m = some (.file contents) →
      contents.length < 2 ^ 64) : Shows (holding source) [[115]] source := by
  have hpath : ∀ m, m ≠ [] → (∀ n ∈ m, n ≠ []) → FsPath.entryPath [[115]] m = [115] :: m := by
    intro m hne hm
    obtain ⟨base, rest, hroot, hrest, hpath⟩ := FsPath.entryPath_eq [[115]]
    rcases hrest with rfl | rfl
    · rw [List.append_nil] at hroot
      rw [hpath m hne hm, ← hroot]
      rfl
    · have := congrArg List.getLast? hroot
      simp at this
  refine .directory [[115]] ?_ (fun m v hne hv => ?_) fun _ => ⟨_, source.enumerates, rfl⟩
  · show (source.tree.node []).elim .other statusOf = .directory
    rw [source.tree.root]
    rfl
  · have hmem := (source.enumerates.complete m).mpr ⟨hne, by
      rw [List.nil_append, hv]
      simp⟩
    have hnames := source.names m hmem
    rw [hpath m hne fun n hn => (hnames n hn).ne_nil]
    constructor
    · show (source.tree.node m).elim .other statusOf = statusOf v
      rw [hv]
      rfl
    · rintro contents rfl
      show (UInt64.ofNat ((source.tree.node m).elim 0 sizeOf)).toNat = contents.length
      rw [hv]
      exact UInt64.toNat_ofNat_of_lt' (hsizes m contents hv)

/-- Nothing fails, and the receiver agrees. -/
def sampleCalls : Sender.TransferCalls where
  memory := Sender.zeroPacket
  announcement := .forwarded none
  reply := .ok { size := 8, data := some (answerHeader .confirm).toBytes }
  entry _ := { memory := fun _ => Sender.zeroPacket, sending := fun _ => .forwarded none }
  endMemory := Sender.zeroPacket
  finish := .forwarded none
  close := none

theorem sampleCalls_succeed : sampleCalls.Succeed :=
  ⟨rfl, fun _ _ => rfl, rfl, _, rfl, le_refl _, by decide⟩

/-- The stream delivers these. -/
def deliveries (chunks : List Bytes) : List Arrival :=
  chunks.map fun bytes =>
    { result := .ok { size := bytes.length, data := some bytes }, memory := Sender.zeroPacket }

theorem carries_deliveries (chunks : List Bytes) :
    List.Forall₂ Carries (deliveries chunks) chunks := by
  induction chunks with
  | nil => exact .nil
  | cons bytes chunks ih => exact .cons ⟨rfl, 0, none, rfl⟩ ih

theorem fileName_letter {c : UInt8} (h : c ≠ 0 ∧ c ≠ FsPath.slash ∧ c ≠ FsPath.dot) :
    FsPath.FileName [c] := by
  obtain ⟨hzero, hslash, hdot⟩ := h
  refine ⟨by simp, ?_, ?_, by simpa using hdot, by simp⟩
  · simpa using Ne.symm hslash
  · simpa using Ne.symm hzero

/-- The directory `d` with the file `f`, and the link `l` to it. -/
def sampleSource : Source :=
  ((Source.bare.add [] [100] .directory rfl rfl (fileName_letter (by decide)) (by simp)).add
    [[100]] [102] (.file [1, 2, 3]) (by decide) (by decide) (fileName_letter (by decide)) (by simp)).add
      [] [108] (.symlink [100, 47, 102]) (by decide) (by decide) (fileName_letter (by decide))
        (by rintro _ ⟨⟩; decide)

/-- Three files with the same contents. -/
def threeFiles (contents : Bytes) : Source :=
  ((Source.bare.add [] [97] (.file contents) rfl rfl (fileName_letter (by decide)) (by simp)).add
    [] [98] (.file contents) rfl rfl (fileName_letter (by decide)) (by simp)).add
      [] [99] (.file contents) rfl rfl (fileName_letter (by decide)) (by simp)

theorem size_threeFiles (contents : Bytes) : (threeFiles contents).size = 3 * contents.length := by
  have hsize : (threeFiles contents).size =
      contents.length + (contents.length + (contents.length + 0)) := rfl
  omega

theorem node_threeFiles {contents : Bytes} {m : List Bytes} {v : FileSystem.Node Bytes UInt8}
    (hne : m ≠ []) (hv : (threeFiles contents).tree.node m = some v) :
    m.length = 1 ∧ (FsPath.joined m).length = 1 ∧ v = .file contents := by
  have hmem : m ∈ [[[97]], [[98]], [[99]]] :=
    ((threeFiles contents).enumerates.complete m).mpr ⟨hne, by
      rw [List.nil_append, hv]
      simp⟩
  simp only [List.mem_cons, List.not_mem_nil, or_false] at hmem
  rcases hmem with rfl | rfl | rfl
  · exact ⟨rfl, rfl, (Option.some.inj hv).symm⟩
  · exact ⟨rfl, rfl, (Option.some.inj hv).symm⟩
  · exact ⟨rfl, rfl, (Option.some.inj hv).symm⟩

theorem node_sampleSource {m : List Bytes} {v : FileSystem.Node Bytes UInt8} (hne : m ≠ [])
    (hv : sampleSource.tree.node m = some v) : (FsPath.joined m).length ≤ 3 ∧
      (v = .directory ∨ v = .file [1, 2, 3] ∨ v = .symlink [100, 47, 102]) := by
  have hmem : m ∈ [[[100]], [[100], [102]], [[108]]] :=
    (sampleSource.enumerates.complete m).mpr ⟨hne, by
      rw [List.nil_append, hv]
      simp⟩
  simp only [List.mem_cons, List.not_mem_nil, or_false] at hmem
  rcases hmem with rfl | rfl | rfl
  · exact ⟨by decide, Or.inl (Option.some.inj hv).symm⟩
  · exact ⟨by decide, Or.inr (Or.inl (Option.some.inj hv).symm)⟩
  · exact ⟨by decide, Or.inr (Or.inr (Option.some.inj hv).symm)⟩

theorem sampleSource_room : Sender.AllHaveRoom sampleSource := by
  intro m v hne hv
  obtain ⟨hpath, hkind⟩ := node_sampleSource hne hv
  have hroom : 2 + 3 + 3 ≤ FTProto.packetSize := by decide
  refine ⟨by omega, fun target htarget => ?_⟩
  rw [htarget] at hkind
  obtain rfl : target = [100, 47, 102] := by simpa using hkind
  show 2 + (FsPath.joined m).length + 3 ≤ FTProto.packetSize
  omega

theorem sampleSource_shown : Shows (holding sampleSource) [[115]] sampleSource := by
  refine shows_holding fun m contents hv => ?_
  by_cases hm : m = []
  · rw [hm, sampleSource.tree.root] at hv
    cases hv
  · obtain rfl : contents = [1, 2, 3] := by simpa using (node_sampleSource hm hv).2
    decide

theorem transfer_round_trip_small : ∃ r',
    acceptTransfer { sampleReceiver with bytesRemaining := 0 } (deliveries
      (({} : Sender).transferConfirmation sampleCalls (holding sampleSource)
        (.construct (holding sampleSource) [[115]])).2.1) = some r' ∧
      r'.disk.node [[111], [115], [100], [102]] = some (.file [1, 2, 3]) ∧
      r'.disk.node [[111], [115], [108]] = some (.symlink [100, 47, 102]) := by
  obtain ⟨r', hrun, -, -, -, hcopy⟩ := transfer_round_trip sampleSource_shown sampleSource_room
    (by decide) sampleCalls_succeed (sampleReceiver_fresh 0) (carries_deliveries _)
  exact ⟨r', hrun, hcopy [[100], [102]], hcopy [[108]]⟩

/-- Three files of 2^63 - 1 bytes are not accepted. -/
theorem three_files_refused : ¬ ∀ (sys : System) (root : List Bytes) (source : Source)
    (calls : Sender.TransferCalls) (r : Receiver) (staging : Location Bytes)
    (arrivals : List Arrival), Shows sys root source → Sender.AllHaveRoom source →
      calls.Succeed → r.Fresh staging → List.Forall₂ Carries arrivals
        (({} : Sender).transferConfirmation calls sys (.construct sys root)).2.1 →
      ∃ r', r.acceptTransfer arrivals = some r' := by
  intro h
  have hlength : (List.replicate (2 ^ 63 - 1) (0 : UInt8)).length = 2 ^ 63 - 1 :=
    List.length_replicate
  generalize List.replicate (2 ^ 63 - 1) (0 : UInt8) = contents at hlength
  have hshows : Shows (holding (threeFiles contents)) [[115]] (threeFiles contents) := by
    refine shows_holding fun m contents' hv => ?_
    by_cases hm : m = []
    · rw [hm, (threeFiles contents).tree.root] at hv
      cases hv
    · obtain ⟨-, -, hcontents⟩ := node_threeFiles hm hv
      obtain rfl : contents' = contents := by simpa using hcontents
      omega
  have hroom : Sender.AllHaveRoom (threeFiles contents) := by
    intro m v hne hv
    obtain ⟨-, hpath, rfl⟩ := node_threeFiles hne hv
    exact ⟨by rw [hpath]; decide, by simp⟩
  have hcarries := carries_deliveries (({} : Sender).transferConfirmation sampleCalls
    (holding (threeFiles contents)) (.construct (holding (threeFiles contents)) [[115]])).2.1
  obtain ⟨r', hr'⟩ := h _ _ _ _ _ _ _ hshows hroom sampleCalls_succeed (sampleReceiver_fresh 0)
    hcarries
  have hlt := size_lt_of_accepted hshows hroom sampleCalls_succeed hcarries hr'
  rw [size_threeFiles, hlength] at hlt
  omega

end Receiver
end FileHopZ

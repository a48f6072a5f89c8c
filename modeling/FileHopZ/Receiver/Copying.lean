import FileHopZ.Receiver.Interleaving
import FileHopZ.Sender.Transfer
import Mathlib.Data.List.TakeWhile

/-! # Receiving what the sender sends

The staging directory grows entry by entry into a copy of the source: after some of the
entries, it holds these and nothing else.  The packets of the next entry, as they come out of
the stream, are accepted and add it.
-/
namespace FileHopZ
open FileSystem FileTree FileBuilder

namespace FileBuilder

theorem namesOf_names (ns : List Bytes) : namesOf (FileTree.names ns) = ns := by
  induction ns with
  | nil => rfl
  | cons n ns ih => exact congrArg (n :: ·) ih

/-- The path of an entry is accepted, and leads where it should. -/
theorem endsInName_joined {m : List Bytes} (hne : m ≠ []) (hm : ∀ n ∈ m, FsPath.FileName n) :
    EndsInName (FsPath.joined m) ∧ stagedNames (FsPath.joined m) = m := by
  have hcomponents := FsPath.components_joined hne hm
  have hpath : stagedPath (FsPath.joined m) = FileTree.names m := by
    rw [stagedPath, hcomponents, FsPath.osParts_names hm]
  have hparent : stagedParent (FsPath.joined m) = FileTree.names m.dropLast := by
    rw [stagedParent, hcomponents,
      FsPath.osParts_names fun n hn => hm n (List.dropLast_subset _ hn)]
  refine ⟨⟨?_, m.getLast hne, ?_⟩, by rw [stagedNames, hpath, namesOf_names]⟩
  · obtain ⟨x, text, htext, hx⟩ := FsPath.joined_head hne hm
    have hforbidden : m.any isForbiddenPathPart = false := by
      rw [List.any_eq_false]
      intro n hn
      simp [isForbiddenPathPart, (hm n hn).ne_nil, (hm n hn).ne_dots]
    unfold validateRelativePath
    rw [hcomponents, hforbidden, htext]
    simp [FsPath.isAbsolute, hx]
  · rw [hpath, hparent, FileTree.names_concat, List.dropLast_append_getLast]

end FileBuilder

namespace Receiver

/-- The loop of `start_transfer`, for a packet that is accepted. -/
def acceptArrival (r : Receiver) (arrival : Arrival) : Option Receiver :=
  match arrival.result >>= startTransferPacket arrival.memory with
  | .error _ => none
  | .ok packet =>
      r.accept { packet := packet, beyond := arrival.beyond, faults := arrival.faults }

/-- The stream delivers the bytes, and no call of the system fails. -/
structure Carries (arrival : Arrival) (bytes : Bytes) : Prop where
  result : arrival.result = .ok { size := bytes.length, data := some bytes }
  faults : arrival.faults.Absent

/-- The packet that the receiver has is the one that was sent. -/
structure Delivers (h : Handling) (p : FTProto.Packet) : Prop where
  header : h.packet.header = p.header
  bytes : h.bytes = p.payload
  faults : h.faults.Absent

theorem delivers_of_carries {p : FTProto.Packet} (hp : Sender.Readable p) {arrival : Arrival}
    (h : Carries arrival p.asBytes) : ∃ handling, Delivers handling p ∧
      ∀ r : Receiver, r.acceptArrival arrival = r.accept handling := by
  obtain ⟨q, hq, hheader, hpayload⟩ := startTransferPacket_asBytes arrival.memory hp.type hp.size
  refine ⟨{ packet := q, beyond := arrival.beyond, faults := arrival.faults },
    ⟨hheader, ?_, h.faults⟩, fun r => ?_⟩
  · rw [Handling.bytes, FTProto.Packet.read_eq_payload (by rw [hheader]; exact hp.size), hpayload]
  · rw [acceptArrival, h.result]
    simp only [bind, Except.bind]
    rw [hq]

/-- The same for packet after packet. -/
theorem delivers_all {ps : List FTProto.Packet} (hps : ∀ p ∈ ps, Sender.Readable p)
    {arrivals : List Arrival}
    (h : List.Forall₂ Carries arrivals (ps.map FTProto.Packet.asBytes)) :
    ∃ handlings, List.Forall₂ Delivers handlings ps ∧
      ∀ r : Receiver, arrivals.foldlM acceptArrival r = handlings.foldlM accept r := by
  induction ps generalizing arrivals with
  | nil =>
      obtain rfl := List.forall₂_nil_right_iff.mp h
      exact ⟨[], .nil, fun _ => rfl⟩
  | cons p ps ih =>
      cases h with
      | cons hcarries hrest =>
          obtain ⟨handling, hdelivers, haccept⟩ :=
            delivers_of_carries (hps p List.mem_cons_self) hcarries
          obtain ⟨handlings, hall, hfold⟩ := ih (fun q hq => hps q (List.mem_cons_of_mem _ hq)) hrest
          refine ⟨handling :: handlings, .cons hdelivers hall, fun r => ?_⟩
          rw [List.foldlM_cons, List.foldlM_cons, haccept]
          cases r.accept handling with
          | none => rfl
          | some r' => exact hfold r'

theorem delivered_of_mem {hs : List Handling} {ps : List FTProto.Packet}
    (h : List.Forall₂ Delivers hs ps) {handling : Handling} (hmem : handling ∈ hs) :
    ∃ p ∈ ps, Delivers handling p := by
  induction h with
  | nil => cases hmem
  | @cons handling' p hs ps hdelivers _ ih =>
      rcases List.mem_cons.mp hmem with rfl | hmem
      · exact ⟨p, List.mem_cons_self, hdelivers⟩
      · obtain ⟨q, hq, hd⟩ := ih hmem
        exact ⟨q, List.mem_cons_of_mem _ hq, hd⟩

theorem contentsOf_delivered {hs : List Handling} {ps : List FTProto.Packet}
    (h : List.Forall₂ Delivers hs ps) : contentsOf hs = ps.flatMap FTProto.Packet.payload := by
  induction h with
  | nil => rfl
  | cons hdelivers _ ih => rw [contentsOf_cons, List.flatMap_cons, hdelivers.bytes, ih]

/-! ## The packets of an entry -/

section Accept
variable {r : Receiver} {staging : Location Bytes} {h : Handling}

theorem accept_directory (hstaging : r.fileBuilder.stagingRoot = some staging)
    (hdir : r.disk.node staging = some .directory)
    (htype : h.packet.header.type = .createDirectory) (hfaults : h.faults.Absent)
    (hpath : EndsInName h.bytes) (hclear : r.disk.Clear staging (parentNames h.bytes))
    (hnone : r.disk.node (staging ++ stagedNames h.bytes) = none) : ∃ disk',
    r.accept h = some { r with disk := disk' } ∧
      MadeAt staging (stagedNames h.bytes) .directory r.disk disk' := by
  obtain ⟨disk', hmade, hat⟩ := createDirectory_made hstaging hdir hpath hclear hnone
  refine ⟨disk', ?_, hat⟩
  obtain ⟨count, replaced, hfaults⟩ := hfaults
  rw [Handling.bytes] at hmade
  rw [accept, handlePacket, htype, hfaults]
  dsimp only
  rw [hmade]

theorem accept_symlink {path target : Bytes}
    (hstaging : r.fileBuilder.stagingRoot = some staging)
    (hdir : r.disk.node staging = some .directory)
    (htype : h.packet.header.type = .createSymlink) (hfaults : h.faults.Absent)
    (hbytes : extractSymlink h.bytes = .ok (path, target)) (hpath : EndsInName path)
    (hclear : r.disk.Clear staging (parentNames path))
    (hnone : r.disk.node (staging ++ stagedNames path) = none)
    (htarget : FsPath.cText target ≠ []) : ∃ disk', r.accept h = some { r with disk := disk' } ∧
      MadeAt staging (stagedNames path) (.symlink (FsPath.cText target)) r.disk disk' := by
  obtain ⟨disk', hmade, hat⟩ := createSymlink_made hstaging hdir hpath hclear hnone htarget
  refine ⟨disk', ?_, hat⟩
  obtain ⟨count, replaced, hfaults⟩ := hfaults
  rw [Handling.bytes] at hbytes
  rw [accept, handlePacket, htype, hfaults]
  dsimp only
  rw [hbytes]
  dsimp only
  rw [hmade]

/-- The packets with the contents of a file. -/
theorem accept_contents {hs : List Handling} {fileId : UInt32} {location : Location Bytes}
    (htype : ∀ h ∈ hs, h.packet.header.type = .fileData)
    (hid : ∀ h ∈ hs, h.packet.header.fileId = fileId) (hfaults : ∀ h ∈ hs, h.faults.Absent) :
    ∀ {r : Receiver} {there pending : Bytes},
      r.fileBuilder.openFiles = (∅ : Finmap fun _ : UInt32 => OpenFile).insert fileId
        { location := location, offset := there.length, pending := pending } →
      r.disk.node location = some (.file there) →
      (contentsOf hs).length ≤ r.bytesRemaining.toNat → ∃ r' there' pending',
        hs.foldlM accept r = some r' ∧
        r'.fileBuilder.stagingRoot = r.fileBuilder.stagingRoot ∧
        r'.fileBuilder.openFiles = (∅ : Finmap fun _ : UInt32 => OpenFile).insert fileId
          { location := location, offset := there'.length, pending := pending' } ∧
        there' ++ pending' = there ++ pending ++ contentsOf hs ∧
        (∀ q, r'.disk.node q =
          if q = location then some (.file there') else r.disk.node q) ∧
        r'.bytesRemaining.toNat + (contentsOf hs).length = r.bytesRemaining.toNat := by
  induction hs with
  | nil =>
      intro r there pending hopen hnode _
      refine ⟨r, there, pending, rfl, rfl, hopen, (List.append_nil _).symm, fun q => ?_, rfl⟩
      split_ifs with hq
      · rw [hq, hnode]
      · rfl
  | cons h hs ih =>
      intro r there pending hopen hnode hfits
      rw [contentsOf_cons, List.length_append] at hfits
      have hhid := hid h List.mem_cons_self
      obtain ⟨count, replaced, hcalls⟩ := hfaults h List.mem_cons_self
      obtain ⟨remaining, haccept, hcount⟩ := @accept_data r h
        { location := location, offset := there.length, pending := pending } count replaced
        (htype h List.mem_cons_self) hcalls (by rw [hopen, hhid, Finmap.lookup_insert]) rfl
        (by omega)
      -- what the stream has put on the disk now
      have hwritten := node_writeAt_end hnode ((pending ++ h.bytes).take count)
      obtain ⟨r', there', pending', hrun, hstaging, hopen', hcontents, hnode', hcount'⟩ :=
        @ih (fun h' hh' => htype h' (List.mem_cons_of_mem _ hh'))
          (fun h' hh' => hid h' (List.mem_cons_of_mem _ hh'))
          (fun h' hh' => hfaults h' (List.mem_cons_of_mem _ hh'))
          { r with
            fileBuilder := { r.fileBuilder with
              openFiles := r.fileBuilder.openFiles.insert h.packet.header.fileId
                (given count { location := location, offset := there.length, pending := pending }
                  h.bytes) }
            disk := r.disk.writeAt location there.length ((pending ++ h.bytes).take count)
            bytesRemaining := remaining }
          (there ++ (pending ++ h.bytes).take count) ((pending ++ h.bytes).drop count)
          (by rw [hopen, hhid, Finmap.insert_insert, List.length_append]; rfl)
          (by rw [hwritten, if_pos rfl]) (by dsimp only; omega)
      refine ⟨r', there', pending', ?_, hstaging, hopen', ?_, fun q => ?_, ?_⟩
      · rw [List.foldlM_cons, haccept]
        exact hrun
      · rw [hcontents, contentsOf_cons]
        rw [List.append_assoc there, List.take_append_drop]
        simp only [List.append_assoc]
      · rw [hnode', hwritten]
        split_ifs
        · rfl
        · rfl
      · rw [contentsOf_cons, List.length_append]
        dsimp only at hcount'
        omega

end Accept

/-! ## A copy that grows -/

/-- The staging directory holds the entries that have been `visited`. -/
structure Copied (tree : Disk) (staging : Location Bytes) (visited : List (List Bytes))
    (start : Disk) (r : Receiver) : Prop where
  stagingRoot : r.fileBuilder.stagingRoot = some staging
  there : r.disk.node staging = some .directory
  copied : ∀ m, m ≠ [] →
    r.disk.node (staging ++ m) = if m ∈ visited then tree.node m else none
  outside : ∀ q, ¬ staging <+: q → r.disk.node q = start.node q
  openFiles : r.fileBuilder.openFiles = ∅

section Copied
variable {tree start : Disk} {staging : Location Bytes} {visited : List (List Bytes)}
  {r r' : Receiver} {m : List Bytes} {v : FileSystem.Node Bytes UInt8}

theorem Fresh.copied (h : r.Fresh staging) (tree : Disk) :
    Copied tree staging [] r.disk r := by
  refine ⟨h.stagingRoot, h.there, fun m hm => ?_, fun _ _ => rfl, h.openFiles⟩
  rw [if_neg (by simp)]
  exact h.empty m hm

/-- The next entry to come. -/
structure Next (tree : Disk) (visited : List (List Bytes)) (m : List Bytes)
    (v : FileSystem.Node Bytes UInt8) : Prop where
  ne : m ≠ []
  node : tree.node m = some v
  fresh : m ∉ visited
  parents : ∀ k < m.length, 0 < k → m.take k ∈ visited

/-- The directories above it are there. -/
theorem Copied.above (h : Copied tree staging visited start r) (hnext : Next tree visited m v)
    {p : List Bytes} (hp : p <+: m.dropLast) : r.disk.node (staging ++ p) = some .directory := by
  by_cases hnil : p = []
  · rw [hnil, List.append_nil]
    exact h.there
  have hlength : p.length < m.length := by
    have := hp.length_le
    have := List.length_pos_iff.mpr hnext.ne
    rw [List.length_dropLast] at *
    omega
  have htake : p = m.take p.length := List.prefix_iff_eq_take.mp (hp.trans (List.dropLast_prefix _))
  have hmem := hnext.parents p.length hlength (List.length_pos_iff.mpr hnil)
  rw [h.copied p hnil, htake, if_pos (by rwa [← htake] at hmem ⊢)]
  exact @node_take _ _ _ tree [] m (by rw [List.nil_append, hnext.node]; simp) _ hlength

theorem Copied.clear (h : Copied tree staging visited start r) (hnext : Next tree visited m v) :
    r.disk.Clear staging m.dropLast := fun _ hp => Or.inr (h.above hnext hp)

theorem Copied.free (h : Copied tree staging visited start r) (hnext : Next tree visited m v) :
    r.disk.node (staging ++ m) = none := by
  rw [h.copied m hnext.ne, if_neg hnext.fresh]

/-- So nothing else is made. -/
theorem Copied.madeAt (h : Copied tree staging visited start r) (hnext : Next tree visited m v)
    {w : FileSystem.Node Bytes UInt8} {disk' : Disk} (hat : MadeAt staging m w r.disk disk') :
    ∀ q, disk'.node q = if q = staging ++ m then some w else r.disk.node q := by
  intro q
  split_ifs with hq
  · rw [hq]
    exact hat.1
  · rw [hat.2 q hq]
    split_ifs with hbetween
    · obtain ⟨⟨p, rfl⟩, hp⟩ := hbetween
      exact (h.above hnext ((List.prefix_append_right_inj _).mp hp)).symm
    · rfl

/-- The entry has been added. -/
theorem Copied.next (h : Copied tree staging visited start r) (hnext : Next tree visited m v)
    (hstaging : r'.fileBuilder.stagingRoot = r.fileBuilder.stagingRoot)
    (hopen : r'.fileBuilder.openFiles = ∅)
    (hnode : ∀ q, r'.disk.node q = if q = staging ++ m then some v else r.disk.node q) :
    Copied tree staging (visited ++ [m]) start r' := by
  constructor
  · rw [hstaging]
    exact h.stagingRoot
  · rw [hnode, if_neg]
    · exact h.there
    · intro heq
      exact hnext.ne (List.self_eq_append_right.mp heq)
  · intro q hq
    rw [hnode]
    by_cases hqm : q = m
    · rw [hqm, if_pos rfl, if_pos (by simp), hnext.node]
    · rw [if_neg fun heq => hqm (List.append_cancel_left heq), h.copied q hq]
      exact if_congr (by simp [hqm]) rfl rfl
  · intro q hq
    rw [hnode, if_neg]
    · exact h.outside q hq
    · rintro rfl
      exact hq (List.prefix_append _ _)
  · exact hopen

/-- What is to be shown of the packets of one entry. -/
def Adds (tree : Disk) (staging : Location Bytes) (visited : List (List Bytes)) (start : Disk)
    (m : List Bytes) (v : FileSystem.Node Bytes UInt8) (r : Receiver) (hs : List Handling) : Prop :=
  ∃ r', hs.foldlM accept r = some r' ∧ Copied tree staging (visited ++ [m]) start r' ∧
    r'.bytesRemaining.toNat + sizeOf v = r.bytesRemaining.toNat

section Entry
variable {memory : Nat → FTProto.Packet} {fileId : UInt32} {hs : List Handling}
  (h : Copied tree staging visited start r) (hnext : Next tree visited m v)
  (hnames : ∀ n ∈ m, FsPath.FileName n) (hroom : Sender.HasRoom (FsPath.joined m) v)

include h hnext hnames hroom

theorem adds_directory (hv : v = .directory)
    (hd : List.Forall₂ Delivers hs [Sender.directoryPacket (memory 0) fileId (FsPath.joined m)]) :
    Adds tree staging visited start m v r hs := by
  subst hv
  obtain ⟨hpath, hstaged⟩ := endsInName_joined hnext.ne hnames
  have hparent : parentNames (FsPath.joined m) = m.dropLast := by rw [← hpath.dropLast, hstaged]
  rw [Sender.directoryPacket_eq _ _ hroom.path] at hd
  obtain ⟨handling, _, hdelivers, hnil, rfl⟩ := List.forall₂_cons_right_iff.mp hd
  obtain rfl := List.forall₂_nil_right_iff.mp hnil
  have hbytes : handling.bytes = FsPath.joined m :=
    hdelivers.bytes.trans (Sender.payload_filled hroom.path rfl)
  obtain ⟨disk', haccept, hat⟩ := accept_directory h.stagingRoot h.there
    (by rw [hdelivers.header]; rfl) hdelivers.faults (by rw [hbytes]; exact hpath)
    (by rw [hbytes, hparent]; exact h.clear hnext)
    (by rw [hbytes, hstaged]; exact h.free hnext)
  rw [hbytes, hstaged] at hat
  refine ⟨{ r with disk := disk' }, ?_,
    h.next hnext rfl h.openFiles (h.madeAt hnext hat), rfl⟩
  rw [List.foldlM_cons, haccept]
  rfl

theorem adds_symlink {target : Bytes} (hv : v = .symlink target) (hne : target ≠ [])
    (hzero : 0 ∉ target)
    (hd : List.Forall₂ Delivers hs [Sender.symlinkPacket (memory 0) (FsPath.joined m) target]) :
    Adds tree staging visited start m v r hs := by
  obtain ⟨hpath, hstaged⟩ := endsInName_joined hnext.ne hnames
  have hparent : parentNames (FsPath.joined m) = m.dropLast := by rw [← hpath.dropLast, hstaged]
  have hlink := hroom.link target hv
  have hlength := Sender.length_symlinkPayload (FsPath.joined m) target
  have hshort : (FsPath.joined m).length < 256 ^ 2 := by
    have : FTProto.packetSize < 256 ^ 2 := by decide
    omega
  have htext : FsPath.cText target = target := by
    rw [FsPath.cText, List.takeWhile_eq_self_iff]
    intro x hx
    exact decide_eq_true fun hx0 => hzero (hx0 ▸ hx)
  obtain ⟨handling, _, hdelivers, hnil, rfl⟩ := List.forall₂_cons_right_iff.mp hd
  obtain rfl := List.forall₂_nil_right_iff.mp hnil
  have hbytes : extractSymlink handling.bytes = .ok (FsPath.joined m, target) := by
    rw [hdelivers.bytes, Sender.symlinkPacket,
      Sender.payload_filled (by rw [hlength]; exact hlink) (by rw [hlength])]
    exact Sender.extractSymlink_symlinkPayload target hshort
  obtain ⟨disk', haccept, hat⟩ := accept_symlink h.stagingRoot h.there
    (by rw [hdelivers.header]; rfl) hdelivers.faults hbytes hpath
    (by rw [hparent]; exact h.clear hnext) (by rw [hstaged]; exact h.free hnext)
    (by rw [htext]; exact hne)
  rw [hstaged, htext, ← hv] at hat
  refine ⟨{ r with disk := disk' }, ?_, h.next hnext rfl h.openFiles (h.madeAt hnext hat), ?_⟩
  · rw [List.foldlM_cons, haccept]
    rfl
  · rw [hv]
    rfl

theorem adds_file {contents : Bytes} (hv : v = .file contents)
    (hfits : contents.length ≤ r.bytesRemaining.toNat)
    (hd : List.Forall₂ Delivers hs (Sender.entryPackets memory fileId (FsPath.joined m) v)) :
    Adds tree staging visited start m v r hs := by
  obtain ⟨hpath, hstaged⟩ := endsInName_joined hnext.ne hnames
  have hparent : parentNames (FsPath.joined m) = m.dropLast := by rw [← hpath.dropLast, hstaged]
  rw [hv, Sender.entryPackets, Sender.filePacket_eq _ _ hroom.path] at hd
  obtain ⟨create, rest, hcreate, hrest, rfl⟩ := List.forall₂_cons_right_iff.mp hd
  -- the packets with the contents, and the last one
  have hdata := List.forall₂_take_append _ _ _ hrest
  have hlast := List.forall₂_drop_append _ _ _ hrest
  rw [← List.take_append_drop (Sender.dataPackets memory fileId 1 contents).length rest]
  generalize rest.take _ = data at hdata
  generalize rest.drop _ = last at hlast
  obtain ⟨finish, _, hfinish, hnil, rfl⟩ := List.forall₂_cons_right_iff.mp hlast
  obtain rfl := List.forall₂_nil_right_iff.mp hnil
  have hcontents : contentsOf data = contents := by
    rw [contentsOf_delivered hdata, Sender.dataPackets_payload]
  have hheader : ∀ h ∈ data, h.packet.header.type = .fileData ∧ h.packet.header.fileId = fileId ∧
      h.faults.Absent := by
    intro h hmem
    obtain ⟨p, hp, hdelivers⟩ := delivered_of_mem hdata hmem
    obtain ⟨_, bytes, -, rfl⟩ := Sender.dataPackets_mem hp
    exact ⟨by rw [hdelivers.header]; rfl, by rw [hdelivers.header]; rfl, hdelivers.faults⟩
  have hid : create.packet.header.fileId = fileId := by rw [hcreate.header]; rfl
  have hbytes : create.bytes = FsPath.joined m :=
    hcreate.bytes.trans (Sender.payload_filled hroom.path rfl)
  -- `CREATE_FILE`
  obtain ⟨disk', haccept, hat⟩ := accept_create h.stagingRoot h.there
    (by rw [hcreate.header]; rfl) hcreate.faults (by rw [hbytes]; exact hpath)
    (by rw [hbytes, hparent]; exact h.clear hnext)
    (by rw [hbytes, hstaged]; exact h.free hnext) (by rw [h.openFiles]; rfl)
  rw [hbytes, hstaged] at hat
  rw [hbytes, hstaged, hid, h.openFiles] at haccept
  have hmade := h.madeAt hnext hat
  -- `FILE_DATA`
  obtain ⟨r', there, pending, hrun, hstaging', hopen', hwhole, hnode', hcount⟩ :=
    @accept_contents data fileId (staging ++ m) (fun h hmem => (hheader h hmem).1)
      (fun h hmem => (hheader h hmem).2.1) (fun h hmem => (hheader h hmem).2.2)
      { r with
        fileBuilder := { r.fileBuilder with
          openFiles := (∅ : Finmap fun _ : UInt32 => OpenFile).insert fileId
            { location := staging ++ m } }
        disk := disk' } [] [] rfl hat.1 (by rw [hcontents]; exact hfits)
  rw [List.nil_append, List.nil_append, hcontents] at hwhole
  -- `END_FILE`: what the stream has held back completes the file
  have hclose := @accept_finish r' finish
    { location := staging ++ m, offset := there.length, pending := pending }
    (by rw [hfinish.header]; rfl) hfinish.faults
    (by rw [hfinish.header, hopen']; exact Finmap.lookup_insert _) rfl
  have hfile : r'.disk.node (staging ++ m) = some (.file there) := by rw [hnode', if_pos rfl]
  have hwritten := node_writeAt_end hfile pending
  rw [hwhole] at hwritten
  refine ⟨{ r' with
    fileBuilder := { r'.fileBuilder with
      openFiles := r'.fileBuilder.openFiles.erase finish.packet.header.fileId }
    disk := r'.disk.writeAt (staging ++ m) there.length pending }, ?_,
    h.next hnext hstaging' ?_ fun q => ?_, ?_⟩
  · rw [List.foldlM_cons, haccept]
    simp only [Option.bind_eq_bind, Option.bind_some]
    rw [List.foldlM_append, hrun]
    simp only [Option.bind_eq_bind, Option.bind_some]
    rw [List.foldlM_cons, hclose]
    rfl
  · rw [hfinish.header, hopen']
    exact FiniteMap.erase_insert Finmap.notMem_empty _
  · rw [hv]
    refine (hwritten q).trans ?_
    split_ifs with hq
    · rfl
    · exact ((hnode' q).trans (if_neg hq)).trans ((hmade q).trans (if_neg hq))
  · rw [hv]
    rw [hcontents] at hcount
    exact hcount

end Entry

end Copied

end Receiver
end FileHopZ

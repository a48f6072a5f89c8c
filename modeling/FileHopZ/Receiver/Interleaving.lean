import FileHopZ.Library.Merge
import FileHopZ.Receiver.Building
import Mathlib.Algebra.BigOperators.Group.Finset.Basic
import Mathlib.Algebra.Order.BigOperators.Group.Finset
import Mathlib.Data.Fintype.BigOperators

/-! # Files received at the same time

`File_builder` writes to any number of files at once, by their ids.  However the packets of
different files are merged, as long as those of each file keep their order, all of them are
accepted, and the staging directory ends up the same: it depends only on how far each file
has come.
-/
namespace FileHopZ
open FileSystem FileTree FileBuilder Sequences

namespace Receiver

/-- The bytes that `handle_packet` reads of a packet. -/
def Handling.bytes (h : Handling) : Bytes := h.packet.read h.beyond

/-- `handle_packet`, when it accepts the packet. -/
def accept (r : Receiver) (h : Handling) : Option Receiver :=
  match r.handlePacket h.faults h.beyond h.packet with
  | (r', none, _) => some r'
  | (_, some _, _) => none

/-- The bytes of some packets, one after another. -/
def contentsOf (hs : List Handling) : Bytes := hs.flatMap Handling.bytes

theorem contentsOf_append (hs hs' : List Handling) :
    contentsOf (hs ++ hs') = contentsOf hs ++ contentsOf hs' := List.flatMap_append

theorem contentsOf_cons (h : Handling) (hs : List Handling) :
    contentsOf (h :: hs) = h.bytes ++ contentsOf hs := List.flatMap_cons

theorem contentsOf_singleton (h : Handling) : contentsOf [h] = h.bytes := by
  rw [contentsOf_cons]
  exact List.append_nil _

/-- What arrives for one file: `CREATE_FILE`, its data, `END_FILE`.  No call of the system
fails; how much of its data a stream holds back is open. -/
structure FileStream where
  create : Handling
  chunks : List Handling
  finish : Handling
  create_type : create.packet.header.type = .createFile
  chunks_type : ∀ h ∈ chunks, h.packet.header.type = .fileData
  finish_type : finish.packet.header.type = .endFile
  chunks_id : ∀ h ∈ chunks, h.packet.header.fileId = create.packet.header.fileId
  finish_id : finish.packet.header.fileId = create.packet.header.fileId
  create_faults : create.faults.Absent
  chunks_faults : ∀ h ∈ chunks, h.faults.Absent
  finish_faults : finish.faults.Absent

namespace FileStream
variable (f : FileStream)

def fileId : UInt32 := f.create.packet.header.fileId
def path : Bytes := f.create.bytes
def contents : Bytes := contentsOf f.chunks
def packets : List Handling := f.create :: (f.chunks ++ [f.finish])

end FileStream

/-- How far a file has come; of the data of `before`, its stream has put `there` on the disk
and holds back `pending`. -/
inductive Progress
  | waiting
  | writing (before after : List Handling) (there pending : Bytes)
  | finished

namespace Progress

/-- The packets that are to come. -/
def left (f : FileStream) : Progress → List Handling
  | waiting => f.packets
  | writing _ after _ _ => after ++ [f.finish]
  | finished => []

/-- What of the file is there. -/
def made (f : FileStream) : Progress → Option Bytes
  | waiting => none
  | writing _ _ there _ => some there
  | finished => some f.contents

/-- Its entry in `open_files_`. -/
def openFile (location : Location Bytes) : Progress → Option OpenFile
  | writing _ _ there pending =>
      some { location := location, offset := there.length, pending := pending }
  | _ => none

/-- How many bytes are to come. -/
def missing (f : FileStream) : Progress → Nat
  | waiting => f.contents.length
  | writing _ after _ _ => (contentsOf after).length
  | finished => 0

/-- The progress is one of the file. -/
def Of (f : FileStream) : Progress → Prop
  | writing before after there pending =>
      f.chunks = before ++ after ∧ contentsOf before = there ++ pending
  | _ => True

end Progress

/-! ## The packets of one file -/

section Accept
variable {r : Receiver} {staging : Location Bytes} {h : Handling}

theorem accept_create (hstaging : r.fileBuilder.stagingRoot = some staging)
    (hdir : r.disk.node staging = some .directory) (htype : h.packet.header.type = .createFile)
    (hfaults : h.faults.Absent) (hpath : EndsInName h.bytes)
    (hclear : r.disk.Clear staging (parentNames h.bytes))
    (hnone : r.disk.node (staging ++ stagedNames h.bytes) = none)
    (hid : r.fileBuilder.openFiles.lookup h.packet.header.fileId = none) : ∃ disk',
    r.accept h = some { r with
      fileBuilder := { r.fileBuilder with
        openFiles := r.fileBuilder.openFiles.insert h.packet.header.fileId
          { location := staging ++ stagedNames h.bytes } }
      disk := disk' } ∧
      MadeAt staging (stagedNames h.bytes) (.file []) r.disk disk' := by
  obtain ⟨count, replaced, hfaults⟩ := hfaults
  obtain ⟨disk', hmade, hat⟩ := createFile_made hstaging hdir hpath hclear hnone hid replaced
  refine ⟨disk', ?_, hat⟩
  rw [Handling.bytes] at hmade
  rw [accept, handlePacket, htype, hfaults]
  dsimp only
  rw [hmade]
  rfl

theorem written_wrote (fileId : UInt32) (data : Bytes) :
    written [.wrote fileId data] = data.length := rfl

/-- What the stream of a file is left with after it has been given data, when it puts `count` of
its bytes on the disk. -/
def given (count : Nat) (file : OpenFile) (data : Bytes) : OpenFile :=
  { file with
    offset := file.offset + ((file.pending ++ data).take count).length
    pending := (file.pending ++ data).drop count }

theorem handlePacket_data {file : OpenFile} {count : Nat} {replaced : Option Nat}
    (htype : h.packet.header.type = .fileData)
    (hfaults : h.faults = { put := count, file := { replaced := replaced } })
    (hopen : r.fileBuilder.openFiles.lookup h.packet.header.fileId = some file)
    (hgood : file.failed = false)
    (hfits : h.packet.getPayloadSize ≤ r.bytesRemaining.toNat) :
    r.handlePacket h.faults h.beyond h.packet = ({ r with
      fileBuilder := { r.fileBuilder with
        openFiles := r.fileBuilder.openFiles.insert h.packet.header.fileId
          (given count file h.bytes) }
      disk := r.disk.writeAt file.location file.offset ((file.pending ++ h.bytes).take count)
      bytesRemaining := r.bytesRemaining - .ofNat h.packet.getPayloadSize }, none,
      [.wrote h.packet.header.fileId h.bytes]) := by
  have hwritten : r.fileBuilder.write count none h.bytes h.packet.header.fileId r.disk =
      ({ r.fileBuilder with
          openFiles := r.fileBuilder.openFiles.insert h.packet.header.fileId
            (given count file h.bytes) },
        r.disk.writeAt file.location file.offset ((file.pending ++ h.bytes).take count),
        none) := by
    rw [FileBuilder.write, hopen]
    dsimp only
    rw [if_neg (by rw [hgood]; simp)]
    rfl
  rw [Handling.bytes] at hwritten ⊢
  rw [handlePacket, htype, hfaults]
  dsimp only
  rw [if_pos hfits, hwritten]

theorem accept_data {file : OpenFile} {count : Nat} {replaced : Option Nat}
    (htype : h.packet.header.type = .fileData)
    (hfaults : h.faults = { put := count, file := { replaced := replaced } })
    (hopen : r.fileBuilder.openFiles.lookup h.packet.header.fileId = some file)
    (hgood : file.failed = false)
    (hfits : h.bytes.length ≤ r.bytesRemaining.toNat) : ∃ remaining : UInt64,
    r.accept h = some { r with
      fileBuilder := { r.fileBuilder with
        openFiles := r.fileBuilder.openFiles.insert h.packet.header.fileId
          (given count file h.bytes) }
      disk := r.disk.writeAt file.location file.offset ((file.pending ++ h.bytes).take count)
      bytesRemaining := remaining } ∧
      remaining.toNat + h.bytes.length = r.bytesRemaining.toNat := by
  have hsize : h.bytes.length = h.packet.getPayloadSize := h.packet.length_read h.beyond
  have hhandled := handlePacket_data htype hfaults hopen hgood (hsize ▸ hfits)
  have hcounted := (accounts_handlePacket h.faults h.beyond h.packet r).remaining
  rw [hhandled, written_wrote] at hcounted
  refine ⟨_, ?_, hcounted⟩
  rw [accept, hhandled]

theorem accept_finish {file : OpenFile} (htype : h.packet.header.type = .endFile)
    (hfaults : h.faults.Absent)
    (hopen : r.fileBuilder.openFiles.lookup h.packet.header.fileId = some file)
    (hgood : file.failed = false) :
    r.accept h = some { r with
      fileBuilder := { r.fileBuilder with
        openFiles := r.fileBuilder.openFiles.erase h.packet.header.fileId }
      disk := r.disk.writeAt file.location file.offset file.pending } := by
  obtain ⟨count, replaced, hfaults⟩ := hfaults
  have hclosed : file.close none r.disk =
      ({ file with offset := file.offset + file.pending.length, pending := [], failed := false },
        r.disk.writeAt file.location file.offset file.pending) := by
    rw [OpenFile.close, OpenFile.put, hgood]
    simp
  rw [accept, handlePacket, htype, hfaults]
  dsimp only
  rw [closeFile, hopen]
  dsimp only
  rw [hclosed]
  rfl

end Accept

/-! ## The tree that grows -/

variable {ι : Type*}

/-- Each file has its own id and a path of its own. -/
structure Compatible (file : ι → FileStream) : Prop where
  ids : Function.Injective fun i => (file i).fileId
  named : ∀ i, EndsInName (file i).path
  apart : ∀ i j, i ≠ j → ¬ stagedNames (file i).path <+: stagedNames (file j).path

/-- The staging directory when the files have come so far. -/
structure Grown (file : ι → FileStream) (p : ι → Progress) (staging : Location Bytes)
    (start disk : Disk) : Prop where
  files : ∀ i, disk.node (staging ++ stagedNames (file i).path) = ((p i).made (file i)).map .file
  directories : ∀ m, (m = [] ∨ ∃ i, (p i).made (file i) ≠ none ∧
    m <+: (stagedNames (file i).path).dropLast) → disk.node (staging ++ m) = some .directory
  nothing : ∀ m, m ≠ [] → (∀ i, (p i).made (file i) ≠ none → ¬ m <+: stagedNames (file i).path) →
    disk.node (staging ++ m) = none
  outside : ∀ q, ¬ staging <+: q → disk.node q = start.node q

section Grown
variable {file : ι → FileStream} {p p' : ι → Progress} {staging : Location Bytes}
  {start disk disk' : Disk} {i : ι}

/-- The tree is a function of the progress. -/
theorem Grown.unique (h : Grown file p staging start disk)
    (h' : Grown file p staging start disk') : disk = disk' := by
  apply FileTree.ext
  intro q
  by_cases hq : staging <+: q
  · obtain ⟨m, rfl⟩ := hq
    by_cases hm : m = []
    · rw [h.directories m (Or.inl hm), h'.directories m (Or.inl hm)]
    by_cases hin : ∃ i, (p i).made (file i) ≠ none ∧ m <+: stagedNames (file i).path
    · obtain ⟨i, hi, hpre⟩ := hin
      by_cases hfile : m = stagedNames (file i).path
      · rw [hfile, h.files i, h'.files i]
      · have hproper := prefix_dropLast hpre hfile
        rw [h.directories m (Or.inr ⟨i, hi, hproper⟩), h'.directories m (Or.inr ⟨i, hi, hproper⟩)]
    · have hnot : ∀ i, (p i).made (file i) ≠ none → ¬ m <+: stagedNames (file i).path :=
        fun i hi hpre => hin ⟨i, hi, hpre⟩
      rw [h.nothing m hm hnot, h'.nothing m hm hnot]
  · rw [h.outside q hq, h'.outside q hq]

variable (hf : Compatible file)
include hf

/-- Two files are at different places. -/
theorem Compatible.ne {j : ι} (hj : j ≠ i) :
    stagedNames (file j).path ≠ stagedNames (file i).path :=
  fun heq => hf.apart j i hj (heq ▸ List.prefix_rfl)

/-- A file is made, and the directories above it. -/
theorem Grown.create (h : Grown file p staging start disk)
    (hat : MadeAt staging (stagedNames (file i).path) (.file []) disk disk')
    (hnew : (p' i).made (file i) = some []) (hother : ∀ j, j ≠ i → p' j = p j) :
    Grown file p' staging start disk' := by
  obtain ⟨hfile, hrest⟩ := hat
  have hhere : ∀ m, m ≠ stagedNames (file i).path → disk'.node (staging ++ m) =
      if m <+: (stagedNames (file i).path).dropLast then some .directory
      else disk.node (staging ++ m) := by
    intro m hm
    rw [hrest _ fun heq => hm (List.append_cancel_left heq)]
    refine if_congr ⟨fun h => ?_, fun h => ⟨List.prefix_append _ _, ?_⟩⟩ rfl rfl
    · exact (List.prefix_append_right_inj _).mp h.2
    · exact (List.prefix_append_right_inj _).mpr h
  have habove : ∀ m, m <+: (stagedNames (file i).path).dropLast →
      m <+: stagedNames (file i).path := fun m hm => hm.trans (List.dropLast_prefix _)
  constructor
  · intro j
    by_cases hj : j = i
    · rw [hj, hfile, hnew]
      rfl
    · rw [hhere _ (hf.ne hj), if_neg fun hpre => hf.apart j i hj (habove _ hpre), hother j hj]
      exact h.files j
  · intro m hm
    have hne : m ≠ stagedNames (file i).path := by
      rintro rfl
      rcases hm with hnil | ⟨j, -, hpre⟩
      · exact (hf.named i).ne_nil hnil
      · by_cases hj : j = i
        · have := hpre.length_le
          rw [hj, List.length_dropLast] at this
          have := List.length_pos_iff.mpr (hf.named i).ne_nil
          omega
        · exact hf.apart i j (Ne.symm hj) (hpre.trans (List.dropLast_prefix _))
    rw [hhere m hne]
    split_ifs with hin
    · rfl
    · rcases hm with hnil | ⟨j, hj, hpre⟩
      · exact h.directories m (Or.inl hnil)
      · by_cases hji : j = i
        · exact absurd (hji ▸ hpre) hin
        · exact h.directories m (Or.inr ⟨j, hother j hji ▸ hj, hpre⟩)
  · intro m hm hnot
    have hi := hnot i (by rw [hnew]; simp)
    rw [hhere m (by rintro rfl; exact hi List.prefix_rfl), if_neg fun hpre => hi (habove m hpre)]
    refine h.nothing m hm fun j hj => ?_
    by_cases hji : j = i
    · rw [hji]
      exact hi
    · exact hnot j (by rwa [hother j hji])
  · intro q hq
    rw [hrest q (by rintro rfl; exact hq (List.prefix_append _ _)), if_neg fun h => hq h.1]
    exact h.outside q hq

/-- Data is appended to a file. -/
theorem Grown.write (h : Grown file p staging start disk) {before : Bytes}
    (hold : (p i).made (file i) = some before) (data : Bytes)
    (hnew : (p' i).made (file i) = some (before ++ data)) (hother : ∀ j, j ≠ i → p' j = p j) :
    Grown file p' staging start
      (disk.writeAt (staging ++ stagedNames (file i).path) before.length data) := by
  have hfile : disk.node (staging ++ stagedNames (file i).path) = some (.file before) := by
    rw [h.files i, hold]
    rfl
  have hwritten := node_writeAt_end hfile data
  have hmade : ∀ j, (p' j).made (file j) ≠ none → (p j).made (file j) ≠ none := by
    intro j hj
    by_cases hji : j = i
    · rw [hji, hold]
      simp
    · rwa [← hother j hji]
  have hmade' : ∀ j, (p j).made (file j) ≠ none → (p' j).made (file j) ≠ none := by
    intro j hj
    by_cases hji : j = i
    · rw [hji, hnew]
      simp
    · rwa [hother j hji]
  constructor
  · intro j
    rw [hwritten]
    by_cases hj : j = i
    · rw [hj, if_pos rfl, hnew]
      rfl
    · rw [if_neg fun heq => hf.ne hj (List.append_cancel_left heq), hother j hj]
      exact h.files j
  · intro m hm
    have hdir := h.directories m (hm.imp id fun ⟨j, hj, hpre⟩ => ⟨j, hmade j hj, hpre⟩)
    rw [hwritten, if_neg]
    · exact hdir
    · intro heq
      rw [heq, hfile] at hdir
      cases hdir
  · intro m hm hnot
    have hnone := h.nothing m hm fun j hj => hnot j (hmade' j hj)
    rw [hwritten, if_neg]
    · exact hnone
    · intro heq
      rw [heq, hfile] at hnone
      cases hnone
  · intro q hq
    rw [hwritten, if_neg (by rintro rfl; exact hq (List.prefix_append _ _))]
    exact h.outside q hq

end Grown

/-! ## Any merge -/

/-- A receiver that builds in an empty staging directory. -/
structure Fresh (r : Receiver) (staging : Location Bytes) : Prop where
  stagingRoot : r.fileBuilder.stagingRoot = some staging
  there : r.disk.node staging = some .directory
  empty : ∀ m, m ≠ [] → r.disk.node (staging ++ m) = none
  openFiles : r.fileBuilder.openFiles = ∅

/-- The constructor leaves such a receiver, or one without staging directory. -/
theorem fresh_construct {outputDirectory : List (Component Bytes)} {name : Nat → Bytes}
    {directories : Fault} {fault : Nat → Option Errno} {disk : Disk} {staging : Location Bytes}
    (h : (construct outputDirectory name directories fault disk).fileBuilder.stagingRoot =
      some staging) : (construct outputDirectory name directories fault disk).Fresh staging :=
  have hmade := FileBuilder.made_construct h
  ⟨h, hmade.there, fun _ => FileBuilder.empty_construct h, hmade.openFiles⟩

/-- The receiver when the files have come so far. -/
structure Building [Fintype ι] (file : ι → FileStream) (p : ι → Progress)
    (staging : Location Bytes) (start : Disk) (r : Receiver) : Prop where
  progress : ∀ i, (p i).Of (file i)
  stagingRoot : r.fileBuilder.stagingRoot = some staging
  opened : ∀ i, r.fileBuilder.openFiles.lookup (file i).fileId =
    (p i).openFile (staging ++ stagedNames (file i).path)
  others : ∀ id, (∀ i, (file i).fileId ≠ id) → r.fileBuilder.openFiles.lookup id = none
  grown : Grown file p staging start r.disk
  remaining : r.bytesRemaining.toNat = ∑ i, (p i).missing (file i)

section Building
variable [Fintype ι] [DecidableEq ι] {file : ι → FileStream} {p : ι → Progress}
  {staging : Location Bytes} {start : Disk} {r r' : Receiver} {i : ι}

/-- When one file advances, what is to come of the others stays. -/
theorem missing_update (file : ι → FileStream) (p : ι → Progress) (i : ι) (v : Progress) :
    (∑ j, (Function.update p i v j).missing (file j)) + (p i).missing (file i) =
      (∑ j, (p j).missing (file j)) + v.missing (file i) := by
  have hrest : ∑ j ∈ Finset.univ.erase i, (Function.update p i v j).missing (file j) =
      ∑ j ∈ Finset.univ.erase i, (p j).missing (file j) := by
    refine Finset.sum_congr rfl fun j hj => ?_
    rw [Function.update_of_ne (Finset.ne_of_mem_erase hj)]
  rw [← Finset.add_sum_erase _ _ (Finset.mem_univ i),
    ← Finset.add_sum_erase _ (fun j => (p j).missing (file j)) (Finset.mem_univ i), hrest,
    Function.update_self]
  omega

/-- What is to be shown when one file advances. -/
theorem Building.advance (hf : Compatible file) (h : Building file p staging start r)
    {v : Progress} (hv : v.Of (file i)) (hstaging : r'.fileBuilder.stagingRoot = some staging)
    (hopened : r'.fileBuilder.openFiles.lookup (file i).fileId =
      v.openFile (staging ++ stagedNames (file i).path))
    (hothers : ∀ id, id ≠ (file i).fileId →
      r'.fileBuilder.openFiles.lookup id = r.fileBuilder.openFiles.lookup id)
    (hgrown : Grown file (Function.update p i v) staging start r'.disk)
    (hremaining : r'.bytesRemaining.toNat + (p i).missing (file i) =
      r.bytesRemaining.toNat + v.missing (file i)) :
    Building file (Function.update p i v) staging start r' := by
  constructor
  · intro j
    by_cases hj : j = i
    · rw [hj, Function.update_self]
      exact hv
    · rw [Function.update_of_ne hj]
      exact h.progress j
  · exact hstaging
  · intro j
    by_cases hj : j = i
    · rw [hj, Function.update_self]
      exact hopened
    · rw [Function.update_of_ne hj, hothers _ fun heq => hj (hf.ids heq)]
      exact h.opened j
  · intro id hid
    rw [hothers id (Ne.symm (hid i))]
    exact h.others id hid
  · exact hgrown
  · have := missing_update file p i v
    have := h.remaining
    omega

omit [DecidableEq ι] in
theorem Fresh.building (hf : Compatible file) (h : r.Fresh staging)
    (htotal : r.bytesRemaining.toNat = ∑ i, (file i).contents.length) :
    Building file (fun _ => .waiting) staging r.disk r := by
  constructor
  · exact fun _ => trivial
  · exact h.stagingRoot
  · intro i
    rw [h.openFiles]
    rfl
  · intro id _
    rw [h.openFiles]
    rfl
  · constructor
    · exact fun i => h.empty _ (hf.named i).ne_nil
    · rintro m (rfl | ⟨i, hi, -⟩)
      · rw [List.append_nil]
        exact h.there
      · exact absurd rfl hi
    · exact fun m hm _ => h.empty m hm
    · exact fun _ _ => rfl
  · exact htotal

/-- `CREATE_FILE` is accepted. -/
theorem Building.create (hf : Compatible file) (h : Building file p staging start r)
    (hi : p i = .waiting) : ∃ r', r.accept (file i).create = some r' ∧
      Building file (Function.update p i (.writing [] (file i).chunks [] [])) staging start r' := by
  have hdir : r.disk.node staging = some .directory := by
    have := h.grown.directories [] (Or.inl rfl)
    rwa [List.append_nil] at this
  have hnone : r.disk.node (staging ++ stagedNames (file i).path) = none := by
    rw [h.grown.files i, hi]
    rfl
  -- what is above the file is above others that are there, or nowhere
  have hclear : r.disk.Clear staging (parentNames (file i).path) := by
    intro m hm
    rw [← (hf.named i).dropLast] at hm
    by_cases hnil : m = []
    · exact Or.inr (h.grown.directories m (Or.inl hnil))
    by_cases hin : ∃ j, (p j).made (file j) ≠ none ∧ m <+: stagedNames (file j).path
    · obtain ⟨j, hj, hpre⟩ := hin
      have hji : j ≠ i := by
        rintro rfl
        rw [hi] at hj
        exact hj rfl
      have hne : m ≠ stagedNames (file j).path := by
        rintro rfl
        exact hf.apart j i hji (hm.trans (List.dropLast_prefix _))
      exact Or.inr (h.grown.directories m (Or.inr ⟨j, hj, prefix_dropLast hpre hne⟩))
    · exact Or.inl (h.grown.nothing m hnil fun j hj hpre => hin ⟨j, hj, hpre⟩)
  have hclosed : r.fileBuilder.openFiles.lookup (file i).fileId = none := by
    rw [h.opened i, hi]
    rfl
  obtain ⟨disk', haccept, hat⟩ := accept_create h.stagingRoot hdir (file i).create_type
    (file i).create_faults (hf.named i) hclear hnone hclosed
  refine ⟨_, haccept, h.advance hf ⟨rfl, rfl⟩ h.stagingRoot ?_ (fun id hid => ?_) ?_ ?_⟩
  · exact Finmap.lookup_insert _
  · exact Finmap.lookup_insert_of_ne _ hid
  · refine h.grown.create hf hat ?_ fun j hj => Function.update_of_ne hj _ _
    rw [Function.update_self]
    rfl
  · rw [hi]
    rfl

/-- `FILE_DATA` is accepted. -/
theorem Building.data (hf : Compatible file) (h : Building file p staging start r)
    {before after : List Handling} {there pending : Bytes} {c : Handling}
    (hi : p i = .writing before (c :: after) there pending) :
    ∃ v r', v.left (file i) = after ++ [(file i).finish] ∧ r.accept c = some r' ∧
      Building file (Function.update p i v) staging start r' := by
  obtain ⟨hchunks, hcontents⟩ : (file i).chunks = before ++ c :: after ∧
      contentsOf before = there ++ pending := by
    have := h.progress i
    rwa [hi] at this
  have hmem : c ∈ (file i).chunks := by rw [hchunks]; simp
  have hid : c.packet.header.fileId = (file i).fileId := (file i).chunks_id c hmem
  have hopen := h.opened i
  rw [hi, ← hid] at hopen
  -- what is to come of this file is part of what remains
  have hfits : c.bytes.length ≤ r.bytesRemaining.toNat := by
    have hsum := Finset.single_le_sum (fun j _ => Nat.zero_le ((p j).missing (file j)))
      (Finset.mem_univ i)
    rw [h.remaining]
    refine le_trans ?_ hsum
    rw [hi, Progress.missing, contentsOf_cons, List.length_append]
    omega
  -- `count` of the bytes go to the disk, the others are held back
  obtain ⟨count, replaced, hfaults⟩ := (file i).chunks_faults c hmem
  obtain ⟨remaining, haccept, hcount⟩ :=
    accept_data ((file i).chunks_type c hmem) hfaults hopen rfl hfits
  refine ⟨.writing (before ++ [c]) after (there ++ (pending ++ c.bytes).take count)
    ((pending ++ c.bytes).drop count), _, rfl, haccept,
    h.advance hf ⟨?_, ?_⟩ h.stagingRoot ?_ (fun id hne => ?_) ?_ ?_⟩
  · exact hchunks.trans (by simp)
  · rw [contentsOf_append, contentsOf_singleton, hcontents, List.append_assoc, List.append_assoc,
      List.take_append_drop]
  · rw [← hid]
    refine (Finmap.lookup_insert _).trans ?_
    rw [Progress.openFile, List.length_append]
    rfl
  · exact Finmap.lookup_insert_of_ne _ (hid ▸ hne)
  · refine h.grown.write hf (by rw [hi]; rfl) _ ?_ fun j hj => Function.update_of_ne hj _ _
    rw [Function.update_self]
    rfl
  · rw [hi, Progress.missing, Progress.missing, contentsOf_cons, List.length_append]
    dsimp only
    omega

/-- `END_FILE` is accepted. -/
theorem Building.finish (hf : Compatible file) (h : Building file p staging start r)
    {before : List Handling} {there pending : Bytes}
    (hi : p i = .writing before [] there pending) :
    ∃ r', r.accept (file i).finish = some r' ∧
      Building file (Function.update p i .finished) staging start r' := by
  obtain ⟨hchunks, hcontents⟩ : (file i).chunks = before ++ [] ∧
      contentsOf before = there ++ pending := by
    have := h.progress i
    rwa [hi] at this
  have hid : (file i).finish.packet.header.fileId = (file i).fileId := (file i).finish_id
  have hopen := h.opened i
  rw [hi, ← hid] at hopen
  have haccept := accept_finish (file i).finish_type (file i).finish_faults hopen rfl
  refine ⟨_, haccept, h.advance hf trivial h.stagingRoot ?_ (fun id hne => ?_) ?_ ?_⟩
  · rw [hid]
    exact Finmap.lookup_erase _ _
  · exact Finmap.lookup_erase_ne (hid ▸ hne)
  · -- what was held back completes the file
    refine h.grown.write hf (by rw [hi]; rfl) pending ?_ fun j hj => Function.update_of_ne hj _ _
    rw [Function.update_self, Progress.made, FileStream.contents, hchunks, List.append_nil,
      hcontents]
  · rw [hi]
    rfl

end Building

/-- What is left of the packets, and how far the files have come. -/
def Merging [Fintype ι] (file : ι → FileStream) (staging : Location Bytes) (start : Disk)
    (left : ι → List Handling) (r : Receiver) : Prop :=
  ∃ p : ι → Progress, (∀ i, left i = (p i).left (file i)) ∧ Building file p staging start r

/-- **The step lemma.**  Whichever file is next, its packet is accepted. -/
theorem merging_step [Fintype ι] [DecidableEq ι] {file : ι → FileStream} (hf : Compatible file)
    {staging : Location Bytes} {start : Disk} {left : ι → List Handling} {r : Receiver} {i : ι}
    {x : Handling} {rest : List Handling} (hleft : left i = x :: rest)
    (h : Merging file staging start left r) : ∃ r', r.accept x = some r' ∧
      Merging file staging start (Function.update left i rest) r' := by
  obtain ⟨p, hp, hbuilding⟩ := h
  -- the packet is the next one of the file, and the file advances to `v`
  have hadvance : ∃ v r', rest = v.left (file i) ∧ r.accept x = some r' ∧
      Building file (Function.update p i v) staging start r' := by
    rw [hp i] at hleft
    cases hi : p i with
    | waiting =>
        rw [hi] at hleft
        obtain ⟨rfl, rfl⟩ := List.cons.inj hleft
        obtain ⟨r', haccept, hnext⟩ := hbuilding.create hf hi
        exact ⟨_, r', rfl, haccept, hnext⟩
    | writing before after there pending =>
        rw [hi] at hleft
        cases after with
        | nil =>
            obtain ⟨rfl, rfl⟩ := List.cons.inj hleft
            obtain ⟨r', haccept, hnext⟩ := hbuilding.finish hf hi
            exact ⟨_, r', rfl, haccept, hnext⟩
        | cons c after =>
            obtain ⟨rfl, rfl⟩ := List.cons.inj hleft
            obtain ⟨v, r', hleft, haccept, hnext⟩ := hbuilding.data hf hi
            exact ⟨v, r', hleft.symm, haccept, hnext⟩
    | finished =>
        rw [hi] at hleft
        cases hleft
  obtain ⟨v, r', hrest, haccept, hnext⟩ := hadvance
  refine ⟨r', haccept, Function.update p i v, fun j => ?_, hnext⟩
  by_cases hj : j = i
  · rw [hj, Function.update_self, Function.update_self]
    exact hrest
  · rw [Function.update_of_ne hj, Function.update_of_ne hj]
    exact hp j

/-- **Any merge is received.**  Files with ids of their own, at paths none of which is the
beginning of another, are received in any merge of their packets: each packet is accepted,
each file has the contents that its own packets carry, and the disk does not depend on the
merge. -/
theorem merges_agree [Fintype ι] [DecidableEq ι] {file : ι → FileStream}
    (hf : Compatible file) {r : Receiver} {staging : Location Bytes} (hfresh : r.Fresh staging)
    (htotal : r.bytesRemaining.toNat = ∑ i, (file i).contents.length) :
    (∀ merge, Merge (fun i => (file i).packets) merge → ∃ r', merge.foldlM accept r = some r' ∧
      Grown file (fun _ => .finished) staging r.disk r'.disk ∧
      (∀ i, r'.disk.node (staging ++ stagedNames (file i).path) =
        some (.file (file i).contents)) ∧
      r'.fileBuilder.openFiles = ∅ ∧ r'.bytesRemaining = 0) ∧
    ∀ merge merge' r₁ r₂, Merge (fun i => (file i).packets) merge →
      Merge (fun i => (file i).packets) merge' → merge.foldlM accept r = some r₁ →
        merge'.foldlM accept r = some r₂ → r₁.disk = r₂.disk := by
  have hreceived : ∀ merge, Merge (fun i => (file i).packets) merge →
      ∃ r', merge.foldlM accept r = some r' ∧
        Building file (fun _ => .finished) staging r.disk r' := by
    intro merge hmerge
    obtain ⟨r', hrun, left', hleft', p, hp, hbuilding⟩ :=
      hmerge.run (fun left r i x rest hleft h => merging_step hf hleft h)
        ⟨fun _ => .waiting, fun _ => rfl, hfresh.building hf htotal⟩
    have hend : p = fun _ => .finished := by
      funext i
      have hnil : (p i).left (file i) = [] := (hp i).symm.trans (hleft' i)
      cases hi : p i with
      | waiting =>
          rw [hi] at hnil
          cases hnil
      | writing before after there pending =>
          rw [hi, Progress.left] at hnil
          simp at hnil
      | finished => rfl
    exact ⟨r', hrun, hend ▸ hbuilding⟩
  constructor
  · intro merge hmerge
    obtain ⟨r', hrun, h⟩ := hreceived merge hmerge
    refine ⟨r', hrun, h.grown, h.grown.files, ?_, ?_⟩
    · apply Finmap.ext_lookup
      intro id
      by_cases hid : ∃ i, (file i).fileId = id
      · obtain ⟨i, rfl⟩ := hid
        exact h.opened i
      · exact h.others id fun i hi => hid ⟨i, hi⟩
    · apply UInt64.toNat_inj.mp
      rw [h.remaining]
      exact Finset.sum_const_zero
  · intro merge merge' r₁ r₂ hmerge hmerge' h₁ h₂
    obtain ⟨r', hrun, h⟩ := hreceived merge hmerge
    obtain ⟨r'', hrun', h'⟩ := hreceived merge' hmerge'
    obtain rfl := Option.some.inj (h₁.symm.trans hrun)
    obtain rfl := Option.some.inj (h₂.symm.trans hrun')
    exact h.grown.unique h'.grown

/-! ## Files to receive -/

theorem bytes_samplePacket (type : FTProto.PacketType) (fileId : UInt32) {payload : Bytes}
    (h : payload.length ≤ FTProto.packetSize) :
    Handling.bytes { packet := samplePacket type fileId payload } = payload := by
  have hsize : (samplePacket type fileId payload).header.size.toNat = payload.length := by
    refine UInt16.toNat_ofNat_of_lt' (lt_of_le_of_lt h ?_)
    decide
  rw [Handling.bytes, FTProto.Packet.read_eq_payload (hsize.trans_le h), FTProto.Packet.payload,
    hsize, samplePacket, Buffer.take_overlay]
  rwa [List.length_replicate]

/-- The packets of a file. -/
def sampleStream (fileId : UInt32) (path : Bytes) (payloads : List Bytes) : FileStream where
  create := { packet := samplePacket .createFile fileId path }
  chunks := payloads.map fun data => { packet := samplePacket .fileData fileId data }
  finish := { packet := samplePacket .endFile fileId [] }
  create_type := rfl
  chunks_type := by simp [samplePacket]
  finish_type := rfl
  chunks_id := by simp [samplePacket]
  finish_id := rfl
  create_faults := ⟨0, none, rfl⟩
  chunks_faults := List.forall_mem_map.mpr fun _ _ => ⟨0, none, rfl⟩
  finish_faults := ⟨0, none, rfl⟩

def sampleId : Bool → UInt32
  | false => 7
  | true => 8

def samplePath : Bool → Bytes
  | false => [97]
  | true => [100, 47, 46, 47, 98]

def samplePayloads : Bool → List Bytes
  | false => [[1], [2]]
  | true => [[3]]

/-- The files `a` and `d/./b`. -/
def sampleFiles (i : Bool) : FileStream := sampleStream (sampleId i) (samplePath i) (samplePayloads i)

theorem sampleReceiver_fresh (total : UInt64) :
    Fresh { sampleReceiver with bytesRemaining := total } [[111], [115]] := by
  refine ⟨rfl, rfl, fun m hm => ?_, rfl⟩
  show sampleDisk.node ([[111], [115]] ++ m) = none
  rw [sampleDisk, node_graft (by simp) (by decide), if_neg (by simpa using hm),
    if_pos (List.prefix_append _ _)]

theorem path_sampleFiles (i : Bool) : (sampleFiles i).path = samplePath i :=
  bytes_samplePacket _ _ (by revert i; decide)

theorem sampleFiles_compatible : Compatible sampleFiles := by
  refine ⟨?_, fun i => ?_, fun i j => ?_⟩
  · show Function.Injective sampleId
    decide
  · rw [path_sampleFiles]
    cases i with
    | false => exact ⟨by decide, [97], by decide⟩
    | true => exact ⟨by decide, [98], by decide⟩
  · rw [path_sampleFiles, path_sampleFiles]
    revert i j
    decide

/-- The two files at the same time. -/
def sampleMerge : List Handling :=
  [(sampleFiles false).create, (sampleFiles true).create,
    { packet := samplePacket .fileData 7 [1] }, { packet := samplePacket .fileData 8 [3] },
    { packet := samplePacket .fileData 7 [2] }, (sampleFiles true).finish,
    (sampleFiles false).finish]

theorem sampleMerge_merges : Merge (fun i => (sampleFiles i).packets) sampleMerge := by
  refine .next (i := false) rfl ?_
  refine .next (i := true) rfl ?_
  refine .next (i := false) rfl ?_
  refine .next (i := true) rfl ?_
  refine .next (i := false) rfl ?_
  refine .next (i := true) rfl ?_
  refine .next (i := false) rfl ?_
  refine .done fun i => ?_
  cases i with
  | false => rfl
  | true => rfl

theorem contents_sampleFiles (i : Bool) :
    (sampleFiles i).contents = (samplePayloads i).flatten := by
  cases i with
  | false =>
      show contentsOf [{ packet := samplePacket .fileData 7 [1] },
        { packet := samplePacket .fileData 7 [2] }] = _
      rw [contentsOf_cons, contentsOf_singleton, bytes_samplePacket _ _ (by decide),
        bytes_samplePacket _ _ (by decide)]
      rfl
  | true =>
      show contentsOf [{ packet := samplePacket .fileData 8 [3] }] = _
      rw [contentsOf_singleton, bytes_samplePacket _ _ (by decide)]
      rfl

theorem merges_agree_two : ∃ r', sampleMerge.foldlM accept
    { sampleReceiver with bytesRemaining := 3 } = some r' ∧
      r'.disk.node [[111], [115], [97]] = some (.file [1, 2]) ∧
      r'.disk.node [[111], [115], [100], [98]] = some (.file [3]) := by
  have htotal : (3 : UInt64).toNat = ∑ i, (sampleFiles i).contents.length := by
    rw [Fintype.sum_bool, contents_sampleFiles, contents_sampleFiles]
    rfl
  obtain ⟨r', hrun, -, hfiles, -⟩ := (merges_agree sampleFiles_compatible
    (sampleReceiver_fresh 3) htotal).1 sampleMerge sampleMerge_merges
  refine ⟨r', hrun, ?_, ?_⟩
  · have := hfiles false
    rwa [path_sampleFiles, contents_sampleFiles] at this
  · have := hfiles true
    rwa [path_sampleFiles, contents_sampleFiles] at this

/-- A file at `path`, of whatever contents, is accepted on its own. -/
def AcceptedAlone (path : Bytes) : Prop :=
  ∀ (file : Unit → FileStream) (r : Receiver) (staging : Location Bytes), (file ()).path = path →
    r.Fresh staging → r.bytesRemaining.toNat = ∑ i, (file i).contents.length →
      ∀ merge, Merge (fun i => (file i).packets) merge → ∃ r', merge.foldlM accept r = some r'

theorem not_acceptedAlone {path : Bytes} (hshort : path.length ≤ FTProto.packetSize)
    (hrefused : ((sampleStream 7 path []).packets.foldlM accept
      { sampleReceiver with bytesRemaining := 0 }).isNone = true) : ¬ AcceptedAlone path := by
  intro h
  have hmerge : Merge (fun _ : Unit => (sampleStream 7 path []).packets)
      (sampleStream 7 path []).packets := by
    refine .next (i := ()) rfl ?_
    refine .next (i := ()) rfl ?_
    exact .done fun _ => rfl
  have hpath : (sampleStream 7 path []).path = path := bytes_samplePacket _ _ hshort
  have htotal : (0 : UInt64).toNat = ∑ i : Unit, (sampleStream 7 path []).contents.length :=
    Finset.sum_const_zero.symm
  obtain ⟨r', hr'⟩ := h (fun _ => sampleStream 7 path []) _ _ hpath (sampleReceiver_fresh 0) htotal
    _ hmerge
  rw [hr'] at hrefused
  cases hrefused

/-- Not every relative path can be the path of a file: `a/../b` is refused, `a/.` is the
directory that was made for it, and so is `a` with a zero byte before its last name. -/
theorem paths_refused : ¬ AcceptedAlone [97, 47, 46, 46, 47, 98] ∧
    ¬ AcceptedAlone [97, 47, 46] ∧ ¬ AcceptedAlone [97, 0, 47, 98] := by
  refine ⟨?_, ?_, ?_⟩
  · exact not_acceptedAlone (by decide) (by decide +kernel)
  · exact not_acceptedAlone (by decide) (by decide +kernel)
  · exact not_acceptedAlone (by decide) (by decide +kernel)

end Receiver
end FileHopZ

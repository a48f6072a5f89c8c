import FileHopZ.Library.Containment
import FileHopZ.Library.Map
import FileHopZ.Receiver.Accounting

/-! # Where a receiver builds

Until `commit`, `File_builder` is to work in the staging directory only.  A path of a packet
that is relative and has no `..` stays there, unless it goes through a link that the sender
has had made before: `validate_relative_path` looks at the path and not at the disk.
-/
namespace FileHopZ
open FileSystem FileTree

/-! ## Validated paths -/

namespace FsPath

theorem part_ne_parent {c : Bytes} (h : FileBuilder.isForbiddenPathPart c = false) :
    part c ≠ .parent := by
  simp only [FileBuilder.isForbiddenPathPart, Bool.or_eq_false_iff, decide_eq_false_iff_not] at h
  unfold part
  split_ifs with hhere hup
  · simp
  · exact absurd hup h.1
  · simp

/-- A path without `..` goes up only where a zero byte ends it. -/
theorem parent_not_mem_osParts {cs : List Bytes}
    (h : ∀ c ∈ cs, FileBuilder.isForbiddenPathPart c = false) : .parent ∉ (osParts cs).dropLast := by
  induction cs with
  | nil => simp [osParts]
  | cons c cs ih =>
      rw [osParts]
      split_ifs
      · simp
      · intro hmem
        have hrest : osParts cs ≠ [] := by
          intro hnil
          rw [hnil] at hmem
          simp at hmem
        rw [List.dropLast_cons_of_ne_nil hrest, List.mem_cons] at hmem
        rcases hmem with hc | hmem
        · exact part_ne_parent (h c List.mem_cons_self) hc.symm
        · exact ih (fun c' hc' => h c' (List.mem_cons_of_mem c hc')) hmem

/-- One component more is one more for the system, or is behind a zero byte. -/
theorem osParts_concat {cs : List Bytes}
    (h : ∀ c ∈ cs, FileBuilder.isForbiddenPathPart c = false) (last : Bytes) :
    osParts (cs ++ [last]) = osParts cs ∨
      ∃ p, osParts (cs ++ [last]) = osParts cs ++ [p] ∧ .parent ∉ osParts cs := by
  induction cs with
  | nil =>
      refine Or.inr ?_
      simp only [List.nil_append, osParts]
      split_ifs
      · exact ⟨_, rfl, by simp⟩
      · exact ⟨part last, rfl, by simp⟩
  | cons c cs ih =>
      rw [List.cons_append, osParts, osParts]
      split_ifs
      · exact Or.inl rfl
      · rcases ih fun c' hc' => h c' (List.mem_cons_of_mem c hc') with heq | ⟨p, heq, hup⟩
        · exact Or.inl (by rw [heq])
        · refine Or.inr ⟨p, by rw [heq, List.cons_append], ?_⟩
          rw [List.mem_cons, not_or]
          exact ⟨(part_ne_parent (h c List.mem_cons_self)).symm, hup⟩

end FsPath

namespace FileBuilder

theorem components_of_valid {path : Bytes} (h : validateRelativePath path = none) :
    FsPath.components path ≠ [] ∧
      ∀ c ∈ FsPath.components path, isForbiddenPathPart c = false := by
  unfold validateRelativePath at h
  split_ifs at h with habs hforbidden
  refine ⟨?_, fun c hc => ?_⟩
  · rw [FsPath.components, if_neg]
    · simp
    · rintro rfl
      simp at habs
  · rw [List.any_eq_true, not_exists] at hforbidden
    simpa using fun hc' => hforbidden c ⟨hc, hc'⟩

theorem parent_not_mem_stagedPath {path : Bytes} (h : validateRelativePath path = none) :
    .parent ∉ (stagedPath path).dropLast := FsPath.parent_not_mem_osParts (components_of_valid h).2

theorem parent_not_mem_stagedParent {path : Bytes} (h : validateRelativePath path = none) :
    .parent ∉ (stagedParent path).dropLast :=
  FsPath.parent_not_mem_osParts fun c hc =>
    (components_of_valid h).2 c (List.dropLast_subset _ hc)

theorem stagedPath_eq {path : Bytes} (h : validateRelativePath path = none) :
    stagedPath path = stagedParent path ∨
      ∃ p, stagedPath path = stagedParent path ++ [p] ∧ .parent ∉ stagedParent path := by
  obtain ⟨hne, hforbidden⟩ := components_of_valid h
  have hconcat := FsPath.osParts_concat (fun c hc => hforbidden c (List.dropLast_subset _ hc))
    ((FsPath.components path).getLast hne)
  rwa [List.dropLast_append_getLast] at hconcat

/-! ## The calls -/

/-- What is missing of a path is missing inside. -/
def MadeInside (disk : Disk) (staging : Location Bytes) (path : Bytes) : Prop :=
  validateRelativePath path = none → disk.MissingInside staging (stagedPath path)

/-- The same for the directory that the file is in; and the file is inside, if it is one. -/
def OpenedInside (disk : Disk) (staging : Location Bytes) (path : Bytes) : Prop :=
  validateRelativePath path = none → disk.MissingInside staging (stagedParent path) ∧
    ∀ q, disk.locate true staging (stagedPath path) = .ok q →
      staging <+: q ∨ disk.node q = some .directory

/-- The open files are inside. -/
def FilesInside (staging : Location Bytes) (b : FileBuilder) : Prop :=
  ∀ fileId file, b.openFiles.lookup fileId = some file → staging <+: file.location

section Calls
variable {b : FileBuilder} {disk : Disk} {staging : Location Bytes}

theorem staging_ok {path : Bytes} (hstaging : b.stagingRoot = some staging)
    {staging' : Location Bytes} (h : b.staging path = .ok staging') :
    staging = staging' ∧ validateRelativePath path = none := by
  unfold FileBuilder.staging at h
  rw [hstaging] at h
  dsimp only at h
  split at h
  · cases h
  · rename_i hvalid
    exact ⟨Except.ok.inj h, hvalid⟩

theorem filesInside_insert {file : OpenFile} (hinside : staging <+: file.location)
    (hfiles : FilesInside staging b) (fileId : UInt32) :
    FilesInside staging { b with openFiles := b.openFiles.insert fileId file } := by
  intro fileId' file' hfile
  rcases FiniteMap.lookup_insert_cases hfile with ⟨rfl, rfl⟩ | ⟨-, hold⟩
  · exact hinside
  · exact hfiles fileId' file' hold

variable (hstaging : b.stagingRoot = some staging) (hdir : disk.node staging = some .directory)

include hstaging hdir

theorem createDirectory_inside (directories : Fault) {path : Bytes}
    (h : MadeInside disk staging path) :
    disk.SameOutside staging (b.createDirectory directories path disk).1 := by
  unfold createDirectory
  split
  · exact .refl staging disk
  · rename_i heq
    obtain ⟨rfl, hvalid⟩ := staging_ok hstaging heq
    exact (making_createDirectories hdir (h hvalid) (parent_not_mem_stagedPath hvalid)
      directories).1

theorem createFile_inside (faults : FileFaults) {path : Bytes} (fileId : UInt32)
    (h : OpenedInside disk staging path) (hfiles : FilesInside staging b) :
    disk.SameOutside staging (b.createFile faults path fileId disk).2.1 ∧
      FilesInside staging (b.createFile faults path fileId disk).1 := by
  unfold createFile
  split
  · exact ⟨.refl staging disk, hfiles⟩
  rename_i heq
  obtain ⟨rfl, hvalid⟩ := staging_ok hstaging heq
  obtain ⟨hmissing, hopened⟩ := h hvalid
  obtain ⟨hsame, hmaking⟩ := making_createDirectories hdir hmissing
    (parent_not_mem_stagedParent hvalid) faults.directories
  split
  · rename_i heq
    rw [heq] at hsame
    exact ⟨hsame, hfiles⟩
  · rename_i disk' heq
    rw [heq] at hsame hmaking
    dsimp only at hsame hmaking
    split
    · rename_i location hopen _
      obtain ⟨hlocate, hnode, rfl⟩ := openTruncated_ok hopen
      have hinside : staging <+: location := by
        rcases inside_of_making (hmaking rfl) (stagedPath_eq hvalid) hlocate hnode with rfl | h
        · exact (hopened location hlocate).resolve_right hnode
        · exact h
      have hopened := hsame.trans (.graft hinside (.file []))
      constructor
      · -- what the stream that is replaced has held back goes to its own file
        dsimp only
        split
        · rename_i replaced hreplaced
          exact hopened.trans (sameOutside_writeAt (hfiles fileId replaced hreplaced) _ _)
        · exact hopened
      · exact filesInside_insert hinside hfiles fileId
    · exact ⟨hsame, hfiles⟩

theorem createSymlink_inside (faults : SymlinkFaults) {path : Bytes} (target : Bytes)
    (h : MadeInside disk staging path) :
    disk.SameOutside staging (b.createSymlink faults path target disk).1 := by
  unfold createSymlink
  split
  · exact .refl staging disk
  rename_i heq
  obtain ⟨rfl, hvalid⟩ := staging_ok hstaging heq
  obtain ⟨hsame, hmaking⟩ := making_createDirectories hdir
    ((h hvalid).of_append (stagedPath_eq hvalid)) (parent_not_mem_stagedParent hvalid)
    faults.directories
  split
  · rename_i heq
    rw [heq] at hsame
    exact hsame
  rename_i disk' heq
  rw [heq] at hsame hmaking
  dsimp only at hsame hmaking
  split
  · exact hsame
  · exact hsame
  · dsimp only
    split
    · exact hsame
    · rename_i hlink
      simp only [attempt] at hlink
      split at hlink
      · cases hlink
      · split_ifs at hlink
        obtain ⟨location, hlocate, hnone, rfl⟩ := createSymlink_ok hlink
        refine hsame.trans (.graft ?_ _)
        rcases inside_of_making (hmaking rfl) (stagedPath_eq hvalid) hlocate
          (by rw [hnone]; simp) with rfl | hinside
        · refine h hvalid (stagedPath path).length location ?_ hnone
          rwa [List.take_length]
        · exact hinside

omit hstaging hdir in
theorem write_inside (count : Nat) (fault : Option Bytes) (data : Bytes) (fileId : UInt32)
    (hfiles : FilesInside staging b) :
    disk.SameOutside staging (b.write count fault data fileId disk).2.1 ∧
      FilesInside staging (b.write count fault data fileId disk).1 := by
  unfold write
  split
  · exact ⟨.refl staging disk, hfiles⟩
  · rename_i file hfile
    have hinside := hfiles fileId file hfile
    split_ifs
    · exact ⟨.refl staging disk, hfiles⟩
    · dsimp only
      split
      · exact ⟨sameOutside_writeAt hinside _ _, filesInside_insert (by exact hinside) hfiles fileId⟩
      · exact ⟨sameOutside_writeAt hinside _ _, filesInside_insert (by exact hinside) hfiles fileId⟩

omit hstaging hdir in
theorem closeFile_inside (fault : Option Nat) (fileId : UInt32)
    (hfiles : FilesInside staging b) :
    disk.SameOutside staging (b.closeFile fault fileId disk).2.1 ∧
      FilesInside staging (b.closeFile fault fileId disk).1 := by
  unfold closeFile
  split
  · exact ⟨.refl staging disk, hfiles⟩
  · rename_i file hfile
    have hinside := hfiles fileId file hfile
    dsimp only
    split_ifs
    · exact ⟨sameOutside_writeAt hinside _ _, filesInside_insert (by exact hinside) hfiles fileId⟩
    · exact ⟨sameOutside_writeAt hinside _ _,
        fun fileId' file' hfile' => hfiles fileId' file' (FiniteMap.lookup_of_erase hfile').2⟩

omit hstaging hdir in
/-- What the open streams have held back is put inside. -/
theorem closeAll_inside (faults : CloseFaults) (hfiles : FilesInside staging b) :
    disk.SameOutside staging (b.closeAll faults disk).2.1 :=
  closeAll_keeps (fun id file _ hfile h =>
    h.trans (sameOutside_writeAt (hfiles id file hfile) _ _)) (.refl staging disk)

end Calls

end FileBuilder

namespace Receiver

/-- The path of a packet does not lead out of the staging directory, to where the packet
would have something made or truncated. -/
def StaysInside (r : Receiver) (h : Handling) : Prop :=
  ∀ staging, r.fileBuilder.stagingRoot = some staging →
    match h.packet.header.type with
    | .createDirectory => FileBuilder.MadeInside r.disk staging (h.packet.read h.beyond)
    | .createFile => FileBuilder.OpenedInside r.disk staging (h.packet.read h.beyond)
    | .createSymlink => ∀ path target,
        extractSymlink (h.packet.read h.beyond) = .ok (path, target) →
          FileBuilder.MadeInside r.disk staging path
    | _ => True

/-- What holds while nothing has been built outside. -/
structure Inside (staging : Location Bytes) (r : Receiver) : Prop where
  stagingRoot : r.fileBuilder.stagingRoot = some staging
  there : r.disk.node staging = some .directory
  files : FileBuilder.FilesInside staging r.fileBuilder

/-- **The step lemma.** -/
theorem inside_handlePacket {r : Receiver} {staging : Location Bytes} (hr : r.Inside staging)
    {h : Handling} (hstays : r.StaysInside h) :
    r.disk.SameOutside staging (r.handlePacket h.faults h.beyond h.packet).1.disk ∧
      FileBuilder.FilesInside staging
        (r.handlePacket h.faults h.beyond h.packet).1.fileBuilder := by
  have hstays := hstays staging hr.stagingRoot
  unfold handlePacket
  dsimp only
  split
  · rename_i htype
    rw [htype] at hstays
    exact ⟨FileBuilder.createDirectory_inside hr.stagingRoot hr.there _ hstays, hr.files⟩
  · rename_i htype
    rw [htype] at hstays
    exact FileBuilder.createFile_inside hr.stagingRoot hr.there _ _ hstays hr.files
  · rename_i htype
    rw [htype] at hstays
    split
    · exact ⟨.refl staging r.disk, hr.files⟩
    · rename_i path target hextract
      exact ⟨FileBuilder.createSymlink_inside hr.stagingRoot hr.there _ _
        (hstays path target hextract), hr.files⟩
  · have hwrite := @FileBuilder.write_inside r.fileBuilder r.disk staging h.faults.put
      h.faults.write (h.packet.read h.beyond) h.packet.header.fileId hr.files
    split_ifs
    · split
      · rename_i heq
        rw [heq] at hwrite
        exact hwrite
      · rename_i heq
        rw [heq] at hwrite
        exact hwrite
    · exact ⟨.refl staging r.disk, hr.files⟩
  · exact FileBuilder.closeFile_inside _ _ hr.files
  · split_ifs
    · exact ⟨.refl staging r.disk, hr.files⟩
    · exact ⟨.refl staging r.disk, hr.files⟩
  · exact ⟨.refl staging r.disk, hr.files⟩

/-- **The staging directory contains what is built.**  In every run of `handle_packet` calls
whose paths do not lead out of it, nothing differs outside the staging directory from what
the constructor left, and every file that has been opened is inside. -/
theorem staging_contains {outputDirectory : List (Component Bytes)} {name : Nat → Bytes}
    {directories : Fault} {fault : Nat → Option Errno} {disk : Disk} {staging : Location Bytes}
    (hmade : (construct outputDirectory name directories fault disk).fileBuilder.stagingRoot =
      some staging) {tr : List Observation} {r : Receiver}
    (hrun : Transition.Run handleStep StaysInside
      (construct outputDirectory name directories fault disk) tr r) :
    (construct outputDirectory name directories fault disk).disk.SameOutside staging r.disk ∧
      FileBuilder.FilesInside staging r.fileBuilder := by
  obtain ⟨-, hdir, -, hfiles⟩ := FileBuilder.made_construct hmade
  have hstart : (construct outputDirectory name directories fault disk).Inside staging := by
    refine ⟨hmade, hdir, fun fileId file hfile => ?_⟩
    have hnone : (construct outputDirectory name directories fault disk).fileBuilder.openFiles =
      ∅ := hfiles
    rw [hnone, Finmap.lookup_empty] at hfile
    cases hfile
  have h : (construct outputDirectory name directories fault disk).disk.SameOutside staging
      r.disk ∧ r.Inside staging := by
    refine hrun.invariant (I := fun _ r =>
      (construct outputDirectory name directories fault disk).disk.SameOutside staging r.disk ∧
        r.Inside staging) ⟨.refl _ _, hstart⟩ ?_
    rintro tr r h r' out ⟨hsame, hinside⟩ hstays hs
    obtain ⟨rfl, rfl⟩ := Prod.mk.inj (Option.some.inj hs)
    obtain ⟨hsame', hfiles'⟩ := inside_handlePacket hinside hstays
    obtain ⟨hkeeps, -⟩ := keeps_handlePacket h.faults h.beyond h.packet r
    exact ⟨hsame.trans hsame', hkeeps.stagingRoot.trans hinside.stagingRoot,
      hkeeps.directories _ hinside.there, hfiles'⟩
  exact ⟨h.1, h.2.files⟩

/-- The constructor on a disk with a directory `e`, for the output directory `o`; the name it
tries is `s`. -/
def sampleBuilt : Receiver :=
  construct [.name [111]] (fun _ => [115]) none (fun _ => none) (bare.graft [[101]] .directory)

/-- `CREATE_FILE` for `a`. -/
theorem staging_contains_file : ∃ tr r, Transition.Run handleStep StaysInside sampleBuilt tr r ∧
    r.disk.node [[111], [115], [97]] = some (.file []) ∧
    sampleBuilt.disk.SameOutside [[111], [115]] r.disk := by
  have hstays : sampleBuilt.StaysInside { packet := samplePacket .createFile 7 [97] } := by
    intro staging hstaging
    obtain rfl : [[111], [115]] = staging := Option.some.inj (.trans (by decide +kernel) hstaging)
    refine fun _ => ⟨fun k q hq _ => ?_, fun q hq => Or.inl ?_⟩
    · have hparent : FileBuilder.stagedParent [97] = [] := by decide
      have hread : (samplePacket .createFile 7 [97]).read (fun _ => 0) = [97] := by decide +kernel
      rw [hread, hparent, List.take_nil] at hq
      obtain rfl := Except.ok.inj hq
      exact List.prefix_rfl
    · have hlocate : sampleBuilt.disk.locate true [[111], [115]] (FileBuilder.stagedPath
          ((samplePacket .createFile 7 [97]).read fun _ => 0)) = .ok [[111], [115], [97]] := by
        decide +kernel
      obtain rfl := Except.ok.inj (hlocate.symm.trans hq)
      exact List.prefix_append [[111], [115]] [[97]]
  have hrun : Transition.Run handleStep StaysInside sampleBuilt _ _ := .single hstays rfl
  exact ⟨_, _, hrun, by decide +kernel, (staging_contains (by decide +kernel) hrun).1⟩

/-- A link `a` to `/e`, and then the file `a/x`: it is made in `/e`. -/
theorem staging_escaped : ¬ ∀ (outputDirectory : List (Component Bytes)) (name : Nat → Bytes)
    (directories : Fault) (fault : Nat → Option Errno) (disk : Disk) (staging : Location Bytes),
    (construct outputDirectory name directories fault disk).fileBuilder.stagingRoot =
      some staging → ∀ tr r, Transition.Run handleStep Transition.Always
        (construct outputDirectory name directories fault disk) tr r →
          (construct outputDirectory name directories fault disk).disk.SameOutside staging
            r.disk := by
  intro h
  obtain ⟨tr, r, hrun, hp⟩ := Transition.exists_run handleStep Transition.Always sampleBuilt
    [{ packet := samplePacket .createSymlink 0 [1, 0, 97, 47, 101] },
      { packet := samplePacket .createFile 7 [97, 47, 120] }]
    (fun _ r => decide (r.disk.node [[101], [120]] = some (.file []))) (fun _ _ => true)
    (fun _ _ _ => trivial) (by decide +kernel)
  have hsame := h [.name [111]] (fun _ => [115]) none (fun _ => none)
    (bare.graft [[101]] .directory) [[111], [115]] (by decide +kernel) tr r hrun [[101], [120]]
    (by decide)
  rw [of_decide_eq_true hp] at hsame
  exact absurd hsame (by decide +kernel)

end Receiver
end FileHopZ

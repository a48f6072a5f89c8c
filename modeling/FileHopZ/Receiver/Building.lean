import FileHopZ.Library.Growth
import FileHopZ.Receiver.Containment

/-! # What `File_builder` makes

A path that `validate_relative_path` accepts and that ends in a name, as the system reads
it, names one location in the staging directory.  If there is nothing but directories on the
way and nothing at its end, `create_directory`, `create_file` and `create_symlink` make what
they are to make, and the directories that are missing.
-/
namespace FileHopZ
open FileSystem FileTree

namespace FileBuilder

/-- The staging directory is made empty. -/
theorem empty_makeStaging {root : List (Component Bytes)} {name : Nat → Bytes}
    {fault : Nat → Option Errno} {disk : Disk} {left : Nat} {staging : Location Bytes}
    (h : (makeStaging root name fault disk left).1.stagingRoot = some staging)
    {m : List Bytes} (hm : m ≠ []) :
    (makeStaging root name fault disk left).2.node (staging ++ m) = none := by
  induction left with
  | zero => cases h
  | succ left ih =>
      simp only [makeStaging] at h ⊢
      split at h
      · rename_i hmade
        simp only [attempt] at hmade
        split at hmade
        · cases hmade
        · obtain rfl := Option.some.inj h
          obtain ⟨hlocate, hnone, rfl⟩ := mkdir_ok hmade
          obtain ⟨hne, hparent⟩ := walk_vacant disk.root hlocate hnone
          rw [node_graft hne hparent, if_neg (by simpa using hm), if_pos (List.prefix_append _ _)]
      · exact ih h
      · cases h

theorem empty_construct {root : List (Component Bytes)} {name : Nat → Bytes} {directories : Fault}
    {fault : Nat → Option Errno} {disk : Disk} {staging : Location Bytes}
    (h : (construct root name directories fault disk).1.stagingRoot = some staging)
    {m : List Bytes} (hm : m ≠ []) :
    (construct root name directories fault disk).2.node (staging ++ m) = none := by
  unfold construct at h ⊢
  split at h
  · cases h
  · exact empty_makeStaging h hm

/-- The names that lead from the staging directory to what a path names. -/
def stagedNames (path : Bytes) : List Bytes := namesOf (stagedPath path)

/-- The names of its `parent_path`. -/
def parentNames (path : Bytes) : List Bytes := namesOf (stagedParent path)

/-- The path is accepted, and ends in a name before its first zero byte. -/
def EndsInName (path : Bytes) : Prop :=
  validateRelativePath path = none ∧ ∃ n, stagedPath path = stagedParent path ++ [.name n]

section Path
variable {path : Bytes}

theorem EndsInName.parent_not_mem (h : EndsInName path) : .parent ∉ stagedParent path := by
  obtain ⟨hvalid, n, hpath⟩ := h
  rcases stagedPath_eq hvalid with heq | ⟨p, -, hup⟩
  · have := congrArg List.length (hpath.symm.trans heq)
    simp at this
  · exact hup

theorem EndsInName.stagedNames_eq (h : EndsInName path) :
    ∃ n, stagedPath path = stagedParent path ++ [.name n] ∧
      stagedNames path = parentNames path ++ [n] := by
  obtain ⟨n, hpath⟩ := h.2
  exact ⟨n, hpath, by rw [stagedNames, hpath, namesOf_append]; rfl⟩

theorem EndsInName.dropLast (h : EndsInName path) :
    (stagedNames path).dropLast = parentNames path := by
  obtain ⟨n, -, hnames⟩ := h.stagedNames_eq
  rw [hnames, List.dropLast_concat]

theorem EndsInName.ne_nil (h : EndsInName path) : stagedNames path ≠ [] := by
  obtain ⟨n, -, hnames⟩ := h.stagedNames_eq
  rw [hnames]
  simp

end Path

section Calls
variable {b : FileBuilder} {disk : Disk} {staging : Location Bytes} {path : Bytes}

theorem staging_eq (hstaging : b.stagingRoot = some staging) (hpath : EndsInName path) :
    b.staging path = .ok staging := by
  rw [FileBuilder.staging, hstaging, hpath.1]

/-- The tree in which `v` has been made at the end of a path, and the directories that were
missing on the way. -/
def MadeAt (staging : Location Bytes) (ns : List Bytes) (v : FileSystem.Node Bytes UInt8)
    (disk disk' : Disk) : Prop :=
  disk'.node (staging ++ ns) = some v ∧
    ∀ q, q ≠ staging ++ ns → disk'.node q =
      if staging <+: q ∧ q <+: staging ++ ns.dropLast then some .directory else disk.node q

/-- After the directories, something is made in the last of them. -/
theorem madeAt_graft {n : Bytes} {ns : List Bytes} {disk' : Disk}
    (hmade : ∀ q, disk'.node q =
      if staging <+: q ∧ q <+: staging ++ ns then some .directory else disk.node q)
    (hnone : disk.node (staging ++ (ns ++ [n])) = none) (v : FileSystem.Node Bytes UInt8) :
    MadeAt staging (ns ++ [n]) v disk (disk'.graft (staging ++ ns ++ [n]) v) ∧
      disk'.node (staging ++ ns) = some .directory ∧
      disk'.node (staging ++ ns ++ [n]) = none := by
  have hdir : disk'.node (staging ++ ns) = some .directory := by
    rw [hmade, if_pos ⟨List.prefix_append _ _, List.prefix_rfl⟩]
  have hfree : disk'.node (staging ++ ns ++ [n]) = none := by
    rw [hmade, if_neg fun h => not_concat_prefix _ _ h.2, List.append_assoc, hnone]
  refine ⟨⟨?_, fun q hq => ?_⟩, hdir, hfree⟩
  · rw [← List.append_assoc, node_graft_through hdir hfree, if_pos rfl]
  · rw [node_graft_through hdir hfree, if_neg (by rwa [List.append_assoc]), hmade,
      List.dropLast_concat]

variable (hstaging : b.stagingRoot = some staging) (hdir : disk.node staging = some .directory)
  (hpath : EndsInName path) (hclear : disk.Clear staging (parentNames path))
  (hnone : disk.node (staging ++ stagedNames path) = none)

include hstaging hdir hpath hclear hnone

theorem createFile_made {fileId : UInt32} (hid : b.openFiles.lookup fileId = none)
    (replaced : Option Nat) : ∃ disk',
    b.createFile { replaced := replaced } path fileId disk =
        ({ b with
            openFiles := b.openFiles.insert fileId { location := staging ++ stagedNames path } },
          disk', none) ∧ MadeAt staging (stagedNames path) (.file []) disk disk' := by
  obtain ⟨n, hstaged, hnames⟩ := hpath.stagedNames_eq
  obtain ⟨disk', hmade, hnode⟩ := createDirectories_through hpath.parent_not_mem hdir hclear
  rw [hnames] at hnone ⊢
  obtain ⟨hat, hparent, hfree⟩ := madeAt_graft hnode hnone (.file [])
  refine ⟨_, ?_, hat⟩
  rw [createFile, staging_eq hstaging hpath]
  dsimp only
  rw [hmade, hstaged]
  dsimp only
  rw [openTruncated_through hpath.parent_not_mem hparent hfree]
  dsimp only
  rw [hid, List.append_assoc, parentNames]

theorem createSymlink_made {target : Bytes} (htarget : FsPath.cText target ≠ []) : ∃ disk',
    b.createSymlink {} path target disk = (disk', none) ∧
      MadeAt staging (stagedNames path) (.symlink (FsPath.cText target)) disk disk' := by
  obtain ⟨n, hstaged, hnames⟩ := hpath.stagedNames_eq
  obtain ⟨disk', hmade, hnode⟩ := createDirectories_through hpath.parent_not_mem hdir hclear
  rw [hnames] at hnone ⊢
  obtain ⟨hat, hparent, hfree⟩ := madeAt_graft hnode hnone (.symlink (FsPath.cText target))
  refine ⟨_, ?_, hat⟩
  have htext : (FsPath.cText target).isEmpty = false := by simpa using htarget
  rw [createSymlink, staging_eq hstaging hpath]
  dsimp only
  rw [hmade, hstaged]
  dsimp only
  rw [status_through hpath.parent_not_mem hparent (by simp), hfree]
  simp only [attempt, htext, Bool.false_eq_true, if_false]
  rw [createSymlink_through hpath.parent_not_mem hparent hfree]

theorem createDirectory_made : ∃ disk', b.createDirectory none path disk = (disk', none) ∧
    MadeAt staging (stagedNames path) .directory disk disk' := by
  obtain ⟨n, hstaged, hnames⟩ := hpath.stagedNames_eq
  have hup : .parent ∉ stagedPath path := by
    rw [hstaged]
    simpa using hpath.parent_not_mem
  have hclear' : disk.Clear staging (stagedNames path) := by
    intro m hm
    by_cases hend : m = stagedNames path
    · exact Or.inl (hend ▸ hnone)
    · exact hclear m (hpath.dropLast ▸ prefix_dropLast hm hend)
  obtain ⟨disk', hmade, hnode⟩ := createDirectories_through hup hdir hclear'
  refine ⟨disk', ?_, ?_, fun q hq => ?_⟩
  · rw [createDirectory, staging_eq hstaging hpath]
    dsimp only
    rw [hmade]
    rfl
  · rw [hnode, if_pos ⟨List.prefix_append _ _, List.prefix_rfl⟩]
  · rw [hnode]
    refine if_congr ⟨fun ⟨hl, hr⟩ => ⟨hl, ?_⟩, fun ⟨hl, hr⟩ => ⟨hl, hr.trans ?_⟩⟩ rfl rfl
    · obtain ⟨m, rfl⟩ := hl
      refine (List.prefix_append_right_inj _).mpr
        (prefix_dropLast ((List.prefix_append_right_inj _).mp hr) ?_)
      rintro rfl
      exact hq rfl
    · exact (List.prefix_append_right_inj _).mpr (List.dropLast_prefix _)

end Calls
end FileBuilder
end FileHopZ

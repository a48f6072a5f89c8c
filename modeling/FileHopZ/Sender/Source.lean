import FileHopZ.Library.Growth
import FileHopZ.Sender.FileWalker
import FileHopZ.Utils.Commit

/-! # What is sent

A finite tree, whose names and link texts are such as a system has them.  While it does not
change, each loop of the sender visits every entry once, a directory before what it holds, and
sees what the entry is.
-/
namespace FileHopZ
open FileSystem FileBuilder

/-- A tree of directories, files and links; a single file or link is alone in it. -/
structure Source where
  tree : Disk
  entries : List (List Bytes)
  enumerates : Enumerates tree [] entries
  names : ∀ m ∈ entries, ∀ n ∈ m, FsPath.FileName n
  targets : ∀ m target, tree.node m = some (.symlink target) → target ≠ [] ∧ 0 ∉ target

/-- What `symlink_status` says of a node. -/
def statusOf : FileSystem.Node Bytes UInt8 → FileStatus
  | .directory => .directory
  | .file contents => .regular (some contents)
  | .symlink target => .symlink target

/-- The number of bytes of a file. -/
def sizeOf : FileSystem.Node Bytes UInt8 → Nat
  | .file contents => contents.length
  | _ => 0

/-- The system shows the node at `path`. -/
structure ShowsAt (sys : System) (path : List Bytes) (v : FileSystem.Node Bytes UInt8) : Prop where
  status : sys.symlinkStatus path = statusOf v
  size : ∀ contents, v = .file contents → (sys.fileSize path).toNat = contents.length

/-- `root` is the path of the source. -/
inductive Shows (sys : System) : List Bytes → Source → Prop
  | single {source : Source} {name : Bytes} {v : FileSystem.Node Bytes UInt8} (base : List Bytes)
      (hentries : source.entries = [[name]]) (hnode : source.tree.node [name] = some v)
      (hleaf : v ≠ .directory) (hshown : ShowsAt sys (base ++ [name]) v) :
      Shows sys (base ++ [name]) source
  | directory {source : Source} (root : List Bytes) (hroot : sys.symlinkStatus root = .directory)
      (hshown : ∀ m v, m ≠ [] → source.tree.node m = some v →
        ShowsAt sys (FsPath.entryPath root m) v)
      (hiterate : ∀ k, ∃ ms, Enumerates source.tree [] ms ∧
        sys.iterate k root = ms.map (FsPath.entryPath root)) : Shows sys root source

/-- A visit to the entry `m`. -/
structure Sees (sys : System) (source : Source) (w : FileWalker) (m : List Bytes) : Prop where
  relative : w.relativePath = m
  shown : ∀ v, source.tree.node m = some v → ShowsAt sys w.current v

namespace Source

/-! ## Sources are built entry by entry -/

/-- An empty directory. -/
def bare : Source where
  tree := FileTree.bare
  entries := []
  enumerates := by
    refine ⟨List.nodup_nil, fun p => ?_, fun visited p rest h => ?_⟩
    · simp [FileTree.bare]
    · exact absurd (congrArg List.length h) (by simp)
  names := by simp
  targets m target h := by
    simp only [FileTree.bare] at h
    split_ifs at h
    cases h

/-- One more entry is enumerated last. -/
theorem enumerates_graft {t : Disk} {entries : List (List Bytes)} (h : Enumerates t [] entries)
    {m : List Bytes} {n : Bytes} (hparent : t.node m = some .directory)
    (hfree : t.node (m ++ [n]) = none) (v : FileSystem.Node Bytes UInt8) :
    Enumerates (t.graft (m ++ [n]) v) [] (entries ++ [m ++ [n]]) := by
  have hnode := FileTree.node_graft_through hparent hfree v
  refine ⟨?_, fun p => ?_, fun visited p rest heq k hk hk0 => ?_⟩
  · rw [List.nodup_append]
    refine ⟨h.nodup, List.nodup_singleton _, ?_⟩
    rintro a ha b hb rfl
    rw [List.mem_singleton.mp hb] at ha
    exact ((h.complete _).mp ha).2 hfree
  · rw [List.mem_append, List.mem_singleton, List.nil_append, hnode, h.complete p, List.nil_append]
    by_cases hp : p = m ++ [n]
    · simp [hp]
    · simp [hp]
  · rcases List.eq_nil_or_concat rest with rfl | ⟨rest', last, rfl⟩
    · -- the new entry: it is in a directory, and those above it have been visited
      obtain ⟨rfl, hlast⟩ := List.append_inj' heq rfl
      obtain rfl := (List.cons.inj hlast).1
      rw [List.length_append, List.length_singleton] at hk
      rw [List.take_append_of_le_length (by omega)]
      refine (h.complete _).mpr ⟨?_, ?_⟩
      · intro hnil
        have := congrArg List.length hnil
        rw [List.length_take, List.length_nil] at this
        omega
      · have habove : t.node (m.take k) = some .directory :=
          FileTree.directory_above (l := []) hparent (List.take_prefix k m)
        rw [List.nil_append, habove]
        simp
    · rw [List.concat_eq_append, ← List.cons_append, ← List.append_assoc] at heq
      obtain ⟨heq, -⟩ := List.append_inj' heq rfl
      exact h.parents visited p rest' heq k hk hk0

/-- One more entry, in a directory that is there. -/
def add (s : Source) (m : List Bytes) (n : Bytes) (v : FileSystem.Node Bytes UInt8)
    (hparent : s.tree.node m = some .directory) (hfree : s.tree.node (m ++ [n]) = none)
    (hname : FsPath.FileName n)
    (htarget : ∀ target, v = .symlink target → target ≠ [] ∧ 0 ∉ target) : Source where
  tree := s.tree.graft (m ++ [n]) v
  entries := s.entries ++ [m ++ [n]]
  enumerates := enumerates_graft s.enumerates hparent hfree v
  names := by
    intro p hp
    rcases List.mem_append.mp hp with hp | hp
    · exact s.names p hp
    · obtain rfl := List.mem_singleton.mp hp
      intro n' hn'
      rcases List.mem_append.mp hn' with hn' | hn'
      · by_cases hm : m = []
        · rw [hm] at hn'
          cases hn'
        · refine s.names m ((s.enumerates.complete m).mpr ⟨hm, ?_⟩) n' hn'
          rw [List.nil_append, hparent]
          simp
      · rwa [List.mem_singleton.mp hn']
  targets := by
    intro p target hp
    rw [FileTree.node_graft_through hparent hfree] at hp
    split_ifs at hp with heq
    · exact htarget target (Option.some.inj hp)
    · exact s.targets p target hp

variable {sys : System} {source : Source} {root : List Bytes}

theorem mem_entries_iff {ms : List (List Bytes)} (h : Enumerates source.tree [] ms)
    (m : List Bytes) : m ∈ ms ↔ m ∈ source.entries :=
  (h.complete m).trans (source.enumerates.complete m).symm

theorem there {m : List Bytes} (h : m ∈ source.entries) :
    m ≠ [] ∧ ∃ v, source.tree.node m = some v := by
  obtain ⟨hne, hnode⟩ := (source.enumerates.complete m).mp h
  exact ⟨hne, Option.ne_none_iff_exists'.mp hnode⟩

/-- The number of bytes of the file at `m`, if one is there. -/
def sizeAt (source : Source) (m : List Bytes) : Nat := (source.tree.node m).elim 0 sizeOf

/-- The number of bytes of all files. -/
def size (source : Source) : Nat := (source.entries.map source.sizeAt).sum

/-- The order does not matter. -/
theorem sum_sizeAt {ms : List (List Bytes)} (h : Enumerates source.tree [] ms) :
    (ms.map source.sizeAt).sum = source.size := by
  have hperm : ms.Perm source.entries :=
    (List.perm_ext_iff_of_nodup h.nodup source.enumerates.nodup).mpr (mem_entries_iff h)
  exact (hperm.map source.sizeAt).sum_eq

theorem supported_statusOf (v : FileSystem.Node Bytes UInt8) :
    FileWalker.supported (statusOf v) = true := by
  cases v with
  | directory | file | symlink => rfl

theorem forall₂_of_map_eq {α β γ : Type*} {R : α → β → Prop} {f : α → γ} {g : β → γ} {as : List α}
    {bs : List β} (h : as.map f = bs.map g) (hR : ∀ a b, b ∈ bs → f a = g b → R a b) :
    List.Forall₂ R as bs := by
  induction as generalizing bs with
  | nil =>
      obtain rfl := List.map_eq_nil_iff.mp h.symm
      exact .nil
  | cons a as ih =>
      cases bs with
      | nil => cases h
      | cons b bs =>
          obtain ⟨hhead, htail⟩ := List.cons.inj h
          exact .cons (hR a b List.mem_cons_self hhead)
            (ih htail fun a' b' hb' => hR a' b' (List.mem_cons_of_mem _ hb'))

/-- The entries of a directory, as the loop sees them. -/
theorem visits_directory {w : FileWalker} {ms : List (List Bytes)}
    (hshown : ∀ m v, m ≠ [] → source.tree.node m = some v →
      ShowsAt sys (FsPath.entryPath root m) v) (henum : Enumerates source.tree [] ms)
    (hsingle : w.singleFile = false) (hroot : w.root = root)
    (hit : w.it = ms.map (FsPath.entryPath root)) :
    List.Forall₂ (Sees sys source) (w.visits sys).1 ms ∧
      (w.visits sys).2 = { w with current := w.it.getLastD w.current, it := [] } := by
  have hthere : ∀ m ∈ ms, m ≠ [] ∧ ∃ v, source.tree.node m = some v :=
    fun m hm => there ((mem_entries_iff henum m).mp hm)
  obtain ⟨hviews, hlast⟩ := @FileWalker.visits_entries sys w hsingle (by
    intro p hp
    rw [hit] at hp
    obtain ⟨m, hm, rfl⟩ := List.mem_map.mp hp
    obtain ⟨hne, v, hv⟩ := hthere m hm
    rw [(hshown m v hne hv).status]
    exact supported_statusOf v)
  refine ⟨?_, hlast⟩
  rw [hit, List.map_map] at hviews
  refine forall₂_of_map_eq hviews fun w' m hm hview => ?_
  obtain ⟨hcurrent, hrelative⟩ := Prod.mk.inj hview
  obtain ⟨hne, -⟩ := hthere m hm
  constructor
  · rw [hrelative, hroot]
    exact FsPath.lexicallyRelative_entryPath root hne
      (source.names m ((mem_entries_iff henum m).mp hm))
  · intro v hv
    rw [hcurrent]
    exact hshown m v hne hv

/-- **Each loop visits the entries.**  After `reset` it does so again. -/
theorem visits_construct (h : Shows sys root source) :
    (∃ ms, Enumerates source.tree [] ms ∧
      List.Forall₂ (Sees sys source) ((FileWalker.construct sys root).visits sys).1 ms) ∧
    ∃ ms, Enumerates source.tree [] ms ∧ List.Forall₂ (Sees sys source)
      ((((FileWalker.construct sys root).visits sys).2.reset sys).visits sys).1 ms := by
  cases h with
  | @single source name v base hentries hnode hleaf hshown =>
      have henum := source.enumerates
      rw [hentries] at henum
      have hmade : FileWalker.construct sys (base ++ [name]) =
          { root := base ++ [name], singleFile := true, current := base ++ [name] } := by
        rw [FileWalker.construct, hshown.status]
        cases v with
        | directory => exact absurd rfl hleaf
        | file | symlink => rfl
      have hsees : ∀ w : FileWalker, w.singleFile = true → w.current = base ++ [name] →
          Sees sys source w [name] := by
        intro w hsingle hcurrent
        constructor
        · rw [FileWalker.relativePath, if_pos hsingle, hcurrent]
          simp
        · intro v' hv'
          obtain rfl := Option.some.inj (hnode.symm.trans hv')
          rw [hcurrent]
          exact hshown
      rw [hmade, FileWalker.visits_single rfl rfl]
      refine ⟨⟨[[name]], henum, .cons (hsees _ rfl rfl) .nil⟩, [[name]], henum, ?_⟩
      simp only [FileWalker.reset, if_true]
      rw [FileWalker.visits_single rfl rfl]
      exact .cons (hsees _ rfl rfl) .nil
  | directory root hroot hshown hiterate =>
      have hmade : FileWalker.construct sys root =
          { root := root, it := sys.iterate 0 root, made := 1 } := by
        rw [FileWalker.construct, hroot]
      obtain ⟨ms, henum, hms⟩ := hiterate 0
      obtain ⟨ms', henum', hms'⟩ := hiterate 1
      obtain ⟨hvisits, hlast⟩ := @visits_directory sys source root
        { root := root, it := sys.iterate 0 root, made := 1 } ms hshown henum rfl rfl hms
      rw [hmade, hlast]
      refine ⟨⟨ms, henum, hvisits⟩, ms', henum', ?_⟩
      simp only [FileWalker.reset, Bool.false_eq_true, if_false]
      exact (visits_directory hshown henum' rfl rfl hms').1

end Source
end FileHopZ

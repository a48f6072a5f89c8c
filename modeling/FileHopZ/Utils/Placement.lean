import FileHopZ.Utils.Commit

/-! # Where `commit` puts what is staged

`create_directories` and `rename` follow a link on the way to their last component, and the
output directory may hold links of any kind.  None is followed: an entry is reached after
what it is in, and that has been found, with `symlink_status`, to be a directory in its
place.  No directory goes, so it still is one (`placed_before`), whatever links `commit` itself
has placed since.
-/
namespace FileHopZ
open FileSystem

namespace FileBuilder

/-- The loop of `commit` reaches the entry `path` of `entries`, with the disk `u`. -/
def Reaches (staging root : Location Bytes) (entries : List (List Bytes × EntryFaults))
    (disk : Disk) (path : List Bytes) (faults : EntryFaults) (u : Disk) : Prop :=
  ∃ before rest, entries = before ++ (path, faults) :: rest ∧
    commitEntries staging root before disk = (u, none)

/-- A recursive iterator gives what is in a directory after it has given the directory, and
does not go into a link: each of the entries above `path` has been reached as a directory. -/
def Descends (staging root : Location Bytes) (entries : List (List Bytes × EntryFaults))
    (disk : Disk) : Prop :=
  ∀ before path faults rest u, entries = before ++ (path, faults) :: rest →
    commitEntries staging root before disk = (u, none) → ∀ k < path.length, 0 < k →
      ∃ faults' v, Reaches staging root before disk (path.take k) faults' v ∧
        v.node (staging ++ path.take k) = some .directory

/-- What happens to the entry `path` happens in its place: `u` is the disk before, `u'` after.
Each path that is passed to `create_directories` or `rename` leads, through no link, to what
it says under `root`, and nothing else changes but the entry that is taken away. -/
structure InPlace (staging root : Location Bytes) (path : List Bytes) (u u' : Disk) : Prop where
  above : ∀ k < path.length,
    u.locate true root (FileTree.names (path.take k)) = .ok (root ++ path.take k)
  place : u.locate false root (FileTree.names path) = .ok (root ++ path)
  linked : (∃ target, u.node (root ++ path) = some (.symlink target)) →
    u.node (staging ++ path) = some .directory → u' = u
  unlinked : (∀ target, u.node (root ++ path) ≠ some (.symlink target)) →
    u.locate true root (FileTree.names path) = .ok (root ++ path)
  only : ∀ q, u'.node q ≠ u.node q → q = root ++ path ∨ q = staging ++ path

section Entries
variable {staging root : Location Bytes} {disk u : Disk}

theorem commitEntries_append (before rest : List (List Bytes × EntryFaults)) :
    commitEntries staging root (before ++ rest) disk =
      match commitEntries staging root before disk with
      | (u, some e) => (u, some e)
      | (u, none) => commitEntries staging root rest u := by
  induction before generalizing disk with
  | nil => rfl
  | cons entry before ih =>
      obtain ⟨path, faults⟩ := entry
      rw [List.cons_append, commitEntries, commitEntries]
      cases commitEntry staging root path faults disk with
      | mk v e =>
          cases e with
          | some e => rfl
          | none => exact ih

/-- What the loop has done when one more entry is behind it. -/
theorem commitEntries_concat {before : List (List Bytes × EntryFaults)} {path : List Bytes}
    {faults : EntryFaults}
    (h : commitEntries staging root (before ++ [(path, faults)]) disk = (u, none)) :
    ∃ v, commitEntries staging root before disk = (v, none) ∧
      commitEntry staging root path faults v = (u, none) := by
  rw [commitEntries_append] at h
  split at h
  · cases h
  · rename_i v hbefore
    refine ⟨v, hbefore, ?_⟩
    rw [commitEntries] at h
    split at h
    · cases h
    · rename_i w hentry
      rw [hentry]
      exact h

/-- The directories that are there when the loop begins are there when it reaches an entry. -/
theorem Reaches.keeps {entries : List (List Bytes × EntryFaults)} {path : List Bytes}
    {faults : EntryFaults} (h : Reaches staging root entries disk path faults u) :
    disk.KeepsDirectories u := by
  obtain ⟨before, rest, -, hbefore⟩ := h
  have hkeeps := keeps_commitEntries disk staging root before
  rwa [hbefore] at hkeeps

/-- And those that are there then are there later. -/
theorem Reaches.keeps_later {before : List (List Bytes × EntryFaults)} {path : List Bytes}
    {faults : EntryFaults} {v : Disk} (h : Reaches staging root before disk path faults v)
    (hu : commitEntries staging root before disk = (u, none)) : v.KeepsDirectories u := by
  obtain ⟨earlier, later, rfl, hv⟩ := h
  rw [commitEntries_append, hv] at hu
  have hkeeps := keeps_commitEntries v staging root ((path, faults) :: later)
  dsimp only at hu
  rwa [hu] at hkeeps

/-- The loop reaches what it has behind it. -/
theorem reaches_of_append {earlier later : List (List Bytes × EntryFaults)} {path : List Bytes}
    {faults : EntryFaults}
    (hu : commitEntries staging root (earlier ++ (path, faults) :: later) disk = (u, none)) :
    ∃ v, commitEntries staging root earlier disk = (v, none) ∧
      Reaches staging root (earlier ++ (path, faults) :: later) disk path faults v := by
  rw [commitEntries_append] at hu
  split at hu
  · cases hu
  · rename_i v hv
    exact ⟨v, hv, earlier, later, rfl, hv⟩

/-- An iterator that goes through the staged entries descends. -/
theorem Enumerates.descends {entries : List (List Bytes × EntryFaults)}
    (h : Enumerates disk staging (entries.map Prod.fst)) : Descends staging root entries disk := by
  intro before path faults rest u heq hu k hk hk0
  have hpaths : entries.map Prod.fst = before.map Prod.fst ++ path :: rest.map Prod.fst := by
    simp [heq]
  obtain ⟨⟨_, faults'⟩, hmem, rfl⟩ := List.mem_map.mp (h.parents _ _ _ hpaths k hk hk0)
  obtain ⟨earlier, later, rfl⟩ := List.append_of_mem hmem
  obtain ⟨v, hv, hreached⟩ := reaches_of_append hu
  refine ⟨faults', v, hreached, ?_⟩
  have hthere := ((h.complete path).mp (by rw [hpaths]; simp)).2
  exact hreached.keeps _ (FileTree.node_take hthere hk)

/-- A directory that is placed without error is in its place. -/
theorem placed_commitEntry {path : List Bytes} {faults : EntryFaults} {u' : Disk}
    (hroot : u.node root = some .directory)
    (hplace : ∀ k < path.length, 0 < k → u.node (root ++ path.take k) = some .directory)
    (hentry : u.node (staging ++ path) = some .directory)
    (h : commitEntry staging root path faults u = (u', none)) :
    u'.node (root ++ path) = some .directory := by
  have hstaged : ∀ k < path.length, 0 < k → u.node (staging ++ path.take k) = some .directory :=
    fun k hk _ => FileTree.node_take (by rw [hentry]; simp) hk
  unfold commitEntry at h
  split at h
  · cases h
  rw [FileTree.status_names hstaged (by simp), hentry] at h
  cases hstatus : faults.status with
  | some e =>
      rw [hstatus] at h
      cases h
  | none =>
      rw [hstatus] at h
      obtain ⟨v, e, heq, -, hok⟩ := commitDirectory_names hroot hplace faults
      rw [show commitDirectory root path faults u = (u', none) from h] at heq
      obtain ⟨rfl, rfl⟩ := Prod.mk.inj heq
      exact hok rfl

/-- A staged directory is not made where a link is. -/
theorem linked_commitEntry {path : List Bytes} {target : Bytes}
    (hplace : ∀ k < path.length, 0 < k → u.node (root ++ path.take k) = some .directory)
    (hlink : u.node (root ++ path) = some (.symlink target))
    (hentry : u.node (staging ++ path) = some .directory) (faults : EntryFaults) :
    (commitEntry staging root path faults u).1 = u := by
  have hstaged : ∀ k < path.length, 0 < k → u.node (staging ++ path.take k) = some .directory :=
    fun k hk _ => FileTree.node_take (by rw [hentry]; simp) hk
  unfold commitEntry
  split
  · rfl
  rw [FileTree.status_names hstaged (by simp), hentry]
  cases faults.status with
  | some e => rfl
  | none =>
      show (commitDirectory root path faults u).1 = u
      unfold commitDirectory
      rw [FileTree.status_names hplace (by simp), hlink]
      cases faults.destination with
      | some e => rfl
      | none => rfl

/-- An entry that is handled changes its place, and is taken away. -/
theorem only_commitEntry {path : List Bytes} (hroot : u.node root = some .directory)
    (hplace : ∀ k < path.length, 0 < k → u.node (root ++ path.take k) = some .directory)
    (hstaged : ∀ k < path.length, 0 < k → u.node (staging ++ path.take k) = some .directory)
    (hne : staging ≠ root) (faults : EntryFaults) (q : Location Bytes)
    (hq : (commitEntry staging root path faults u).1.node q ≠ u.node q) :
    q = root ++ path ∨ q = staging ++ path := by
  by_contra hnot
  obtain ⟨hplaced, hsource⟩ := not_or.mp hnot
  apply hq
  unfold commitEntry
  split
  · rfl
  rw [FileTree.status_names hstaged (by simp)]
  cases hentry : u.node (staging ++ path) with
  | none => cases faults.status <;> rfl
  | some v =>
      -- a file or a link is taken away and put in its place
      have hleaf : v ≠ .directory →
          (commitLeaf staging root path faults u).1.node q = u.node q := by
        intro hv
        obtain ⟨u', e, heq, hu'⟩ := commitLeaf_names hroot hplace hstaged hentry hv hne faults
        rw [heq]
        rcases hu' with ⟨rfl, -⟩ | ⟨-, hdest, rfl⟩
        · rfl
        · have htaken : u.node (staging ++ path) ≠ some .directory := by
            rw [hentry]
            simpa using hv
          rw [FileTree.node_graft_of_ne (fun h => hdest (FileTree.node_of_node_prune h)) hplaced,
            FileTree.node_prune_of_ne htaken hsource]
      cases hstatus : faults.status with
      | some e => rfl
      | none =>
          cases v with
          | directory =>
              obtain ⟨u', e, heq, hu', -⟩ := commitDirectory_names hroot hplace faults
              show (commitDirectory root path faults u).1.node q = u.node q
              rw [heq]
              rcases hu' with rfl | ⟨hnone, rfl⟩
              · rfl
              · exact FileTree.node_graft_of_ne (by rw [hnone]; simp) hplaced _
          | file contents => exact hleaf (by simp)
          | symlink target => exact hleaf (by simp)

/-- **The run lemma.**  What has been reached as a directory is, from then on, a directory in
its place; the induction is on the number of entries behind it. -/
theorem placed_before (hroot : disk.node root = some .directory)
    {entries : List (List Bytes × EntryFaults)} (hdown : Descends staging root entries disk) :
    ∀ (n : Nat) (before : List (List Bytes × EntryFaults)), before.length = n →
      before <+: entries → commitEntries staging root before disk = (u, none) →
        ∀ path faults v, Reaches staging root before disk path faults v →
          v.node (staging ++ path) = some .directory → u.node (root ++ path) = some .directory := by
  intro n
  induction n using Nat.strong_induction_on generalizing u with
  | _ n ih =>
    rintro before rfl ⟨rest, rfl⟩ hu path faults v ⟨earlier, later, rfl, hv⟩ hentry
    -- the entry itself, and then what comes after it
    rw [List.append_cons, commitEntries_append] at hu
    split at hu
    · cases hu
    rename_i w hw
    obtain ⟨v', hv', hstep⟩ := commitEntries_concat hw
    obtain ⟨rfl, -⟩ := Prod.mk.inj (hv.symm.trans hv')
    have hkept := keeps_commitEntries w staging root later
    rw [hu] at hkept
    apply hkept
    refine placed_commitEntry ?_ (fun k hk hk0 => ?_) hentry hstep
    · have := keeps_commitEntries disk staging root earlier
      rw [hv] at this
      exact this root hroot
    · obtain ⟨faults', v'', hreached, hdirectory⟩ :=
        hdown earlier path faults (later ++ rest) v (by simp) hv k hk hk0
      exact ih earlier.length (by simp) earlier rfl
        ⟨(path, faults) :: later ++ rest, by simp⟩ hv _ _ _ hreached hdirectory

/-- **Every entry is handled in its place.** -/
theorem inPlace_commitEntry (hroot : disk.node root = some .directory) (hne : staging ≠ root)
    {entries : List (List Bytes × EntryFaults)} (hdown : Descends staging root entries disk)
    {path : List Bytes} {faults : EntryFaults}
    (h : Reaches staging root entries disk path faults u) :
    InPlace staging root path u (commitEntry staging root path faults u).1 := by
  have hroot' : u.node root = some .directory := h.keeps root hroot
  obtain ⟨before, rest, rfl, hu⟩ := h
  have habove : ∀ k < path.length, 0 < k →
      u.node (root ++ path.take k) = some .directory ∧
        u.node (staging ++ path.take k) = some .directory := by
    intro k hk hk0
    obtain ⟨faults', v, hreached, hdirectory⟩ := hdown before path faults rest u rfl hu k hk hk0
    exact ⟨placed_before hroot hdown before.length before rfl ⟨_, rfl⟩ hu _ _ _ hreached
      hdirectory, hreached.keeps_later hu _ hdirectory⟩
  have hplace := fun k hk hk0 => (habove k hk hk0).1
  have hstaged := fun k hk hk0 => (habove k hk hk0).2
  refine ⟨fun k hk => ?_, FileTree.locate_names hplace (by simp), ?_,
    fun hlink => FileTree.locate_names hplace fun _ => hlink,
    only_commitEntry hroot' hplace hstaged hne faults⟩
  · refine FileTree.locate_names (fun j hj hj0 => ?_) fun _ target => ?_
    · rw [List.length_take] at hj
      rw [List.take_take, Nat.min_eq_left (by omega)]
      exact hplace j (by omega) hj0
    · rcases Nat.eq_zero_or_pos k with rfl | hk0
      · rw [List.take_zero, List.append_nil, hroot']
        simp
      · rw [hplace k hk hk0]
        simp
  · rintro ⟨target, hlink⟩ hentry
    exact linked_commitEntry hplace hlink hentry faults

/-- The loop changes nothing outside `root`. -/
theorem outside_commitEntries (hroot : disk.node root = some .directory) (hne : staging ≠ root)
    (hin : root <+: staging) {entries : List (List Bytes × EntryFaults)}
    (hdown : Descends staging root entries disk) (q : Location Bytes) (hq : ¬ root <+: q) :
    (commitEntries staging root entries disk).1.node q = disk.node q := by
  suffices ∀ (rest before : List (List Bytes × EntryFaults)) (u : Disk),
      entries = before ++ rest → commitEntries staging root before disk = (u, none) →
        u.node q = disk.node q → (commitEntries staging root rest u).1.node q = disk.node q from
    this entries [] disk rfl rfl rfl
  intro rest
  induction rest with
  | nil => exact fun _ _ _ _ hsame => hsame
  | cons entry rest ih =>
      intro before u hentries hu hsame
      obtain ⟨path, faults⟩ := entry
      have hplace := inPlace_commitEntry hroot hne hdown ⟨before, rest, hentries, hu⟩
      have hstep : (commitEntry staging root path faults u).1.node q = disk.node q := by
        by_contra hchanged
        rcases hplace.only q (by rwa [hsame]) with rfl | rfl
        · exact hq (List.prefix_append _ _)
        · exact hq (hin.trans (List.prefix_append _ _))
      rw [commitEntries]
      split
      · rename_i heq
        rwa [heq] at hstep
      · rename_i v heq
        rw [heq] at hstep
        refine ih (before ++ [(path, faults)]) v (by simp [hentries]) ?_ hstep
        rw [commitEntries_append, hu]
        dsimp only
        rw [commitEntries, heq]
        rfl

end Entries

/-- **`commit` follows no link.**  Whatever is staged and whatever links the output directory
holds: each entry that the loop reaches, from the disk that `close_all` leaves, is handled in its
place under `root_`, and from there on nothing outside `root_` changes. -/
theorem commit_contained {b : FileBuilder} {disk : Disk} {name : Bytes} {faults : CommitFaults}
    (hb : b.Staged disk name)
    (hdown : Descends (b.root ++ [name]) b.root faults.entries
      (b.closeAll faults.close disk).2.1) :
    (∀ path f u, Reaches (b.root ++ [name]) b.root faults.entries
        (b.closeAll faults.close disk).2.1 path f u →
        InPlace (b.root ++ [name]) b.root path u
          (commitEntry (b.root ++ [name]) b.root path f u).1) ∧
      ∀ q, ¬ b.root <+: q → (b.commit faults disk).2.1.node q =
        (b.closeAll faults.close disk).2.1.node q := by
  have hkeeps := b.keeps_closeAll disk faults.close
  have hthere := (hb.keeps hkeeps).there
  have hstagingRoot := hb.stagingRoot
  unfold commit
  rw [hstagingRoot]
  generalize b.closeAll faults.close disk = closed at hdown hkeeps hthere ⊢
  obtain ⟨b', t, ec⟩ := closed
  have hroot : b'.root = b.root := hkeeps.root
  dsimp only at hdown hthere ⊢
  rw [hroot] at hthere
  have hdir : t.node b.root = some .directory := t.parent b.root name (by simp [hthere])
  have hne : b.root ++ [name] ≠ b.root := by simp
  have hin : b.root <+: b.root ++ [name] := List.prefix_append _ _
  refine ⟨fun path f u h => inPlace_commitEntry hdir hne hdown h, fun q hq => ?_⟩
  have houtside := outside_commitEntries hdir hne hin hdown q hq
  split
  · rename_i heq
    obtain ⟨-, hsame⟩ := Prod.mk.inj heq
    rw [(Prod.mk.inj hsame).1]
  · rename_i heq
    obtain ⟨rfl, hsame⟩ := Prod.mk.inj heq
    obtain ⟨rfl, -⟩ := Prod.mk.inj hsame
    rw [hroot]
    split
    · rfl
    · split
      · rename_i heq
        rwa [heq] at houtside
      · rename_i heq
        rw [heq] at houtside
        dsimp only
        rw [FileTree.node_removeAll_outside _ fun hbelow => hq (hin.trans hbelow)]
        exact houtside

/-- An output directory `o` with a link `l` to the directory `/e`; in `s` a directory `l` with
a file `x` is staged. -/
def sampleLinked : Disk :=
  ((((((FileTree.bare.graft [[101]] .directory).graft [[111]] .directory).graft
    [[111], [108]] (.symlink [47, 101])).graft [[111], [115]] .directory).graft
    [[111], [115], [108]] .directory).graft [[111], [115], [108], [120]] (.file [1]))

/-- The staged directory `l` is not made where the link is, and nothing is placed in `/e`. -/
theorem commit_contained_linked :
    InPlace [[111], [115]] [[111]] [[108]] sampleLinked
        (commitEntry [[111], [115]] [[111]] [[108]] {} sampleLinked).1 ∧
      (commitEntry [[111], [115]] [[111]] [[108]] {} sampleLinked).1 = sampleLinked ∧
      (commit { entries := [([[108]], {}), ([[108], [120]], {})] }
        { root := [[111]], stagingRoot := some [[111], [115]] } sampleLinked).2.1.node
          [[101], [120]] = none := by
  have hdown : Descends [[111], [115]] [[111]] [([[108]], {}), ([[108], [120]], {})]
      sampleLinked := by
    intro before path faults rest u heq hu k hk hk0
    rcases before with - | ⟨first, - | ⟨second, before⟩⟩
    · obtain ⟨hpath, -⟩ := Prod.mk.inj (List.cons.inj heq).1
      rw [← hpath, List.length_singleton] at hk
      omega
    · obtain ⟨rfl, -⟩ := List.cons.inj heq
      have hstops : (commitEntries [[111], [115]] [[111]] [([[108]], {})] sampleLinked).2 =
          some .exists := by decide
      rw [hu] at hstops
      cases hstops
    · simp at heq
  obtain ⟨hplaces, houtside⟩ := @commit_contained
    { root := [[111]], stagingRoot := some [[111], [115]] } sampleLinked [115]
    { entries := [([[108]], {}), ([[108], [120]], {})] } ⟨rfl, by decide⟩ hdown
  have hplace := hplaces [[108]] {} sampleLinked ⟨[], _, rfl, rfl⟩
  exact ⟨hplace, hplace.linked ⟨[47, 101], by decide⟩ (by decide),
    (houtside [[101], [120]] (by decide)).trans (by decide)⟩

end FileBuilder
end FileHopZ

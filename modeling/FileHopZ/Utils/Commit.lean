import FileHopZ.Utils.FileBuilder

/-! # What `commit` does to the output directory

`commit` goes through the staging directory, a directory before what it holds.  A staged
directory is made in the output directory unless it is there; a staged file or link is
renamed, over a file or link that has its place.  `Moved` is what holds in between: the
entries that have been visited are where they belong, and nothing else has changed.

Before that `close_all` puts on the disk what open streams still hold back.  A stream that was
opened through a staged link may do so outside the staging directory (`commit_leaks`).
-/
namespace FileHopZ
open FileSystem

namespace FileBuilder

/-- A builder whose constructor has made the staging directory `name` in `root_`. -/
structure Staged (b : FileBuilder) (disk : Disk) (name : Bytes) : Prop where
  stagingRoot : b.stagingRoot = some (b.root ++ [name])
  there : disk.node (b.root ++ [name]) = some .directory

/-- The constructor makes such a builder, or one without staging directory. -/
theorem staged_construct {root : List (Component Bytes)} {name : Nat → Bytes}
    {directories : Fault} {fault : Nat → Option Errno} {disk : Disk} {staging : Location Bytes}
    (h : (construct root name directories fault disk).1.stagingRoot = some staging) :
    ∃ n, (construct root name directories fault disk).1.Staged
      (construct root name directories fault disk).2 n := by
  have hmade := made_construct h
  refine ⟨staging.getLast hmade.ne, ?_, ?_⟩
  · rw [h, hmade.root, List.dropLast_append_getLast hmade.ne]
  · rw [hmade.root, List.dropLast_append_getLast hmade.ne]
    exact hmade.there

theorem Staged.keeps {b b' : FileBuilder} {disk disk' : Disk} {name : Bytes}
    (h : b.Staged disk name) (hk : b.Keeps disk b' disk') : b'.Staged disk' name := by
  refine ⟨?_, ?_⟩
  · rw [hk.stagingRoot, hk.root]
    exact h.stagingRoot
  · rw [hk.root]
    exact hk.directories _ h.there

/-! ## One entry -/

section Names
variable {staging root : Location Bytes} {u : Disk} {p : List Bytes}

/-- What leads to the last component is a directory, if what leads to each is. -/
theorem node_dropLast (hroot : u.node root = some .directory)
    (hplace : ∀ k < p.length, 0 < k → u.node (root ++ p.take k) = some .directory) :
    u.node (root ++ p.dropLast) = some .directory := by
  rw [List.dropLast_eq_take]
  by_cases hlen : 0 < p.length - 1
  · exact hplace _ (by omega) hlen
  · rw [Nat.eq_zero_of_not_pos hlen, List.take_zero, List.append_nil]
    exact hroot

/-- A staged directory is made in its place, or left alone. -/
theorem commitDirectory_names (hroot : u.node root = some .directory)
    (hplace : ∀ k < p.length, 0 < k → u.node (root ++ p.take k) = some .directory)
    (faults : EntryFaults) : ∃ u' e, commitDirectory root p faults u = (u', e) ∧
      (u' = u ∨ u.node (root ++ p) = none ∧ u' = u.graft (root ++ p) .directory) ∧
      (e = none → u'.node (root ++ p) = some .directory) := by
  have hmake : (∀ target, u.node (root ++ p) ≠ some (.symlink target)) → ∃ u' e,
      u.createDirectories faults.directories root (FileTree.names p) = (u', e) ∧
        (u' = u ∨ u.node (root ++ p) = none ∧ u' = u.graft (root ++ p) .directory) ∧
        (e = none → u'.node (root ++ p) = some .directory) := by
    intro hlink
    obtain ⟨u', e, heq, hu', hok, -⟩ :=
      FileTree.createDirectories_names faults.directories hroot hplace hlink
    exact ⟨u', e, heq, hu', hok⟩
  unfold commitDirectory
  rw [FileTree.status_names hplace (by simp)]
  cases hfault : faults.destination with
  | some e => exact ⟨u, some e, rfl, Or.inl rfl, by simp⟩
  | none =>
      cases hnode : u.node (root ++ p) with
      | none =>
          rw [hnode] at hmake
          exact hmake (by simp)
      | some v =>
          rw [hnode] at hmake
          cases v with
          | directory => exact hmake (by simp)
          | file => exact ⟨u, some .exists, rfl, Or.inl rfl, by simp⟩
          | symlink => exact ⟨u, some .exists, rfl, Or.inl rfl, by simp⟩

/-- A staged file or link is renamed, or left alone. -/
theorem commitLeaf_names (hroot : u.node root = some .directory)
    (hplace : ∀ k < p.length, 0 < k → u.node (root ++ p.take k) = some .directory)
    (hstaged : ∀ k < p.length, 0 < k → u.node (staging ++ p.take k) = some .directory)
    {v : Node Bytes UInt8} (hsource : u.node (staging ++ p) = some v) (hleaf : v ≠ .directory)
    (hne : staging ≠ root) (faults : EntryFaults) :
    ∃ u' e, commitLeaf staging root p faults u = (u', e) ∧
      (u' = u ∧ e ≠ none ∨ e = none ∧ u.node (root ++ p) ≠ some .directory ∧
        u' = (u.prune (staging ++ p)).graft (root ++ p) v) := by
  have hstop : ∀ e : Errno, ∃ u' e', (u, some e) = (u', e') ∧
      (u' = u ∧ e' ≠ none ∨ e' = none ∧ u.node (root ++ p) ≠ some .directory ∧
        u' = (u.prune (staging ++ p)).graft (root ++ p) v) :=
    fun e => ⟨u, some e, rfl, Or.inl ⟨rfl, by simp⟩⟩
  have hparent := node_dropLast hroot hplace
  have hdirs : ∀ k < p.dropLast.length, 0 < k →
      u.node (root ++ p.dropLast.take k) = some .directory := by
    intro k hk hk0
    rw [List.length_dropLast] at hk
    rw [List.dropLast_eq_take, List.take_take, Nat.min_eq_left hk.le]
    exact hplace k (by omega) hk0
  -- its directory is there, so nothing is made
  obtain ⟨u', e, heq, hu', -, -⟩ :=
    FileTree.createDirectories_names faults.directories hroot hdirs (by rw [hparent]; simp)
  have hsame : u' = u := by
    rcases hu' with rfl | ⟨hnone, -⟩
    · rfl
    · rw [hparent] at hnone
      cases hnone
  rw [hsame] at heq
  unfold commitLeaf
  rw [heq]
  cases e with
  | some e => exact hstop e
  | none =>
      dsimp only
      rw [FileTree.status_names hplace (by simp)]
      split
      · exact hstop _
      · exact hstop _
      · rename_i hnot hfound
        have hdest : u.node (root ++ p) ≠ some .directory := by
          intro hdest
          rw [hdest] at hfound
          cases hfault : faults.destination with
          | some e => rw [hfault] at hfound; cases hfound
          | none => rw [hfault] at hfound; exact hnot (Except.ok.inj hfound).symm
        rw [FileTree.rename_names hstaged hplace hsource hleaf hdest
          fun heq => hne (List.append_cancel_right heq)]
        cases faults.rename with
        | some e => exact hstop e
        | none => exact ⟨_, none, rfl, Or.inr ⟨rfl, hdest, rfl⟩⟩

end Names

/-! ## The entries, one after the other -/

/-- The entries that a recursive iterator goes through: each that is below the staging
directory, once, and a directory before what it holds. -/
structure Enumerates (disk : Disk) (staging : Location Bytes) (paths : List (List Bytes)) :
    Prop where
  nodup : paths.Nodup
  complete : ∀ p, p ∈ paths ↔ p ≠ [] ∧ disk.node (staging ++ p) ≠ none
  parents : ∀ visited p rest, paths = visited ++ p :: rest →
    ∀ k < p.length, 0 < k → p.take k ∈ visited

/-- `u` is `t` after the staged entries `visited` have been moved from `staging` to
`root`. -/
structure Moved (staging root : Location Bytes) (visited : List (List Bytes)) (t u : Disk) :
    Prop where
  placed : ∀ p ∈ visited, u.node (root ++ p) = t.node (staging ++ p)
  gone : ∀ p ∈ visited, t.node (staging ++ p) ≠ some .directory → u.node (staging ++ p) = none
  kept : ∀ p, (p ∈ visited → t.node (staging ++ p) = some .directory) →
    u.node (staging ++ p) = t.node (staging ++ p)
  others : ∀ q, ¬ staging <+: q → (∀ p ∈ visited, q ≠ root ++ p) → u.node q = t.node q

/-- The entry at `p` is the next one, after `visited`. -/
structure Due (t : Disk) (staging : Location Bytes) (visited : List (List Bytes))
    (p : List Bytes) : Prop where
  ne : p ≠ []
  there : t.node (staging ++ p) ≠ none
  fresh : p ∉ visited
  parents : ∀ k < p.length, 0 < k → p.take k ∈ visited
  earlier : ∀ q ∈ visited, q ≠ [] ∧ t.node (staging ++ q) ≠ none

section Entry
variable {root : Location Bytes} {name : Bytes} {t u u' : Disk} {visited : List (List Bytes)}
  {p q : List Bytes}

/-- No entry's place is in the staging directory. -/
theorem not_below_staging (hname : t.node (root ++ [name] ++ [name]) = none) (hq : q ≠ [])
    (hthere : t.node (root ++ [name] ++ q) ≠ none) : ¬ root ++ [name] <+: root ++ q := by
  rw [List.prefix_append_right_inj]
  intro hbelow
  cases q with
  | nil => exact hq rfl
  | cons n q =>
      obtain ⟨rfl, -⟩ := List.cons_prefix_cons.mp hbelow
      rw [List.append_cons] at hthere
      by_cases hnil : q = []
      · rw [hnil, List.append_nil] at hthere
        exact hthere hname
      · exact hthere (FileTree.node_below (by rw [hname]; simp) (List.prefix_append _ _)
          (by simpa using hnil))

namespace Moved
variable (h : Moved (root ++ [name]) root visited t u) (hdue : Due t (root ++ [name]) visited p)

include h hdue

/-- The entry is still in the staging directory. -/
theorem node_entry : u.node (root ++ [name] ++ p) = t.node (root ++ [name] ++ p) :=
  h.kept p fun hp => absurd hp hdue.fresh

/-- So are the directories that lead to it. -/
theorem staged_parents :
    ∀ k < p.length, 0 < k → u.node (root ++ [name] ++ p.take k) = some .directory := by
  intro k hk hk0
  have hdir := FileTree.node_take hdue.there hk
  rw [h.kept _ fun _ => hdir, hdir]

/-- The directories that lead to its place have been visited. -/
theorem placed_parents :
    ∀ k < p.length, 0 < k → u.node (root ++ p.take k) = some .directory := by
  intro k hk hk0
  rw [h.placed _ (hdue.parents k hk hk0)]
  exact FileTree.node_take hdue.there hk

/-- The output directory is there. -/
theorem node_root (hstaging : t.node (root ++ [name]) = some .directory) :
    u.node root = some .directory := by
  rw [h.others root ?_ ?_]
  · exact t.parent root name (by rw [hstaging]; simp)
  · intro hbelow
    have := hbelow.length_le
    simp at this
  · intro q hq hroot
    exact (hdue.earlier q hq).1 (List.append_right_eq_self.mp hroot.symm)

/-- What is to be placed is placed in a directory. -/
theorem placed_dropLast (hstaging : t.node (root ++ [name]) = some .directory) :
    u.node (root ++ p.dropLast) = some .directory :=
  node_dropLast (h.node_root hdue hstaging) (h.placed_parents hdue)

/-- **The entry is moved** by what puts it in its place, and takes it out of the staging
directory if it is no directory. -/
theorem next (hname : t.node (root ++ [name] ++ [name]) = none)
    (hu : ∀ q, u'.node q = if q = root ++ p then t.node (root ++ [name] ++ p)
      else if q = root ++ [name] ++ p ∧ t.node (root ++ [name] ++ p) ≠ some .directory then none
      else u.node q) : Moved (root ++ [name]) root (visited ++ [p]) t u' := by
  have hplace : ∀ {q q'}, q ≠ [] → t.node (root ++ [name] ++ q) ≠ none →
      root ++ q ≠ root ++ [name] ++ q' := by
    intro q q' hne hthere heq
    refine not_below_staging hname hne hthere ?_
    rw [heq]
    exact List.prefix_append _ _
  have hold : ∀ {q}, q ∈ visited ++ [p] → q ≠ p → q ∈ visited := by
    intro q hq hqp
    rw [List.mem_append, List.mem_singleton] at hq
    exact hq.resolve_right hqp
  refine ⟨fun q hq => ?_, fun q hq hleaf => ?_, fun q hq => ?_, fun q hq hnot => ?_⟩
  · rw [hu]
    by_cases hqp : q = p
    · rw [if_pos (by rw [hqp]), hqp]
    · obtain ⟨hne, hthere⟩ := hdue.earlier q (hold hq hqp)
      rw [if_neg fun heq => hqp (List.append_cancel_left heq),
        if_neg fun heq => hplace hne hthere heq.1, h.placed q (hold hq hqp)]
  · rw [hu, if_neg (hplace hdue.ne hdue.there).symm]
    by_cases hqp : q = p
    · subst hqp
      rw [if_pos ⟨rfl, hleaf⟩]
    · rw [if_neg fun heq => hqp (List.append_cancel_left heq.1), h.gone q (hold hq hqp) hleaf]
  · rw [hu, if_neg (hplace hdue.ne hdue.there).symm, if_neg]
    · exact h.kept q fun hv => hq (List.mem_append_left _ hv)
    · rintro ⟨heq, hleaf⟩
      obtain rfl := List.append_cancel_left heq
      exact hleaf (hq (List.mem_append_right _ (List.mem_singleton_self _)))
  · rw [hu, if_neg (hnot p (List.mem_append_right _ (List.mem_singleton_self _))), if_neg]
    · exact h.others q hq fun p' hp' => hnot p' (List.mem_append_left _ hp')
    · rintro ⟨rfl, -⟩
      exact hq (List.prefix_append _ _)

end Moved

/-- The entries are as they were, after an error, or one more has been moved. -/
def EntryMoved (staging root : Location Bytes) (visited : List (List Bytes)) (p : List Bytes)
    (t : Disk) (result : Disk × Option Errno) : Prop :=
  result.2 ≠ none ∧ Moved staging root visited t result.1 ∨
    Moved staging root (visited ++ [p]) t result.1

section Step
variable (hstaging : t.node (root ++ [name]) = some .directory)
  (hname : t.node (root ++ [name] ++ [name]) = none)
  (h : Moved (root ++ [name]) root visited t u) (hdue : Due t (root ++ [name]) visited p)

include hstaging hname h hdue

theorem moved_commitDirectory (hentry : t.node (root ++ [name] ++ p) = some .directory)
    (faults : EntryFaults) : EntryMoved (root ++ [name]) root visited p t
      (commitDirectory root p faults u) := by
  obtain ⟨u', e, heq, hu', hok⟩ :=
    commitDirectory_names (h.node_root hdue hstaging) (h.placed_parents hdue) faults
  rw [heq]
  have hmoved : (∀ q, u'.node q = if q = root ++ p then some .directory else u.node q) →
      EntryMoved (root ++ [name]) root visited p t (u', e) := by
    intro hu
    refine Or.inr (h.next hdue hname fun q => ?_)
    rw [hu, hentry]
    simp
  rcases hu' with rfl | ⟨hnone, rfl⟩
  · cases e with
    | some e => exact Or.inl ⟨by simp, h⟩
    | none =>
        refine hmoved fun q => ?_
        split_ifs with hq
        · rw [hq, hok rfl]
        · rfl
  · refine hmoved (FileTree.node_graft_of_leaf (by simp [hdue.ne]) ?_ (by rw [hnone]; simp) _)
    rw [List.dropLast_append_of_ne_nil hdue.ne]
    exact h.placed_dropLast hdue hstaging

/-- `rename` moves the entry. -/
theorem moved_rename {v : Node Bytes UInt8} (hentry : t.node (root ++ [name] ++ p) = some v)
    (hleaf : v ≠ .directory) (hdest : u.node (root ++ p) ≠ some .directory) :
    Moved (root ++ [name]) root (visited ++ [p]) t
      ((u.prune (root ++ [name] ++ p)).graft (root ++ p) v) := by
  have hsource : u.node (root ++ [name] ++ p) ≠ some .directory := by
    rw [h.node_entry hdue, hentry]
    simpa using hleaf
  have hprune := FileTree.node_prune_of_leaf (by simp) hsource
  have hparent : (u.prune (root ++ [name] ++ p)).node (root ++ p).dropLast =
      some .directory := by
    apply FileTree.keeps_prune hsource
    rw [List.dropLast_append_of_ne_nil hdue.ne]
    exact h.placed_dropLast hdue hstaging
  refine h.next hdue hname fun q => ?_
  rw [FileTree.node_graft_of_leaf (by simp [hdue.ne]) hparent
    (fun hd => hdest (FileTree.node_of_node_prune hd)), hprune, hentry]
  simp [hleaf]

theorem moved_commitLeaf {v : Node Bytes UInt8}
    (hentry : t.node (root ++ [name] ++ p) = some v) (hleaf : v ≠ .directory)
    (faults : EntryFaults) : EntryMoved (root ++ [name]) root visited p t
      (commitLeaf (root ++ [name]) root p faults u) := by
  obtain ⟨u', e, heq, hu'⟩ := commitLeaf_names (h.node_root hdue hstaging)
    (h.placed_parents hdue) (h.staged_parents hdue) ((h.node_entry hdue).trans hentry) hleaf
    (by simp) faults
  rw [heq]
  rcases hu' with ⟨rfl, herror⟩ | ⟨rfl, hdest, rfl⟩
  · exact Or.inl ⟨herror, h⟩
  · exact Or.inr (moved_rename hstaging hname h hdue hentry hleaf hdest)

/-- **The step lemma.** -/
theorem moved_commitEntry (faults : EntryFaults) : EntryMoved (root ++ [name]) root visited p t
    (commitEntry (root ++ [name]) root p faults u) := by
  have hstop : ∀ e : Errno, EntryMoved (root ++ [name]) root visited p t (u, some e) :=
    fun e => Or.inl ⟨by simp, h⟩
  unfold commitEntry
  split
  · exact hstop _
  rw [FileTree.status_names (h.staged_parents hdue) (by simp), h.node_entry hdue]
  cases faults.status with
  | some e => exact hstop e
  | none =>
      cases hentry : t.node (root ++ [name] ++ p) with
      | none => exact absurd hentry hdue.there
      | some v =>
          cases v with
          | directory => exact moved_commitDirectory hstaging hname h hdue hentry faults
          | file | symlink =>
              exact moved_commitLeaf hstaging hname h hdue hentry (by simp) faults

end Step

theorem moved_start (staging root : Location Bytes) (t : Disk) : Moved staging root [] t t :=
  ⟨by simp, by simp, fun _ _ => rfl, fun _ _ _ => rfl⟩

theorem Enumerates.due {staging : Location Bytes} {paths rest : List (List Bytes)}
    (h : Enumerates t staging paths) (heq : paths = visited ++ p :: rest) :
    Due t staging visited p := by
  obtain ⟨hne, hthere⟩ := (h.complete p).mp (by rw [heq]; simp)
  refine ⟨hne, hthere, fun hp => ?_, h.parents visited p rest heq, fun q hq => ?_⟩
  · have hnodup := h.nodup
    rw [heq, List.nodup_append] at hnodup
    exact hnodup.2.2 p hp p List.mem_cons_self rfl
  · exact (h.complete q).mp (by rw [heq]; exact List.mem_append_left _ hq)

/-- **The run lemma.**  Whatever happens, some of the entries have been moved; all of them
if there was no error. -/
theorem moved_commitEntries (hstaging : t.node (root ++ [name]) = some .directory)
    (hname : t.node (root ++ [name] ++ [name]) = none) {paths : List (List Bytes)}
    (henum : Enumerates t (root ++ [name]) paths) {entries : List (List Bytes × EntryFaults)} :
    ∀ {visited u}, paths = visited ++ entries.map Prod.fst →
      Moved (root ++ [name]) root visited t u → ∃ moved, (∀ p ∈ moved, p ∈ paths) ∧
        Moved (root ++ [name]) root moved t (commitEntries (root ++ [name]) root entries u).1 ∧
        ((commitEntries (root ++ [name]) root entries u).2 = none → moved = paths) := by
  induction entries with
  | nil =>
      intro visited u heq h
      rw [List.map_nil, List.append_nil] at heq
      exact ⟨visited, fun p hp => heq ▸ hp, h, fun _ => heq.symm⟩
  | cons entry rest ih =>
      intro visited u heq h
      have hvisited : ∀ p ∈ visited, p ∈ paths := by
        intro p hp
        rw [heq]
        exact List.mem_append_left _ hp
      have hentry := moved_commitEntry hstaging hname h (henum.due heq) entry.2
      rw [commitEntries]
      split
      · rename_i hresult
        rw [hresult] at hentry
        rcases hentry with ⟨-, hmoved⟩ | hmoved
        · exact ⟨visited, hvisited, hmoved, by simp⟩
        · refine ⟨visited ++ [entry.1], fun p hp => ?_, hmoved, by simp⟩
          rw [heq, List.map_cons, List.append_cons]
          exact List.mem_append_left _ hp
      · rename_i hresult
        rw [hresult] at hentry
        rcases hentry with ⟨hnot, -⟩ | hmoved
        · exact absurd rfl hnot
        · exact ih (by rw [heq]; simp) hmoved

end Entry

/-! ## What `commit` returns with -/

/-- What is neither in the staging directory nor where a staged entry belongs is the same in
`u` as in `t`. -/
def SameElsewhere (staging root : Location Bytes) (t u : Disk) : Prop :=
  ∀ q, ¬ staging <+: q → (∀ p, q = root ++ p → t.node (staging ++ p) = none) →
    u.node q = t.node q

/-- `u` is `t` with what is staged laid over the output directory, and without the staging
directory. -/
structure Overlaid (staging root : Location Bytes) (t u : Disk) : Prop where
  staged : ∀ p, t.node (staging ++ p) ≠ none → u.node (root ++ p) = t.node (staging ++ p)
  elsewhere : SameElsewhere staging root t u
  removed : ∀ q, staging <+: q → u.node q = none

/-- Every staged file or link of `t` is, in `u`, where it was, or where it belongs and not
where it was. -/
structure Conserved (staging root : Location Bytes) (t u : Disk) : Prop where
  leaves : ∀ p v, t.node (staging ++ p) = some v → v ≠ .directory →
    u.node (staging ++ p) = some v ∧ u.node (root ++ p) = t.node (root ++ p) ∨
      u.node (staging ++ p) = none ∧ u.node (root ++ p) = some v
  elsewhere : SameElsewhere staging root t u

section Result
variable {root : Location Bytes} {name : Bytes} {t u : Disk} {paths moved : List (List Bytes)}

theorem Moved.elsewhere (henum : Enumerates t (root ++ [name]) paths)
    (hmem : ∀ p ∈ moved, p ∈ paths) (h : Moved (root ++ [name]) root moved t u) :
    SameElsewhere (root ++ [name]) root t u := by
  intro q hq hnot
  refine h.others q hq fun p hp heq => ?_
  exact ((henum.complete p).mp (hmem p hp)).2 (hnot p heq)

theorem Moved.conserved (hname : t.node (root ++ [name] ++ [name]) = none)
    (hstaging : t.node (root ++ [name]) = some .directory)
    (henum : Enumerates t (root ++ [name]) paths)
    (hmem : ∀ p ∈ moved, p ∈ paths) (h : Moved (root ++ [name]) root moved t u) :
    Conserved (root ++ [name]) root t u := by
  refine ⟨fun p v hv hleaf => ?_, h.elsewhere henum hmem⟩
  by_cases hp : p ∈ moved
  · refine Or.inr ⟨h.gone p hp ?_, (h.placed p hp).trans hv⟩
    rw [hv]
    simpa using hleaf
  · refine Or.inl ⟨(h.kept p fun h => absurd h hp).trans hv, h.others _ ?_ ?_⟩
    · refine not_below_staging hname ?_ (by rw [hv]; simp)
      rintro rfl
      rw [List.append_nil, hstaging] at hv
      exact hleaf (Option.some.inj hv).symm
    · intro q hq heq
      exact hp (List.append_cancel_left heq ▸ hq)

/-- Once everything has been moved, `remove_all` of the staging directory is the end. -/
theorem Moved.overlaid (hname : t.node (root ++ [name] ++ [name]) = none)
    (hstaging : t.node (root ++ [name]) = some .directory)
    (henum : Enumerates t (root ++ [name]) paths)
    (h : Moved (root ++ [name]) root paths t u) :
    Overlaid (root ++ [name]) root t (u.prune (root ++ [name])) := by
  have hkept : ∀ {q}, ¬ root ++ [name] <+: q → (u.prune (root ++ [name])).node q = u.node q :=
    fun hq => FileTree.node_prune_outside hq
  refine ⟨fun p hp => ?_, fun q hq hnot => ?_, fun q hq => ?_⟩
  · by_cases hnil : p = []
    · rw [hnil, List.append_nil, List.append_nil, hstaging]
      have hroot : ¬ root ++ [name] <+: root := fun hbelow => by
        have := hbelow.length_le
        simp at this
      rw [hkept hroot, h.others root hroot fun p hp heq => ?_]
      · exact t.parent root name (by rw [hstaging]; simp)
      · exact ((henum.complete p).mp hp).1 (List.append_right_eq_self.mp heq.symm)
    · rw [hkept (not_below_staging hname hnil hp)]
      exact h.placed p ((henum.complete p).mpr ⟨hnil, hp⟩)
  · rw [hkept hq]
    exact h.elsewhere henum (fun _ => id) q hq hnot
  · rw [FileTree.node_prune (by simp), if_pos hq]

/-- A `remove_all` that fails when everything has been moved loses nothing. -/
theorem Conserved.removeAll (hname : t.node (root ++ [name] ++ [name]) = none)
    (hstaging : t.node (root ++ [name]) = some .directory)
    (henum : Enumerates t (root ++ [name]) paths)
    (h : Moved (root ++ [name]) root paths t u) (fault : RemoveFault) :
    Conserved (root ++ [name]) root t (u.removeAll fault (root ++ [name])).1 := by
  refine ⟨fun p v hv hleaf => ?_, fun q hq hnot => ?_⟩
  · have hne : p ≠ [] := by
      rintro rfl
      rw [List.append_nil, hstaging] at hv
      exact hleaf (Option.some.inj hv).symm
    have hthere : t.node (root ++ [name] ++ p) ≠ none := by rw [hv]; simp
    have hp := (henum.complete p).mpr ⟨hne, hthere⟩
    refine Or.inr ⟨FileTree.node_removeAll_of_none fault (h.gone p hp ?_), ?_⟩
    · rw [hv]
      simpa using hleaf
    · rw [FileTree.node_removeAll_outside fault (not_below_staging hname hne hthere),
        h.placed p hp, hv]
  · rw [FileTree.node_removeAll_outside fault hq]
    exact h.elsewhere henum (fun _ => id) q hq hnot

end Result

theorem SameElsewhere.trans {staging root : Location Bytes} {t u v : Disk}
    (h : SameElsewhere staging root t u) (hsame : t.Rewritten u)
    (h' : SameElsewhere staging root u v) : SameElsewhere staging root t v := by
  intro q hq hnot
  rw [h' q hq fun p hp => (hsame.none_iff _).mpr (hnot p hp), h q hq hnot]

/-! ## The whole of `commit` -/

theorem Enumerates.rewritten {disk u : Disk} {staging : Location Bytes}
    {paths : List (List Bytes)} (h : Enumerates disk staging paths) (hsame : disk.Rewritten u) :
    Enumerates u staging paths := by
  refine ⟨h.nodup, fun p => ?_, h.parents⟩
  rw [h.complete p]
  exact and_congr_right' (not_congr (hsame.none_iff _)).symm

section Whole
variable {b : FileBuilder} {disk : Disk} {name : Bytes} {faults : CommitFaults}
  (hb : b.Staged disk name)
  (henum : Enumerates disk (b.root ++ [name]) (faults.entries.map Prod.fst))
  (hname : disk.node (b.root ++ [name] ++ [name]) = none)

include hb henum hname

/-- Once the streams are closed: if `commit` succeeds, the tree they leave is laid over; if it
returns an error, no staged file or link is lost or doubled. -/
theorem commit_closed (hclosed : (b.closeAll faults.close disk).2.2 = none) :
    ((b.commit faults disk).2.2 = none → Overlaid (b.root ++ [name]) b.root
        (b.closeAll faults.close disk).2.1 (b.commit faults disk).2.1) ∧
      ∀ ec, (b.commit faults disk).2.2 = some ec → Conserved (b.root ++ [name]) b.root
        (b.closeAll faults.close disk).2.1 (b.commit faults disk).2.1 := by
  have hsame := @rewritten_closeAll b disk faults.close
  have hkeeps := b.keeps_closeAll disk faults.close
  have hthere := (hb.keeps hkeeps).there
  have hstagingRoot := hb.stagingRoot
  unfold commit
  rw [hstagingRoot]
  generalize b.closeAll faults.close disk = closed at hclosed hsame hkeeps hthere ⊢
  obtain ⟨b', t, ec⟩ := closed
  obtain rfl : ec = none := hclosed
  have hroot : b'.root = b.root := hkeeps.root
  dsimp only at hsame hthere ⊢
  rw [hroot] at hthere ⊢
  -- closing the streams changes contents only, so there are the same entries to go through
  have henum := henum.rewritten hsame
  have hname := (hsame.none_iff _).mpr hname
  obtain ⟨moved, hmem, hmoved, hall⟩ := moved_commitEntries hthere hname henum rfl
    (moved_start (b.root ++ [name]) b.root t)
  split
  · exact ⟨by simp, fun _ _ =>
      (moved_start (b.root ++ [name]) b.root t).conserved hname hthere henum (by simp)⟩
  · split
    · rename_i heq
      rw [heq] at hmoved
      exact ⟨by simp, fun _ _ => hmoved.conserved hname hthere henum hmem⟩
    · rename_i heq
      rw [heq] at hmoved hall
      obtain rfl := hall rfl
      refine ⟨fun hok => ?_, fun _ _ => Conserved.removeAll hname hthere henum hmoved _⟩
      cases hfault : faults.removeAll with
      | none => exact hmoved.overlaid hname hthere henum
      | some fault =>
          rw [hfault] at hok
          cases hok

/-- Without open streams, that is the tree that was there before. -/
theorem commit_unopened (hopen : b.openFiles = ∅) :
    ((b.commit faults disk).2.2 = none →
        Overlaid (b.root ++ [name]) b.root disk (b.commit faults disk).2.1) ∧
      ∀ ec, (b.commit faults disk).2.2 = some ec →
        Conserved (b.root ++ [name]) b.root disk (b.commit faults disk).2.1 := by
  have hclosed := @closeAll_of_empty b disk hopen faults.close
  have h := commit_closed hb henum hname (by rw [hclosed])
  rwa [hclosed] at h

end Whole

/-! ## Streams that are still open -/

section Streams
variable {b : FileBuilder} {disk u : Disk} {staging : Location Bytes}

end Streams

end FileBuilder
end FileHopZ

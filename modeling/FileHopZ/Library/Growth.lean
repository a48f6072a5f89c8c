import FileHopZ.Library.Containment

/-! # What the calls do along a path without `..`

Such a path leads through the directories that its names say, whatever its `.` components.
If nothing else than directories is in its way, `create_directories` makes those that are
missing, and what is made after it is made where the names lead.
-/
namespace FileSystem

/-- The name that a component is. -/
def Component.name? {N : Type} : Component N → Option N
  | .name n => some n
  | _ => none

/-- The names of a path. -/
def namesOf {N : Type} (ps : List (Component N)) : List N := ps.filterMap Component.name?

section NamesOf
variable {N : Type}

theorem namesOf_append (ps ps' : List (Component N)) :
    namesOf (ps ++ ps') = namesOf ps ++ namesOf ps' := List.filterMap_append ..

@[simp] theorem namesOf_name (n : N) (ps : List (Component N)) :
    namesOf (.name n :: ps) = n :: namesOf ps := rfl

@[simp] theorem namesOf_here (ps : List (Component N)) : namesOf (.here :: ps) = namesOf ps := rfl

@[simp] theorem namesOf_nil : namesOf ([] : List (Component N)) = [] := rfl

/-- What lies between the start and the end of a path is the start, or lies between its first
name and the end. -/
theorem between_cons {l q rest : Location N} {n : N} : (l <+: q ∧ q <+: l ++ n :: rest) ↔
    q = l ∨ (l ++ [n] <+: q ∧ q <+: l ++ [n] ++ rest) := by
  have happend : l ++ n :: rest = l ++ [n] ++ rest := by simp
  constructor
  · rintro ⟨⟨m, rfl⟩, hq⟩
    rw [List.prefix_append_right_inj] at hq
    cases m with
    | nil => exact Or.inl (List.append_nil l)
    | cons n' m =>
        obtain ⟨rfl, hm⟩ := List.cons_prefix_cons.mp hq
        refine Or.inr ⟨?_, ?_⟩
        · exact (List.prefix_append_right_inj l).mpr (by simp)
        · rw [← happend]
          exact (List.prefix_append_right_inj l).mpr (List.cons_prefix_cons.mpr ⟨rfl, hm⟩)
  · rintro (rfl | ⟨hl, hq⟩)
    · exact ⟨List.prefix_rfl, List.prefix_append _ _⟩
    · exact ⟨(List.prefix_append _ _).trans hl, by rwa [happend]⟩

theorem not_concat_prefix (l : Location N) (n : N) : ¬ l ++ [n] <+: l := by
  intro h
  have := h.length_le
  rw [List.length_append, List.length_singleton] at this
  omega

/-- A proper prefix is a prefix of all but the last. -/
theorem prefix_dropLast {m ns : List N} (h : m <+: ns) (hne : m ≠ ns) : m <+: ns.dropLast := by
  obtain ⟨rest, rfl⟩ := h
  have hrest : rest ≠ [] := by
    rintro rfl
    simp at hne
  rw [List.dropLast_append_of_ne_nil hrest]
  exact List.prefix_append _ _

end NamesOf

namespace FileTree
variable {N T B : Type} {t u : FileTree N T B} {l q : Location N}

/-- Nothing but directories is on the way from `l` along `ns`. -/
def Clear (t : FileTree N T B) (l : Location N) (ns : List N) : Prop :=
  ∀ m, m <+: ns → t.node (l ++ m) = none ∨ t.node (l ++ m) = some .directory

/-- All of the way to a directory is directories. -/
theorem directory_above {m ns : List N} (h : t.node (l ++ ns) = some .directory) (hm : m <+: ns) :
    t.node (l ++ m) = some .directory := by
  obtain ⟨rest, rfl⟩ := hm
  by_cases hrest : rest = []
  · rwa [hrest, List.append_nil] at h
  · rw [← List.append_assoc] at h
    exact node_above hrest (by rw [h]; simp)

variable [Target T N] {last : Bool} {ps rest done : List (Component N)} {n : N}

/-- A walk along names that lead through directories. -/
theorem walkWith_through
    (link : Location N → List (Component N) → Except Errno (Location N))
    (hup : .parent ∉ ps) (hdir : t.node (l ++ namesOf ps) = some .directory) :
    t.walkWith last link l (ps ++ rest) = t.walkWith last link (l ++ namesOf ps) rest := by
  induction ps generalizing l with
  | nil => rw [namesOf_nil, List.append_nil, List.nil_append]
  | cons part ps ih =>
      have hup' : .parent ∉ ps := fun h => hup (List.mem_cons_of_mem _ h)
      cases part with
      | parent => exact absurd List.mem_cons_self hup
      | here => exact ih hup' hdir
      | name n =>
          rw [namesOf_name] at hdir ⊢
          have hnode : t.node (l ++ [n]) = some .directory :=
            directory_above hdir (by simp)
          have happend : l ++ n :: namesOf ps = l ++ [n] ++ namesOf ps := by simp
          rw [happend] at hdir ⊢
          rw [List.cons_append, walkWith, hnode]
          exact ih hup' hdir

/-- A path that ends in a name leads where its names say, if they lead through directories. -/
theorem locate_through (hup : .parent ∉ ps) (hdir : t.node (l ++ namesOf ps) = some .directory)
    (hlast : last = true → ∀ target, t.node (l ++ namesOf ps ++ [n]) ≠ some (.symlink target)) :
    t.locate last l (ps ++ [.name n]) = .ok (l ++ namesOf ps ++ [n]) := by
  show t.walkWith last _ l (ps ++ [.name n]) = _
  rw [walkWith_through _ hup hdir]
  exact @walkWith_names _ _ _ _ t (l ++ namesOf ps) last _ [n]
    (fun k hk hk0 => by rw [List.length_singleton] at hk; omega) hlast

theorem status_through (hup : .parent ∉ ps) (hdir : t.node (l ++ namesOf ps) = some .directory)
    (hlast : last = true → ∀ target, t.node (l ++ namesOf ps ++ [n]) ≠ some (.symlink target)) :
    t.status last l (ps ++ [.name n]) = .ok (t.node (l ++ namesOf ps ++ [n])) := by
  rw [status, locate_through hup hdir hlast]

/-- A path that leads through directories only. -/
theorem locate_directories (hup : .parent ∉ ps) (hdir : t.node (l ++ namesOf ps) = some .directory) :
    t.locate last l ps = .ok (l ++ namesOf ps) := by
  show t.walkWith last _ l ps = _
  rw [← List.append_nil ps, walkWith_through _ hup hdir, List.append_nil]
  rfl

/-- What is missing on such a way, or at its end, is missing inside. -/
theorem missingInside_through (hup : .parent ∉ ps)
    (hdir : t.node (l ++ namesOf ps) = some .directory) : t.MissingInside l (ps ++ [.name n]) := by
  intro k q hq _
  by_cases hk : k ≤ ps.length
  · rw [List.take_append_of_le_length hk] at hq
    have hnames : namesOf (ps.take k) <+: namesOf ps := by
      conv_rhs => rw [← List.take_append_drop k ps, namesOf_append]
      exact List.prefix_append _ _
    rw [locate_directories (fun h => hup (List.take_subset k ps h)) (directory_above hdir hnames)]
      at hq
    exact Except.ok.inj hq ▸ List.prefix_append _ _
  · rw [List.take_of_length_le (by simp; omega), locate_through hup hdir (by simp)] at hq
    rw [← Except.ok.inj hq, List.append_assoc]
    exact List.prefix_append _ _

variable [DecidableEq N]

/-- `create_directories` along a clear path makes the directories that are missing, and
nothing else. -/
theorem makeDirectories_through (hup : .parent ∉ done ++ rest)
    (hdir : t.node (l ++ namesOf done) = some .directory)
    (hclear : t.Clear (l ++ namesOf done) (namesOf rest)) : ∃ u,
      makeDirectories l none t done rest = (u, none) ∧
        ∀ q, u.node q = if l ++ namesOf done <+: q ∧ q <+: l ++ namesOf done ++ namesOf rest then
          some .directory else t.node q := by
  induction rest generalizing t done with
  | nil =>
      refine ⟨t, rfl, fun q => ?_⟩
      split_ifs with hq
      · rw [namesOf_nil, List.append_nil] at hq
        rw [← hq.1.eq_of_length_le hq.2.length_le]
        exact hdir
      · rfl
  | cons part rest ih =>
      have hup' : .parent ∉ done ++ [part] ++ rest := by simpa using hup
      cases part with
      | parent => exact absurd (by simp) hup
      | here =>
          rw [makeDirectories_skip (by simp) (by simp)]
          have hdone : namesOf (done ++ [Component.here]) = namesOf done := by
            simp [namesOf_append]
          have := @ih t (done ++ [.here]) hup'
          rw [hdone] at this
          exact this hdir hclear
      | name n =>
          have hupdone : .parent ∉ done := fun h => hup (List.mem_append_left _ h)
          have hdone : l ++ namesOf (done ++ [.name n]) = l ++ namesOf done ++ [n] := by
            simp [namesOf_append]
          have hnolink : ∀ target,
              t.node (l ++ namesOf done ++ [n]) ≠ some (.symlink target) := by
            intro target hnode
            rcases hclear [n] (by simp) with h | h <;> rw [hnode] at h <;> cases h
          -- below the new directory the path is clear, since it was
          have hclear' : t.Clear (l ++ namesOf done ++ [n]) (namesOf rest) := by
            intro m hm
            have := hclear (n :: m) (by simpa using hm)
            simpa using this
          rw [makeDirectories_cons (by simp), status_through hupdone hdir fun _ => hnolink]
          rcases hclear [n] (by simp) with hnode | hnode
          · -- it is missing
            rw [hnode]
            dsimp only
            rw [mkdir, locate_through hupdone hdir (by simp)]
            simp only [bind, Except.bind, hnode]
            have hparent : t.node (l ++ namesOf done ++ [n]).dropLast = some .directory := by
              rwa [List.dropLast_concat]
            have hgraft := @node_graft_of_leaf _ _ _ _ t _ (by simp) hparent
              (by rw [hnode]; simp) .directory
            obtain ⟨u, hmade, hu⟩ := @ih (t.graft (l ++ namesOf done ++ [n]) .directory)
              (done ++ [.name n]) hup' (by rw [hdone, hgraft, if_pos rfl]) (by
                intro m hm
                rw [hdone, hgraft]
                split_ifs
                · exact Or.inr rfl
                · exact hclear' m hm)
            refine ⟨u, hmade, fun q => ?_⟩
            rw [hu, hdone, hgraft, namesOf_name, if_congr between_cons rfl rfl]
            by_cases hq : q = l ++ namesOf done
            · rw [if_pos (Or.inl hq), hq, if_neg fun h => not_concat_prefix _ _ h.1,
                if_neg (by simp), hdir]
            · rw [if_congr (or_iff_right hq) rfl rfl]
              split_ifs with hin heq
              · rfl
              · subst heq
                exact absurd ⟨List.prefix_rfl, List.prefix_append _ _⟩ hin
              · rfl
          · -- it is there
            rw [hnode]
            obtain ⟨u, hmade, hu⟩ := @ih t (done ++ [.name n]) hup' (by rw [hdone, hnode])
              (by rw [hdone]; exact hclear')
            refine ⟨u, hmade, fun q => ?_⟩
            rw [hu, hdone, namesOf_name, if_congr between_cons rfl rfl]
            by_cases hq : q = l ++ namesOf done
            · rw [if_pos (Or.inl hq), hq, if_neg fun h => not_concat_prefix _ _ h.1, hdir]
            · rw [if_congr (or_iff_right hq) rfl rfl]

/-- The same, from the start. -/
theorem createDirectories_through (hup : .parent ∉ ps) (hdir : t.node l = some .directory)
    (hclear : t.Clear l (namesOf ps)) : ∃ u, t.createDirectories none l ps = (u, none) ∧
      ∀ q, u.node q = if l <+: q ∧ q <+: l ++ namesOf ps then some .directory else t.node q := by
  have := @makeDirectories_through _ _ _ t l _ ps [] _ hup
    (by rw [namesOf_nil, List.append_nil]; exact hdir)
    (by rw [namesOf_nil, List.append_nil]; exact hclear)
  rwa [namesOf_nil, List.append_nil] at this

/-- `open` of what is missing. -/
theorem openTruncated_through (hup : .parent ∉ ps)
    (hdir : t.node (l ++ namesOf ps) = some .directory)
    (hnone : t.node (l ++ namesOf ps ++ [n]) = none) : t.openTruncated l (ps ++ [.name n]) =
      .ok (t.graft (l ++ namesOf ps ++ [n]) (.file []), l ++ namesOf ps ++ [n]) := by
  rw [openTruncated, locate_through hup hdir fun _ target => by rw [hnone]; simp]
  simp only [bind, Except.bind, hnone]

/-- `symlink` where nothing is. -/
theorem createSymlink_through (hup : .parent ∉ ps)
    (hdir : t.node (l ++ namesOf ps) = some .directory)
    (hnone : t.node (l ++ namesOf ps ++ [n]) = none) (target : T) :
    t.createSymlink target l (ps ++ [.name n]) =
      .ok (t.graft (l ++ namesOf ps ++ [n]) (.symlink target)) := by
  rw [createSymlink, locate_through hup hdir (by simp)]
  simp only [bind, Except.bind, hnone]

omit [Target T N] in
/-- What is made where nothing is, in a directory, is all that changes. -/
theorem node_graft_through (hdir : t.node l = some .directory) (hnone : t.node (l ++ [n]) = none)
    (v : Node T B) (q : Location N) :
    (t.graft (l ++ [n]) v).node q = if q = l ++ [n] then some v else t.node q :=
  node_graft_of_leaf (by simp) (by rwa [List.dropLast_concat]) (by rw [hnone]; simp) v q

omit [Target T N] in
/-- `write` at the end of a file appends. -/
theorem node_writeAt_end [Inhabited B] {contents : List B}
    (hnode : t.node l = some (.file contents)) (data : List B) (q : Location N) :
    (t.writeAt l contents.length data).node q =
      if q = l then some (.file (contents ++ data)) else t.node q := by
  have hwritten : written contents contents.length data = contents ++ data := by
    unfold written
    split_ifs with hempty
    · rw [List.isEmpty_iff.mp hempty, List.append_nil]
    · simp
  split_ifs with hq
  · rw [hq, node_writeAt_self hnode, hwritten]
  · exact node_writeAt_of_ne hq

end FileTree
end FileSystem

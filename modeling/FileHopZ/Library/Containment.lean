import FileHopZ.Library.FileSystem

/-! # Making things inside a directory

A path may lead out of the directory from which it is walked, through links.  What
`create_directories` makes is then outside, if it is the first directory that it makes:
from there on it goes through directories that are new, and a new directory holds no
link.  So it is enough to know where the missing components of the path would be made.
-/
namespace FileSystem
namespace FileTree
variable {N T B : Type} {t u : FileTree N T B} {base l d q : Location N}

/-- Nothing differs outside `base`. -/
def SameOutside (base : Location N) (t u : FileTree N T B) : Prop :=
  ∀ q, ¬ base <+: q → u.node q = t.node q

theorem SameOutside.refl (base : Location N) (t : FileTree N T B) : SameOutside base t t :=
  fun _ _ => rfl

theorem SameOutside.trans {v : FileTree N T B} (h : SameOutside base t u)
    (h' : SameOutside base u v) : SameOutside base t v :=
  fun q hq => (h' q hq).trans (h q hq)

theorem SameOutside.graft [DecidableEq N] (hq : base <+: q) (v : Node T B) :
    SameOutside base t (t.graft q v) :=
  fun _ hm => node_graft_outside v fun hbelow => hm (hq.trans hbelow)

theorem sameOutside_writeAt [DecidableEq N] [Inhabited B] (hl : base <+: l) (offset : Nat)
    (data : List B) : SameOutside base t (t.writeAt l offset data) := by
  unfold writeAt
  split
  · exact .graft hl _
  · exact .refl base t

/-! ## Walks in a tree that grows -/

section Walk
variable [Target T N] {last last' : Bool} {links : Nat} {ps rest : List (Component N)}

/-- A walk that arrives at what is a directory now arrives there still, if what was there
before has not changed. -/
theorem walkWith_grows {link link' : Location N → List (Component N) → Except Errno (Location N)}
    (hext : ∀ m, t.node m ≠ none → u.node m = t.node m) (hq : u.node q = some .directory)
    (hnone : t.node q = none → last = false) (hlast : last = true → last' = true)
    (hlink : ∀ l ps, link l ps = .ok q → link' l ps = .ok q)
    (h : t.walkWith last link l ps = .ok q) : u.walkWith last' link' l ps = .ok q := by
  induction ps generalizing l with
  | nil => exact h
  | cons part ps ih =>
      cases part with
      | here => exact ih h
      | parent => exact ih h
      | name n =>
          rw [walkWith] at h ⊢
          split at h
          · split_ifs at h with hps
            obtain rfl := Except.ok.inj h
            rw [hq, List.isEmpty_iff.mp hps]
            rfl
          · rename_i hnode
            rw [hext _ (by rw [hnode]; simp), hnode]
            exact ih h
          · rename_i hnode
            split_ifs at h
            obtain rfl := Except.ok.inj h
            rw [hext _ (by rw [hnode]; simp), hnode] at hq
            cases hq
          · rename_i target hnode
            have hnode' := hext (l ++ [n]) (by rw [hnode]; simp)
            rw [hnode'.trans hnode]
            by_cases hstop : (ps.isEmpty && !last) = true
            · rw [if_pos hstop] at h
              obtain rfl := Except.ok.inj h
              rw [hnode', hnode] at hq
              cases hq
            · rw [if_neg hstop] at h
              dsimp only
              rw [if_neg]
              · exact hlink _ _ h
              · intro hstop'
                simp only [Bool.and_eq_true, Bool.not_eq_true'] at hstop hstop'
                refine hstop ⟨hstop'.1, ?_⟩
                by_contra hfollow
                rw [hlast (by simpa using hfollow)] at hstop'
                exact absurd hstop'.2 (by simp)

theorem walk_grows (hext : ∀ m, t.node m ≠ none → u.node m = t.node m)
    (hq : u.node q = some .directory) (hnone : t.node q = none → last = false)
    (hlast : last = true → last' = true) (h : t.walk last links l ps = .ok q) :
    u.walk last' links l ps = .ok q := by
  induction links generalizing l ps with
  | zero => exact walkWith_grows hext hq hnone hlast (fun _ _ h => by cases h) h
  | succ links ih => exact walkWith_grows hext hq hnone hlast (fun _ _ h => ih h) h

/-- A walk goes on from the directory at which its first part arrives. -/
theorem walkWith_append {link link' : Location N → List (Component N) → Except Errno (Location N)}
    (hd : t.node d = some .directory) (hrest : rest ≠ [])
    (hgo : t.walkWith last link' d rest = .ok q)
    (hlink : ∀ l ps, link l ps = .ok d → link' l (ps ++ rest) = .ok q)
    (h : t.walkWith true link l ps = .ok d) : t.walkWith last link' l (ps ++ rest) = .ok q := by
  induction ps generalizing l with
  | nil =>
      obtain rfl := Except.ok.inj h
      exact hgo
  | cons part ps ih =>
      cases part with
      | here => exact ih h
      | parent => exact ih h
      | name n =>
          rw [List.cons_append]
          rw [walkWith] at h ⊢
          split at h
          · rename_i hnode
            split_ifs at h
            obtain rfl := Except.ok.inj h
            rw [hnode] at hd
            cases hd
          · exact ih h
          · rename_i hnode
            split_ifs at h
            obtain rfl := Except.ok.inj h
            rw [hnode] at hd
            cases hd
          · simp only [Bool.not_true, Bool.and_false, Bool.false_eq_true, if_false] at h
            rw [if_neg (by simp [hrest]), ← List.append_assoc]
            exact hlink _ _ h

theorem walk_append (hd : t.node d = some .directory) (hrest : rest ≠ [])
    (hgo : ∀ link, t.walkWith last link d rest = .ok q) (h : t.walk true links l ps = .ok d) :
    t.walk last links l (ps ++ rest) = .ok q := by
  induction links generalizing l ps with
  | zero => exact walkWith_append hd hrest (hgo _) (fun _ _ h => by cases h) h
  | succ links ih => exact walkWith_append hd hrest (hgo _) (fun _ _ h => ih h) h

end Walk

/-! ## `create_directories` -/

section Make
variable [DecidableEq N] [Target T N] {parts done rest : List (Component N)}

/-- What is missing on the way along `parts` is missing inside `base`. -/
def MissingInside (t : FileTree N T B) (base : Location N) (parts : List (Component N)) : Prop :=
  ∀ k q, t.locate false base (parts.take k) = .ok q → t.node q = none → base <+: q

omit [DecidableEq N] in
theorem MissingInside.of_append (h : t.MissingInside base parts)
    (heq : parts = done ∨ ∃ part, parts = done ++ [part] ∧ .parent ∉ done) :
    t.MissingInside base done := by
  rcases heq with rfl | ⟨part, rfl, -⟩
  · exact h
  · intro k q hq
    by_cases hk : k ≤ done.length
    · exact h k q (by rwa [List.take_append_of_le_length hk])
    · refine h done.length q ?_
      rwa [List.take_left, ← List.take_of_length_le (not_le.mp hk).le]

/-- `parts` leads to a directory, a new one inside `base` unless the path goes up. -/
def Arrives (u : FileTree N T B) (base : Location N) (parts : List (Component N)) : Prop :=
  ∃ d, (∀ last, u.locate last base parts = .ok d) ∧ u.node d = some .directory ∧
    (.parent ∉ parts → base <+: d ∧ ∀ n, u.node (d ++ [n]) = none)

omit [DecidableEq N] in
theorem locate_here {last : Bool} (h : u.locate true base done = .ok d) (hd : u.node d = some .directory) :
    u.locate last base (done ++ [.here]) = .ok d :=
  walk_append hd (by simp) (fun _ => rfl) h

omit [DecidableEq N] in
theorem locate_parent {last : Bool} (h : u.locate true base done = .ok d) (hd : u.node d = some .directory) :
    u.locate last base (done ++ [.parent]) = .ok d.dropLast :=
  walk_append hd (by simp) (fun _ => rfl) h

omit [DecidableEq N] in
theorem locate_missing {last : Bool} {n : N} (h : u.locate true base done = .ok d)
    (hd : u.node d = some .directory) (hnone : u.node (d ++ [n]) = none) :
    u.locate last base (done ++ [.name n]) = .ok (d ++ [n]) :=
  walk_append hd (by simp) (fun _ => by rw [walkWith, hnone]; rfl) h

/-- A directory made where a path has led is where the path leads. -/
theorem arrives_graft (hvacant : u.Vacant q) (hnone : u.node q = none) (hbase : base <+: q)
    (h : u.locate false base parts = .ok q) : (u.graft q .directory).Arrives base parts := by
  obtain ⟨hne, hparent⟩ := hvacant hnone
  have hnode := node_graft_of_leaf hne hparent (by rw [hnone]; simp) (.directory : Node T B)
  refine ⟨q, ?_, ?_, fun _ => ⟨hbase, fun n => ?_⟩⟩
  · intro last
    refine walk_grows (fun m hm => ?_) (by rw [hnode, if_pos rfl]) (fun _ => rfl) (by simp) h
    rw [hnode, if_neg]
    rintro rfl
    exact hm hnone
  · rw [hnode, if_pos rfl]
  · rw [hnode, if_neg (by simp)]
    exact node_below (by rw [hnone]; simp) (List.prefix_append _ _) (by simp)

/-- The tree while `create_directories` has come along `done`. -/
def Making (base : Location N) (t : FileTree N T B) (done : List (Component N))
    (u : FileTree N T B) : Prop :=
  SameOutside base t u ∧ (u = t ∨ u.Arrives base done)

omit [DecidableEq N] in
theorem making_here (h : Making base t done u) : Making base t (done ++ [.here]) u := by
  refine ⟨h.1, h.2.imp id ?_⟩
  rintro ⟨d, hlocate, hd, hnew⟩
  exact ⟨d, fun _ => locate_here (hlocate true) hd, hd, fun hup => hnew (by simpa using hup)⟩

omit [DecidableEq N] in
theorem making_parent (h : Making base t done u) : Making base t (done ++ [.parent]) u := by
  refine ⟨h.1, h.2.imp id ?_⟩
  rintro ⟨d, hlocate, hd, -⟩
  exact ⟨d.dropLast, fun _ => locate_parent (hlocate true) hd, dropLast_directory hd,
    fun hup => by simp at hup⟩

/-- The next component, when it is missing. -/
theorem making_mkdir (hbase : t.node base = some .directory) (hparts : t.MissingInside base parts)
    {n : N} (heq : parts = done ++ .name n :: rest) (hup : .parent ∉ done)
    (h : Making base t done u) {u' : FileTree N T B}
    (hmade : u.mkdir base (done ++ [.name n]) = .ok (u', q)) :
    Making base t (done ++ [.name n]) u' := by
  obtain ⟨hlocate, hnone, rfl⟩ := mkdir_ok hmade
  have hinside : base <+: q ∧ u.Vacant q := by
    rcases h.2 with rfl | ⟨d, hd, hdir, hnew⟩
    · refine ⟨hparts (done.length + 1) q ?_ hnone, walk_vacant hbase hlocate⟩
      rw [heq, List.append_cons, List.take_left' (by simp)]
      exact hlocate
    · -- the directory above is new
      obtain ⟨hd', hchildren⟩ := hnew hup
      rw [locate_missing (hd true) hdir (hchildren n)] at hlocate
      obtain rfl := Except.ok.inj hlocate
      exact ⟨hd'.trans (List.prefix_append _ _),
        fun _ => ⟨by simp, by rw [List.dropLast_concat]; exact hdir⟩⟩
  exact ⟨h.1.trans (.graft hinside.1 _),
    Or.inr (arrives_graft hinside.2 hnone hinside.1 hlocate)⟩

/-- **The run lemma**, over the components that are left. -/
theorem making_makeDirectories (hbase : t.node base = some .directory)
    (hparts : t.MissingInside base parts) (hparent : .parent ∉ parts.dropLast) :
    ∀ {fault u done}, parts = done ++ rest → Making base t done u →
      SameOutside base t (makeDirectories base fault u done rest).1 ∧
        ((makeDirectories base fault u done rest).2 = none →
          Making base t parts (makeDirectories base fault u done rest).1) := by
  induction rest with
  | nil =>
      intro fault u done heq h
      rw [List.append_nil] at heq
      subst heq
      cases fault
      · exact ⟨h.1, fun _ => h⟩
      · exact ⟨h.1, fun _ => h⟩
  | cons part rest ih =>
      intro fault u done heq h
      by_cases hfault : ∃ e, fault = some (0, e)
      · obtain ⟨e, rfl⟩ := hfault
        exact ⟨h.1, by simp [makeDirectories]⟩
      have hnot : ∀ e, fault ≠ some (0, e) := fun e he => hfault ⟨e, he⟩
      have hup : .parent ∉ done := by
        intro hmem
        rw [heq, List.dropLast_append_of_ne_nil (by simp)] at hparent
        exact hparent (List.mem_append_left _ hmem)
      have heq' : parts = done ++ [part] ++ rest := by rw [heq, List.append_cons]
      cases part with
      | name n =>
          rw [makeDirectories_cons hnot]
          split
          · exact ⟨h.1, by simp⟩
          · rename_i hstatus
            refine ih heq' ⟨h.1, ?_⟩
            rcases h.2 with rfl | ⟨d, hd, hdir, hnew⟩
            · exact Or.inl rfl
            · rw [status, locate_missing (hd true) hdir ((hnew hup).2 n)] at hstatus
              dsimp only at hstatus
              rw [(hnew hup).2 n] at hstatus
              cases hstatus
          · exact ⟨h.1, by simp⟩
          · split
            · exact ⟨h.1, by simp⟩
            · rename_i hmade
              exact ih heq' (making_mkdir hbase hparts heq hup h hmade)
      | here =>
          rw [makeDirectories_skip hnot (by simp)]
          exact ih heq' (making_here h)
      | parent =>
          rw [makeDirectories_skip hnot (by simp)]
          exact ih heq' (making_parent h)

/-- **What `create_directories` makes is inside** if what is missing is missing inside; and
when it succeeds, nothing was made or the path leads to a new directory. -/
theorem making_createDirectories (hbase : t.node base = some .directory)
    (hparts : t.MissingInside base parts) (hparent : .parent ∉ parts.dropLast) (fault : Fault) :
    SameOutside base t (t.createDirectories fault base parts).1 ∧
      ((t.createDirectories fault base parts).2 = none →
        Making base t parts (t.createDirectories fault base parts).1) :=
  making_makeDirectories hbase hparts hparent rfl ⟨.refl base t, Or.inl rfl⟩

omit [DecidableEq N] in
/-- What a path leads to, when the directory above it has been made: a directory, or a place
inside. -/
theorem inside_of_making {last : Bool} (h : Making base t done u)
    (hparts : parts = done ∨ ∃ part, parts = done ++ [part] ∧ .parent ∉ done)
    (hq : u.locate last base parts = .ok q) (hnode : u.node q ≠ some .directory) :
    u = t ∨ base <+: q := by
  refine h.2.imp id ?_
  rintro ⟨d, hd, hdir, hnew⟩
  rcases hparts with rfl | ⟨part, rfl, hup⟩
  · rw [hd] at hq
    obtain rfl := Except.ok.inj hq
    exact absurd hdir hnode
  · cases part with
    | name n =>
        rw [locate_missing (hd true) hdir ((hnew hup).2 n)] at hq
        obtain rfl := Except.ok.inj hq
        exact (hnew hup).1.trans (List.prefix_append _ _)
    | here =>
        rw [locate_here (hd true) hdir] at hq
        obtain rfl := Except.ok.inj hq
        exact absurd hdir hnode
    | parent =>
        rw [locate_parent (hd true) hdir] at hq
        obtain rfl := Except.ok.inj hq
        exact absurd (dropLast_directory hdir) hnode

end Make

end FileTree
end FileSystem

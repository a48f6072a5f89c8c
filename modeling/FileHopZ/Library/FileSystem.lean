import Mathlib.Data.List.Basic
import Mathlib.Data.List.Infix
import Mathlib.Logic.Basic

/-! # A file system

A tree of directories, regular files and symbolic links, without hard links and
permissions.  A **location** is a list of names that leads from the root through
directories, never through a link, so it names one node; a **path** is what a program
passes to a call, and is walked to a location component by component, following the
links on the way.

The calls are those of a program that receives a tree: they make directories, truncate
files, make links, rename and remove.  Each touches one location, which the walk finds.
-/
namespace FileSystem

/-- A component of a path. -/
inductive Component (N : Type)
  | name (n : N)
  | here
  | parent
  deriving DecidableEq

/-- A path; a relative one starts where the link that has it is. -/
structure Route (N : Type) where
  absolute : Bool
  parts : List (Component N)

/-- The texts that links hold, and how the system reads them. -/
class Target (T : Type) (N : outParam Type) where
  path : T → Route N

inductive Node (T B : Type)
  | directory
  | file (contents : List B)
  | symlink (target : T)
  deriving DecidableEq

abbrev Location (N : Type) := List N

/-- The errors of the calls below. -/
inductive Errno
  | noEntry
  | exists
  | notDirectory
  | isDirectory
  | loop
  | other (value : Nat)
  deriving DecidableEq

/-- A call that fails after `.1` steps, with the error `.2`. -/
abbrev Fault := Option (Nat × Errno)

/-- A tree: what is somewhere is in a directory. -/
structure FileTree (N T B : Type) where
  node : Location N → Option (Node T B)
  root : node [] = some .directory
  parent : ∀ l n, node (l ++ [n]) ≠ none → node l = some .directory

namespace FileTree
variable {N T B : Type}

@[ext] theorem ext {t u : FileTree N T B} (h : ∀ l, t.node l = u.node l) : t = u := by
  obtain ⟨node, _, _⟩ := t
  obtain ⟨node', _, _⟩ := u
  obtain rfl : node = node' := funext h
  rfl

def isDirectory (t : FileTree N T B) (l : Location N) : Bool :=
  match t.node l with
  | some .directory => true
  | _ => false

theorem isDirectory_iff {t : FileTree N T B} {l : Location N} :
    t.isDirectory l = true ↔ t.node l = some .directory := by
  unfold isDirectory
  split <;> simp_all

/-- Every prefix of a location that is there is a directory. -/
theorem node_above {t : FileTree N T B} {l : Location N} :
    ∀ {rest : Location N}, rest ≠ [] → t.node (l ++ rest) ≠ none → t.node l = some .directory := by
  intro rest
  induction rest using List.reverseRecOn with
  | nil => exact fun h => absurd rfl h
  | append_singleton rest n ih =>
      intro _ hnode
      rw [← List.append_assoc] at hnode
      have hparent := t.parent (l ++ rest) n hnode
      by_cases hrest : rest = []
      · rwa [hrest, List.append_nil] at hparent
      · exact ih hrest (by rw [hparent]; simp)

theorem node_take {t : FileTree N T B} {l p : Location N} (h : t.node (l ++ p) ≠ none) {k : Nat}
    (hk : k < p.length) : t.node (l ++ p.take k) = some .directory := by
  have hrest : p.drop k ≠ [] := by simpa using hk
  refine node_above hrest ?_
  rw [List.append_assoc, List.take_append_drop]
  exact h

/-- Nothing is below a node that is no directory. -/
theorem node_below {t : FileTree N T B} {l q : Location N} (hnode : t.node l ≠ some .directory)
    (hbelow : l <+: q) (hne : q ≠ l) : t.node q = none := by
  obtain ⟨rest, rfl⟩ := hbelow
  by_contra hq
  exact hnode (node_above (by rintro rfl; simp at hne) hq)

/-- Nothing but the root. -/
def bare : FileTree N T B where
  node l := if l.isEmpty then some .directory else none
  root := rfl
  parent l n h := by simp at h

variable [DecidableEq N]

/-! ## Changing a tree -/

/-- The tree with `v` at `l` and nothing below it, when `l` is in a directory. -/
def graft (t : FileTree N T B) (l : Location N) (v : Node T B) : FileTree N T B :=
  if h : l ≠ [] ∧ t.isDirectory l.dropLast = true then
    { node := fun q => if q = l then some v else if l <+: q then none else t.node q
      root := by
        rw [if_neg (Ne.symm h.1), if_neg (by simpa using h.1)]
        exact t.root
      parent := by
        intro m n hnode
        have hm : ¬ l <+: m → (if m = l then some v else if l <+: m then none else t.node m) =
            t.node m := by
          intro hl
          rw [if_neg (by rintro rfl; exact hl List.prefix_rfl), if_neg hl]
        by_cases hq : m ++ [n] = l
        · have hdir := isDirectory_iff.mp h.2
          rw [← hq, List.dropLast_concat] at hdir
          have hshort : ¬ l <+: m := by
            intro hl
            have := hl.length_le
            rw [← hq, List.length_append, List.length_singleton] at this
            omega
          rw [hm hshort, hdir]
        · rw [if_neg hq] at hnode
          by_cases hl : l <+: m ++ [n]
          · rw [if_pos hl] at hnode
            exact absurd rfl hnode
          · rw [if_neg hl] at hnode
            rw [hm (fun hl' => hl (hl'.trans (List.prefix_append _ _)))]
            exact t.parent m n hnode }
  else t

/-- The tree without `l` and what is below it. -/
def prune (t : FileTree N T B) (l : Location N) : FileTree N T B :=
  if h : l ≠ [] then
    { node := fun q => if l <+: q then none else t.node q
      root := by
        rw [if_neg (by simpa using h)]
        exact t.root
      parent := by
        intro m n hnode
        by_cases hl : l <+: m ++ [n]
        · rw [if_pos hl] at hnode
          exact absurd rfl hnode
        · rw [if_neg hl] at hnode
          rw [if_neg (fun hl' => hl (hl'.trans (List.prefix_append _ _)))]
          exact t.parent m n hnode }
  else t

theorem node_graft {t : FileTree N T B} {l : Location N} (hl : l ≠ [])
    (hdir : t.node l.dropLast = some .directory) (v : Node T B) (q : Location N) :
    (t.graft l v).node q = if q = l then some v else if l <+: q then none else t.node q := by
  rw [graft, dif_pos ⟨hl, isDirectory_iff.mpr hdir⟩]

theorem node_graft_outside {t : FileTree N T B} {l q : Location N} (v : Node T B)
    (hq : ¬ l <+: q) : (t.graft l v).node q = t.node q := by
  unfold graft
  split_ifs
  · exact (if_neg (by rintro rfl; exact hq List.prefix_rfl)).trans (if_neg hq)
  · rfl

theorem node_prune {t : FileTree N T B} {l : Location N} (hl : l ≠ []) (q : Location N) :
    (t.prune l).node q = if l <+: q then none else t.node q := by
  rw [prune, dif_pos hl]

theorem node_prune_outside {t : FileTree N T B} {l q : Location N} (hq : ¬ l <+: q) :
    (t.prune l).node q = t.node q := by
  unfold prune
  split_ifs
  · exact if_neg hq
  · rfl

/-- What is left was there. -/
theorem node_of_node_prune {t : FileTree N T B} {l q : Location N} {w : Node T B} (h : (t.prune q).node l = some w) :
    t.node l = some w := by
  by_cases hbelow : q <+: l
  · by_cases hq : q = []
    · rwa [prune, dif_neg (not_not.mpr hq)] at h
    · rw [node_prune hq, if_pos hbelow] at h
      cases h
  · rwa [node_prune_outside hbelow] at h

/-- Over what is no directory, only `l` changes. -/
theorem node_graft_of_leaf {t : FileTree N T B} {l : Location N} (hl : l ≠ [])
    (hdir : t.node l.dropLast = some .directory) (hleaf : t.node l ≠ some .directory)
    (v : Node T B) (q : Location N) :
    (t.graft l v).node q = if q = l then some v else t.node q := by
  rw [node_graft hl hdir]
  by_cases hq : q = l
  · rw [if_pos hq, if_pos hq]
  · rw [if_neg hq, if_neg hq]
    split_ifs with hbelow
    · exact (node_below hleaf hbelow hq).symm
    · rfl

theorem node_prune_of_leaf {t : FileTree N T B} {l : Location N} (hl : l ≠ [])
    (hleaf : t.node l ≠ some .directory) (q : Location N) :
    (t.prune l).node q = if q = l then none else t.node q := by
  rw [node_prune hl]
  by_cases hq : q = l
  · rw [if_pos (hq ▸ List.prefix_rfl), if_pos hq]
  · rw [if_neg hq]
    split_ifs with hbelow
    · exact (node_below hleaf hbelow hq).symm
    · rfl

/-- So nothing else does, wherever `l` is. -/
theorem node_graft_of_ne {t : FileTree N T B} {l q : Location N}
    (hleaf : t.node l ≠ some .directory) (hq : q ≠ l) (v : Node T B) :
    (t.graft l v).node q = t.node q := by
  by_cases hbelow : l <+: q
  · rw [node_below hleaf hbelow hq]
    unfold graft
    split_ifs
    · exact (if_neg hq).trans (if_pos hbelow)
    · exact node_below hleaf hbelow hq
  · exact node_graft_outside v hbelow

theorem node_prune_of_ne {t : FileTree N T B} {l q : Location N}
    (hleaf : t.node l ≠ some .directory) (hq : q ≠ l) : (t.prune l).node q = t.node q := by
  by_cases hl : l = []
  · rw [prune, dif_neg (not_not.mpr hl)]
  · rw [node_prune_of_leaf hl hleaf, if_neg hq]

/-! ## Walking a path -/

/-- The end of `parts` from the directory `l`; `link` says how to go on from a link.
The last component is a link to follow only if `last` says so, and may be missing. -/
def walkWith [Target T N] (t : FileTree N T B) (last : Bool)
    (link : Location N → List (Component N) → Except Errno (Location N)) :
    Location N → List (Component N) → Except Errno (Location N)
  | l, [] => .ok l
  | l, .here :: ps => walkWith t last link l ps
  | l, .parent :: ps => walkWith t last link l.dropLast ps
  | l, .name n :: ps =>
      match t.node (l ++ [n]) with
      | none => if ps.isEmpty then .ok (l ++ [n]) else .error .noEntry
      | some .directory => walkWith t last link (l ++ [n]) ps
      | some (.file _) => if ps.isEmpty then .ok (l ++ [n]) else .error .notDirectory
      | some (.symlink target) =>
          if ps.isEmpty && !last then .ok (l ++ [n])
          else link (if (Target.path target).absolute then [] else l)
            ((Target.path target).parts ++ ps)

/-- The walk that follows at most `links` links. -/
def walk [Target T N] (t : FileTree N T B) (last : Bool) :
    Nat → Location N → List (Component N) → Except Errno (Location N)
  | 0 => t.walkWith last fun _ _ => .error .loop
  | links + 1 => t.walkWith last (t.walk last links)

/-- How many links the system follows. -/
def linkLimit : Nat := 40

/-- The location of `parts`, seen from the directory `l`. -/
def locate [Target T N] (t : FileTree N T B) (last : Bool) (l : Location N)
    (parts : List (Component N)) : Except Errno (Location N) := t.walk last linkLimit l parts

/-! ## The calls -/

/-- `status` if links are followed at the end, else `symlink_status`; `none` is
`file_type::not_found`. -/
def status [Target T N] (t : FileTree N T B) (last : Bool) (l : Location N)
    (parts : List (Component N)) : Except Errno (Option (Node T B)) :=
  match t.locate last l parts with
  | .ok q => .ok (t.node q)
  | .error .noEntry => .ok none
  | .error .notDirectory => .ok none
  | .error e => .error e

/-- `mkdir`: the tree and the directory's location. -/
def mkdir [Target T N] (t : FileTree N T B) (l : Location N) (parts : List (Component N)) :
    Except Errno (FileTree N T B × Location N) := do
  let q ← t.locate false l parts
  match t.node q with
  | some _ => .error .exists
  | none => .ok (t.graft q .directory, q)

/-- `create_directories` on the components `rest` that follow `done`: each that is
missing is made. -/
def makeDirectories [Target T N] (l : Location N) :
    Fault → FileTree N T B → List (Component N) → List (Component N) → FileTree N T B × Option Errno
  | _, t, _, [] => (t, none)
  | some (0, e), t, _, _ :: _ => (t, some e)
  | fault, t, done, part :: rest =>
      let fault := fault.map fun f => (f.1 - 1, f.2)
      let path := done ++ [part]
      match part with
      | .name _ =>
          match t.status true l path with
          | .error e => (t, some e)
          | .ok (some .directory) => makeDirectories l fault t path rest
          | .ok (some _) => (t, some .notDirectory)
          | .ok none =>
              match t.mkdir l path with
              | .error e => (t, some e)
              | .ok (t, _) => makeDirectories l fault t path rest
      | _ => makeDirectories l fault t path rest

/-- `create_directories`. -/
def createDirectories [Target T N] (t : FileTree N T B) (fault : Fault) (l : Location N)
    (parts : List (Component N)) : FileTree N T B × Option Errno :=
  makeDirectories l fault t [] parts

/-- `open` for writing, with `O_CREAT` and `O_TRUNC`: the tree and the file's location. -/
def openTruncated [Target T N] (t : FileTree N T B) (l : Location N)
    (parts : List (Component N)) : Except Errno (FileTree N T B × Location N) := do
  let q ← t.locate true l parts
  match t.node q with
  | some .directory => .error .isDirectory
  | some (.symlink _) => .error .loop
  | _ => .ok (t.graft q (.file []), q)

/-- `symlink`. -/
def createSymlink [Target T N] (t : FileTree N T B) (target : T) (l : Location N)
    (parts : List (Component N)) : Except Errno (FileTree N T B) := do
  let q ← t.locate false l parts
  match t.node q with
  | some _ => .error .exists
  | none => .ok (t.graft q (.symlink target))

/-- `rename` of what is no directory, over what is no directory. -/
def rename [Target T N] (t : FileTree N T B) (l : Location N) (parts : List (Component N))
    (l' : Location N) (parts' : List (Component N)) : Except Errno (FileTree N T B) := do
  let q ← t.locate false l parts
  let q' ← t.locate false l' parts'
  match t.node q, t.node q' with
  | none, _ => .error .noEntry
  | some .directory, _ => .error .isDirectory
  | _, some .directory => .error .isDirectory
  | some v, _ => if q = q' then .ok t else .ok ((t.prune q).graft q' v)

/-- `remove_all`; when it fails, the parts `.1` of the tree are gone. -/
def removeAll (t : FileTree N T B) (fault : Option (List (Location N) × Errno)) (l : Location N) :
    FileTree N T B × Option Errno :=
  match fault with
  | none => (t.prune l, none)
  | some (gone, e) => ((gone.filter (l <+: ·)).foldl prune t, some e)

/-- The contents after `data` is written at `offset`; a gap before it is filled. -/
def written [Inhabited B] (contents : List B) (offset : Nat) (data : List B) : List B :=
  if data.isEmpty then contents
  else
    contents.take offset ++ List.replicate (offset - contents.length) default ++ data ++
      contents.drop (offset + data.length)

/-- `write` at `offset` of the file at `l`. -/
def writeAt [Inhabited B] (t : FileTree N T B) (l : Location N) (offset : Nat) (data : List B) :
    FileTree N T B :=
  match t.node l with
  | some (.file contents) => t.graft l (.file (written contents offset data))
  | _ => t

section Write
variable [Inhabited B] {t : FileTree N T B} {l q : Location N} {offset : Nat} {data : List B}

theorem node_writeAt_of_ne (hq : q ≠ l) : (t.writeAt l offset data).node q = t.node q := by
  unfold writeAt
  split
  · rename_i hnode
    exact node_graft_of_ne (by rw [hnode]; simp) hq _
  · rfl

theorem node_writeAt_self {contents : List B} (hnode : t.node l = some (.file contents)) :
    (t.writeAt l offset data).node l = some (.file (written contents offset data)) := by
  have hne : l ≠ [] := by
    rintro rfl
    rw [t.root] at hnode
    cases hnode
  have hparent : t.node l.dropLast = some .directory := by
    refine t.parent l.dropLast (l.getLast hne) ?_
    rw [List.dropLast_append_getLast hne, hnode]
    simp
  rw [writeAt, hnode]
  dsimp only
  rw [node_graft hne hparent, if_pos rfl]

/-- What is no file is not written to. -/
theorem writeAt_of_not_file (h : ∀ contents, t.node l ≠ some (.file contents)) :
    t.writeAt l offset data = t := by
  unfold writeAt
  split
  · rename_i contents hnode
    exact absurd hnode (h contents)
  · rfl

end Write

/-- The same tree, but for the contents of its files. -/
def Rewritten (t u : FileTree N T B) : Prop :=
  ∀ q, u.node q = t.node q ∨
    ∃ contents contents', t.node q = some (.file contents) ∧ u.node q = some (.file contents')

section Rewritten
variable {t u v : FileTree N T B}

omit [DecidableEq N] in
theorem Rewritten.refl (t : FileTree N T B) : Rewritten t t := fun _ => Or.inl rfl

omit [DecidableEq N] in
theorem Rewritten.trans (h : Rewritten t u) (h' : Rewritten u v) : Rewritten t v := by
  intro q
  rcases h q, h' q with ⟨hq | ⟨c, c', hc, hc'⟩, hq' | ⟨d, d', hd, hd'⟩⟩
  · exact Or.inl (hq'.trans hq)
  · exact Or.inr ⟨d, d', hq.symm.trans hd, hd'⟩
  · exact Or.inr ⟨c, c', hc, hq'.trans hc'⟩
  · exact Or.inr ⟨c, d', hc, hd'⟩

theorem Rewritten.writeAt [Inhabited B] (t : FileTree N T B) (l : Location N) (offset : Nat)
    (data : List B) : Rewritten t (t.writeAt l offset data) := by
  intro q
  by_cases hfile : q = l ∧ ∃ contents, t.node l = some (.file contents)
  · obtain ⟨rfl, contents, hnode⟩ := hfile
    exact Or.inr ⟨contents, _, hnode, node_writeAt_self hnode⟩
  · refine Or.inl ?_
    by_cases hq : q = l
    · rw [writeAt_of_not_file fun contents hnode => hfile ⟨hq, contents, hnode⟩]
    · exact node_writeAt_of_ne hq

omit [DecidableEq N] in
theorem Rewritten.none_iff (h : Rewritten t u) (q : Location N) :
    u.node q = none ↔ t.node q = none := by
  rcases h q with hq | ⟨c, c', hc, hc'⟩
  · rw [hq]
  · simp [hc, hc']

end Rewritten

theorem node_foldl_prune {q : Location N} {gone : List (Location N)} :
    ∀ {t : FileTree N T B}, (∀ g ∈ gone, ¬ g <+: q) → (gone.foldl prune t).node q = t.node q := by
  induction gone with
  | nil => exact fun _ => rfl
  | cons g gone ih =>
      intro t h
      rw [List.foldl_cons, ih fun g' hg' => h g' (List.mem_cons_of_mem g hg')]
      exact node_prune_outside (h g List.mem_cons_self)

/-- `remove_all` touches nothing elsewhere. -/
theorem node_removeAll_outside {t : FileTree N T B} {l q : Location N}
    (fault : Option (List (Location N) × Errno)) (hq : ¬ l <+: q) :
    (t.removeAll fault l).1.node q = t.node q := by
  unfold removeAll
  split
  · exact node_prune_outside hq
  · refine node_foldl_prune fun g hg hbelow => hq ?_
    exact (of_decide_eq_true (List.mem_filter.mp hg).2).trans hbelow

/-- `remove_all` makes nothing. -/
theorem node_removeAll_of_none {t : FileTree N T B} {l q : Location N}
    (fault : Option (List (Location N) × Errno)) (hq : t.node q = none) :
    (t.removeAll fault l).1.node q = none := by
  have hprune : ∀ {u : FileTree N T B} {g}, u.node q = none → (u.prune g).node q = none := by
    intro u g hu
    by_contra hnode
    obtain ⟨w, hw⟩ := Option.ne_none_iff_exists'.mp hnode
    rw [node_of_node_prune hw] at hu
    cases hu
  unfold removeAll
  split
  · exact hprune hq
  · rename_i gone e
    generalize gone.filter (l <+: ·) = gone'
    induction gone' generalizing t with
    | nil => exact hq
    | cons g gone' ih => exact ih (hprune hq)

/-! ## Where a path of names leads -/

section Names
variable [Target T N] {t : FileTree N T B} {l : Location N}

/-- The path that consists of `names`. -/
def names (names : List N) : List (Component N) := names.map .name

omit [DecidableEq N] in
/-- A path of names through directories leads where it says. -/
theorem walkWith_names {last : Bool}
    (link : Location N → List (Component N) → Except Errno (Location N)) {ns : List N}
    (hdirs : ∀ k < ns.length, 0 < k → t.node (l ++ ns.take k) = some .directory)
    (hlast : last = true → ∀ target, t.node (l ++ ns) ≠ some (.symlink target)) :
    t.walkWith last link l (names ns) = .ok (l ++ ns) := by
  induction ns generalizing l with
  | nil => simp [names, walkWith]
  | cons n ns ih =>
      have happend : l ++ n :: ns = l ++ [n] ++ ns := by simp
      rw [names, List.map_cons, walkWith]
      by_cases hns : ns = []
      · subst hns
        split
        · rfl
        · simp [walkWith]
        · rfl
        · rename_i target hnode
          cases last with
          | false => rfl
          | true => exact absurd hnode (hlast rfl target)
      · have hpos : 0 < ns.length := List.length_pos_iff.mpr hns
        have hnode : t.node (l ++ [n]) = some .directory := by
          have := hdirs 1 (by simpa using hpos) Nat.one_pos
          simpa using this
        rw [hnode, happend]
        dsimp only
        refine ih (fun k hk hk0 => ?_) (fun h target => ?_)
        · have := hdirs (k + 1) (by simpa using hk) k.succ_pos
          rw [List.take_succ_cons] at this
          simpa using this
        · have := hlast h target
          rwa [happend] at this

omit [DecidableEq N] in
theorem locate_names {last : Bool} {ns : List N}
    (hdirs : ∀ k < ns.length, 0 < k → t.node (l ++ ns.take k) = some .directory)
    (hlast : last = true → ∀ target, t.node (l ++ ns) ≠ some (.symlink target)) :
    t.locate last l (names ns) = .ok (l ++ ns) :=
  walkWith_names _ hdirs hlast

omit [DecidableEq N] in
theorem status_names {last : Bool} {ns : List N}
    (hdirs : ∀ k < ns.length, 0 < k → t.node (l ++ ns.take k) = some .directory)
    (hlast : last = true → ∀ target, t.node (l ++ ns) ≠ some (.symlink target)) :
    t.status last l (names ns) = .ok (t.node (l ++ ns)) := by
  rw [status, locate_names hdirs hlast]

theorem mkdir_names {ns : List N}
    (hdirs : ∀ k < ns.length, 0 < k → t.node (l ++ ns.take k) = some .directory)
    (hnone : t.node (l ++ ns) = none) :
    t.mkdir l (names ns) = .ok (t.graft (l ++ ns) .directory, l ++ ns) := by
  rw [mkdir, locate_names hdirs (by simp)]
  simp only [bind, Except.bind]
  rw [hnone]

theorem makeDirectories_cons {fault : Fault} (hfault : ∀ e, fault ≠ some (0, e)) (n : N)
    (done rest : List (Component N)) : makeDirectories l fault t done (.name n :: rest) =
      match t.status true l (done ++ [.name n]) with
      | .error e => (t, some e)
      | .ok (some .directory) =>
          makeDirectories l (fault.map fun f => (f.1 - 1, f.2)) t (done ++ [.name n]) rest
      | .ok (some _) => (t, some .notDirectory)
      | .ok none =>
          match t.mkdir l (done ++ [.name n]) with
          | .error e => (t, some e)
          | .ok (t, _) =>
              makeDirectories l (fault.map fun f => (f.1 - 1, f.2)) t (done ++ [.name n]) rest := by
  match fault, hfault with
  | none, _ => rfl
  | some (0, e), h => exact absurd rfl (h e)
  | some (k + 1, e), _ => rfl

/-- A component that is no name is passed over. -/
theorem makeDirectories_skip {fault : Fault} (hfault : ∀ e, fault ≠ some (0, e))
    {part : Component N} (hpart : ∀ n, part ≠ .name n) (done rest : List (Component N)) :
    makeDirectories l fault t done (part :: rest) =
      makeDirectories l (fault.map fun f => (f.1 - 1, f.2)) t (done ++ [part]) rest := by
  cases part with
  | name n => exact absurd rfl (hpart n)
  | here | parent =>
      match fault, hfault with
      | none, _ => rfl
      | some (0, e), h => exact absurd rfl (h e)
      | some (k + 1, e), _ => rfl

omit [DecidableEq N] in
theorem names_cons (n : N) (rest : List N) : names (n :: rest) = .name n :: names rest := rfl

omit [DecidableEq N] in
theorem names_concat (done : List N) (n : N) : names done ++ [.name n] = names (done ++ [n]) := by
  simp [names]

/-- `create_directories` where all but the last directory are there: it makes that one
or fails. -/
theorem makeDirectories_names (hroot : t.node l = some .directory) {rest : List N} :
    ∀ {done : List N} {fault : Fault},
      (∀ k < (done ++ rest).length, 0 < k → t.node (l ++ (done ++ rest).take k) = some .directory) →
      (rest = [] → t.node (l ++ done) = some .directory) →
      (∀ target, t.node (l ++ (done ++ rest)) ≠ some (.symlink target)) → ∃ u e,
      makeDirectories l fault t (names done) (names rest) = (u, e) ∧
        (u = t ∨ t.node (l ++ (done ++ rest)) = none ∧
          u = t.graft (l ++ (done ++ rest)) .directory) ∧
        (e = none → u.node (l ++ (done ++ rest)) = some .directory) ∧
        (fault = none → (t.node (l ++ (done ++ rest)) = none ∨
          t.node (l ++ (done ++ rest)) = some .directory) → e = none) := by
  induction rest with
  | nil =>
      intro done fault _ hdone _
      refine ⟨t, none, ?_, Or.inl rfl, fun _ => ?_, fun _ _ => rfl⟩
      · cases fault <;> simp [names, makeDirectories]
      · rw [List.append_nil]
        exact hdone rfl
  | cons n rest ih =>
      intro done fault hdirs _ hlink
      by_cases hfault : ∃ e, fault = some (0, e)
      · obtain ⟨e, rfl⟩ := hfault
        exact ⟨t, some e, rfl, Or.inl rfl, by simp, by simp⟩
      have happend : done ++ n :: rest = done ++ [n] ++ rest := by simp
      rw [happend] at hdirs hlink ⊢
      have hbelow : ∀ k < (done ++ [n]).length, 0 < k →
          t.node (l ++ (done ++ [n]).take k) = some .directory := by
        intro k hk hk0
        have := hdirs k (by rw [List.length_append]; omega) hk0
        rwa [List.take_append_of_le_length hk.le] at this
      have hfull : rest ≠ [] → t.node (l ++ (done ++ [n])) = some .directory := by
        intro hrest
        have hlen : 0 < rest.length := List.length_pos_iff.mpr hrest
        have := hdirs (done ++ [n]).length (by rw [@List.length_append _ (done ++ [n]) rest]; omega)
          (by simp)
        rwa [List.take_left] at this
      have hnolink : ∀ target, t.node (l ++ (done ++ [n])) ≠ some (.symlink target) := by
        intro target
        by_cases hrest : rest = []
        · have := hlink target
          rwa [hrest, List.append_nil] at this
        · rw [hfull hrest]
          simp
      rw [names_cons, makeDirectories_cons (fun e he => hfault ⟨e, he⟩), names_concat,
        status_names hbelow fun _ => hnolink]
      cases hnode : t.node (l ++ (done ++ [n])) with
      | none =>
          -- the last one is missing, and is made
          obtain rfl : rest = [] := by
            by_contra hrest
            rw [hfull hrest] at hnode
            cases hnode
          dsimp only
          rw [mkdir_names hbelow hnode]
          dsimp only
          rw [List.append_nil]
          have hparent : t.node (l ++ (done ++ [n])).dropLast = some .directory := by
            rw [← List.append_assoc, List.dropLast_concat]
            by_cases hdone : done = []
            · rw [hdone, List.append_nil]
              exact hroot
            · have := hbelow done.length (by simp) (List.length_pos_iff.mpr hdone)
              rwa [List.take_left] at this
          refine ⟨_, none, ?_, Or.inr ⟨hnode, rfl⟩, fun _ => ?_, fun _ _ => rfl⟩
          · cases fault <;> simp [names, makeDirectories]
          · rw [node_graft (by simp) hparent, if_pos rfl]
      | some v =>
          cases v with
          | directory =>
              obtain ⟨u, e, hmade, hu, hok, hnone⟩ := @ih (done ++ [n])
                (fault.map fun f => (f.1 - 1, f.2)) hdirs (fun _ => hnode) hlink
              exact ⟨u, e, hmade, hu, hok, fun h => hnone (by rw [h]; rfl)⟩
          | file contents =>
              obtain rfl : rest = [] := by
                by_contra hrest
                rw [hfull hrest] at hnode
                cases hnode
              refine ⟨t, some .notDirectory, rfl, Or.inl rfl, by simp, fun _ h => ?_⟩
              rw [List.append_nil, hnode] at h
              simp at h
          | symlink target => exact absurd hnode (hnolink target)

/-- The same, from the start. -/
theorem createDirectories_names (fault : Fault) (hroot : t.node l = some .directory) {ns : List N}
    (hdirs : ∀ k < ns.length, 0 < k → t.node (l ++ ns.take k) = some .directory)
    (hlast : ∀ target, t.node (l ++ ns) ≠ some (.symlink target)) : ∃ u e,
      t.createDirectories fault l (names ns) = (u, e) ∧
        (u = t ∨ t.node (l ++ ns) = none ∧ u = t.graft (l ++ ns) .directory) ∧
        (e = none → u.node (l ++ ns) = some .directory) ∧
        (fault = none → (t.node (l ++ ns) = none ∨ t.node (l ++ ns) = some .directory) →
          e = none) :=
  @makeDirectories_names _ _ _ _ _ t l hroot ns [] fault hdirs
    (fun _ => by rw [List.append_nil]; exact hroot) hlast

theorem rename_names {l' : Location N} {ns ns' : List N} {v : Node T B}
    (hdirs : ∀ k < ns.length, 0 < k → t.node (l ++ ns.take k) = some .directory)
    (hdirs' : ∀ k < ns'.length, 0 < k → t.node (l' ++ ns'.take k) = some .directory)
    (hsource : t.node (l ++ ns) = some v) (hleaf : v ≠ .directory)
    (hdest : t.node (l' ++ ns') ≠ some .directory) (hne : l ++ ns ≠ l' ++ ns') :
    t.rename l (names ns) l' (names ns') = .ok ((t.prune (l ++ ns)).graft (l' ++ ns') v) := by
  rw [rename, locate_names hdirs (by simp), locate_names hdirs' (by simp)]
  simp only [bind, Except.bind]
  rw [hsource]
  split
  · rename_i h
    cases h
  · rename_i h
    exact absurd (Option.some.inj h) hleaf
  · rename_i h _ _
    exact absurd h hdest
  · rename_i h _
    rw [if_neg hne, Option.some.inj h]

end Names

/-! ## What a walk finds -/

section Found
variable {t : FileTree N T B} {l q : Location N}

/-- What is missing at `q` can be made there. -/
def Vacant (t : FileTree N T B) (q : Location N) : Prop :=
  t.node q = none → q ≠ [] ∧ t.node q.dropLast = some .directory

omit [DecidableEq N] in
theorem dropLast_directory (h : t.node l = some .directory) :
    t.node l.dropLast = some .directory := by
  rcases List.eq_nil_or_concat l with rfl | ⟨m, n, rfl⟩
  · exact h
  · rw [List.concat_eq_append] at h ⊢
    rw [List.dropLast_concat]
    exact t.parent m n (by rw [h]; simp)

variable [Target T N]

omit [DecidableEq N] in
theorem walkWith_vacant {last : Bool}
    {link : Location N → List (Component N) → Except Errno (Location N)}
    (hlink : ∀ l ps q, t.node l = some .directory → link l ps = .ok q → t.Vacant q)
    {ps : List (Component N)} (hl : t.node l = some .directory)
    (h : t.walkWith last link l ps = .ok q) : t.Vacant q := by
  induction ps generalizing l with
  | nil =>
      obtain rfl := Except.ok.inj h
      intro hnone
      rw [hl] at hnone
      cases hnone
  | cons part ps ih =>
      cases part with
      | here => exact ih hl h
      | parent => exact ih (dropLast_directory hl) h
      | name n =>
          rw [walkWith] at h
          split at h
          · split_ifs at h
            obtain rfl := Except.ok.inj h
            exact fun _ => ⟨by simp, by rw [List.dropLast_concat]; exact hl⟩
          · rename_i hnode
            exact ih hnode h
          · rename_i hnode
            split_ifs at h
            obtain rfl := Except.ok.inj h
            intro hnone
            rw [hnode] at hnone
            cases hnone
          · rename_i target hnode
            split_ifs at h
            · obtain rfl := Except.ok.inj h
              intro hnone
              rw [hnode] at hnone
              cases hnone
            · exact hlink _ _ _ t.root h
            · exact hlink _ _ _ hl h

omit [DecidableEq N] in
theorem walk_vacant {last : Bool} {links : Nat} {ps : List (Component N)}
    (hl : t.node l = some .directory) (h : t.walk last links l ps = .ok q) : t.Vacant q := by
  induction links generalizing l ps q with
  | zero => exact walkWith_vacant (fun _ _ _ _ h => by cases h) hl h
  | succ links ih => exact walkWith_vacant (fun _ _ _ hl h => ih hl h) hl h

/-- What `mkdir` does when it succeeds. -/
theorem mkdir_ok {u : FileTree N T B} {ps : List (Component N)} (h : t.mkdir l ps = .ok (u, q)) :
    t.locate false l ps = .ok q ∧ t.node q = none ∧ u = t.graft q .directory := by
  simp only [mkdir, bind, Except.bind] at h
  split at h
  · cases h
  · rename_i hlocate
    split at h
    · cases h
    · rename_i hnone
      obtain ⟨rfl, rfl⟩ := Prod.mk.inj (Except.ok.inj h)
      exact ⟨hlocate, hnone, rfl⟩

/-- What `open` does when it succeeds. -/
theorem openTruncated_ok {u : FileTree N T B} {ps : List (Component N)}
    (h : t.openTruncated l ps = .ok (u, q)) :
    t.locate true l ps = .ok q ∧ t.node q ≠ some .directory ∧ u = t.graft q (.file []) := by
  simp only [openTruncated, bind, Except.bind] at h
  split at h
  · cases h
  · rename_i hlocate
    split at h
    · cases h
    · cases h
    · rename_i hnode _
      obtain ⟨rfl, rfl⟩ := Prod.mk.inj (Except.ok.inj h)
      exact ⟨hlocate, hnode, rfl⟩

/-- What `symlink` does when it succeeds. -/
theorem createSymlink_ok {u : FileTree N T B} {target : T} {ps : List (Component N)}
    (h : t.createSymlink target l ps = .ok u) :
    ∃ q, t.locate false l ps = .ok q ∧ t.node q = none ∧ u = t.graft q (.symlink target) := by
  simp only [createSymlink, bind, Except.bind] at h
  split at h
  · cases h
  · rename_i q hlocate
    split at h
    · cases h
    · rename_i hnone
      obtain rfl := Except.ok.inj h
      exact ⟨q, hlocate, hnone, rfl⟩

theorem node_mkdir {u : FileTree N T B} {ps : List (Component N)}
    (hl : t.node l = some .directory) (h : t.mkdir l ps = .ok (u, q)) :
    q ≠ [] ∧ u.node q = some .directory := by
  obtain ⟨hlocate, hnone, rfl⟩ := mkdir_ok h
  obtain ⟨hne, hparent⟩ := walk_vacant hl hlocate hnone
  exact ⟨hne, by rw [node_graft hne hparent, if_pos rfl]⟩

end Found

/-! ## What the calls keep -/

/-- Every directory of `t` is one of `u`. -/
def KeepsDirectories (t u : FileTree N T B) : Prop :=
  ∀ l, t.node l = some .directory → u.node l = some .directory

section Keeps
variable {t u v : FileTree N T B} {l q : Location N} {ps : List (Component N)}

omit [DecidableEq N] in
theorem KeepsDirectories.refl (t : FileTree N T B) : KeepsDirectories t t := fun _ h => h

omit [DecidableEq N] in
theorem KeepsDirectories.trans (h : KeepsDirectories t u) (h' : KeepsDirectories u v) :
    KeepsDirectories t v := fun l hl => h' l (h l hl)

omit [DecidableEq N] in
/-- A directory is not below what is no directory. -/
theorem not_prefix_directory (hq : t.node q ≠ some .directory) (hl : t.node l = some .directory) :
    ¬ q <+: l := by
  intro hbelow
  by_cases hlq : l = q
  · exact hq (hlq ▸ hl)
  · rw [node_below hq hbelow hlq] at hl
    cases hl

theorem keeps_graft (hq : t.node q ≠ some .directory) (v : Node T B) :
    KeepsDirectories t (t.graft q v) := by
  intro l hl
  rw [node_graft_outside v (not_prefix_directory hq hl)]
  exact hl

theorem keeps_prune (hq : t.node q ≠ some .directory) : KeepsDirectories t (t.prune q) := by
  intro l hl
  rw [node_prune_outside (not_prefix_directory hq hl)]
  exact hl

theorem keeps_writeAt [Inhabited B] (t : FileTree N T B) (l : Location N) (offset : Nat)
    (data : List B) : KeepsDirectories t (t.writeAt l offset data) := by
  unfold writeAt
  split
  · rename_i contents hnode
    exact keeps_graft (by rw [hnode]; simp) _
  · exact .refl t

variable [Target T N]

theorem keeps_mkdir (h : t.mkdir l ps = .ok (u, q)) : KeepsDirectories t u := by
  obtain ⟨-, hnone, rfl⟩ := mkdir_ok h
  exact keeps_graft (by rw [hnone]; simp) _

theorem keeps_makeDirectories {rest : List (Component N)} : ∀ {t : FileTree N T B}
    {fault : Fault} {done : List (Component N)},
    KeepsDirectories t (makeDirectories l fault t done rest).1 := by
  induction rest with
  | nil =>
      intro t fault done
      cases fault <;> exact .refl t
  | cons part rest ih =>
      intro t fault done
      by_cases hfault : ∃ e, fault = some (0, e)
      · obtain ⟨e, rfl⟩ := hfault
        exact .refl t
      have hnot : ∀ e, fault ≠ some (0, e) := fun e he => hfault ⟨e, he⟩
      cases part with
      | name n =>
          rw [makeDirectories_cons hnot]
          split
          · exact .refl t
          · exact ih
          · exact .refl t
          · split
            · exact .refl t
            · rename_i u q hmade
              exact (keeps_mkdir hmade).trans ih
      | here | parent =>
          rw [makeDirectories_skip hnot (by simp)]
          exact ih

theorem keeps_createDirectories (t : FileTree N T B) (fault : Fault) (l : Location N)
    (ps : List (Component N)) : KeepsDirectories t (t.createDirectories fault l ps).1 :=
  keeps_makeDirectories

theorem keeps_openTruncated (h : t.openTruncated l ps = .ok (u, q)) : KeepsDirectories t u := by
  obtain ⟨-, hnode, rfl⟩ := openTruncated_ok h
  exact keeps_graft hnode _

theorem keeps_createSymlink {target : T} (h : t.createSymlink target l ps = .ok u) :
    KeepsDirectories t u := by
  obtain ⟨q, -, hnone, rfl⟩ := createSymlink_ok h
  exact keeps_graft (by rw [hnone]; simp) _

theorem keeps_rename {l' : Location N} {ps' : List (Component N)}
    (h : t.rename l ps l' ps' = .ok u) : KeepsDirectories t u := by
  simp only [rename, bind, Except.bind] at h
  split at h
  · cases h
  split at h
  · cases h
  split at h
  · cases h
  · cases h
  · cases h
  · rename_i hleaf hnode hdest
    split_ifs at h
    · obtain rfl := Except.ok.inj h
      exact .refl t
    · obtain rfl := Except.ok.inj h
      refine (keeps_prune (fun hq => ?_)).trans
        (keeps_graft (fun hq => hdest (node_of_node_prune hq)) _)
      rw [hnode] at hq
      exact hleaf (Option.some.inj hq)

end Keeps

end FileTree
end FileSystem

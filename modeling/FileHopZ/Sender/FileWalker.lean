import FileHopZ.Sender.PathHandler
import FileHopZ.Utils.RelativePath

/-! # `File_walker`

It goes through what is to be sent: a single file or link, or the entries of a directory in
the order in which `recursive_directory_iterator` gives them.  Paths are given by their
components; what the system says of them is an argument, and so is what each iterator that
is made goes through.
-/
namespace FileHopZ

/-- What the system says of paths. -/
structure System where
  symlinkStatus : List Bytes → FileStatus
  fileSize : List Bytes → UInt64
  /-- What the `k`-th iterator of a directory goes through. -/
  iterate : Nat → List Bytes → List (List Bytes)

/-- The fields of `File_walker`.  An iterator is what it has before it, and `made` counts the
iterators. -/
structure FileWalker where
  root : List Bytes
  singleFile : Bool := false
  singleFileReturned : Bool := false
  it : List (List Bytes) := []
  made : Nat := 0
  current : List Bytes := []

namespace FileWalker

/-- `File_walker::File_walker`. -/
def construct (sys : System) (root : List Bytes) : FileWalker :=
  match sys.symlinkStatus root with
  | .symlink _ => { root := root, singleFile := true, current := root }
  | .regular _ => { root := root, singleFile := true, current := root }
  | _ => { root := root, it := sys.iterate 0 root, made := 1 }

/-- The types that `next` does not pass over. -/
def supported : FileStatus → Bool
  | .other => false
  | _ => true

/-- The loop of `next` over the entries. -/
def nextEntry (sys : System) : List (List Bytes) → Option (List Bytes × List (List Bytes))
  | [] => none
  | entry :: rest =>
      if supported (sys.symlinkStatus entry) then some (entry, rest) else nextEntry sys rest

/-- `next`: the walker after it, and what it returns. -/
def next (sys : System) (w : FileWalker) : FileWalker × Bool :=
  if w.singleFile then
    if w.singleFileReturned then (w, false) else ({ w with singleFileReturned := true }, true)
  else
    match nextEntry sys w.it with
    | none => ({ w with it := [] }, false)
    | some (entry, rest) => ({ w with current := entry, it := rest }, true)

/-- `relative_path`, by its components. -/
def relativePath (w : FileWalker) : List Bytes :=
  if w.singleFile then [w.current.getLastD []] else FsPath.lexicallyRelative w.current w.root

/-- `reset`. -/
def reset (sys : System) (w : FileWalker) : FileWalker :=
  if w.singleFile then { w with singleFileReturned := false, current := w.root }
  else { w with it := sys.iterate w.made w.root, made := w.made + 1 }

/-- How many times `next` can return `true`. -/
def left (w : FileWalker) : Nat :=
  if w.singleFile then if w.singleFileReturned then 0 else 1 else w.it.length

theorem nextEntry_lt {sys : System} {entries : List (List Bytes)}
    {found : List Bytes × List (List Bytes)} (h : nextEntry sys entries = some found) :
    found.2.length < entries.length := by
  induction entries with
  | nil => cases h
  | cons entry rest ih =>
      rw [nextEntry] at h
      split_ifs at h
      · obtain rfl := Option.some.inj h
        exact Nat.lt_succ_self _
      · exact Nat.lt_succ_of_lt (ih h)

theorem next_left {sys : System} {w w' : FileWalker} (h : w.next sys = (w', true)) :
    w'.left < w.left := by
  unfold next at h
  split_ifs at h with hsingle hreturned
  · cases h
  · obtain ⟨rfl, -⟩ := Prod.mk.inj h
    simp [left, hsingle, hreturned]
  · split at h
    · cases h
    · rename_i hfound
      obtain ⟨rfl, -⟩ := Prod.mk.inj h
      simp only [left, hsingle]
      exact nextEntry_lt hfound

/-- `while(next())`: the walkers that the body of the loop sees, and the one after it. -/
def visits (sys : System) (w : FileWalker) : List FileWalker × FileWalker :=
  match _h : w.next sys with
  | (w', false) => ([], w')
  | (w', true) =>
      let rest := visits sys w'
      (w' :: rest.1, rest.2)
termination_by w.left
decreasing_by exact next_left _h

/-! ## What it visits -/

/-- What the loops of the sender look at. -/
def view (w : FileWalker) : List Bytes × List Bytes := (w.current, w.relativePath)

section Visits
variable {sys : System} {w : FileWalker}

theorem visits_of_false {w' : FileWalker} (h : w.next sys = (w', false)) :
    w.visits sys = ([], w') := by
  rw [visits]
  split
  · rename_i h'
    obtain ⟨rfl, -⟩ := Prod.mk.inj (h.symm.trans h')
    rfl
  · rename_i h'
    rw [h] at h'
    cases h'

theorem visits_of_true {w' : FileWalker} (h : w.next sys = (w', true)) :
    w.visits sys = (w' :: (w'.visits sys).1, (w'.visits sys).2) := by
  rw [visits]
  split
  · rename_i h'
    rw [h] at h'
    cases h'
  · rename_i h'
    obtain ⟨rfl, -⟩ := Prod.mk.inj (h.symm.trans h')
    rfl

/-- A single file is visited once. -/
theorem visits_single (hsingle : w.singleFile = true) (hreturned : w.singleFileReturned = false) :
    w.visits sys =
      ([{ w with singleFileReturned := true }], { w with singleFileReturned := true }) := by
  have hnext : w.next sys = ({ w with singleFileReturned := true }, true) := by
    rw [next, if_pos hsingle, hreturned]
    rfl
  have hend : ({ w with singleFileReturned := true } : FileWalker).next sys =
      ({ w with singleFileReturned := true }, false) := by
    rw [next, if_pos hsingle]
    rfl
  rw [visits_of_true hnext, visits_of_false hend]

/-- Entries of the types that are sent are all visited. -/
theorem visits_entries (hsingle : w.singleFile = false)
    (hsupported : ∀ p ∈ w.it, supported (sys.symlinkStatus p) = true) :
    (w.visits sys).1.map view = w.it.map (fun p => (p, FsPath.lexicallyRelative p w.root)) ∧
      (w.visits sys).2 = { w with current := w.it.getLastD w.current, it := [] } := by
  generalize hit : w.it = entries at hsupported
  induction entries generalizing w with
  | nil =>
      have hnext : w.next sys = ({ w with it := [] }, false) := by
        rw [next, hsingle, hit]
        rfl
      rw [visits_of_false hnext]
      exact ⟨rfl, rfl⟩
  | cons p rest ih =>
      have hnext : w.next sys = ({ w with current := p, it := rest }, true) := by
        rw [next, hsingle, hit]
        simp only [Bool.false_eq_true, if_false, nextEntry, hsupported p List.mem_cons_self, if_true]
      obtain ⟨hviews, hlast⟩ := @ih { w with current := p, it := rest } hsingle rfl
        fun q hq => hsupported q (List.mem_cons_of_mem _ hq)
      rw [visits_of_true hnext, List.map_cons, hviews, hlast, List.map_cons, view, relativePath]
      refine ⟨by simp only [hsingle, Bool.false_eq_true, if_false], ?_⟩
      cases rest with
      | nil => rfl
      | cons q rest => rfl

end Visits
end FileWalker
end FileHopZ

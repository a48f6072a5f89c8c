import FileHopZ.Utils.FileBuilder

/-! # The path of an entry relative to the root

A path is given by its components, as its iterator gives them: a slash at the start is the
component `/`, and one at the end leaves an empty component.  The path of an entry is the
path of the root with names appended, and `lexically_relative` takes the root off again.
-/
namespace FileHopZ
open FileSystem

namespace FsPath

/-- A name that an entry of a directory can have. -/
structure FileName (n : Bytes) : Prop where
  ne_nil : n ≠ []
  slash : slash ∉ n
  zero : 0 ∉ n
  ne_dot : n ≠ [dot]
  ne_dots : n ≠ [dot, dot]

/-- `operator/` with a name. -/
def append (path : List Bytes) (name : Bytes) : List Bytes :=
  if path.getLast? = some [] then path.dropLast ++ [name] else path ++ [name]

/-- The path that a directory iterator started at `root` gives for an entry. -/
def entryPath (root names : List Bytes) : List Bytes := names.foldl append root

/-- What is left of both after `std::mismatch`. -/
def mismatch : List Bytes → List Bytes → List Bytes × List Bytes
  | a :: as, b :: bs => if a = b then mismatch as bs else (a :: as, b :: bs)
  | as, bs => (as, bs)

/-- How many directories up the components lead back: the `n` of `lexically_relative`. -/
def depth (components : List Bytes) : Int :=
  (components.map fun c =>
    if c = [dot, dot] then -1 else if c ≠ [] ∧ c ≠ [dot] then 1 else 0).sum

/-- `lexically_relative`. -/
def lexicallyRelative (path base : List Bytes) : List Bytes :=
  if decide (path.head? = some [slash]) ≠ decide (base.head? = some [slash]) then []
  else
    let rest := mismatch path base
    if rest.1 = [] ∧ rest.2 = [] then [[dot]]
    else if depth rest.2 = 0 ∧ (rest.1 = [] ∨ rest.1.head? = some []) then [[dot]]
    else if 0 ≤ depth rest.2 then List.replicate (depth rest.2).toNat [dot, dot] ++ rest.1
    else []

/-- `string` of a relative path. -/
def joined : List Bytes → Bytes
  | [] => []
  | [c] => c
  | c :: cs => c ++ slash :: joined cs

/-! ## Of an entry -/

/-- The path of an entry ends with its names. -/
theorem entryPath_eq (root : List Bytes) : ∃ base rest, root = base ++ rest ∧
    (rest = [] ∨ rest = [[]]) ∧
      ∀ names, names ≠ [] → (∀ n ∈ names, n ≠ []) → entryPath root names = base ++ names := by
  have happend : ∀ names path, (∀ n ∈ names, n ≠ []) → path.getLast? ≠ some [] →
      entryPath path names = path ++ names := by
    intro names
    induction names with
    | nil => exact fun path _ _ => (List.append_nil path).symm
    | cons n names ih =>
        intro path hnames hpath
        have hlast : (path ++ [n]).getLast? ≠ some [] := by
          rw [List.getLast?_concat]
          exact fun h => hnames n List.mem_cons_self (Option.some.inj h)
        rw [entryPath, List.foldl_cons, append, if_neg hpath]
        refine (ih (path ++ [n]) (fun n' hn' => hnames n' (List.mem_cons_of_mem _ hn')) hlast).trans ?_
        rw [List.append_assoc]
        rfl
  by_cases hroot : root.getLast? = some []
  · -- a slash at the end
    obtain ⟨base, rfl⟩ := List.getLast?_eq_some_iff.mp hroot
    refine ⟨base, [[]], rfl, Or.inr rfl, fun names hne hnames => ?_⟩
    cases names with
    | nil => exact absurd rfl hne
    | cons n names =>
        have hlast : (base ++ [n]).getLast? ≠ some [] := by
          rw [List.getLast?_concat]
          exact fun h => hnames n List.mem_cons_self (Option.some.inj h)
        rw [entryPath, List.foldl_cons, append, if_pos hroot, List.dropLast_concat]
        refine (happend names (base ++ [n])
          (fun n' hn' => hnames n' (List.mem_cons_of_mem _ hn')) hlast).trans ?_
        rw [List.append_assoc]
        rfl
  · exact ⟨root, [], (List.append_nil root).symm, Or.inl rfl,
      fun names _ hnames => happend names root hnames hroot⟩

theorem mismatch_append (base as bs : List Bytes) :
    mismatch (base ++ as) (base ++ bs) = mismatch as bs := by
  induction base with
  | nil => rfl
  | cons b base ih =>
      rw [List.cons_append, List.cons_append, mismatch, if_pos rfl]
      exact ih

/-- **`lexically_relative` finds the names of an entry**, wherever the root is. -/
theorem lexicallyRelative_entryPath (root : List Bytes) {names : List Bytes} (hne : names ≠ [])
    (hnames : ∀ n ∈ names, FileName n) : lexicallyRelative (entryPath root names) root = names := by
  obtain ⟨base, rest, rfl, hrest, hpath⟩ := entryPath_eq root
  rw [hpath names hne fun n hn => (hnames n hn).ne_nil]
  cases names with
  | nil => exact absurd rfl hne
  | cons n names =>
      have hn := hnames n List.mem_cons_self
      have habsolute : decide ((base ++ n :: names).head? = some [slash]) =
          decide ((base ++ rest).head? = some [slash]) := by
        cases base with
        | cons b base => rfl
        | nil =>
            have hslash : n ≠ [slash] := by
              rintro rfl
              exact hn.slash List.mem_cons_self
            rcases hrest with rfl | rfl
            · simp [hslash]
            · simp [hslash]
      have hmismatch : mismatch (base ++ n :: names) (base ++ rest) = (n :: names, rest) := by
        rw [mismatch_append]
        rcases hrest with rfl | rfl
        · rfl
        · rw [mismatch, if_neg hn.ne_nil]
      have hdepth : depth rest = 0 := by
        rcases hrest with rfl | rfl
        · rfl
        · rfl
      unfold lexicallyRelative
      dsimp only
      rw [if_neg (not_not.mpr habsolute), hmismatch, if_neg (by simp), hdepth,
        if_neg (by simp [hn.ne_nil]), if_pos (le_refl _)]
      rfl

/-! ## As text -/

theorem splitSlash_of_notMem {c : Bytes} (h : slash ∉ c) : splitSlash c = [c] := by
  induction c with
  | nil => rfl
  | cons x c ih =>
      rw [List.mem_cons, not_or] at h
      rw [splitSlash, if_neg (Ne.symm h.1), ih h.2]
      rfl

theorem splitSlash_append {c : Bytes} (h : slash ∉ c) (rest : Bytes) :
    splitSlash (c ++ slash :: rest) = c :: splitSlash rest := by
  induction c with
  | nil => exact if_pos rfl
  | cons x c ih =>
      rw [List.mem_cons, not_or] at h
      rw [List.cons_append, splitSlash, if_neg (Ne.symm h.1), ih h.2]
      rfl

theorem splitSlash_joined {names : List Bytes} (hne : names ≠ [])
    (hnames : ∀ n ∈ names, slash ∉ n) : splitSlash (joined names) = names := by
  induction names with
  | nil => exact absurd rfl hne
  | cons n names ih =>
      have hn := hnames n List.mem_cons_self
      cases names with
      | nil => exact splitSlash_of_notMem hn
      | cons n' names =>
          rw [joined, splitSlash_append hn]
          · rw [ih (by simp) fun m hm => hnames m (List.mem_cons_of_mem _ hm)]
          · simp

theorem joined_head {names : List Bytes} (hne : names ≠ []) (hnames : ∀ n ∈ names, FileName n) :
    ∃ x text, joined names = x :: text ∧ x ≠ slash := by
  cases names with
  | nil => exact absurd rfl hne
  | cons n names =>
      have hn := hnames n List.mem_cons_self
      cases n with
      | nil => exact absurd rfl hn.ne_nil
      | cons x n =>
          have hx : x ≠ slash := by
            rintro rfl
            exact hn.slash List.mem_cons_self
          cases names with
          | nil => exact ⟨x, n, rfl, hx⟩
          | cons n' names => exact ⟨x, _, rfl, hx⟩

/-- **The text of names has these names as its components.** -/
theorem components_joined {names : List Bytes} (hne : names ≠ [])
    (hnames : ∀ n ∈ names, FileName n) : components (joined names) = names := by
  obtain ⟨x, text, htext, -⟩ := joined_head hne hnames
  have hsplit := splitSlash_joined hne fun n hn => (hnames n hn).slash
  rw [components, if_neg (by rw [htext]; simp), hsplit]
  have hfilter : names.dropLast.filter (· ≠ []) = names.dropLast := by
    rw [List.filter_eq_self]
    intro n hn
    exact decide_eq_true (hnames n (List.dropLast_subset _ hn)).ne_nil
  rw [hfilter, List.getLastD_eq_getLast?, List.getLast?_eq_getLast_of_ne_nil hne]
  exact List.dropLast_append_getLast hne

theorem part_of_fileName {n : Bytes} (h : FileName n) : part n = .name n := by
  rw [part, if_neg (not_or.mpr ⟨h.ne_nil, h.ne_dot⟩), if_neg h.ne_dots]

/-- The system reads all of them. -/
theorem osParts_names {names : List Bytes} (hnames : ∀ n ∈ names, FileName n) :
    osParts names = FileTree.names names := by
  induction names with
  | nil => rfl
  | cons n names ih =>
      have hn := hnames n List.mem_cons_self
      rw [osParts, if_neg hn.zero, part_of_fileName hn,
        ih fun m hm => hnames m (List.mem_cons_of_mem _ hm)]
      rfl

end FsPath
end FileHopZ

import Mathlib.Data.Finmap
import Mathlib.Data.Finset.Basic
import Mathlib.Data.List.Sort

/-! # Keys of finite maps -/
namespace FiniteMap
variable {κ : Type*} {α : Type*} [DecidableEq κ]

/-- An insertion adds its key. -/
theorem keys_insert (m : Finmap fun _ : κ => α) (key : κ) (a : α) :
    (m.insert key a).keys = insert key m.keys := by
  ext k
  rw [Finset.mem_insert, Finmap.mem_keys, Finmap.mem_insert, Finmap.mem_keys]

theorem keys_erase_subset (m : Finmap fun _ : κ => α) (key : κ) : (m.erase key).keys ⊆ m.keys := by
  rw [Finmap.keys_erase]
  exact Finset.erase_subset _ _

/-- Erasing a key that is not there. -/
theorem erase_of_notMem {m : Finmap fun _ : κ => α} {key : κ} (h : key ∉ m) :
    m.erase key = m := by
  apply Finmap.ext_lookup
  intro k
  by_cases hk : k = key
  · rw [hk, Finmap.lookup_erase, Finmap.lookup_eq_none.mpr h]
  · rw [Finmap.lookup_erase_ne hk]

/-- Erasing what has been inserted. -/
theorem erase_insert {m : Finmap fun _ : κ => α} {key : κ} (h : key ∉ m) (a : α) :
    (m.insert key a).erase key = m := by
  apply Finmap.ext_lookup
  intro k
  by_cases hk : k = key
  · rw [hk, Finmap.lookup_erase, Finmap.lookup_eq_none.mpr h]
  · rw [Finmap.lookup_erase_ne hk, Finmap.lookup_insert_of_ne _ hk]

/-- What is looked up after an insertion is what was inserted, or was there before. -/
theorem lookup_insert_cases {m : Finmap fun _ : κ => α} {key k : κ} {a b : α}
    (h : (m.insert key a).lookup k = some b) :
    k = key ∧ b = a ∨ k ≠ key ∧ m.lookup k = some b := by
  by_cases hk : k = key
  · subst hk
    rw [Finmap.lookup_insert] at h
    exact Or.inl ⟨rfl, (Option.some.inj h).symm⟩
  · rw [Finmap.lookup_insert_of_ne _ hk] at h
    exact Or.inr ⟨hk, h⟩

/-- What is left after an erasure was there, under another key. -/
theorem lookup_of_erase {m : Finmap fun _ : κ => α} {key k : κ} {a : α}
    (h : (m.erase key).lookup k = some a) : k ≠ key ∧ m.lookup k = some a := by
  by_cases hk : k = key
  · subst hk
    rw [Finmap.lookup_erase] at h
    cases h
  · rw [Finmap.lookup_erase_ne hk] at h
    exact ⟨hk, h⟩

/-! ## Iteration -/

/-- The order in which an unordered map gives its keys: each once, and it may be any. -/
structure Iteration (κ α : Type*) where
  keys : (Finmap fun _ : κ => α) → List κ
  nodup : ∀ m, (keys m).Nodup
  mem_keys : ∀ m key, key ∈ keys m ↔ key ∈ m

namespace Iteration
variable {m : Finmap fun _ : κ => α}

/-- The keys of a map by their ranks. -/
def sortedKeys (rank : κ → Nat) (hrank : Function.Injective rank)
    (m : Finmap fun _ : κ => α) : List κ :=
  let r : κ → κ → Prop := fun a b => rank a ≤ rank b
  have : IsTrans κ r := ⟨fun _ _ _ => Nat.le_trans⟩
  have : Std.Antisymm r := ⟨fun _ _ h h' => hrank (Nat.le_antisymm h h')⟩
  have : Std.Total r := ⟨fun _ _ => Nat.le_total _ _⟩
  Quot.liftOn m.keys.val (List.insertionSort r) fun l l' h =>
    (((List.perm_insertionSort r l).trans h).trans
      (List.perm_insertionSort r l').symm).eq_of_pairwise' (r := r)
        (List.pairwise_insertionSort r l) (List.pairwise_insertionSort r l')

omit [DecidableEq κ] in
theorem coe_sortedKeys (rank : κ → Nat) (hrank : Function.Injective rank) :
    (sortedKeys rank hrank m : Multiset κ) = m.keys.val := by
  unfold sortedKeys
  induction m.keys.val using Quot.ind with
  | mk l => exact Quot.sound (List.perm_insertionSort _ l)

def byRank (rank : κ → Nat) (hrank : Function.Injective rank) : Iteration κ α where
  keys := sortedKeys rank hrank
  nodup m := by
    rw [← Multiset.coe_nodup, coe_sortedKeys]
    exact m.keys.nodup
  mem_keys m key := by
    rw [← Multiset.mem_coe, coe_sortedKeys, Finset.mem_val, Finmap.mem_keys]

omit [DecidableEq κ] in
theorem keys_empty (i : Iteration κ α) : i.keys ∅ = [] := by
  apply List.eq_nil_iff_forall_not_mem.mpr
  intro key hkey
  exact Finmap.notMem_empty ((i.mem_keys ∅ key).mp hkey)

end Iteration
end FiniteMap

import FileHopZ.Library.Map
import Mathlib.Data.Finmap
import Mathlib.Data.Finset.Card
import Mathlib.Data.List.Range

/-! # Releasing numbered items in order

Items arrive under keys, in any order, and are held until the keys before them
have arrived.  `release succ fuel next held` takes the items under `next`,
`succ next`, ... out of `held` for as long as there is one.

Each release takes an item out, so as many rounds as there are items are enough
to come to a key without one (`lookup_release_next`).
-/
namespace Reorder
variable {κ α : Type*} [DecidableEq κ] (succ : κ → κ)

/-- The items held under their keys. -/
abbrev Held (κ α : Type*) := Finmap fun _ : κ => α

/-- The items released, the key that is due next, and what is still held. -/
def release : Nat → κ → Held κ α → List α × κ × Held κ α
  | 0, next, held => ([], next, held)
  | n + 1, next, held =>
      match held.lookup next with
      | none => ([], next, held)
      | some a =>
          let r := release n (succ next) (held.erase next)
          (a :: r.1, r.2)

theorem card_keys_erase {held : Held κ α} {key : κ} {a : α} (h : held.lookup key = some a) :
    (held.erase key).keys.card + 1 = held.keys.card := by
  rw [Finmap.keys_erase]
  exact Finset.card_erase_add_one (Finmap.mem_keys.mpr (Finmap.mem_of_lookup_eq_some h))

variable {succ}

theorem release_none {n : Nat} {next : κ} {held : Held κ α} (h : held.lookup next = none) :
    release succ n next held = ([], next, held) := by
  cases n with
  | zero => rfl
  | succ n => rw [release, h]

theorem release_some {n : Nat} {next : κ} {held : Held κ α} {a : α}
    (h : held.lookup next = some a) :
    release succ (n + 1) next held =
      (a :: (release succ n (succ next) (held.erase next)).1,
        (release succ n (succ next) (held.erase next)).2) := by
  rw [release, h]

/-- The due key has moved past the items released. -/
theorem release_next (n : Nat) (next : κ) (held : Held κ α) :
    (release succ n next held).2.1 = succ^[(release succ n next held).1.length] next := by
  induction n generalizing next held with
  | zero => rfl
  | succ n ih =>
      cases hnext : held.lookup next with
      | none => rw [release_none hnext]; rfl
      | some a => rw [release_some hnext]; exact ih (succ next) _

/-- **What is released was held under the keys that were due**, in their order. -/
theorem lookup_of_released {n : Nat} {next : κ} {held : Held κ α} {i : Nat} {a : α}
    (h : (release succ n next held).1[i]? = some a) : held.lookup (succ^[i] next) = some a := by
  induction n generalizing next held i with
  | zero => cases h
  | succ n ih =>
      cases hnext : held.lookup next with
      | none =>
          rw [release_none hnext] at h
          cases h
      | some b =>
          rw [release_some hnext] at h
          cases i with
          | zero => exact hnext.trans h
          | succ i => exact (FiniteMap.lookup_of_erase (ih h)).2

/-- What is still held was held. -/
theorem lookup_of_kept {n : Nat} {next : κ} {held : Held κ α} {k : κ} {a : α}
    (h : (release succ n next held).2.2.lookup k = some a) : held.lookup k = some a := by
  induction n generalizing next held with
  | zero => exact h
  | succ n ih =>
      cases hnext : held.lookup next with
      | none => rwa [release_none hnext] at h
      | some b =>
          rw [release_some hnext] at h
          exact (FiniteMap.lookup_of_erase (ih h)).2

/-- What is still held is not among what was released. -/
theorem ne_of_kept {n : Nat} {next : κ} {held : Held κ α} {k : κ} {a : α}
    (h : (release succ n next held).2.2.lookup k = some a) {i : Nat}
    (hi : i < (release succ n next held).1.length) : k ≠ succ^[i] next := by
  induction n generalizing next held i with
  | zero => exact absurd hi (Nat.not_lt_zero i)
  | succ n ih =>
      cases hnext : held.lookup next with
      | none =>
          rw [release_none hnext] at hi
          exact absurd hi (Nat.not_lt_zero i)
      | some b =>
          rw [release_some hnext] at h hi
          cases i with
          | zero => exact (FiniteMap.lookup_of_erase (lookup_of_kept h)).1
          | succ i => exact ih h (Nat.lt_of_succ_lt_succ hi)

/-- **Nothing is lost**: what was held is still held or released. -/
theorem kept_or_released {n : Nat} {next : κ} {held : Held κ α} {k : κ} {a : α}
    (h : held.lookup k = some a) :
    (release succ n next held).2.2.lookup k = some a ∨
      ∃ i, succ^[i] next = k ∧ (release succ n next held).1[i]? = some a := by
  induction n generalizing next held with
  | zero => exact Or.inl h
  | succ n ih =>
      cases hnext : held.lookup next with
      | none => exact Or.inl (by rwa [release_none hnext])
      | some b =>
          rw [release_some hnext]
          by_cases hk : k = next
          · subst hk
            exact Or.inr ⟨0, rfl, hnext.symm.trans h⟩
          · have h' : (held.erase next).lookup k = some a := by rwa [Finmap.lookup_erase_ne hk]
            refine (ih h').imp id ?_
            rintro ⟨i, hkey, hget⟩
            exact ⟨i + 1, hkey, hget⟩

/-- Every item is in one place. -/
theorem card_release (n : Nat) (next : κ) (held : Held κ α) :
    (release succ n next held).2.2.keys.card + (release succ n next held).1.length =
      held.keys.card := by
  induction n generalizing next held with
  | zero => rfl
  | succ n ih =>
      cases hnext : held.lookup next with
      | none => rw [release_none hnext]; rfl
      | some a =>
          have hrest := ih (succ next) (held.erase next)
          have herase := card_keys_erase hnext
          rw [release_some hnext, ← herase, ← hrest, List.length_cons, Nat.add_assoc]

/-- **As many rounds as there are items are enough**: nothing is held under the
key that is due next. -/
theorem lookup_release_next {n : Nat} {next : κ} {held : Held κ α} (hn : held.keys.card ≤ n) :
    (release succ n next held).2.2.lookup (release succ n next held).2.1 = none := by
  induction n generalizing next held with
  | zero =>
      have hempty : held.keys = ∅ := Finset.card_eq_zero.mp (Nat.le_zero.mp hn)
      refine Finmap.lookup_eq_none.mpr fun h => ?_
      rw [← Finmap.mem_keys] at h
      simp [release, hempty] at h
  | succ n ih =>
      cases hnext : held.lookup next with
      | none => rw [release_none hnext]; exact hnext
      | some a =>
          have herase := card_keys_erase hnext
          rw [release_some hnext]
          exact ih (by omega)

/-! ## Consecutive numbers -/

/-- **Prefix rule.**  From a list numbered in increasing order, entries that carry
the consecutive numbers from `k` on form the beginning of the list, if no number
lies below `k`. -/
theorem prefix_of_consecutive {β : Type*} {number : β → Nat} :
    ∀ {taken all : List β} {k : Nat},
      taken.map number = List.range' k taken.length → (∀ b ∈ taken, b ∈ all) →
      (all.map number).Pairwise (· < ·) → (∀ b ∈ all, k ≤ number b) → taken <+: all
  | [], _, _, _, _, _, _ => List.nil_prefix
  | a :: taken, [], _, _, hmem, _, _ => absurd (hmem a List.mem_cons_self) List.not_mem_nil
  | a :: taken, b :: all, k, hnum, hmem, hsorted, hlow => by
      simp only [List.map_cons, List.length_cons, List.range'_succ, List.cons.injEq] at hnum
      rw [List.map_cons, List.pairwise_cons] at hsorted
      have hab : a = b := by
        rcases List.mem_cons.mp (hmem a List.mem_cons_self) with h | h
        · exact h
        · have := hsorted.1 _ (List.mem_map_of_mem h)
          have := hlow b List.mem_cons_self
          omega
      subst hab
      rw [List.prefix_cons_inj]
      refine prefix_of_consecutive hnum.2 ?_ hsorted.2 ?_
      · intro c hc
        rcases List.mem_cons.mp (hmem c (List.mem_cons_of_mem _ hc)) with h | h
        · have hc' : number c ∈ List.range' (k + 1) taken.length :=
            hnum.2 ▸ List.mem_map_of_mem hc
          have := (List.mem_range'_1.mp hc').1
          rw [h] at this
          omega
        · exact h
      · intro c hc
        have := hsorted.1 _ (List.mem_map_of_mem hc)
        omega

end Reorder

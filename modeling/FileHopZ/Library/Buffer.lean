import Mathlib.Data.List.Basic

/-! # Copying into a fixed buffer

`overlay dst src` is `dst` with its first bytes replaced by `src`: what is left
in a buffer of fixed length after a copy to its start.  The bytes of `dst` past
the copy stay as they were, and what does not fit is cut off.
-/
namespace Buffer
variable {α : Type*}

/-- `dst` after a copy of `src` to its start. -/
def overlay (dst src : List α) : List α := (src ++ dst.drop src.length).take dst.length

@[simp] theorem length_overlay (dst src : List α) : (overlay dst src).length = dst.length := by
  simp only [overlay, List.length_take, List.length_append, List.length_drop]
  omega

/-- What was copied can be read back. -/
theorem take_overlay {dst src : List α} (h : src.length ≤ dst.length) :
    (overlay dst src).take src.length = src := by
  rw [overlay, List.take_take, Nat.min_eq_left h, List.take_left]

/-- So can any beginning of it. -/
theorem take_overlay_of_le {dst src : List α} {n : Nat} (hn : n ≤ src.length)
    (h : src.length ≤ dst.length) : (overlay dst src).take n = src.take n := by
  rw [overlay, List.take_take, Nat.min_eq_left (Nat.le_trans hn h), List.take_append_of_le_length hn]

/-- What the copy reaches is the copy. -/
theorem take_overlay_copy {dst src : List α} {n : Nat} (hn : n ≤ src.length)
    (hd : n ≤ dst.length) : (overlay dst src).take n = src.take n := by
  rw [overlay, List.take_take, Nat.min_eq_left hd, List.take_append_of_le_length hn]

/-- A copy that fits, and what it leaves of the buffer. -/
theorem overlay_of_length_le {dst src : List α} (h : src.length ≤ dst.length) :
    overlay dst src = src ++ dst.drop src.length := by
  refine List.take_of_length_le (Nat.le_of_eq ?_)
  rw [List.length_append, List.length_drop, Nat.add_sub_cancel' h]

/-- A copy to the start, then a longer reading, starts with the copy. -/
theorem take_drop_overlay {dst src : List α} {m n : Nat} (hmn : m + n ≤ src.length)
    (h : src.length ≤ dst.length) :
    ((overlay dst src).drop m).take n = (src.drop m).take n := by
  have hcut : ∀ l : List α, (l.drop m).take n = (l.take (m + n)).drop m := by
    intro l
    rw [List.drop_take, Nat.add_sub_cancel_left]
  rw [hcut, hcut, take_overlay_of_le hmn h]

end Buffer

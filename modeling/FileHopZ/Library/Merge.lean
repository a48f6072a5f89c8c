import Mathlib.Logic.Function.Basic
import Mathlib.Data.List.Basic

/-! # Merges of sequences

A merge of a family of sequences takes, again and again, the first element that is left of
one of them, until nothing is left.  What holds whatever element is taken next holds after
every merge.
-/
namespace Sequences
variable {ι α σ : Type*} [DecidableEq ι]

/-- `l` is a merge of what is `left`. -/
inductive Merge : (ι → List α) → List α → Prop
  | done {left : ι → List α} (h : ∀ i, left i = []) : Merge left []
  | next {left : ι → List α} {i : ι} {x : α} {rest l : List α} (h : left i = x :: rest)
      (hl : Merge (Function.update left i rest) l) : Merge left (x :: l)

/-- **The rule for merges.**  `step` may fail; it does not if an invariant of what is left
says so. -/
theorem Merge.run {step : σ → α → Option σ} {I : (ι → List α) → σ → Prop}
    (hstep : ∀ left s i x rest, left i = x :: rest → I left s →
      ∃ s', step s x = some s' ∧ I (Function.update left i rest) s')
    {left : ι → List α} {l : List α} (h : Merge left l) {s : σ} (hs : I left s) :
    ∃ s', l.foldlM step s = some s' ∧ ∃ left', (∀ i, left' i = []) ∧ I left' s' := by
  induction h generalizing s with
  | done hleft => exact ⟨s, rfl, _, hleft, hs⟩
  | next hleft _ ih =>
      obtain ⟨s', hs', hI⟩ := hstep _ _ _ _ _ hleft hs
      obtain ⟨s'', hs'', hend⟩ := ih hI
      refine ⟨s'', ?_, hend⟩
      rw [List.foldlM_cons, hs']
      exact hs''

end Sequences

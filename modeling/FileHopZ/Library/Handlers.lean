import Mathlib.Data.Multiset.Filter
import Mathlib.Data.Finset.Erase
import Mathlib.Data.Finset.Insert
import Mathlib.Data.Multiset.AddSub
import Mathlib.Algebra.Order.Group.Multiset

/-! # Handlers that run once

A handler is registered, waits for a result, is dispatched and then runs.  Handlers are named
by how many were registered before.  A handler may have a cancellation slot; whoever triggers
it dispatches the handler too.  If that happens to waiting handlers only, a handler is in one
place at a time, and runs once.
-/
namespace Handlers

/-- Where the handlers are that have not run, and which slots are assigned. -/
structure State where
  registered : ℕ
  waiting : Multiset ℕ
  dispatched : Multiset ℕ
  slots : Finset ℕ

/-- What happens to handlers, with those that run. -/
inductive Step : State → List ℕ → State → Prop
  /-- A handler is registered that has to wait. -/
  | wait (s : State) {slots : Finset ℕ} (h : slots ⊆ insert s.registered s.slots) :
      Step s [] { s with
        registered := s.registered + 1, waiting := s.registered ::ₘ s.waiting, slots := slots }
  /-- A handler is registered whose result is there. -/
  | complete (s : State) :
      Step s [] { s with
        registered := s.registered + 1, dispatched := s.registered ::ₘ s.dispatched }
  /-- Waiting handlers get their results. -/
  | release (s : State) {l : Multiset ℕ} (h : l ≤ s.waiting) :
      Step s [] { s with waiting := s.waiting - l, dispatched := s.dispatched + l }
  /-- A waiting handler is cancelled. -/
  | cancel (s : State) {w : ℕ} (h : w ∈ s.waiting) :
      Step s [] { s with
        waiting := s.waiting.filter (· ≠ w), dispatched := w ::ₘ s.dispatched }
  /-- A dispatched handler runs. -/
  | run (s : State) {w : ℕ} (h : w ∈ s.dispatched) :
      Step s [w] { s with dispatched := s.dispatched.erase w, slots := s.slots.erase w }

/-- Each handler has run, or is dispatched, or waits, and only one of these; those with a slot
have not run. -/
structure Once (ran : List ℕ) (s : State) : Prop where
  places : ∀ w, ran.count w + s.dispatched.count w + s.waiting.count w =
    if w < s.registered then 1 else 0
  slots : ∀ w ∈ s.slots, w ∈ s.waiting ∨ w ∈ s.dispatched

theorem once_start : Once [] ⟨0, 0, 0, ∅⟩ where
  places w := by simp
  slots w hw := absurd hw (Finset.notMem_empty w)

section
variable {ran : List ℕ} {s : State}

theorem Once.nodup (h : Once ran s) : ran.Nodup := by
  apply List.nodup_iff_count_le_one.mpr
  intro w
  have := h.places w
  split at this <;> omega

/-- A waiting handler is nowhere else. -/
theorem Once.places_of_waiting (h : Once ran s) {w : ℕ} (hw : w ∈ s.waiting) :
    ran.count w = 0 ∧ s.dispatched.count w = 0 ∧ s.waiting.count w = 1 ∧ w < s.registered := by
  have hplaces := h.places w
  have hpos := Multiset.count_pos.mpr hw
  split at hplaces
  · omega
  · omega

/-- The next name is a new one. -/
theorem Once.register (h : Once ran s) (w : ℕ) :
    ran.count w + s.dispatched.count w + s.waiting.count w + (if w = s.registered then 1 else 0) =
      if w < s.registered + 1 then 1 else 0 := by
  rw [h.places w]
  split_ifs <;> omega

/-- **A step keeps each handler in one place.** -/
theorem Once.step {s' : State} {out : List ℕ} (h : Once ran s) (hs : Step s out s') :
    Once (ran ++ out) s' := by
  cases hs with
  | wait hsub =>
      rw [List.append_nil]
      refine ⟨fun w => ?_, fun w hw => ?_⟩
      · rw [Multiset.count_cons, ← Nat.add_assoc]
        exact h.register w
      · rcases Finset.mem_insert.mp (hsub hw) with rfl | hw
        · exact Or.inl (Multiset.mem_cons_self _ _)
        · exact (h.slots w hw).imp (Multiset.mem_cons_of_mem ·) id
  | complete =>
      rw [List.append_nil]
      refine ⟨fun w => ?_, fun w hw => (h.slots w hw).imp id (Multiset.mem_cons_of_mem ·)⟩
      have hnew := h.register w
      dsimp only
      rw [Multiset.count_cons]
      omega
  | @release l hle =>
      rw [List.append_nil]
      refine ⟨fun w => ?_, fun w hw => ?_⟩
      · have hplaces := h.places w
        have hcount := Multiset.count_le_of_le w hle
        dsimp only
        rw [Multiset.count_add, Multiset.count_sub]
        omega
      · rcases h.slots w hw with hwait | hdispatched
        · by_cases hl : w ∈ l
          · exact Or.inr (Multiset.mem_add.mpr (Or.inr hl))
          · refine Or.inl (Multiset.count_pos.mp ?_)
            rw [Multiset.count_sub, Multiset.count_eq_zero_of_notMem hl]
            exact Multiset.count_pos.mpr hwait
        · exact Or.inr (Multiset.mem_add.mpr (Or.inl hdispatched))
  | @cancel v hv =>
      rw [List.append_nil]
      have hplace := h.places_of_waiting hv
      refine ⟨fun w => ?_, fun w hw => ?_⟩
      · have hplaces := h.places w
        dsimp only
        rw [Multiset.count_cons, Multiset.count_filter]
        by_cases hwv : w = v
        · subst hwv
          rw [if_neg (not_not.mpr rfl), if_pos rfl]
          omega
        · rw [if_pos hwv, if_neg hwv]
          omega
      · by_cases hwv : w = v
        · rw [hwv]
          exact Or.inr (Multiset.mem_cons_self _ _)
        · exact (h.slots w hw).imp (fun hwait => Multiset.mem_filter.mpr ⟨hwait, hwv⟩)
            (Multiset.mem_cons_of_mem ·)
  | @run v hv =>
      refine ⟨fun w => ?_, fun w hw => ?_⟩
      · have hplaces := h.places w
        have hpos := Multiset.count_pos.mpr hv
        dsimp only
        rw [List.count_append]
        by_cases hwv : w = v
        · subst hwv
          rw [Multiset.count_erase_self, List.count_singleton_self]
          omega
        · rw [Multiset.count_erase_of_ne hwv, List.count_singleton,
            if_neg (by simpa using Ne.symm hwv)]
          omega
      · obtain ⟨hwv, hw⟩ := Finset.mem_erase.mp hw
        exact (h.slots w hw).imp id fun hd => (Multiset.mem_erase_of_ne hwv).mpr hd

end

/-! ## Handlers kept in lists

The waiting handlers stand in a list, those dispatched with a result in another, and those
dispatched because they were cancelled in a third. -/

/-- The handlers of three lists. -/
def ofLists (registered : ℕ) (waiters completions aborts : List ℕ) (slots : Finset ℕ) : State :=
  ⟨registered, waiters, (completions ++ aborts : List ℕ), slots⟩

section Lists
variable {n : ℕ} {waiters completions aborts : List ℕ} {slots : Finset ℕ}

/-- Lists that are rearranged have the same handlers. -/
theorem Step.of_perm {s : State} {out waiting dispatched : List ℕ}
    (h : Step s out ⟨n, waiting, dispatched, slots⟩) (hw : waiting.Perm waiters)
    (hd : dispatched.Perm (completions ++ aborts)) :
    Step s out (ofLists n waiters completions aborts slots) := by
  rw [ofLists, ← Multiset.coe_eq_coe.mpr hw, ← Multiset.coe_eq_coe.mpr hd]
  exact h

theorem step_wait {slots' : Finset ℕ} (h : slots' ⊆ insert n slots) :
    Step (ofLists n waiters completions aborts slots) []
      (ofLists (n + 1) (waiters ++ [n]) completions aborts slots') :=
  (Step.wait (ofLists n waiters completions aborts slots) h).of_perm
    (List.perm_append_singleton _ _).symm (List.Perm.refl _)

theorem step_complete :
    Step (ofLists n waiters completions aborts slots) []
      (ofLists (n + 1) waiters (completions ++ [n]) aborts slots) := by
  refine (Step.complete (ofLists n waiters completions aborts slots)).of_perm (List.Perm.refl _) ?_
  rw [List.append_assoc]
  exact List.perm_middle.symm

/-- The handlers at the head of the waiting ones get their results. -/
theorem step_release (l : List ℕ) :
    Step (ofLists n (l ++ waiters) completions aborts slots) []
      (ofLists n waiters (completions ++ l) aborts slots) := by
  have hle : (l : Multiset ℕ) ≤ (ofLists n (l ++ waiters) completions aborts slots).waiting :=
    Multiset.coe_le.mpr (List.sublist_append_left l waiters).subperm
  have hstep := Step.release _ hle
  have hrest : ((l ++ waiters : List ℕ) : Multiset ℕ) - l = waiters := by
    rw [← Multiset.coe_add, add_tsub_cancel_left]
  have hmoved : ((completions ++ aborts : List ℕ) : Multiset ℕ) + l =
      (completions ++ l ++ aborts : List ℕ) := by
    rw [Multiset.coe_add, Multiset.coe_eq_coe, List.append_assoc, List.append_assoc]
    exact List.perm_append_comm.append_left _
  simpa only [ofLists, hrest, hmoved] using hstep

theorem step_cancel {w : ℕ} (h : w ∈ waiters) :
    Step (ofLists n waiters completions aborts slots) []
      (ofLists n (waiters.filter (· ≠ w)) completions (aborts ++ [w]) slots) := by
  refine (Step.cancel (ofLists n waiters completions aborts slots) h).of_perm (List.Perm.refl _) ?_
  rw [← List.append_assoc]
  exact (List.perm_append_singleton _ _).symm

theorem step_run {w : ℕ} (h : w ∈ completions) :
    Step (ofLists n waiters completions aborts slots) [w]
      (ofLists n waiters (completions.erase w) aborts (slots.erase w)) := by
  refine (Step.run (ofLists n waiters completions aborts slots)
    (List.mem_append_left _ h)).of_perm (List.Perm.refl _) ?_
  rw [List.erase_append_left _ h]

theorem step_runAborted {w : ℕ} (h : w ∈ aborts) :
    Step (ofLists n waiters completions aborts slots) [w]
      (ofLists n waiters completions (aborts.erase w) (slots.erase w)) := by
  refine (Step.run (ofLists n waiters completions aborts slots)
    (List.mem_append_right _ h)).of_perm (List.Perm.refl _) ?_
  have hcomm : (completions ++ aborts).Perm (aborts ++ completions) := List.perm_append_comm
  refine (hcomm.erase w).trans ?_
  rw [List.erase_append_left _ h]
  exact List.perm_append_comm

end Lists

end Handlers

import Mathlib.Data.List.Basic
import Mathlib.Data.List.Perm.Basic

/-! # `Async_queue`

A queue whose `pop` suspends the caller until a value is there.  `ι` names the
callers.  A `push` that finds a waiter, and a `pop` that finds a value, dispatch
the caller's completion; a dispatched completion runs then or later, so it is
kept in `completions` until `resume` runs it.
-/
namespace FileHopZ

/-- The values of `queue_`, the callers in `waiters_` (oldest first), and the
completions that have been dispatched but have not run. -/
structure AsyncQueue (ι α : Type) where
  queue : List α := []
  waiters : List ι := []
  completions : List (ι × α) := []

namespace AsyncQueue
variable {ι α : Type}

/-- `Async_queue::push`. -/
def push (q : AsyncQueue ι α) (value : α) : AsyncQueue ι α :=
  match q.waiters with
  | waiter :: rest =>
      { q with waiters := rest, completions := q.completions ++ [(waiter, value)] }
  | [] => { q with queue := q.queue ++ [value] }

/-- `Async_queue::pop`, called by `waiter`. -/
def pop (q : AsyncQueue ι α) (waiter : ι) : AsyncQueue ι α :=
  match q.queue with
  | value :: rest =>
      { q with queue := rest, completions := q.completions ++ [(waiter, value)] }
  | [] => { q with waiters := q.waiters ++ [waiter] }

/-- The completion dispatched for `waiter` runs and hands it its value. -/
def resume [DecidableEq ι] (q : AsyncQueue ι α) (waiter : ι) : Option (α × AsyncQueue ι α) :=
  (q.completions.find? (·.1 = waiter)).map fun c =>
    (c.2, { q with completions := q.completions.eraseP (·.1 = waiter) })

/-- The cancellation handler of `waiter`'s slot takes it out of `waiters_`. -/
def cancel [DecidableEq ι] (q : AsyncQueue ι α) (waiter : ι) : AsyncQueue ι α :=
  { q with waiters := q.waiters.filter (· ≠ waiter) }

/-- The values that have been pushed and not yet handed to a caller: those in
dispatched completions, then those still queued. -/
def contents (q : AsyncQueue ι α) : List α := q.completions.map Prod.snd ++ q.queue

@[simp] theorem contents_pop (q : AsyncQueue ι α) (w : ι) : (q.pop w).contents = q.contents := by
  unfold pop
  split <;> simp_all [contents]

@[simp] theorem contents_cancel [DecidableEq ι] (q : AsyncQueue ι α) (w : ι) :
    (q.cancel w).contents = q.contents := rfl

/-- The queue with another value for each of its values. -/
def map {β : Type} (f : α → β) (q : AsyncQueue ι α) : AsyncQueue ι β where
  queue := q.queue.map f
  waiters := q.waiters
  completions := q.completions.map fun c => (c.1, f c.2)

theorem map_push {β : Type} (f : α → β) (q : AsyncQueue ι α) (v : α) :
    (q.push v).map f = (q.map f).push (f v) := by
  unfold push map
  dsimp only
  split
  · rw [List.map_append]
    rfl
  · rw [List.map_append]
    rfl

theorem push_inj {q : AsyncQueue ι α} {v w : α} (h : q.push v = q.push w) : v = w := by
  unfold push at h
  split at h
  · have hlast := congrArg completions h
    simpa using hlast
  · have hlast := congrArg queue h
    simpa using hlast

/-- A pushed value joins the contents. -/
theorem contents_push (q : AsyncQueue ι α) (v : α) :
    (q.push v).contents.Perm (v :: q.contents) := by
  unfold push
  split
  · simp only [contents, List.map_append, List.map_cons, List.map_nil, List.append_assoc,
      List.cons_append, List.nil_append]
    exact List.perm_middle
  · simp only [contents, ← List.append_assoc]
    exact List.perm_append_singleton _ _

@[simp] theorem mem_contents_push (q : AsyncQueue ι α) (v x : α) :
    x ∈ (q.push v).contents ↔ x = v ∨ x ∈ q.contents := by
  rw [(contents_push q v).mem_iff, List.mem_cons]

theorem push_ne (q : AsyncQueue ι α) (v : α) : q.push v ≠ q := by
  intro h
  have hlength := (contents_push q v).length_eq
  rw [h, List.length_cons] at hlength
  omega

/-- A value handed to a caller leaves the contents, and the others keep their
order. -/
theorem contents_resume [DecidableEq ι] {q q' : AsyncQueue ι α} {w : ι} {v : α}
    (h : q.resume w = some (v, q')) :
    ∃ l₁ l₂, q.contents = l₁ ++ v :: l₂ ∧ q'.contents = l₁ ++ l₂ := by
  simp only [resume, Option.map_eq_some_iff, Prod.mk.injEq] at h
  obtain ⟨c, hc, rfl, rfl⟩ := h
  obtain ⟨a, l₁, l₂, hno, ha, hsplit, herase⟩ :=
    List.exists_of_eraseP (List.mem_of_find?_eq_some hc) (List.find?_some hc)
  have hac : a = c := by
    rw [hsplit, List.find?_append, List.find?_eq_none.mpr (fun x hx => by simpa using hno x hx),
      Option.none_or] at hc
    simpa [of_decide_eq_true ha] using hc
  subst hac
  refine ⟨l₁.map Prod.snd, l₂.map Prod.snd ++ q.queue, ?_, ?_⟩
  · simp [contents, hsplit]
  · simp [contents, herase]

theorem contents_resume_perm [DecidableEq ι] {q q' : AsyncQueue ι α} {w : ι} {v : α}
    (h : q.resume w = some (v, q')) : q.contents.Perm (v :: q'.contents) := by
  obtain ⟨l₁, l₂, hq, hq'⟩ := contents_resume h
  rw [hq, hq']
  exact List.perm_middle

theorem mem_contents_resume [DecidableEq ι] {q q' : AsyncQueue ι α} {w : ι} {v : α}
    (h : q.resume w = some (v, q')) (x : α) : x ∈ q.contents ↔ x = v ∨ x ∈ q'.contents := by
  rw [(contents_resume_perm h).mem_iff, List.mem_cons]

/-! ## One caller at a time

While at most one caller is suspended in `pop`, values come out in the order in
which they went in. -/

/-- The callers that have not got their value yet. -/
def pending (q : AsyncQueue ι α) : List ι := q.completions.map Prod.fst ++ q.waiters

/-- At most one caller is suspended, and it waits only if there is no value. -/
structure Orderly (q : AsyncQueue ι α) : Prop where
  single : q.pending.length ≤ 1
  waits : q.waiters = [] ∨ q.queue = []

theorem orderly_empty : Orderly ({} : AsyncQueue ι α) := ⟨Nat.zero_le _, Or.inl rfl⟩

theorem Orderly.completions_of_waiters {q : AsyncQueue ι α} (h : q.Orderly) {w : ι} {rest : List ι}
    (hw : q.waiters = w :: rest) : q.completions = [] ∧ rest = [] := by
  have hsingle := h.single
  simp only [pending, hw, List.length_append, List.length_map, List.length_cons] at hsingle
  exact ⟨List.length_eq_zero_iff.mp (by omega), List.length_eq_zero_iff.mp (by omega)⟩

/-- `push` appends. -/
theorem Orderly.push {q : AsyncQueue ι α} (h : q.Orderly) (v : α) : (q.push v).Orderly ∧
    (q.push v).pending = q.pending ∧ (q.push v).contents = q.contents ++ [v] := by
  unfold AsyncQueue.push
  split
  · rename_i w rest hw
    obtain ⟨hnone, rfl⟩ := h.completions_of_waiters hw
    have hqueue : q.queue = [] := h.waits.resolve_left (by simp [hw])
    refine ⟨⟨by simp [pending, hnone], Or.inl rfl⟩, ?_, ?_⟩
    · simp [pending, hnone, hw]
    · simp [contents, hnone, hqueue]
  · rename_i hw
    exact ⟨⟨h.single, Or.inl hw⟩, rfl, (List.append_assoc _ _ _).symm⟩

/-- A caller that is alone gets the next value. -/
theorem orderly_pop {q : AsyncQueue ι α} (hnone : q.pending = []) (w : ι) :
    (q.pop w).Orderly ∧ (q.pop w).pending = [w] := by
  have hempty := List.append_eq_nil_iff.mp hnone
  have hcompletions : q.completions = [] := List.map_eq_nil_iff.mp hempty.1
  unfold AsyncQueue.pop
  split
  · refine ⟨⟨by simp [pending, hcompletions, hempty.2], Or.inl hempty.2⟩, ?_⟩
    simp [pending, hcompletions, hempty.2]
  · rename_i hqueue
    refine ⟨⟨by simp [pending, hcompletions, hempty.2], Or.inr hqueue⟩, ?_⟩
    simp [pending, hcompletions, hempty.2]

/-- The value handed over is the oldest. -/
theorem Orderly.resume [DecidableEq ι] {q q' : AsyncQueue ι α} (h : q.Orderly) {w : ι} {v : α}
    (hw : q.resume w = some (v, q')) :
    q'.Orderly ∧ q.pending = [w] ∧ q'.pending = [] ∧ q.contents = v :: q'.contents := by
  simp only [AsyncQueue.resume, Option.map_eq_some_iff, Prod.mk.injEq] at hw
  obtain ⟨c, hc, rfl, rfl⟩ := hw
  have hmem := List.mem_of_find?_eq_some hc
  have hkey : c.1 = w := by simpa using List.find?_some hc
  have hsingle := h.single
  simp only [pending, List.length_append, List.length_map] at hsingle
  have hone : q.completions = [c] ∧ q.waiters = [] := by
    cases hq : q.completions with
    | nil => simp [hq] at hmem
    | cons a rest =>
        rw [hq, List.length_cons] at hsingle
        obtain rfl : rest = [] := List.length_eq_zero_iff.mp (by omega)
        rw [hq, List.mem_singleton] at hmem
        exact ⟨by rw [hmem], List.length_eq_zero_iff.mp (by omega)⟩
  have herase : q.completions.eraseP (·.1 = w) = [] := by
    simp [hone.1, hkey]
  refine ⟨⟨?_, Or.inl hone.2⟩, ?_, ?_, ?_⟩
  · simp [pending, herase, hone.2]
  · simp [pending, hone.1, hone.2, hkey]
  · simp [pending, herase, hone.2]
  · simp [contents, hone.1, hkey]

/-- A caller for which no completion has been dispatched can only be waiting. -/
theorem mem_waiters_of_resume [DecidableEq ι] {q : AsyncQueue ι α} {w : ι}
    (hnone : q.resume w = none) (hw : w ∈ q.pending) : w ∈ q.waiters := by
  refine (List.mem_append.mp hw).resolve_left fun hmem => ?_
  obtain ⟨c, hc, rfl⟩ := List.mem_map.mp hmem
  rw [AsyncQueue.resume, Option.map_eq_none_iff, List.find?_eq_none] at hnone
  exact hnone c hc (by simp)

theorem Orderly.cancel [DecidableEq ι] {q : AsyncQueue ι α} (h : q.Orderly) (w : ι) :
    (q.cancel w).Orderly ∧ ∀ x ∈ (q.cancel w).pending, x ∈ q.pending := by
  have hsub : (q.cancel w).waiters.length ≤ q.waiters.length := List.length_filter_le _ _
  refine ⟨⟨?_, ?_⟩, ?_⟩
  · have := h.single
    simp only [pending, List.length_append, List.length_map] at this ⊢
    simp only [AsyncQueue.cancel] at hsub ⊢
    omega
  · exact h.waits.imp (fun hw => by simp [AsyncQueue.cancel, hw]) id
  · intro x hx
    rcases List.mem_append.mp hx with hx | hx
    · exact List.mem_append_left _ hx
    · exact List.mem_append_right _ (List.mem_of_mem_filter hx)

end AsyncQueue
end FileHopZ

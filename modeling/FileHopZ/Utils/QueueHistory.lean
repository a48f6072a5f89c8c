import FileHopZ.Library.Run
import FileHopZ.Utils.AsyncQueue
import Mathlib.Data.List.Sort

/-! # The history of an `Async_queue`

Completions run as soon as they are dispatched, and a caller of `pop` is named by how many
came before it.  What has been delivered, in the order of these names, and what is queued is
then what has been pushed.
-/
namespace FileHopZ

/-! ## Lists numbered in increasing order -/

section Numbered
variable {α : Type*}

/-- An increasing list of numbers below `n` is the part of the range it has. -/
theorem eq_filter_range {l : List ℕ} {n : ℕ} (hsorted : l.Pairwise (· < ·))
    (hbelow : ∀ i ∈ l, i < n) : l = (List.range n).filter (· ∈ l) := by
  apply hsorted.eq_of_mem_iff (List.pairwise_lt_range.filter _)
  intro i
  rw [List.mem_filter, List.mem_range, decide_eq_true_iff]
  exact ⟨fun hi => ⟨hbelow i hi, hi⟩, fun hi => hi.2⟩

theorem lookup_eq_none_of_notMem {l : List (ℕ × α)} {i : ℕ} (h : i ∉ l.map Prod.fst) :
    l.lookup i = none := by
  apply List.lookup_eq_none_iff.mpr
  intro p hp
  have hne : i ≠ p.1 := fun hi => h (hi ▸ List.mem_map_of_mem hp)
  simpa using hne

theorem filterMap_lookup_keys {l : List (ℕ × α)} (hnodup : (l.map Prod.fst).Nodup) :
    (l.map Prod.fst).filterMap (List.lookup · l) = l.map Prod.snd := by
  induction l with
  | nil => rfl
  | cons p l ih =>
      rw [List.map_cons, List.nodup_cons] at hnodup
      have hrest : (l.map Prod.fst).filterMap (List.lookup · (p :: l)) =
          (l.map Prod.fst).filterMap (List.lookup · l) := by
        apply List.filterMap_congr
        intro i hi
        have hne : i ≠ p.1 := fun hip => hnodup.1 (hip ▸ hi)
        rw [List.lookup_cons, beq_false_of_ne hne]
      rw [List.map_cons, List.map_cons, List.filterMap_cons, List.lookup_cons_self, hrest,
        ih hnodup.2]

/-- Values with increasing numbers, read off in the order of the numbers. -/
theorem filterMap_lookup_range {l : List (ℕ × α)} {n : ℕ}
    (hsorted : (l.map Prod.fst).Pairwise (· < ·)) (hbelow : ∀ i ∈ l.map Prod.fst, i < n) :
    (List.range n).filterMap (List.lookup · l) = l.map Prod.snd := by
  have hnodup : (l.map Prod.fst).Nodup := hsorted.imp Nat.ne_of_lt
  rw [← filterMap_lookup_keys hnodup]
  conv_rhs => rw [eq_filter_range hsorted hbelow]
  rw [List.filterMap_filter]
  apply List.filterMap_congr
  intro i _
  by_cases hi : i ∈ l.map Prod.fst
  · rw [if_pos (decide_eq_true hi)]
  · rw [if_neg (by simpa using hi), lookup_eq_none_of_notMem hi]

end Numbered

/-! ## The machine -/

/-- What is done with a queue. -/
inductive QueueCall (α : Type)
  | push (value : α)
  | pop
  /-- The cancellation slot of a caller is triggered. -/
  | cancel (waiter : Nat)

/-- What a call shows. -/
inductive QueueEvent (α : Type)
  | pushed (value : α)
  | delivered (waiter : Nat) (value : α)
  | aborted (waiter : Nat)

/-- A queue, and how many times `pop` has been called. -/
structure ServedQueue (α : Type) where
  object : AsyncQueue Nat α := {}
  pops : Nat := 0

namespace ServedQueue
variable {α : Type}

/-- The completions of a queue run. -/
def runCompletions (q : AsyncQueue Nat α) : AsyncQueue Nat α × List (QueueEvent α) :=
  ({ q with completions := [] }, q.completions.map fun c => .delivered c.1 c.2)

/-- A call, and the completions it dispatches.  A caller that has been completed has no
cancellation slot left. -/
def step (s : ServedQueue α) : QueueCall α → Option (ServedQueue α × List (QueueEvent α))
  | .push value =>
      let r := runCompletions (s.object.push value)
      some ({ s with object := r.1 }, .pushed value :: r.2)
  | .pop =>
      let r := runCompletions (s.object.pop s.pops)
      some ({ object := r.1, pops := s.pops + 1 }, r.2)
  | .cancel waiter =>
      if waiter ∈ s.object.waiters then
        some ({ s with object := s.object.cancel waiter }, [.aborted waiter])
      else some (s, [])

/-- The values that have been pushed. -/
def pushedValues (tr : List (QueueEvent α)) : List α :=
  tr.filterMap fun
    | .pushed value => some value
    | _ => none

/-- The callers that got a value, with the value. -/
def deliveries (tr : List (QueueEvent α)) : List (Nat × α) :=
  tr.filterMap fun
    | .delivered waiter value => some (waiter, value)
    | _ => none

/-- The value a caller got. -/
def deliveredTo (tr : List (QueueEvent α)) (waiter : Nat) : Option α :=
  (deliveries tr).lookup waiter

/-- The callers that have been cancelled. -/
def cancelled (tr : List (QueueEvent α)) : List Nat :=
  tr.filterMap fun
    | .aborted waiter => some waiter
    | _ => none

theorem pushedValues_append (tr tr' : List (QueueEvent α)) :
    pushedValues (tr ++ tr') = pushedValues tr ++ pushedValues tr' := List.filterMap_append ..

theorem deliveries_append (tr tr' : List (QueueEvent α)) :
    deliveries (tr ++ tr') = deliveries tr ++ deliveries tr' := List.filterMap_append ..

theorem cancelled_append (tr tr' : List (QueueEvent α)) :
    cancelled (tr ++ tr') = cancelled tr ++ cancelled tr' := List.filterMap_append ..

/-! ## The invariant -/

/-- The callers that are served or still waiting come in the order of their names, and the
others have been cancelled. -/
structure InOrder (tr : List (QueueEvent α)) (s : ServedQueue α) : Prop where
  complete : s.object.completions = []
  waits : s.object.queue = [] ∨ s.object.waiters = []
  values : (deliveries tr).map Prod.snd ++ s.object.queue = pushedValues tr
  increasing : ((deliveries tr).map Prod.fst ++ s.object.waiters).Pairwise (· < ·)
  below : ∀ w ∈ (deliveries tr).map Prod.fst ++ s.object.waiters, w < s.pops
  everyone : ∀ w, w ∈ cancelled tr ↔
    w < s.pops ∧ w ∉ (deliveries tr).map Prod.fst ++ s.object.waiters

theorem inOrder_start : InOrder ([] : List (QueueEvent α)) {} where
  complete := rfl
  waits := Or.inl rfl
  values := rfl
  increasing := List.Pairwise.nil
  below _ hw := absurd hw List.not_mem_nil
  everyone w := ⟨fun hw => absurd hw List.not_mem_nil, fun hw => absurd hw.1 (Nat.not_lt_zero w)⟩

section Step
variable {tr : List (QueueEvent α)} {s : ServedQueue α}

/-- A value for the caller that has waited longest. -/
theorem InOrder.serve (h : InOrder tr s) {w : Nat} {rest : List Nat} (value : α)
    (hw : s.object.waiters = w :: rest) :
    InOrder (tr ++ [.pushed value, .delivered w value])
      { s with object := { s.object with waiters := rest } } := by
  have hempty : s.object.queue = [] := h.waits.resolve_right (by simp [hw])
  have hdeliver : deliveries (tr ++ [.pushed value, .delivered w value]) =
      deliveries tr ++ [(w, value)] := deliveries_append ..
  have hcancel : cancelled (tr ++ [.pushed value, .delivered w value]) = cancelled tr :=
    (cancelled_append ..).trans (List.append_nil _)
  have hpush : pushedValues (tr ++ [.pushed value, .delivered w value]) =
      pushedValues tr ++ [value] := pushedValues_append ..
  -- The caller moves from the head of the waiters to the end of the deliveries.
  have hmove : (deliveries tr ++ [(w, value)]).map Prod.fst ++ rest =
      (deliveries tr).map Prod.fst ++ s.object.waiters := by
    rw [hw, List.map_append, List.append_assoc]
    rfl
  have hvalues := h.values
  rw [hempty, List.append_nil] at hvalues
  refine ⟨h.complete, Or.inl hempty, ?_, ?_, ?_, ?_⟩
  · rw [hdeliver, hpush, hempty, List.map_append, hvalues, List.append_nil]
    rfl
  · rw [hdeliver, hmove]
    exact h.increasing
  · rw [hdeliver, hmove]
    exact h.below
  · rw [hdeliver, hmove, hcancel]
    exact h.everyone

/-- A value nobody waits for. -/
theorem InOrder.enqueue (h : InOrder tr s) (value : α) (hw : s.object.waiters = []) :
    InOrder (tr ++ [.pushed value])
      { s with object := { s.object with queue := s.object.queue ++ [value] } } := by
  have hdeliver : deliveries (tr ++ [.pushed value]) = deliveries tr :=
    (deliveries_append ..).trans (List.append_nil _)
  have hcancel : cancelled (tr ++ [.pushed value]) = cancelled tr :=
    (cancelled_append ..).trans (List.append_nil _)
  have hpush : pushedValues (tr ++ [.pushed value]) = pushedValues tr ++ [value] :=
    pushedValues_append ..
  refine ⟨h.complete, Or.inr hw, ?_, ?_, ?_, ?_⟩
  · rw [hdeliver, hpush, ← h.values, List.append_assoc]
  · rw [hdeliver]
    exact h.increasing
  · rw [hdeliver]
    exact h.below
  · rw [hdeliver, hcancel]
    exact h.everyone

/-- The next caller comes after those that are served or waiting. -/
theorem InOrder.admit (h : InOrder tr s) :
    ((deliveries tr).map Prod.fst ++ s.object.waiters ++ [s.pops]).Pairwise (· < ·) ∧
      (∀ w ∈ (deliveries tr).map Prod.fst ++ s.object.waiters ++ [s.pops], w < s.pops + 1) ∧
      ∀ w, w ∈ cancelled tr ↔ w < s.pops + 1 ∧
        w ∉ (deliveries tr).map Prod.fst ++ s.object.waiters ++ [s.pops] := by
  refine ⟨?_, ?_, ?_⟩
  · apply List.pairwise_append.mpr
    refine ⟨h.increasing, List.pairwise_singleton _ _, fun w hw v hv => ?_⟩
    rw [List.mem_singleton.mp hv]
    exact h.below w hw
  · intro w hw
    rcases List.mem_append.mp hw with hw | hw
    · exact Nat.lt_succ_of_lt (h.below w hw)
    · rw [List.mem_singleton.mp hw]
      exact Nat.lt_succ_self _
  · intro w
    rw [h.everyone w, List.mem_append (s := _ ++ _), List.mem_singleton, not_or]
    constructor
    · exact fun hw => ⟨Nat.lt_succ_of_lt hw.1, hw.2, Nat.ne_of_lt hw.1⟩
    · exact fun hw => ⟨Nat.lt_of_le_of_ne (Nat.le_of_lt_succ hw.1) hw.2.2, hw.2.1⟩

/-- A caller that finds a value. -/
theorem InOrder.take (h : InOrder tr s) {value : α} {rest : List α}
    (hq : s.object.queue = value :: rest) :
    InOrder (tr ++ [.delivered s.pops value])
      { object := { s.object with queue := rest }, pops := s.pops + 1 } := by
  have hnone : s.object.waiters = [] := h.waits.resolve_left (by simp [hq])
  have hdeliver : deliveries (tr ++ [.delivered s.pops value]) =
      deliveries tr ++ [(s.pops, value)] := deliveries_append ..
  have hcancel : cancelled (tr ++ [.delivered s.pops value]) = cancelled tr :=
    (cancelled_append ..).trans (List.append_nil _)
  have hpush : pushedValues (tr ++ [.delivered s.pops value]) = pushedValues tr :=
    (pushedValues_append ..).trans (List.append_nil _)
  have hkeys : (deliveries tr ++ [(s.pops, value)]).map Prod.fst ++ s.object.waiters =
      (deliveries tr).map Prod.fst ++ s.object.waiters ++ [s.pops] := by
    simp [hnone]
  obtain ⟨hincreasing, hbelow, heveryone⟩ := h.admit
  refine ⟨h.complete, Or.inr hnone, ?_, ?_, ?_, ?_⟩
  · rw [hdeliver, hpush, ← h.values, hq, List.map_append, List.append_assoc]
    rfl
  · rw [hdeliver, hkeys]
    exact hincreasing
  · rw [hdeliver, hkeys]
    exact hbelow
  · rw [hdeliver, hkeys, hcancel]
    exact heveryone

/-- A caller that has to wait. -/
theorem InOrder.await (h : InOrder tr s) (hq : s.object.queue = []) :
    InOrder tr { object := { s.object with waiters := s.object.waiters ++ [s.pops] },
                 pops := s.pops + 1 } := by
  obtain ⟨hincreasing, hbelow, heveryone⟩ := h.admit
  rw [List.append_assoc] at hincreasing hbelow heveryone
  exact ⟨h.complete, Or.inl hq, h.values, hincreasing, hbelow, heveryone⟩

/-- A waiting caller is cancelled. -/
theorem InOrder.cancel (h : InOrder tr s) {w : Nat} (hw : w ∈ s.object.waiters) :
    InOrder (tr ++ [.aborted w]) { s with object := s.object.cancel w } := by
  have hdeliver : deliveries (tr ++ [.aborted w]) = deliveries tr :=
    (deliveries_append ..).trans (List.append_nil _)
  have hcancel : cancelled (tr ++ [.aborted w]) = cancelled tr ++ [w] := cancelled_append ..
  have hpush : pushedValues (tr ++ [.aborted w]) = pushedValues tr :=
    (pushedValues_append ..).trans (List.append_nil _)
  have hsub : ((deliveries tr).map Prod.fst ++ (s.object.cancel w).waiters).Sublist
      ((deliveries tr).map Prod.fst ++ s.object.waiters) :=
    List.filter_sublist.append_left _
  have hserved : w ∉ (deliveries tr).map Prod.fst := by
    intro hmem
    exact Nat.lt_irrefl w ((List.pairwise_append.mp h.increasing).2.2 w hmem w hw)
  refine ⟨h.complete, h.waits.imp id fun hnone => ?_, ?_, ?_, ?_, ?_⟩
  · rw [hnone] at hw
    exact absurd hw List.not_mem_nil
  · rw [hdeliver, hpush]
    exact h.values
  · rw [hdeliver]
    exact h.increasing.sublist hsub
  · rw [hdeliver]
    exact fun v hv => h.below v (hsub.subset hv)
  · intro v
    have hbelow := h.below w (List.mem_append_right _ hw)
    rw [hdeliver, hcancel, List.mem_append, List.mem_singleton, h.everyone v]
    by_cases hv : v = w
    · subst hv
      simp [AsyncQueue.cancel, hserved, hbelow]
    · simp [AsyncQueue.cancel, hv]

/-- One call keeps the order. -/
theorem InOrder.step {s' : ServedQueue α} {e : QueueCall α} {out : List (QueueEvent α)}
    (h : InOrder tr s) (hs : s.step e = some (s', out)) : InOrder (tr ++ out) s' := by
  have hdone := h.complete
  cases e with
  | push value =>
      obtain ⟨rfl, rfl⟩ := Prod.mk.inj (Option.some.inj hs).symm
      cases hw : s.object.waiters with
      | nil => simpa [runCompletions, AsyncQueue.push, hw, hdone] using h.enqueue value hw
      | cons w rest => simpa [runCompletions, AsyncQueue.push, hw, hdone] using h.serve value hw
  | pop =>
      obtain ⟨rfl, rfl⟩ := Prod.mk.inj (Option.some.inj hs).symm
      cases hq : s.object.queue with
      | nil => simpa [runCompletions, AsyncQueue.pop, hq, hdone] using h.await hq
      | cons value rest => simpa [runCompletions, AsyncQueue.pop, hq, hdone] using h.take hq
  | cancel w =>
      by_cases hw : w ∈ s.object.waiters
      · rw [ServedQueue.step, if_pos hw] at hs
        obtain ⟨rfl, rfl⟩ := Prod.mk.inj (Option.some.inj hs).symm
        exact h.cancel hw
      · rw [ServedQueue.step, if_neg hw] at hs
        obtain ⟨rfl, rfl⟩ := Prod.mk.inj (Option.some.inj hs).symm
        rw [List.append_nil]
        exact h

end Step

theorem inOrder_of_run {tr : List (QueueEvent α)} {s : ServedQueue α}
    (h : Transition.Run step Transition.Always {} tr s) : InOrder tr s :=
  h.invariant inOrder_start fun _ _ _ _ _ hI _ hs => hI.step hs

/-! ## Conservation -/

theorem deliveredTo_eq_none {tr : List (QueueEvent α)} {w : Nat} :
    deliveredTo tr w = none ↔ w ∉ (deliveries tr).map Prod.fst := by
  refine ⟨fun hnone hw => ?_, lookup_eq_none_of_notMem⟩
  obtain ⟨p, hp, rfl⟩ := List.mem_map.mp hw
  have := List.lookup_eq_none_iff.mp hnone p hp
  simp at this

/-- The callers that are neither served nor cancelled wait, in the order of their names. -/
theorem InOrder.waiters_eq {tr : List (QueueEvent α)} {s : ServedQueue α} (h : InOrder tr s) :
    s.object.waiters =
      (List.range s.pops).filter fun w => deliveredTo tr w = none ∧ w ∉ cancelled tr := by
  obtain ⟨-, hsorted, hserved⟩ := List.pairwise_append.mp h.increasing
  have hbelow : ∀ w ∈ s.object.waiters, w < s.pops :=
    fun w hw => h.below w (List.mem_append_right _ hw)
  conv_lhs => rw [eq_filter_range hsorted hbelow]
  apply List.filter_congr
  intro w hw
  rw [decide_eq_decide, deliveredTo_eq_none, h.everyone w, List.mem_append]
  have hlt := List.mem_range.mp hw
  constructor
  · intro hwait
    refine ⟨fun hmem => Nat.lt_irrefl w (hserved w hmem w hwait), fun hno => ?_⟩
    exact hno.2 (Or.inr hwait)
  · rintro ⟨hmem, hno⟩
    by_contra hwait
    exact hno ⟨hlt, fun hor => hor.elim hmem hwait⟩

/-- **Values leave in the order in which they came**, to the callers in the order of theirs, and
a cancelled caller takes none. -/
theorem values_conserved {tr : List (QueueEvent α)} {s : ServedQueue α}
    (h : Transition.Run step Transition.Always {} tr s) :
    (s.object.queue = [] ∨ s.object.waiters = []) ∧
      (List.range s.pops).filterMap (deliveredTo tr) ++ s.object.queue = pushedValues tr ∧
      (∀ w ∈ cancelled tr, deliveredTo tr w = none) ∧
      s.object.waiters =
        (List.range s.pops).filter (fun w => deliveredTo tr w = none ∧ w ∉ cancelled tr) ∧
      ∀ w, ∃ s' out, s.step (.cancel w) = some (s', out) ∧ deliveries out = [] ∧
        s'.object.queue = s.object.queue ∧
        s'.object.waiters = s.object.waiters.filter (· ≠ w) := by
  have hI := inOrder_of_run h
  have hsorted := (List.pairwise_append.mp hI.increasing).1
  refine ⟨hI.waits, ?_, ?_, hI.waiters_eq, ?_⟩
  · have hbelow : ∀ w ∈ (deliveries tr).map Prod.fst, w < s.pops :=
      fun w hw => hI.below w (List.mem_append_left _ hw)
    exact (congrArg (· ++ _) (filterMap_lookup_range hsorted hbelow)).trans hI.values
  · intro w hw
    have hno := ((hI.everyone w).mp hw).2
    exact deliveredTo_eq_none.mpr fun hmem => hno (List.mem_append_left _ hmem)
  · intro w
    by_cases hw : w ∈ s.object.waiters
    · exact ⟨_, _, if_pos hw, rfl, rfl, rfl⟩
    · refine ⟨s, [], if_neg hw, rfl, rfl, (List.filter_eq_self.mpr fun v hv => ?_).symm⟩
      have hne : v ≠ w := fun hvw => hw (hvw ▸ hv)
      simpa using hne

/-- Two callers wait, the first is cancelled, and two values are pushed. -/
theorem values_conserved_cancelled :
    ∃ (tr : List (QueueEvent Nat)) (s : ServedQueue Nat), pushedValues tr = [5, 6] ∧
      cancelled tr = [0] ∧ (s.object.queue = [] ∨ s.object.waiters = []) ∧
      (List.range s.pops).filterMap (deliveredTo tr) ++ s.object.queue = pushedValues tr ∧
      (∀ w ∈ cancelled tr, deliveredTo tr w = none) ∧
      s.object.waiters =
        (List.range s.pops).filter (fun w => deliveredTo tr w = none ∧ w ∉ cancelled tr) ∧
      ∀ w, ∃ s' out, s.step (.cancel w) = some (s', out) ∧ deliveries out = [] ∧
        s'.object.queue = s.object.queue ∧
        s'.object.waiters = s.object.waiters.filter (· ≠ w) :=
  have hrun : Transition.Run step Transition.Always {} _ _ :=
    ((((Transition.Run.start.next trivial (rfl : step {} .pop = _)).next trivial
      (rfl : step _ .pop = _)).next trivial (rfl : step _ (.cancel 0) = _)).next trivial
      (rfl : step _ (.push 5) = _)).next trivial (rfl : step _ (.push 6) = _)
  ⟨_, _, rfl, rfl, values_conserved hrun⟩

end ServedQueue
end FileHopZ

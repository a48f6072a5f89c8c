import FileHopZ.Library.Handlers
import FileHopZ.Library.Run
import FileHopZ.Utils.AsyncQueue
import FileHopZ.Utils.AsyncValue

/-! # Cancelling a caller of `pop` or `wait`

The function in a caller's cancellation slot takes the caller off `waiters_` and dispatches its
handler with `operation_aborted`, without asking whether the caller is there.  The slot stays
assigned until the handler runs, so a caller that has just been given a value can be cancelled,
and `waiter->handler` is called a second time.  The first call has consumed the
`any_completion_handler`, so the second does not reach the caller: Boost throws.  But the
first may be the one with `operation_aborted`, and then the value is lost.

That a handler *runs* means here that one of the functions dispatched for its caller calls it.
Callers are named by how many came before.
-/
namespace FileHopZ

/-- Every caller's handler runs at most once in a run of timely steps, and a step that is not
timely can be continued to a run in which a handler runs twice. -/
def OnceIfTimely {σ ε ω : Type} (step : Transition.Machine σ ε (Nat × ω)) (timely : σ → ε → Prop)
    (init : σ) : Prop :=
  ∀ tr s, Transition.Run step timely init tr s →
    (tr.map Prod.fst).Nodup ∧
      ∀ e s' out, step s e = some (s', out) → ¬ timely s e →
        ∃ tr' s'', Transition.Run step timely s' tr' s'' ∧
          ¬ ((tr ++ out ++ tr').map Prod.fst).Nodup

/-- A caller that occurs twice in what is shown last occurs twice in all that is shown. -/
theorem not_nodup_of_twice {ω : Type} (tr : List (Nat × ω)) (w : Nat) (a b : ω) :
    ¬ ((tr ++ [] ++ ([(w, a)] ++ [(w, b)])).map Prod.fst).Nodup := by
  intro h
  rw [List.map_append] at h
  have htwice := (List.nodup_append.mp h).2.1
  simp at htwice

/-- Erasing a caller's completion, among the callers of all completions. -/
theorem map_fst_eraseP {α : Type} (l : List (Nat × α)) (w : Nat) :
    (l.eraseP (·.1 = w)).map Prod.fst = (l.map Prod.fst).erase w := by
  rw [List.erase_eq_eraseP, List.eraseP_map]
  congr 2
  funext c
  show decide (c.1 = w) = (w == c.1)
  rw [beq_eq_decide, decide_eq_decide, eq_comm]

/-! ## `Async_queue` -/

/-- What happens to an `Async_queue` and its callers. -/
inductive QueueAction (α : Type)
  | push (value : α)
  /-- A call of `pop`; its cancellation slot may be connected. -/
  | pop (connected : Bool)
  /-- A cancellation signal is emitted to a slot that is assigned. -/
  | emit (waiter : Nat)
  /-- A handler that has been dispatched with a value runs. -/
  | run (waiter : Nat)
  /-- A handler that has been dispatched with `operation_aborted` runs. -/
  | runAborted (waiter : Nat)

/-- An `Async_queue`, the handlers dispatched with `operation_aborted`, the slots that are
assigned, and how many times `pop` has been called. -/
structure CancellableQueue (α : Type) where
  object : AsyncQueue Nat α := {}
  aborts : List Nat := []
  slots : Finset Nat := ∅
  pops : Nat := 0

namespace CancellableQueue
variable {α : Type}

/-- One step; it shows the handler that runs and the value it gets. -/
def step (s : CancellableQueue α) :
    QueueAction α → Option (CancellableQueue α × List (Nat × Option α))
  | .push value => some ({ s with object := s.object.push value }, [])
  | .pop connected =>
      some ({ s with
        object := s.object.pop s.pops
        slots := if s.object.queue = [] ∧ connected = true then insert s.pops s.slots else s.slots
        pops := s.pops + 1 }, [])
  | .emit waiter =>
      if waiter ∈ s.slots then
        some ({ s with
          object := s.object.cancel waiter, aborts := s.aborts ++ [waiter] }, [])
      else none
  | .run waiter =>
      (s.object.resume waiter).map fun r =>
        ({ s with object := r.2, slots := s.slots.erase waiter }, [(waiter, some r.1)])
  | .runAborted waiter =>
      if waiter ∈ s.aborts then
        some ({ s with
          aborts := s.aborts.erase waiter, slots := s.slots.erase waiter }, [(waiter, none)])
      else none

/-- A cancellation signal is emitted to waiting callers only. -/
def Timely (s : CancellableQueue α) : QueueAction α → Prop
  | .emit waiter => waiter ∈ s.object.waiters
  | _ => True

/-- Where the handlers are. -/
def handlers (s : CancellableQueue α) : Handlers.State :=
  Handlers.ofLists s.pops s.object.waiters (s.object.completions.map Prod.fst) s.aborts s.slots

/-- A timely step moves handlers as it should. -/
theorem handlers_step {s s' : CancellableQueue α} {e : QueueAction α}
    {out : List (Nat × Option α)} (htimely : s.Timely e) (hs : s.step e = some (s', out)) :
    Handlers.Step s.handlers (out.map Prod.fst) s'.handlers := by
  cases e with
  | push value =>
      obtain ⟨rfl, rfl⟩ := Prod.mk.inj (Option.some.inj hs).symm
      cases hw : s.object.waiters with
      | nil =>
          have hstep := @Handlers.step_release s.pops [] (s.object.completions.map Prod.fst)
            s.aborts s.slots []
          simpa [handlers, AsyncQueue.push, hw] using hstep
      | cons w rest =>
          have hstep := @Handlers.step_release s.pops rest (s.object.completions.map Prod.fst)
            s.aborts s.slots [w]
          simpa [handlers, AsyncQueue.push, hw] using hstep
  | pop connected =>
      obtain ⟨rfl, rfl⟩ := Prod.mk.inj (Option.some.inj hs).symm
      cases hq : s.object.queue with
      | nil =>
          have hsub : (if connected = true then insert s.pops s.slots else s.slots) ⊆
              insert s.pops s.slots := by
            split
            · exact Finset.Subset.refl _
            · exact Finset.subset_insert _ _
          have hstep := @Handlers.step_wait s.pops s.object.waiters
            (s.object.completions.map Prod.fst) s.aborts s.slots _ hsub
          simpa [handlers, AsyncQueue.pop, hq] using hstep
      | cons value rest =>
          have hstep := @Handlers.step_complete s.pops s.object.waiters
            (s.object.completions.map Prod.fst) s.aborts s.slots
          simpa [handlers, AsyncQueue.pop, hq] using hstep
  | emit w =>
      obtain ⟨-, hs⟩ := Option.ite_none_right_eq_some.mp hs
      obtain ⟨rfl, rfl⟩ := Prod.mk.inj (Option.some.inj hs).symm
      exact Handlers.step_cancel htimely
  | run w =>
      obtain ⟨⟨value, object⟩, hr, hs⟩ := Option.map_eq_some_iff.mp hs
      obtain ⟨rfl, rfl⟩ := Prod.mk.inj hs.symm
      obtain ⟨c, hc, hr⟩ := Option.map_eq_some_iff.mp hr
      obtain ⟨rfl, rfl⟩ := Prod.mk.inj hr.symm
      have hkey : c.1 = w := by simpa using List.find?_some hc
      have hmem : w ∈ s.object.completions.map Prod.fst :=
        hkey ▸ List.mem_map_of_mem (List.mem_of_find?_eq_some hc)
      have hstep := @Handlers.step_run s.pops s.object.waiters _ s.aborts s.slots w hmem
      rw [← map_fst_eraseP] at hstep
      exact hstep
  | runAborted w =>
      obtain ⟨hw, hs⟩ := Option.ite_none_right_eq_some.mp hs
      obtain ⟨rfl, rfl⟩ := Prod.mk.inj (Option.some.inj hs).symm
      exact Handlers.step_runAborted hw

theorem once_of_run {tr : List (Nat × Option α)} {s : CancellableQueue α}
    (h : Transition.Run step Timely {} tr s) : Handlers.Once (tr.map Prod.fst) s.handlers := by
  apply h.invariant (I := fun tr s => Handlers.Once (tr.map Prod.fst) s.handlers)
  · exact Handlers.once_start
  intro tr s e s' out hI hok hs
  rw [List.map_append]
  exact hI.step (handlers_step hok hs)

/-- A handler dispatched with a value can run. -/
theorem exists_run {s : CancellableQueue α} {w : Nat}
    (h : w ∈ s.object.completions.map Prod.fst) :
    ∃ value s', Transition.Run step Timely s [(w, some value)] s' ∧ s'.aborts = s.aborts := by
  obtain ⟨c, hc, rfl⟩ := List.mem_map.mp h
  have hfind : (s.object.completions.find? (·.1 = c.1)).isSome := by
    rw [List.find?_isSome]
    exact ⟨c, hc, by simp⟩
  obtain ⟨d, hd⟩ := Option.isSome_iff_exists.mp hfind
  have hs : s.step (.run c.1) = some ({ s with
      object := { s.object with completions := s.object.completions.eraseP (·.1 = c.1) }
      slots := s.slots.erase c.1 }, [(c.1, some d.2)]) := by
    rw [step, AsyncQueue.resume, hd]
    rfl
  exact ⟨d.2, _, .single (show Timely s (.run c.1) from trivial) hs, rfl⟩

/-- So can one dispatched with `operation_aborted`. -/
theorem run_aborted {s : CancellableQueue α} {w : Nat} (h : w ∈ s.aborts) :
    Transition.Run step Timely s [(w, none)] { s with
      aborts := s.aborts.erase w, slots := s.slots.erase w } :=
  .single (show Timely s (.runAborted w) from trivial) (if_pos h)

/-- An untimely signal dispatches a handler that has been dispatched. -/
theorem twice_of_untimely {tr : List (Nat × Option α)} {s s' : CancellableQueue α}
    {e : QueueAction α} {out : List (Nat × Option α)} (hI : Handlers.Once (tr.map Prod.fst) s.handlers)
    (hs : s.step e = some (s', out)) (hlate : ¬ s.Timely e) :
    ∃ tr' s'', Transition.Run step Timely s' tr' s'' ∧
      ¬ ((tr ++ out ++ tr').map Prod.fst).Nodup := by
  cases e with
  | emit w =>
      obtain ⟨hslot, hs⟩ := Option.ite_none_right_eq_some.mp hs
      obtain ⟨rfl, rfl⟩ := Prod.mk.inj (Option.some.inj hs).symm
      have hplace : w ∈ s.object.waiters ∨ w ∈ s.object.completions.map Prod.fst ++ s.aborts :=
        hI.slots w hslot
      have hdispatched := hplace.resolve_left hlate
      have habort : w ∈ s.aborts ++ [w] := List.mem_append_right _ (List.mem_singleton_self w)
      rcases List.mem_append.mp hdispatched with hvalue | hagain
      · -- It runs with its value, then with `operation_aborted`.
        obtain ⟨value, s₁, hrun, haborts⟩ := exists_run (s := { s with
          object := s.object.cancel w, aborts := s.aborts ++ [w] }) hvalue
        have hmem : w ∈ s₁.aborts := haborts ▸ habort
        exact ⟨_, _, hrun.append (run_aborted hmem), not_nodup_of_twice tr w _ _⟩
      · -- It runs with `operation_aborted`, twice.
        have hrun := run_aborted (s := { s with
          object := s.object.cancel w, aborts := s.aborts ++ [w] }) habort
        have hmem : w ∈ (s.aborts ++ [w]).erase w := by
          rw [List.erase_append_left _ hagain]
          exact List.mem_append_right _ (List.mem_singleton_self w)
        exact ⟨_, _, hrun.append (run_aborted hmem), not_nodup_of_twice tr w _ _⟩
  | _ => exact absurd trivial hlate

theorem onceIfTimely : OnceIfTimely step Timely ({} : CancellableQueue α) := by
  intro tr s h
  have hI := once_of_run h
  exact ⟨hI.nodup, fun e s' out hs hlate => twice_of_untimely hI hs hlate⟩

end CancellableQueue

/-! ## `Async_value` -/

/-- What happens to an `Async_value` and its callers.  `set`, `update` and `notifyOne` are the
moments at which what they dispatch to the strand runs. -/
inductive ValueAction (α : Type)
  | set (value : α)
  | update (value : α)
  | notifyOne
  /-- A call of `wait`; its cancellation slot may be connected. -/
  | wait (connected : Bool)
  /-- A cancellation signal is emitted to a slot that is assigned. -/
  | emit (waiter : Nat)
  /-- A handler that has been dispatched with the value runs. -/
  | run (waiter : Nat)
  /-- A handler that has been dispatched with `operation_aborted` runs. -/
  | runAborted (waiter : Nat)

/-- How a handler runs. -/
inductive Outcome
  | released
  | aborted

/-- An `Async_value`, the handlers dispatched with `operation_aborted`, the slots that are
assigned, and how many times `wait` has been called. -/
structure CancellableValue (α : Type) where
  object : AsyncValue Nat α
  aborts : List Nat := []
  slots : Finset Nat := ∅
  waits : Nat := 0

namespace CancellableValue
variable {α : Type}

/-- One step; it shows the handler that runs. -/
def step (s : CancellableValue α) :
    ValueAction α → Option (CancellableValue α × List (Nat × Outcome))
  | .set value => some ({ s with object := s.object.set value }, [])
  | .update value => some ({ s with object := s.object.update value }, [])
  | .notifyOne => some ({ s with object := s.object.notifyOne }, [])
  | .wait connected =>
      some ({ s with
        object := s.object.wait s.waits
        slots := if connected = true then insert s.waits s.slots else s.slots
        waits := s.waits + 1 }, [])
  | .emit waiter =>
      if waiter ∈ s.slots then
        some ({ s with
          object := s.object.cancel waiter, aborts := s.aborts ++ [waiter] }, [])
      else none
  | .run waiter =>
      if waiter ∈ s.object.completions then
        some ({ s with
          object := s.object.resume waiter, slots := s.slots.erase waiter }, [(waiter, .released)])
      else none
  | .runAborted waiter =>
      if waiter ∈ s.aborts then
        some ({ s with
          aborts := s.aborts.erase waiter, slots := s.slots.erase waiter }, [(waiter, .aborted)])
      else none

/-- A cancellation signal is emitted to waiting callers only. -/
def Timely (s : CancellableValue α) : ValueAction α → Prop
  | .emit waiter => waiter ∈ s.object.waiters
  | _ => True

/-- Where the handlers are. -/
def handlers (s : CancellableValue α) : Handlers.State :=
  Handlers.ofLists s.waits s.object.waiters s.object.completions s.aborts s.slots

/-- A timely step moves handlers as it should. -/
theorem handlers_step {s s' : CancellableValue α} {e : ValueAction α}
    {out : List (Nat × Outcome)} (htimely : s.Timely e) (hs : s.step e = some (s', out)) :
    Handlers.Step s.handlers (out.map Prod.fst) s'.handlers := by
  cases e with
  | set value =>
      obtain ⟨rfl, rfl⟩ := Prod.mk.inj (Option.some.inj hs).symm
      have hstep := @Handlers.step_release s.waits [] s.object.completions s.aborts s.slots
        s.object.waiters
      rw [List.append_nil] at hstep
      exact hstep
  | update value =>
      obtain ⟨rfl, rfl⟩ := Prod.mk.inj (Option.some.inj hs).symm
      have hstep := @Handlers.step_release s.waits s.object.waiters s.object.completions s.aborts
        s.slots []
      rw [List.append_nil] at hstep
      exact hstep
  | notifyOne =>
      obtain ⟨rfl, rfl⟩ := Prod.mk.inj (Option.some.inj hs).symm
      have hstep := @Handlers.step_release s.waits s.object.waiters.tail s.object.completions
        s.aborts s.slots (s.object.waiters.take 1)
      rw [← List.drop_one, List.take_append_drop] at hstep
      simpa [handlers] using hstep
  | wait connected =>
      obtain ⟨rfl, rfl⟩ := Prod.mk.inj (Option.some.inj hs).symm
      refine Handlers.step_wait ?_
      show (if connected = true then insert s.waits s.slots else s.slots) ⊆ insert s.waits s.slots
      split
      · exact Finset.Subset.refl _
      · exact Finset.subset_insert _ _
  | emit w =>
      obtain ⟨-, hs⟩ := Option.ite_none_right_eq_some.mp hs
      obtain ⟨rfl, rfl⟩ := Prod.mk.inj (Option.some.inj hs).symm
      exact Handlers.step_cancel htimely
  | run w =>
      obtain ⟨hw, hs⟩ := Option.ite_none_right_eq_some.mp hs
      obtain ⟨rfl, rfl⟩ := Prod.mk.inj (Option.some.inj hs).symm
      exact Handlers.step_run hw
  | runAborted w =>
      obtain ⟨hw, hs⟩ := Option.ite_none_right_eq_some.mp hs
      obtain ⟨rfl, rfl⟩ := Prod.mk.inj (Option.some.inj hs).symm
      exact Handlers.step_runAborted hw

theorem once_of_run {a : α} {tr : List (Nat × Outcome)} {s : CancellableValue α}
    (h : Transition.Run step Timely { object := { value := a } } tr s) :
    Handlers.Once (tr.map Prod.fst) s.handlers := by
  apply h.invariant (I := fun tr s => Handlers.Once (tr.map Prod.fst) s.handlers)
  · exact Handlers.once_start
  intro tr s e s' out hI hok hs
  rw [List.map_append]
  exact hI.step (handlers_step hok hs)

/-- A handler dispatched with the value can run. -/
theorem run_released {s : CancellableValue α} {w : Nat} (h : w ∈ s.object.completions) :
    Transition.Run step Timely s [(w, .released)] { s with
      object := s.object.resume w, slots := s.slots.erase w } :=
  .single (show Timely s (.run w) from trivial) (if_pos h)

/-- So can one dispatched with `operation_aborted`. -/
theorem run_aborted {s : CancellableValue α} {w : Nat} (h : w ∈ s.aborts) :
    Transition.Run step Timely s [(w, .aborted)] { s with
      aborts := s.aborts.erase w, slots := s.slots.erase w } :=
  .single (show Timely s (.runAborted w) from trivial) (if_pos h)

/-- An untimely signal dispatches a handler that has been dispatched. -/
theorem twice_of_untimely {tr : List (Nat × Outcome)} {s s' : CancellableValue α}
    {e : ValueAction α} {out : List (Nat × Outcome)}
    (hI : Handlers.Once (tr.map Prod.fst) s.handlers) (hs : s.step e = some (s', out))
    (hlate : ¬ s.Timely e) :
    ∃ tr' s'', Transition.Run step Timely s' tr' s'' ∧
      ¬ ((tr ++ out ++ tr').map Prod.fst).Nodup := by
  cases e with
  | emit w =>
      obtain ⟨hslot, hs⟩ := Option.ite_none_right_eq_some.mp hs
      obtain ⟨rfl, rfl⟩ := Prod.mk.inj (Option.some.inj hs).symm
      have hplace : w ∈ s.object.waiters ∨ w ∈ s.object.completions ++ s.aborts :=
        hI.slots w hslot
      have habort : w ∈ s.aborts ++ [w] := List.mem_append_right _ (List.mem_singleton_self w)
      rcases List.mem_append.mp (hplace.resolve_left hlate) with hvalue | hagain
      · -- It runs with the value, then with `operation_aborted`.
        have hrun := run_released (s := { s with
          object := s.object.cancel w, aborts := s.aborts ++ [w] }) hvalue
        exact ⟨_, _, hrun.append (run_aborted habort), not_nodup_of_twice tr w _ _⟩
      · -- It runs with `operation_aborted`, twice.
        have hrun := run_aborted (s := { s with
          object := s.object.cancel w, aborts := s.aborts ++ [w] }) habort
        have hmem : w ∈ (s.aborts ++ [w]).erase w := by
          rw [List.erase_append_left _ hagain]
          exact List.mem_append_right _ (List.mem_singleton_self w)
        exact ⟨_, _, hrun.append (run_aborted hmem), not_nodup_of_twice tr w _ _⟩
  | _ => exact absurd trivial hlate

theorem onceIfTimely (a : α) :
    OnceIfTimely step Timely ({ object := { value := a } } : CancellableValue α) := by
  intro tr s h
  have hI := once_of_run h
  exact ⟨hI.nodup, fun e s' out hs hlate => twice_of_untimely hI hs hlate⟩

end CancellableValue

/-- **A handler runs at most once as long as only waiting callers are cancelled**, and not
beyond. -/
theorem handlers_run_once (α : Type) :
    OnceIfTimely CancellableQueue.step CancellableQueue.Timely ({} : CancellableQueue α) ∧
      ∀ a, OnceIfTimely CancellableValue.step CancellableValue.Timely
        ({ object := { value := a } } : CancellableValue α) :=
  ⟨CancellableQueue.onceIfTimely, CancellableValue.onceIfTimely⟩

/-- A value is pushed for a caller, whose slot is triggered before the handler runs: it is
called with the value and with `operation_aborted`, in either order.  In the second order the
caller is told that it was cancelled, and the call with its value throws. -/
theorem handler_runs_twice :
    (¬ ∀ (tr : List (Nat × Option Nat)) (s : CancellableQueue Nat),
      Transition.Run CancellableQueue.step Transition.Always {} tr s → (tr.map Prod.fst).Nodup) ∧
    (∃ s, Transition.Run CancellableQueue.step Transition.Always ({} : CancellableQueue Nat)
      [(0, some 7), (0, none)] s) ∧
    ∃ s, Transition.Run CancellableQueue.step Transition.Always ({} : CancellableQueue Nat)
      [(0, none), (0, some 7)] s := by
  have hrun : ∀ es tr, (Transition.exec (Transition.guarded CancellableQueue.step fun _ _ => true)
      ({} : CancellableQueue Nat) es).any (fun r => decide (r.2 = tr)) = true →
      ∃ s, Transition.Run CancellableQueue.step Transition.Always ({} : CancellableQueue Nat) tr s := by
    intro es tr h
    obtain ⟨tr', s, hrun, htr⟩ := Transition.exists_run CancellableQueue.step Transition.Always
      ({} : CancellableQueue Nat) es (fun tr' _ => decide (tr' = tr)) (fun _ _ => true)
      (fun _ _ _ => trivial) h
    exact ⟨s, of_decide_eq_true htr ▸ hrun⟩
  have hvalue := hrun [.pop true, .push 7, .emit 0, .run 0, .runAborted 0]
    [(0, some 7), (0, none)] rfl
  refine ⟨fun h => ?_, hvalue, ?_⟩
  · obtain ⟨s, hs⟩ := hvalue
    exact absurd (h _ s hs) (by decide)
  · exact hrun [.pop true, .push 7, .emit 0, .runAborted 0, .run 0] [(0, none), (0, some 7)] rfl

end FileHopZ

import Mathlib.Data.List.Basic

/-! # `Async_value`

A value with callers that wait for it to be set.  A `wait` never looks at the
current value: it is released by a later `set`, which releases every waiter, or
by `notify_one`, which releases the oldest.  As for `Async_queue`, a released
caller's completion stays in `completions` until it runs.
-/
namespace FileHopZ

/-- `value_`, the callers in `waiters_` (oldest first), and the callers whose
completion has been dispatched but has not run. -/
structure AsyncValue (ι α : Type) where
  value : α
  waiters : List ι := []
  completions : List ι := []

namespace AsyncValue
variable {ι α : Type}

/-- `Async_value::set`. -/
def set (v : AsyncValue ι α) (newValue : α) : AsyncValue ι α :=
  { value := newValue, waiters := [], completions := v.completions ++ v.waiters }

/-- `Async_value::update`. -/
def update (v : AsyncValue ι α) (newValue : α) : AsyncValue ι α :=
  { v with value := newValue }

/-- `Async_value::notify_one`. -/
def notifyOne (v : AsyncValue ι α) : AsyncValue ι α :=
  match v.waiters with
  | [] => v
  | waiter :: rest => { v with waiters := rest, completions := v.completions ++ [waiter] }

/-- `Async_value::wait`, called by `waiter`. -/
def wait (v : AsyncValue ι α) (waiter : ι) : AsyncValue ι α :=
  { v with waiters := v.waiters ++ [waiter] }

/-- The completion dispatched for `waiter` runs. -/
def resume [DecidableEq ι] (v : AsyncValue ι α) (waiter : ι) : AsyncValue ι α :=
  { v with completions := v.completions.erase waiter }

/-- The cancellation handler of `waiter`'s slot takes it out of `waiters_`. -/
def cancel [DecidableEq ι] (v : AsyncValue ι α) (waiter : ι) : AsyncValue ι α :=
  { v with waiters := v.waiters.filter (· ≠ waiter) }

@[simp] theorem value_set (v : AsyncValue ι α) (a : α) : (v.set a).value = a := rfl
@[simp] theorem value_update (v : AsyncValue ι α) (a : α) : (v.update a).value = a := rfl
@[simp] theorem value_wait (v : AsyncValue ι α) (w : ι) : (v.wait w).value = v.value := rfl
@[simp] theorem value_resume [DecidableEq ι] (v : AsyncValue ι α) (w : ι) :
    (v.resume w).value = v.value := rfl
@[simp] theorem value_notifyOne (v : AsyncValue ι α) : v.notifyOne.value = v.value := by
  unfold notifyOne; split <;> rfl

@[simp] theorem waiters_update (v : AsyncValue ι α) (a : α) :
    (v.update a).waiters = v.waiters := rfl
@[simp] theorem waiters_wait (v : AsyncValue ι α) (w : ι) :
    (v.wait w).waiters = v.waiters ++ [w] := rfl
@[simp] theorem waiters_resume [DecidableEq ι] (v : AsyncValue ι α) (w : ι) :
    (v.resume w).waiters = v.waiters := rfl
@[simp] theorem waiters_notifyOne (v : AsyncValue ι α) :
    v.notifyOne.waiters = v.waiters.tail := by
  unfold notifyOne; split <;> simp_all

@[simp] theorem completions_update (v : AsyncValue ι α) (a : α) :
    (v.update a).completions = v.completions := rfl
@[simp] theorem completions_wait (v : AsyncValue ι α) (w : ι) :
    (v.wait w).completions = v.completions := rfl
@[simp] theorem completions_resume [DecidableEq ι] (v : AsyncValue ι α) (w : ι) :
    (v.resume w).completions = v.completions.erase w := rfl
@[simp] theorem completions_notifyOne (v : AsyncValue ι α) :
    v.notifyOne.completions = v.completions ++ v.waiters.take 1 := by
  unfold notifyOne; split <;> simp_all

end AsyncValue
end FileHopZ

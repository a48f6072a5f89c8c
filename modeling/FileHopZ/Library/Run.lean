import Mathlib.Logic.Basic
import Mathlib.Data.List.Basic

/-! # Runs of an event-driven machine

A **machine** is a partial step function: in a state, an event either cannot
happen, or moves the machine and shows a list of observations.  Everything that
is not determined by the state -- what the environment sends, which of several
suspended activities is resumed, what a random generator returns -- is part of
the event, so a machine stays a function that can be evaluated.

A **run** collects the observations of its steps in order.  Histories (what was
sent, what was acknowledged) are read off these observations, so a machine's
state holds only what the modelled program holds.  A run is taken under a
**guard**, a condition on the state and the event of every step; a run without
conditions has the guard `Always`.
-/
namespace Transition

variable {σ ε ω : Type*}

/-- A partial, observable step function. -/
abbrev Machine (σ ε ω : Type*) := σ → ε → Option (σ × List ω)

/-- The guard that admits every step. -/
def Always (_ : σ) (_ : ε) : Prop := True

/-- `Run step ok init tr s`: from `init` the machine can reach `s` showing `tr`,
by steps that all satisfy the guard `ok`. -/
inductive Run (step : Machine σ ε ω) (ok : σ → ε → Prop) (init : σ) : List ω → σ → Prop
  | start : Run step ok init [] init
  | next {tr : List ω} {s s' : σ} {e : ε} {out : List ω} :
      Run step ok init tr s → ok s e → step s e = some (s', out) →
      Run step ok init (tr ++ out) s'

namespace Run
variable {step : Machine σ ε ω} {ok : σ → ε → Prop} {init : σ}

/-- **The invariant rule.**  What holds at the start with nothing shown, and is
kept by every admitted step together with what it shows, holds along every run. -/
theorem invariant {I : List ω → σ → Prop} (h0 : I [] init)
    (hstep : ∀ tr s e s' out, I tr s → ok s e → step s e = some (s', out) → I (tr ++ out) s')
    {tr : List ω} {s : σ} (h : Run step ok init tr s) : I tr s := by
  induction h with
  | start => exact h0
  | next _ hok hs ih => exact hstep _ _ _ _ _ ih hok hs

/-- A weaker guard admits more runs. -/
theorem weaken {ok' : σ → ε → Prop} (hsub : ∀ s e, ok s e → ok' s e)
    {tr : List ω} {s : σ} (h : Run step ok init tr s) : Run step ok' init tr s := by
  induction h with
  | start => exact .start
  | next _ hok hs ih => exact .next ih (hsub _ _ hok) hs

/-- Runs compose. -/
theorem append {tr tr' : List ω} {s s' : σ} (h : Run step ok init tr s)
    (h' : Run step ok s tr' s') : Run step ok init (tr ++ tr') s' := by
  induction h' with
  | start => rw [List.append_nil]; exact h
  | next _ hok hs ih => rw [← List.append_assoc]; exact .next ih hok hs

/-- One admitted step is a run. -/
theorem single {e : ε} {s' : σ} {out : List ω} (hok : ok init e)
    (hs : step init e = some (s', out)) : Run step ok init out s' :=
  List.nil_append out ▸ Run.start.next hok hs

end Run

/-! ## Taking notes -/

section Notes
variable {ν : Type*}

/-- The machine that also shows what `note` takes down of each step. -/
def noting (step : Machine σ ε ω) (note : σ → ε → List ν) : Machine σ ε (ν ⊕ ω) :=
  fun s e => (step s e).map fun r => (r.1, (note s e).map .inl ++ r.2.map .inr)

/-- The notes taken in a run. -/
def notes (tr : List (ν ⊕ ω)) : List ν := tr.filterMap Sum.getLeft?

/-- What the machine itself has shown. -/
def shows (tr : List (ν ⊕ ω)) : List ω := tr.filterMap Sum.getRight?

theorem notes_append (a b : List (ν ⊕ ω)) : notes (a ++ b) = notes a ++ notes b :=
  List.filterMap_append

theorem shows_append (a b : List (ν ⊕ ω)) : shows (a ++ b) = shows a ++ shows b :=
  List.filterMap_append

theorem notes_map (a : List ν) (b : List ω) : notes (a.map .inl ++ b.map .inr) = a := by
  simp [notes, List.filterMap_append, List.filterMap_map, Function.comp_def]

theorem shows_map (a : List ν) (b : List ω) : shows (a.map .inl ++ b.map .inr) = b := by
  simp [shows, List.filterMap_append, List.filterMap_map, Function.comp_def]

theorem noting_some {step : Machine σ ε ω} {s s' : σ} {e : ε} {out : List ω}
    (h : step s e = some (s', out)) (note : σ → ε → List ν) :
    noting step note s e = some (s', (note s e).map .inl ++ out.map .inr) := by
  rw [noting, h]
  rfl

/-- A step with notes is a step. -/
theorem noting_eq {step : Machine σ ε ω} {note : σ → ε → List ν} {s s' : σ} {e : ε}
    {out : List (ν ⊕ ω)} (h : noting step note s e = some (s', out)) :
    step s e = some (s', shows out) ∧ notes out = note s e := by
  obtain ⟨⟨s₁, shown⟩, hs, heq⟩ := Option.map_eq_some_iff.mp h
  obtain ⟨rfl, rfl⟩ := Prod.mk.inj heq
  exact ⟨by rw [shows_map, hs], notes_map _ _⟩

/-- Notes can be taken in every run. -/
theorem Run.exists_noting {step : Machine σ ε ω} {ok : σ → ε → Prop} {init s : σ} {tr : List ω}
    (h : Run step ok init tr s) (note : σ → ε → List ν) :
    ∃ noted, Run (noting step note) ok init noted s ∧ shows noted = tr := by
  induction h with
  | start => exact ⟨[], .start, rfl⟩
  | next _ hok hs ih =>
      obtain ⟨noted, hrun, hshows⟩ := ih
      exact ⟨_, hrun.next hok (noting_some hs note), by rw [shows_append, hshows, shows_map]⟩

end Notes

/-! ## Executing a list of events -/

/-- Feed a list of events to the machine, collecting what it shows. -/
def exec (step : Machine σ ε ω) : σ → List ε → Option (σ × List ω)
  | s, [] => some (s, [])
  | s, e :: es => do
      let (s', out) ← step s e
      let (s'', tr) ← exec step s' es
      return (s'', out ++ tr)

/-- Feed a list of events to the machine, passing over those it refuses. -/
def play (step : Machine σ ε ω) : σ → List ε → σ × List ω
  | s, [] => (s, [])
  | s, e :: es =>
      match step s e with
      | none => play step s es
      | some (s', out) => ((play step s' es).1, out ++ (play step s' es).2)

theorem play_some {step : Machine σ ε ω} {s s' : σ} {e : ε} {out : List ω}
    (h : step s e = some (s', out)) (es : List ε) :
    play step s (e :: es) = ((play step s' es).1, out ++ (play step s' es).2) := by
  rw [play, h]

theorem play_none {step : Machine σ ε ω} {s : σ} {e : ε} (h : step s e = none) (es : List ε) :
    play step s (e :: es) = play step s es := by
  rw [play, h]

/-- The machine that refuses the steps a test does not admit. -/
def guarded (step : Machine σ ε ω) (ok : σ → ε → Bool) : Machine σ ε ω :=
  fun s e => if ok s e then step s e else none

/-- An execution whose steps pass a test for the guard is a run. -/
theorem run_of_exec {step : Machine σ ε ω} {ok : σ → ε → Prop} {test : σ → ε → Bool}
    (htest : ∀ s e, test s e = true → ok s e) :
    ∀ {es : List ε} {s s' : σ} {tr : List ω}, exec (guarded step test) s es = some (s', tr) →
      Run step ok s tr s'
  | [], s, s', tr, h => by
      obtain ⟨rfl, rfl⟩ : s = s' ∧ [] = tr := by simpa [exec] using h
      exact .start
  | e :: es, s, s', tr, h => by
      simp only [exec, guarded, Option.bind_eq_bind, Option.bind_eq_some_iff, Option.pure_def,
        Option.some.injEq, Prod.mk.injEq, Prod.exists, Option.ite_none_right_eq_some] at h
      obtain ⟨s₁, out, ⟨hok, hs⟩, s₂, tr₂, hrest, rfl, rfl⟩ := h
      exact (Run.single (htest _ _ hok) hs).append (run_of_exec htest hrest)

/-- **Finding a run by evaluation.**  If the execution of some events ends with
`p`, there is a run that does. -/
theorem exists_run (step : Machine σ ε ω) (ok : σ → ε → Prop) (s : σ) (es : List ε)
    (p : List ω → σ → Bool) (test : σ → ε → Bool) (htest : ∀ s e, test s e = true → ok s e)
    (h : (exec (guarded step test) s es).any (fun r => p r.2 r.1) = true) :
    ∃ tr s', Run step ok s tr s' ∧ p tr s' = true := by
  obtain ⟨⟨s', tr⟩, hr, hp⟩ := (Option.any_eq_true _ _).mp h
  exact ⟨tr, s', run_of_exec htest hr, hp⟩

end Transition

/-
  Runs of a deterministic state machine `step : State → Action → State`.

  `run` folds a list of actions; `Along ok` says that every step of a run, taken in the state it
  starts from, satisfies `ok`.  The two rules package the induction over runs once: an invariant of
  every step (`run_inv`), and an invariant of the steps that satisfy `ok` (`Along.inv`).

  `noteStep` carries a history variable beside the state; it does not change the run.  `history`
  collects the operations of another machine that take effect along a run, and `simulates` is the
  induction that lets one machine follow the other.
-/
import Mathlib

namespace Lib.Transition

variable {State Action : Type} {step : State → Action → State}

/-- The state after a list of actions. -/
def run (step : State → Action → State) (s : State) (acts : List Action) : State :=
  acts.foldl step s

@[simp] theorem run_nil (s : State) : run step s [] = s := rfl

@[simp] theorem run_cons (s : State) (a : Action) (acts : List Action) :
    run step s (a :: acts) = run step (step s a) acts := rfl

theorem run_append (s : State) (acts acts' : List Action) :
    run step s (acts ++ acts') = run step (run step s acts) acts' := List.foldl_append

/-- Every step of the run satisfies `ok`. -/
def Along (step : State → Action → State) (ok : State → Action → Prop) : State → List Action → Prop
  | _, [] => True
  | s, a :: acts => ok s a ∧ Along step ok (step s a) acts

/-- `s` is reached from an initial state. -/
def Reachable (step : State → Action → State) (init : State → Prop) (s : State) : Prop :=
  ∃ s₀ acts, init s₀ ∧ run step s₀ acts = s

/-- **Invariant rule** for the runs whose steps satisfy `ok`. -/
theorem Along.inv {ok : State → Action → Prop} {Inv : State → Prop}
    (hstep : ∀ s a, Inv s → ok s a → Inv (step s a)) :
    ∀ {acts : List Action} {s : State}, Along step ok s acts → Inv s → Inv (run step s acts) := by
  intro acts
  induction acts with
  | nil => intro s _ h; exact h
  | cons a acts ih => intro s hok h; exact ih hok.2 (hstep s a h hok.1)

/-- A weaker condition holds along the same run. -/
theorem Along.mono {ok ok' : State → Action → Prop} (h : ∀ s a, ok s a → ok' s a) :
    ∀ {acts : List Action} {s : State}, Along step ok s acts → Along step ok' s acts := by
  intro acts
  induction acts with
  | nil => intro _ _; trivial
  | cons a acts ih => intro s hok; exact ⟨h s a hok.1, ih hok.2⟩

theorem Along.take {ok : State → Action → Prop} : ∀ {acts : List Action} {s : State},
    Along step ok s acts → ∀ n, Along step ok s (acts.take n) := by
  intro acts
  induction acts with
  | nil => intro _ _ n; rw [List.take_nil]; trivial
  | cons a acts ih =>
    intro s hok n
    cases n with
    | zero => trivial
    | succ n => exact ⟨hok.1, ih hok.2 n⟩

/-- What every step meets holds along every run. -/
theorem along_of_forall {ok : State → Action → Prop} (h : ∀ s a, ok s a) :
    ∀ (acts : List Action) (s : State), Along step ok s acts := by
  intro acts
  induction acts with
  | nil => intro _; trivial
  | cons a acts ih => intro s; exact ⟨h s a, ih _⟩

/-- **Invariant rule** for all runs. -/
theorem run_inv {Inv : State → Prop} (hstep : ∀ s a, Inv s → Inv (step s a)) (acts : List Action)
    {s : State} (h : Inv s) : Inv (run step s acts) :=
  Along.inv (fun s a hs (_ : True) => hstep s a hs)
    (along_of_forall (fun _ _ => trivial) acts s) h

/-- What holds initially and is kept by every step holds in every reachable state. -/
theorem Reachable.inv {init Inv : State → Prop} (hinit : ∀ s, init s → Inv s)
    (hstep : ∀ s a, Inv s → Inv (step s a)) {s : State} (h : Reachable step init s) : Inv s := by
  obtain ⟨s₀, acts, h₀, rfl⟩ := h
  exact run_inv hstep acts (hinit s₀ h₀)

/-! ## History variables -/

variable {Note : Type} {note : State → Action → Note → Note}

/-- The step, and what is noted about it. -/
def noteStep (step : State → Action → State) (note : State → Action → Note → Note)
    (p : State × Note) (a : Action) : State × Note := (step p.1 a, note p.1 a p.2)

/-- The notes do not change the run. -/
@[simp] theorem run_noteStep_fst (acts : List Action) (p : State × Note) :
    (run (noteStep step note) p acts).1 = run step p.1 acts := by
  induction acts generalizing p with
  | nil => rfl
  | cons a acts ih => exact ih _

/-- Noting something along the way changes no condition on the states. -/
theorem Along.noteStep {ok : State → Action → Prop} {acts : List Action} :
    ∀ {p : State × Note}, Along step ok p.1 acts →
      Along (Transition.noteStep step note) (fun p a => ok p.1 a) p acts := by
  induction acts with
  | nil => intro _ h; exact h
  | cons a acts ih => intro p h; exact ⟨h.1, ih h.2⟩

/-! ## Linearization points -/

variable {AState Op : Type} {astep : AState → Op → AState} {lin : State → Action → List Op}

/-- The abstract operations that take effect along a run. -/
def history (step : State → Action → State) (lin : State → Action → List Op) :
    State → List Action → List Op
  | _, [] => []
  | s, a :: acts => lin s a ++ history step lin (step s a) acts

/-- **Simulation rule**: if every step is followed by the operations that take effect in it, a run
    is followed by its history. -/
theorem simulates {R : State → AState → Prop}
    (hstep : ∀ s t a, R s t → R (step s a) (run astep t (lin s a))) (acts : List Action) :
    ∀ {s : State} {t : AState}, R s t →
      R (run step s acts) (run astep t (history step lin s acts)) := by
  induction acts with
  | nil => intro s t h; exact h
  | cons a acts ih =>
    intro s t h
    rw [history, run_append, run_cons]
    exact ih (hstep s t a h)

end Lib.Transition

/-
  Computations that write their intermediate results down.

  `Records x p r`: run with a log in which every entry has the property `p`, the computation `x` ends
  as `r` does and leaves such a log.  So `r` is what `x` computes, and `p` holds of every result on the
  way.  The rules follow the program text: one entry, a sequence, a loop.
-/
import Bedrock.Lib.Fallible
import Bedrock.Lib.Search

open Lib.Fallible Lib.Search

namespace Lib.Recorded

variable {ε α β γ σ : Type} {p : γ → Prop}

/-- A result, handed on and written down. -/
def note (c : γ) : EStateM ε (List γ) γ := fun log => .ok c (log ++ [c])

/-- **What a run records**: it comes to `r`, a value or an error, and everything it writes down
    satisfies `p`. -/
def Records (x : EStateM ε (List γ) α) (p : γ → Prop) (r : Except ε α) : Prop :=
  ∀ log, (∀ c ∈ log, p c) → Ensures x log (fun a log' => r = .ok a ∧ ∀ c ∈ log', p c)
    (fun e log' => r = .error e ∧ ∀ c ∈ log', p c)

/-- Noting something that satisfies the predicate. -/
theorem Records.note {c : γ} (hc : p c) : Records (ε := ε) (note c) p (.ok c) := by
  intro log hlog
  refine ⟨rfl, fun d hd => ?_⟩
  rcases List.mem_append.mp hd with hd | hd
  · exact hlog d hd
  · rw [List.mem_singleton.mp hd]
    exact hc

theorem Records.pure (a : α) : Records (ε := ε) (pure a) p (.ok a) := fun _ hlog => ⟨rfl, hlog⟩

theorem Records.lift (r : Except ε α) : Records (lift r) p r := by
  intro log hlog
  refine Ensures.lift (fun a h => ⟨h, hlog⟩) fun e h => ⟨h, hlog⟩

/-- The sequence rule. -/
theorem Records.bind {x : EStateM ε (List γ) α} {r : Except ε α} {f : α → EStateM ε (List γ) β}
    {g : α → Except ε β} (hx : Records x p r) (hf : ∀ a, r = .ok a → Records (f a) p (g a)) :
    Records (x >>= f) p (r >>= g) := by
  intro log hlog
  refine Ensures.bind ((hx log hlog).mono (fun _ _ h => h) fun e log' h => ?_) fun a log' h => ?_
  · obtain ⟨rfl, hlog'⟩ := h
    exact ⟨rfl, hlog'⟩
  · obtain ⟨rfl, hlog'⟩ := h
    exact hf a rfl log' hlog'

/-- The sequence rule behind a first half that returns. -/
theorem Records.bind_ok {x : EStateM ε (List γ) α} {a : α} {f : α → EStateM ε (List γ) β}
    {r : Except ε β} (hx : Records x p (.ok a)) (hf : Records (f a) p r) : Records (x >>= f) p r :=
  hx.bind (g := fun _ => r) fun _ ha => Except.ok.inj ha ▸ hf

/-- The loop rule, with an invariant of the loop that is recorded. -/
theorem Records.foldlM {step : σ → α → EStateM ε (List γ) σ} {f : σ → α → Except ε σ}
    (I : σ → Prop) : ∀ {l : List α} {s : σ}, I s →
    (∀ s, I s → ∀ a ∈ l, Records (step s a) p (f s a) ∧ ∀ s', f s a = .ok s' → I s') →
    Records (l.foldlM step s) p (l.foldlM f s) := by
  intro l
  induction l with
  | nil => intro s _ _; exact Records.pure s
  | cons a l ih =>
    intro s hs hstep
    rw [List.foldlM_cons, List.foldlM_cons]
    obtain ⟨hrec, hkeep⟩ := hstep s hs a List.mem_cons_self
    refine hrec.bind fun s' hs' => ih (hkeep s' hs') fun s'' hs'' b hb => ?_
    exact hstep s'' hs'' b (List.mem_cons_of_mem a hb)

/-- The same for a body that never raises. -/
theorem Records.foldl {step : σ → α → EStateM ε (List γ) σ} {f : σ → α → σ} (I : σ → Prop)
    {l : List α} {s : σ} (hs : I s)
    (hstep : ∀ s, I s → ∀ a ∈ l, Records (step s a) p (.ok (f s a)) ∧ I (f s a)) :
    Records (l.foldlM step s) p (.ok (l.foldl f s)) := by
  have hpure : l.foldlM (fun s a => (Except.ok (f s a) : Except ε σ)) s = .ok (l.foldl f s) :=
    List.foldlM_pure
  rw [← hpure]
  refine Records.foldlM I hs fun s hs a ha => ?_
  obtain ⟨hrec, hkeep⟩ := hstep s hs a ha
  exact ⟨hrec, fun s' hs' => Except.ok.inj hs' ▸ hkeep⟩

/-- A run from the empty log. -/
theorem Records.run {x : EStateM ε (List γ) α} {r : Except ε α} (h : Records x p r) :
    outcome (x []) = r ∧ ∀ c ∈ finalLog (x []), p c := by
  have hrun := h [] fun c hc => absurd hc List.not_mem_nil
  unfold Ensures at hrun
  cases hx : x [] with
  | ok a log =>
    rw [hx] at hrun
    exact ⟨hrun.1.symm, hrun.2⟩
  | error e log =>
    rw [hx] at hrun
    exact ⟨hrun.1.symm, hrun.2⟩

end Lib.Recorded

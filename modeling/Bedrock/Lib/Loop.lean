/-
  `while True` over a program that may raise and keeps a state.

  `forever body n` is the loop for at most `n` passes: the body hands out a result, and the loop is
  over, or it hands out none and goes round again.  `forever_ensures` is the rule for total
  correctness: a measure that every further pass lowers pays for the passes, so a loop that is given
  more of them than the measure says never uses them up.
-/
import Bedrock.Lib.Fallible

open Lib.Fallible

namespace Lib.Loop

variable {ε σ α : Type}

/-- `while True: body`; `none` when the passes are used up. -/
def forever (body : EStateM ε σ (Option α)) : Nat → EStateM ε σ (Option α)
  | 0 => pure none
  | n + 1 => do
    match ← body with
    | some a => return some a
    | none => forever body n

/-- One more unit of fuel pays for one more pass over the body. -/
theorem forever_succ (body : EStateM ε σ (Option α)) (n : Nat) (s : σ) :
    forever body (n + 1) s =
      match body s with
      | .ok (some a) s' => .ok (some a) s'
      | .ok none s' => forever body n s'
      | .error e s' => .error e s' := by
  show (body >>= _) s = _
  rw [run_bind]
  cases body s with
  | ok r s' =>
    cases r with
    | some a => rfl
    | none => rfl
  | error e s' => rfl

/-- **Loop rule**: one pass ends the loop in `Q`, raises in `E`, or keeps the invariant and lowers
    the measure; then a loop with enough passes ends in `Q` or raises in `E`. -/
theorem forever_ensures {body : EStateM ε σ (Option α)} {I : σ → Prop} {μ : σ → Nat}
    {Q : α → σ → Prop} {E : ε → σ → Prop}
    (hpass : ∀ s, I s → Ensures body s (fun r s' => match r with
      | some a => Q a s'
      | none => I s' ∧ μ s' < μ s) E) :
    ∀ {n : Nat} {s : σ}, I s → μ s < n →
      Ensures (forever body n) s (fun r s' => ∃ a, r = some a ∧ Q a s') E := by
  intro n
  induction n with
  | zero => intro s _ hn; omega
  | succ n ih =>
    intro s hs hn
    refine Ensures.bind (hpass s hs) fun r s' hr => ?_
    cases r with
    | some a => exact ⟨a, rfl, hr⟩
    | none =>
      obtain ⟨hs', hlt⟩ := hr
      exact ih hs' (by omega)

/-- Once the loop is over, more passes change nothing. -/
theorem forever_stable {body : EStateM ε σ (Option α)} :
    ∀ {n m : Nat} {s : σ}, n ≤ m → (∀ s', forever body n s ≠ .ok none s') →
      forever body m s = forever body n s := by
  intro n
  induction n with
  | zero => intro m s _ h; exact absurd rfl (h s)
  | succ n ih =>
    intro m s hm h
    obtain ⟨m, rfl⟩ : ∃ m', m = m' + 1 := ⟨m - 1, by omega⟩
    rw [forever_succ] at h ⊢
    rw [forever_succ]
    cases hbody : body s with
    | ok r s' =>
      rw [hbody] at h
      cases r with
      | some a => rfl
      | none => exact ih (by omega) h
    | error e s' => rfl

end Lib.Loop

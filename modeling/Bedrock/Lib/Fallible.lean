/-
  Reasoning about fallible programs: `Except ε` (may raise) and `EStateM ε σ` (may raise, keeps
  the state it had reached).

  1. **Inversion** — from `x >>= f = .ok b` (or `.error e`) get back what each half did.  Every
     proof about a modelled function peels its `do` block apart with these and never unfolds the
     monad itself.

  2. **Guards** — `raiseIf c e` is the statement `if c: raise e`, with its two outcomes as simp
     lemmas, so that a chain of checks reads back as a conjunction of conditions.  `Raises Q x` says
     what a computation may raise, rule by rule.

  3. **Loops** — `iterate_inv` / `foldlM_inv`: one step keeps an invariant, so the loop does;
     `mapM_ok` reads a list comprehension whose body may raise.
-/
import Mathlib

namespace Lib.Fallible

variable {ε σ α β : Type}

/-! ## `Except`: inversion of `bind` -/

@[simp] theorem ok_bind (a : α) (f : α → Except ε β) : (Except.ok a >>= f) = f a := rfl

@[simp] theorem error_bind (e : ε) (f : α → Except ε β) :
    ((Except.error e : Except ε α) >>= f) = Except.error e := rfl

@[simp] theorem pure_eq_ok (a : α) : (pure a : Except ε α) = Except.ok a := rfl

@[simp] theorem throw_eq_error (e : ε) : (throw e : Except ε α) = Except.error e := rfl

/-- A sequence returns exactly when both halves do. -/
theorem bind_eq_ok {x : Except ε α} {f : α → Except ε β} {b : β} :
    (x >>= f) = .ok b ↔ ∃ a, x = .ok a ∧ f a = .ok b := by
  cases x with
  | ok a => simp
  | error e => simp

/-- A sequence raises in its first half, or in its second after the first returned. -/
theorem bind_eq_error {x : Except ε α} {f : α → Except ε β} {e : ε} :
    (x >>= f) = .error e ↔ x = .error e ∨ ∃ a, x = .ok a ∧ f a = .error e := by
  cases x with
  | ok a => simp
  | error e' => simp

/-- Sequences that go on alike from what the first half returned are the same. -/
theorem bind_congr_ok {x : Except ε α} {f g : α → Except ε β} (h : ∀ a, x = .ok a → f a = g a) :
    (x >>= f) = (x >>= g) := by
  cases x with
  | ok a => exact h a rfl
  | error e => rfl

/-! ## Guards -/

/-- The statement `if c: raise e`. -/
def raiseIf (c : Prop) [Decidable c] (e : ε) : Except ε Unit :=
  if c then .error e else .ok ()

theorem raiseIf_pos {c : Prop} [Decidable c] {e : ε} (h : c) : raiseIf c e = .error e := if_pos h

theorem raiseIf_neg {c : Prop} [Decidable c] {e : ε} (h : ¬ c) : raiseIf c e = .ok () := if_neg h

/-- So a check that was passed is one whose condition failed. -/
@[simp] theorem raiseIf_eq_ok {c : Prop} [Decidable c] {e : ε} {u : Unit} :
    raiseIf c e = .ok u ↔ ¬ c := by
  by_cases h : c
  · rw [raiseIf_pos h]; simp [h]
  · rw [raiseIf_neg h]; simp [h]

@[simp] theorem raiseIf_eq_error {c : Prop} [Decidable c] {e e' : ε} :
    raiseIf c e = .error e' ↔ c ∧ e = e' := by
  by_cases h : c
  · rw [raiseIf_pos h]; simp [h]
  · rw [raiseIf_neg h]; simp [h]

/-! ## What can be raised -/

/-- Whatever the computation raises satisfies `Q`. -/
def Raises (Q : ε → Prop) (x : Except ε α) : Prop := ∀ e, x = .error e → Q e

section Raises

variable {Q Q' : ε → Prop}

theorem raises_ok (a : α) : Raises Q (.ok a : Except ε α) := fun _ h => nomatch h

theorem raises_error {e : ε} (h : Q e) : Raises Q (.error e : Except ε α) := by
  intro e' he'
  rwa [← Except.error.inj he']

/-- A sequence raises what its steps raise. -/
theorem raises_bind {x : Except ε α} {f : α → Except ε β} (hx : Raises Q x)
    (hf : ∀ a, Raises Q (f a)) : Raises Q (x >>= f) := by
  intro e h
  rcases bind_eq_error.mp h with h | ⟨a, _, h⟩
  · exact hx e h
  · exact hf a e h

theorem raises_raiseIf {c : Prop} [Decidable c] {e : ε} (h : Q e) : Raises Q (raiseIf c e) := by
  intro e' he'
  obtain ⟨-, rfl⟩ := raiseIf_eq_error.mp he'
  exact h

theorem Raises.imp {x : Except ε α} (hx : Raises Q x) (h : ∀ e, Q e → Q' e) : Raises Q' x :=
  fun e he => h e (hx e he)

end Raises

/-! ## Loops -/

/-- `step`, run `n` times: the body of `for _ in range(n)` over a loop state. -/
def iterate (step : σ → Except ε σ) : Nat → σ → Except ε σ
  | 0, s => .ok s
  | n + 1, s => step s >>= iterate step n

/-- **Loop rule**: an invariant indexed by the number of completed passes, kept by one pass, holds
    of what the loop returns. -/
theorem iterate_inv {step : σ → Except ε σ} {Inv : Nat → σ → Prop}
    (hstep : ∀ i s s', Inv i s → step s = .ok s' → Inv (i + 1) s') :
    ∀ {n i : Nat} {s s' : σ}, Inv i s → iterate step n s = .ok s' → Inv (i + n) s' := by
  intro n
  induction n with
  | zero =>
    intro i s s' h hrun
    obtain rfl : s = s' := Except.ok.inj hrun
    exact h
  | succ n ih =>
    intro i s s' h hrun
    obtain ⟨s₁, h₁, h₂⟩ := bind_eq_ok.mp hrun
    have hlast := ih (hstep i s s₁ h h₁) h₂
    rwa [show i + (n + 1) = i + 1 + n by omega]

/-- A loop that raises does so in one of its passes, from a state the invariant describes. -/
theorem iterate_error {step : σ → Except ε σ} {Inv : Nat → σ → Prop}
    (hstep : ∀ i s s', Inv i s → step s = .ok s' → Inv (i + 1) s') {e : ε} :
    ∀ {n i : Nat} {s : σ}, Inv i s → iterate step n s = .error e →
      ∃ j s', i ≤ j ∧ j < i + n ∧ Inv j s' ∧ step s' = .error e := by
  intro n
  induction n with
  | zero => intro i s _ hrun; cases hrun
  | succ n ih =>
    intro i s h hrun
    rcases bind_eq_error.mp hrun with hfail | ⟨s₁, h₁, h₂⟩
    · exact ⟨i, s, Nat.le_refl i, by omega, h, hfail⟩
    · obtain ⟨j, s', hj, hjn, hs', hfail⟩ := ih (hstep i s s₁ h h₁) h₂
      exact ⟨j, s', by omega, by omega, hs', hfail⟩

/-- A loop of `m + n` passes is a loop of `m` followed by one of `n`. -/
theorem iterate_add (step : σ → Except ε σ) :
    ∀ (m n : Nat) (s : σ), iterate step (m + n) s = iterate step m s >>= iterate step n := by
  intro m n
  induction m with
  | zero => intro s; rw [Nat.zero_add]; rfl
  | succ m ih =>
    intro s
    rw [Nat.succ_add]
    show step s >>= iterate step (m + n) = (step s >>= iterate step m) >>= iterate step n
    cases step s with
    | ok s' => exact ih s'
    | error e => rfl

/-- The fold counterpart of `iterate_inv`: the invariant speaks of the elements seen so far. -/
theorem foldlM_inv (Inv : List α → σ → Prop) {step : σ → α → Except ε σ} {l : List α}
    (hstep : ∀ seen a s s', a ∈ l → Inv seen s → step s a = .ok s' → Inv (seen ++ [a]) s')
    {s s' : σ} (h : Inv [] s) (hrun : l.foldlM step s = .ok s') : Inv l s' := by
  suffices hgen : ∀ (rest seen : List α) (s s' : σ), (∀ a ∈ rest, a ∈ l) → Inv seen s →
      rest.foldlM step s = .ok s' → Inv (seen ++ rest) s' from
    hgen l [] s s' (fun _ ha => ha) h hrun
  intro rest
  induction rest with
  | nil =>
    intro seen s s' _ h hrun
    obtain rfl : s = s' := Except.ok.inj hrun
    simpa using h
  | cons a rest ih =>
    intro seen s s' hl h hrun
    rw [List.foldlM_cons] at hrun
    obtain ⟨s₁, h₁, h₂⟩ := bind_eq_ok.mp hrun
    have hinv := hstep seen a s s₁ (hl a (List.mem_cons_self ..)) h h₁
    simpa using ih (seen ++ [a]) s₁ s' (fun b hb => hl b (List.mem_cons_of_mem a hb)) hinv h₂

/-- A fold whose body never raises from an invariant state returns a state satisfying it. -/
theorem foldlM_ok (step : σ → α → Except ε σ) (Inv : List α → σ → Prop) {l : List α}
    (hstep : ∀ seen a s, a ∈ l → Inv seen s → ∃ s', step s a = .ok s' ∧ Inv (seen ++ [a]) s')
    {s : σ} (h : Inv [] s) : ∃ s', l.foldlM step s = .ok s' ∧ Inv l s' := by
  suffices hgen : ∀ (rest seen : List α) (s : σ), (∀ a ∈ rest, a ∈ l) → Inv seen s →
      ∃ s', rest.foldlM step s = .ok s' ∧ Inv (seen ++ rest) s' from hgen l [] s (fun _ ha => ha) h
  intro rest
  induction rest with
  | nil => intro seen s _ h; exact ⟨s, rfl, by simpa using h⟩
  | cons a rest ih =>
    intro seen s hl h
    obtain ⟨s₁, h₁, hinv⟩ := hstep seen a s (hl a (List.mem_cons_self ..)) h
    obtain ⟨s', h₂, hinv'⟩ :=
      ih (seen ++ [a]) s₁ (fun b hb => hl b (List.mem_cons_of_mem a hb)) hinv
    refine ⟨s', ?_, by simpa using hinv'⟩
    rw [List.foldlM_cons, h₁]
    exact h₂

/-- What every failing pass raises, a failing fold raises. -/
theorem foldlM_error {P : ε → Prop} {step : σ → α → Except ε σ} :
    ∀ {l : List α} {s : σ} {e : ε}, (∀ a ∈ l, ∀ s e, step s a = .error e → P e) →
      l.foldlM step s = .error e → P e := by
  intro l
  induction l with
  | nil => intro s e _ hrun; cases hrun
  | cons a l ih =>
    intro s e hstep hrun
    rw [List.foldlM_cons] at hrun
    rcases bind_eq_error.mp hrun with hfail | ⟨s', _, hrest⟩
    · exact hstep a List.mem_cons_self s e hfail
    · exact ih (fun b hb => hstep b (List.mem_cons_of_mem a hb)) hrest

theorem raises_foldlM {Q : ε → Prop} {step : σ → α → Except ε σ} (h : ∀ s a, Raises Q (step s a))
    (l : List α) (s : σ) : Raises Q (l.foldlM step s) :=
  fun _ he => foldlM_error (fun a _ s e hstep => h s a e hstep) he

/-- A list comprehension whose body returns on every element. -/
theorem mapM_ok {f : α → Except ε β} {g : α → β} :
    ∀ {l : List α}, (∀ a ∈ l, f a = .ok (g a)) → l.mapM f = .ok (l.map g) := by
  intro l
  induction l with
  | nil => intro _; rfl
  | cons a l ih =>
    intro h
    rw [List.mapM_cons, h a (List.mem_cons_self ..), ih fun b hb => h b (List.mem_cons_of_mem a hb)]
    rfl

/-- A list comprehension returns when its body returns on every element, and otherwise raises what
    the body raises on one of them. -/
theorem mapM_cases {f : α → Except ε β} : ∀ l : List α,
    (∃ ys, l.mapM f = .ok ys ∧ ∀ a ∈ l, ∃ b, f a = .ok b) ∨
      ∃ a ∈ l, ∃ e, f a = .error e ∧ l.mapM f = .error e := by
  intro l
  induction l with
  | nil => exact Or.inl ⟨[], rfl, fun a ha => absurd ha List.not_mem_nil⟩
  | cons a l ih =>
    rw [List.mapM_cons]
    cases ha : f a with
    | error e => exact Or.inr ⟨a, List.mem_cons_self, e, ha, rfl⟩
    | ok b =>
      rcases ih with ⟨ys, hys, hall⟩ | ⟨a', ha', e, he, hfail⟩
      · refine Or.inl ⟨b :: ys, by rw [hys]; rfl, fun a' ha' => ?_⟩
        rcases List.mem_cons.mp ha' with rfl | ha'
        · exact ⟨b, ha⟩
        · exact hall a' ha'
      · exact Or.inr ⟨a', List.mem_cons_of_mem a ha', e, he, by rw [hfail]; rfl⟩

/-- A list comprehension that returned: the body returned on every element. -/
theorem mapM_eq_ok {f : α → Except ε β} {g : α → β} :
    ∀ {l : List α} {ys : List β}, (∀ a ∈ l, ∀ b, f a = .ok b → g a = b) → l.mapM f = .ok ys →
      (∀ a ∈ l, f a = .ok (g a)) ∧ ys = l.map g := by
  intro l
  induction l with
  | nil =>
    intro ys _ h
    obtain rfl := Except.ok.inj h
    exact ⟨fun a ha => absurd ha (List.not_mem_nil), rfl⟩
  | cons a l ih =>
    intro ys hg h
    rw [List.mapM_cons] at h
    obtain ⟨b, hb, h⟩ := bind_eq_ok.mp h
    obtain ⟨bs, hbs, h⟩ := bind_eq_ok.mp h
    obtain rfl := Except.ok.inj h
    have hab : g a = b := hg a (List.mem_cons_self ..) b hb
    obtain ⟨hall, rfl⟩ := ih (fun c hc => hg c (List.mem_cons_of_mem a hc)) hbs
    refine ⟨fun c hc => ?_, by rw [List.map_cons, hab]⟩
    rcases List.mem_cons.mp hc with rfl | hc
    · rw [hab]; exact hb
    · exact hall c hc

/-- Every element of a list comprehension was returned by the body. -/
theorem exists_of_mem_mapM {f : α → Except ε β} : ∀ {l : List α} {ys : List β}, l.mapM f = .ok ys →
    ∀ y ∈ ys, ∃ a, f a = .ok y := by
  intro l
  induction l with
  | nil =>
    intro ys h y hy
    obtain rfl := Except.ok.inj h
    exact absurd hy List.not_mem_nil
  | cons a l ih =>
    intro ys h y hy
    rw [List.mapM_cons] at h
    obtain ⟨b, hb, h⟩ := bind_eq_ok.mp h
    obtain ⟨bs, hbs, h⟩ := bind_eq_ok.mp h
    obtain rfl := Except.ok.inj h
    rcases List.mem_cons.mp hy with rfl | hy
    · exact ⟨a, hb⟩
    · exact ih hbs y hy

/-- A list comprehension over what another one returned, whose body makes `k a` of what the other body
    made of `a`. -/
theorem mapM_read_back {ε' γ : Type} {f : α → Except ε β} {g : β → Except ε' γ} {k : α → γ}
    (hback : ∀ a b, f a = .ok b → g b = .ok (k a)) :
    ∀ {l : List α} {ys : List β}, l.mapM f = .ok ys → ys.mapM g = .ok (l.map k) := by
  intro l
  induction l with
  | nil =>
    intro ys h
    obtain rfl := Except.ok.inj h
    rfl
  | cons a l ih =>
    intro ys h
    rw [List.mapM_cons] at h
    obtain ⟨b, hb, h⟩ := bind_eq_ok.mp h
    obtain ⟨bs, hbs, h⟩ := bind_eq_ok.mp h
    obtain rfl := Except.ok.inj h
    rw [List.mapM_cons, hback a b hb, ih hbs]
    rfl

/-- A `for` loop that only checks returns when every check does. -/
theorem forM_eq_ok {f : α → Except ε Unit} :
    ∀ {l : List α}, l.forM f = .ok () ↔ ∀ a ∈ l, f a = .ok () := by
  intro l
  induction l with
  | nil => exact ⟨fun _ a ha => absurd ha (List.not_mem_nil), fun _ => rfl⟩
  | cons a l ih =>
    rw [List.forM, bind_eq_ok, List.forall_mem_cons]
    constructor
    · rintro ⟨u, ha, hl⟩
      exact ⟨ha, ih.mp hl⟩
    · rintro ⟨ha, hl⟩
      exact ⟨(), ha, ih.mpr hl⟩

/-- `all(..)` over a body that returns on every element: it stops at the first false one, and says
    whether there is none. -/
theorem allM_ok {f : α → Except ε Bool} {g : α → Bool} :
    ∀ {l : List α}, (∀ a ∈ l, f a = .ok (g a)) → l.allM f = .ok (l.all g) := by
  intro l
  induction l with
  | nil => intro _; rfl
  | cons a l ih =>
    intro h
    rw [List.allM, h a (List.mem_cons_self ..), ok_bind, List.all_cons]
    cases ha : g a with
    | true => exact ih fun c hc => h c (List.mem_cons_of_mem a hc)
    | false => rfl

/-! ## `EStateM`: the same, with the state threaded -/

theorem run_bind (x : EStateM ε σ α) (f : α → EStateM ε σ β) (s : σ) :
    (x >>= f) s = match x s with
      | .ok a s' => f a s'
      | .error e s' => .error e s' := rfl

/-- Running past a first half that returns. -/
theorem run_bind_ok {x : EStateM ε σ α} {s s' : σ} {a : α} (h : x s = .ok a s')
    (f : α → EStateM ε σ β) : (x >>= f) s = f a s' := by
  rw [run_bind, h]

/-- Two sequences with one first half agree if their rests do wherever it returns. -/
theorem run_bind_congr {x : EStateM ε σ α} {f g : α → EStateM ε σ β} {s : σ}
    (h : ∀ a s', x s = .ok a s' → f a s' = g a s') : (x >>= f) s = (x >>= g) s := by
  rw [run_bind, run_bind]
  cases hrun : x s with
  | ok a s' => exact h a s' hrun
  | error e s' => rfl

/-- A stateful sequence returns exactly when both halves do. -/
theorem run_bind_eq_ok {x : EStateM ε σ α} {f : α → EStateM ε σ β} {s s'' : σ} {b : β} :
    (x >>= f) s = .ok b s'' ↔ ∃ a s', x s = .ok a s' ∧ f a s' = .ok b s'' := by
  rw [run_bind]
  cases x s with
  | ok a s' => simp
  | error e s' => simp

/-- A stateful sequence raises in its first half, or in its second after the first returned. -/
theorem run_bind_eq_error {x : EStateM ε σ α} {f : α → EStateM ε σ β} {s s'' : σ} {e : ε} :
    (x >>= f) s = .error e s'' ↔
      x s = .error e s'' ∨ ∃ a s', x s = .ok a s' ∧ f a s' = .error e s'' := by
  rw [run_bind]
  cases x s with
  | ok a s' => simp
  | error e' s' => simp

theorem run_get (s : σ) : (get : EStateM ε σ σ) s = .ok s s := rfl

/-- A pure fallible computation run inside a stateful one: the state is untouched. -/
def lift (x : Except ε α) : EStateM ε σ α := fun s =>
  match x with
  | .ok a => .ok a s
  | .error e => .error e s

@[simp] theorem lift_ok (a : α) (s : σ) : (lift (.ok a : Except ε α)) s = .ok a s := rfl

@[simp] theorem lift_error (e : ε) (s : σ) :
    (lift (.error e : Except ε α) : EStateM ε σ α) s = .error e s := rfl

theorem lift_ok_bind (a : α) (f : α → EStateM ε σ β) : (lift (.ok a) >>= f) = f a := rfl

/-- What a lifted computation returns it returns without the state. -/
theorem lift_eq_ok {x : Except ε α} {s s' : σ} {a : α} :
    lift x s = .ok a s' ↔ x = .ok a ∧ s = s' := by
  cases x with
  | ok b => simp
  | error e => simp

theorem lift_eq_error {x : Except ε α} {s s' : σ} {e : ε} :
    (lift x : EStateM ε σ α) s = .error e s' ↔ x = .error e ∧ s = s' := by
  cases x with
  | ok b => simp
  | error e' => simp

/-! ## Specifications of stateful computations -/

/-- Run from `s`, the computation returns in `Q` or raises in `E`. -/
def Ensures (x : EStateM ε σ α) (s : σ) (Q : α → σ → Prop) (E : ε → σ → Prop) : Prop :=
  match x s with
  | .ok a s' => Q a s'
  | .error e s' => E e s'

section Ensures

variable {x : EStateM ε σ α} {s : σ} {Q Q' : α → σ → Prop} {E E' : ε → σ → Prop}

theorem Ensures.of_ok {s' : σ} {a : α} (h : Ensures x s Q E) (hrun : x s = .ok a s') : Q a s' := by
  unfold Ensures at h; rwa [hrun] at h

theorem Ensures.of_error {s' : σ} {e : ε} (h : Ensures x s Q E) (hrun : x s = .error e s') :
    E e s' := by
  unfold Ensures at h; rwa [hrun] at h

/-- The consequence rule. -/
theorem Ensures.mono (h : Ensures x s Q E) (hQ : ∀ a s', Q a s' → Q' a s')
    (hE : ∀ e s', E e s' → E' e s') : Ensures x s Q' E' := by
  unfold Ensures at h ⊢
  cases hrun : x s with
  | ok a s' => rw [hrun] at h; exact hQ a s' h
  | error e s' => rw [hrun] at h; exact hE e s' h

/-- The sequence rule. -/
theorem Ensures.bind {f : α → EStateM ε σ β} {R : β → σ → Prop} (h : Ensures x s Q E)
    (hf : ∀ a s', Q a s' → Ensures (f a) s' R E) : Ensures (x >>= f) s R E := by
  unfold Ensures at h ⊢
  rw [run_bind]
  cases hrun : x s with
  | ok a s' => rw [hrun] at h; exact hf a s' h
  | error e s' => rw [hrun] at h; exact h

/-- The sequence rule behind a first half whose run is known. -/
theorem Ensures.bind_ok {f : α → EStateM ε σ β} {R : β → σ → Prop} {a : α} {s' : σ}
    (hrun : x s = .ok a s') (h : Ensures (f a) s' R E) : Ensures (x >>= f) s R E := by
  unfold Ensures at h ⊢
  rwa [run_bind_ok hrun]

theorem Ensures.pure {a : α} (h : Q a s) : Ensures (pure a) s Q E := h

theorem Ensures.throw {e : ε} (h : E e s) : Ensures (throw e : EStateM ε σ α) s Q E := h

theorem Ensures.lift {y : Except ε α} (hQ : ∀ a, y = .ok a → Q a s) (hE : ∀ e, y = .error e → E e s) :
    Ensures (lift y) s Q E := by
  unfold Ensures Fallible.lift
  cases y with
  | ok a => exact hQ a rfl
  | error e => exact hE e rfl

end Ensures

/-! ## Running a program on a concrete input -/

/-- The run returned, and what it returned passes the check. -/
def checks (p : α → σ → Bool) : EStateM.Result ε σ α → Bool
  | .ok a s => p a s
  | .error _ _ => false

/-- A check that was passed has a run behind it. -/
theorem exists_of_checks {p : α → σ → Bool} {r : EStateM.Result ε σ α} (h : checks p r = true) :
    ∃ a s, r = .ok a s ∧ p a s = true := by
  cases r with
  | ok a s => exact ⟨a, s, rfl, h⟩
  | error e s => exact absurd h (by simp [checks])

end Lib.Fallible

/-
  Threshold secret sharing over a field: the mathematics, with no program in sight.

  A secret is the value at `0` of a polynomial of degree `< t`; a share is its value at a nonzero
  point.  Three facts carry every argument about such a scheme.

  1. **Recovery** (`lagrangeAt_eq_eval`) — the Lagrange sum over any set of at least `t` distinct
     points of a degree-`< t` polynomial is that polynomial's value, at `0` or anywhere else.

  2. **Tampering shows** (`lagrangeAt_zero_ne`) — if all points but one lie on the polynomial, and
     no coordinate is `0`, the Lagrange sum at `0` is NOT the secret: the weight of every point is
     nonzero there, so one false share cannot be routed around.

  3. **Secrecy** (`existsUnique_masking`) — the shares at fewer than `t` nonzero points are consistent
     with every secret, through exactly one choice of the other coefficients.

  `hornerPoly` is the polynomial a coefficient list stands for, evaluated by Horner's rule.
-/
import Mathlib

open Polynomial

namespace Lib.Interpolation

variable {F : Type} [Field F] {ι : Type} [DecidableEq ι]

/-! ## The Lagrange sum -/

/-- The Lagrange sum of the points `(x i, y i)`, `i ∈ s`, at the query `q`. -/
def lagrangeAt (s : Finset ι) (x y : ι → F) (q : F) : F :=
  ∑ i ∈ s, y i * ∏ k ∈ s.erase i, (q - x k) / (x i - x k)

/-- The sum is the interpolation polynomial's value — as an identity of terms, whatever the
    coordinates. -/
theorem lagrangeAt_eq_interpolate (s : Finset ι) (x y : ι → F) (q : F) :
    lagrangeAt s x y q = (Lagrange.interpolate s x y).eval q := by
  rw [Lagrange.interpolate_apply, eval_finsetSum, lagrangeAt]
  refine Finset.sum_congr rfl fun i _ => ?_
  rw [eval_mul, eval_C, Lagrange.basis, eval_prod]
  congr 1
  refine Finset.prod_congr rfl fun k _ => ?_
  rw [Lagrange.basisDivisor, eval_mul, eval_C, eval_sub, eval_X, eval_C, div_eq_inv_mul]

/-- **Recovery**: on the points of a polynomial of degree below their number, the Lagrange sum is
    the polynomial's own value. -/
theorem lagrangeAt_eq_eval {s : Finset ι} {x y : ι → F} {f : F[X]} (hx : Set.InjOn x s)
    (hdeg : f.degree < s.card) (hy : ∀ i ∈ s, y i = f.eval (x i)) (q : F) :
    lagrangeAt s x y q = f.eval q := by
  have hf : f = Lagrange.interpolate s x y :=
    Lagrange.eq_interpolate_of_eval_eq y hx hdeg fun i hi => (hy i hi).symm
  rw [lagrangeAt_eq_interpolate, ← hf]

/-- The sum is linear in the values: it only sees the difference of two value vectors. -/
theorem lagrangeAt_sub (s : Finset ι) (x y y' : ι → F) (q : F) :
    lagrangeAt s x y q - lagrangeAt s x y' q = lagrangeAt s x (fun i => y i - y' i) q := by
  rw [lagrangeAt, lagrangeAt, lagrangeAt, ← Finset.sum_sub_distrib]
  exact Finset.sum_congr rfl fun _ _ => by rw [sub_mul]

/-- With nonzero, distinct coordinates the weight of every point at `0` is nonzero. -/
theorem weight_zero_ne {s : Finset ι} {x : ι → F} (hx : Set.InjOn x s) (h0 : ∀ i ∈ s, x i ≠ 0)
    {j : ι} (hj : j ∈ s) : ∏ k ∈ s.erase j, (0 - x k) / (x j - x k) ≠ 0 := by
  refine Finset.prod_ne_zero_iff.mpr fun k hk => ?_
  obtain ⟨hkj, hks⟩ := Finset.mem_erase.mp hk
  have hnum : (0 : F) - x k ≠ 0 := by
    rw [zero_sub]; exact neg_ne_zero.mpr (h0 k hks)
  have hden : x j - x k ≠ 0 := sub_ne_zero.mpr fun h => hkj (hx hks hj h.symm)
  exact div_ne_zero hnum hden

/-- **Tampering shows**: one false value among the points of a polynomial moves the sum at `0`. -/
theorem lagrangeAt_zero_ne {s : Finset ι} {x y : ι → F} {f : F[X]} (hx : Set.InjOn x s)
    (h0 : ∀ i ∈ s, x i ≠ 0) (hdeg : f.degree < s.card) {j : ι} (hj : j ∈ s)
    (hgood : ∀ i ∈ s, i ≠ j → y i = f.eval (x i)) (hbad : y j ≠ f.eval (x j)) :
    lagrangeAt s x y 0 ≠ f.eval 0 := by
  have hsub := lagrangeAt_sub s x y (fun i => f.eval (x i)) 0
  rw [lagrangeAt_eq_eval hx hdeg (fun _ _ => rfl) 0] at hsub
  -- every difference but the one at `j` vanishes, so the sum is that one weighted difference
  have honly : lagrangeAt s x (fun i => y i - f.eval (x i)) 0 =
      (y j - f.eval (x j)) * ∏ k ∈ s.erase j, (0 - x k) / (x j - x k) := by
    refine Finset.sum_eq_single_of_mem j hj fun i hi hij => ?_
    show (y i - f.eval (x i)) * _ = 0
    rw [hgood i hi hij, sub_self, zero_mul]
  rw [honly] at hsub
  exact sub_ne_zero.mp (hsub ▸ mul_ne_zero (sub_ne_zero.mpr hbad) (weight_zero_ne hx h0 hj))

/-! ## Polynomials given by a coefficient list -/

/-- The polynomial with coefficients `cs`, constant term first. -/
noncomputable def hornerPoly : List F → F[X]
  | [] => 0
  | c :: cs => C c + X * hornerPoly cs

/-- Horner's rule evaluates it, from the last coefficient back. -/
theorem eval_hornerPoly (cs : List F) (q : F) :
    (hornerPoly cs).eval q = cs.foldr (fun c acc => acc * q + c) 0 := by
  induction cs with
  | nil => simp [hornerPoly]
  | cons c cs ih =>
    rw [hornerPoly, eval_add, eval_C, eval_mul, eval_X, ih, List.foldr_cons]
    ring

theorem eval_hornerPoly_zero (c : F) (cs : List F) : (hornerPoly (c :: cs)).eval 0 = c := by
  simp [hornerPoly]

/-- A list of coefficients gives a polynomial of smaller degree than its length. -/
theorem degree_hornerPoly_lt (cs : List F) : (hornerPoly cs).degree < cs.length := by
  induction cs with
  | nil => simp [hornerPoly]
  | cons c cs ih =>
    rw [hornerPoly, List.length_cons]
    have hC : (C c : F[X]).degree < ((cs.length + 1 : ℕ) : WithBot ℕ) :=
      lt_of_le_of_lt degree_C_le (by exact_mod_cast Nat.succ_pos _)
    have hX : (X * hornerPoly cs).degree < ((cs.length + 1 : ℕ) : WithBot ℕ) := by
      rw [mul_comm, degree_mul_X]
      rcases eq_or_ne (hornerPoly cs) 0 with h0 | h0
      · rw [h0]; simp
      · rw [degree_eq_natDegree h0] at ih ⊢
        have : (hornerPoly cs).natDegree < cs.length := by exact_mod_cast ih
        exact_mod_cast Nat.succ_lt_succ this
    exact lt_of_le_of_lt (degree_add_le _ _) (max_lt hC hX)

/-! ## Secrecy -/

/-- The coefficients of the polynomial are the list, zero behind its end. -/
theorem coeff_hornerPoly (cs : List F) (i : ℕ) : (hornerPoly cs).coeff i = cs.getD i 0 := by
  induction cs generalizing i with
  | nil => simp [hornerPoly]
  | cons c cs ih =>
    rw [hornerPoly, coeff_add]
    cases i with
    | zero => simp
    | succ i => rw [coeff_C_succ, coeff_X_mul, zero_add, ih, List.getD_cons_succ]

/-- The polynomial determines a coefficient list of a given length. -/
theorem hornerPoly_inj {cs cs' : List F} (hlen : cs.length = cs'.length)
    (h : hornerPoly cs = hornerPoly cs') : cs = cs' := by
  refine List.ext_getElem hlen fun i hi hi' => ?_
  have hcoeff : (hornerPoly cs).coeff i = (hornerPoly cs').coeff i := by rw [h]
  rwa [coeff_hornerPoly, coeff_hornerPoly, List.getD_eq_getElem _ _ hi,
    List.getD_eq_getElem _ _ hi'] at hcoeff

/-- Every polynomial of degree `< n` has a coefficient list of length `n`. -/
theorem exists_hornerPoly {f : F[X]} {n : ℕ} (h : f.degree < n) :
    ∃ cs : List F, cs.length = n ∧ hornerPoly cs = f := by
  refine ⟨(List.range n).map f.coeff, by rw [List.length_map, List.length_range], ?_⟩
  ext i
  rw [coeff_hornerPoly]
  by_cases hi : i < n
  · rw [List.getD_eq_getElem _ _ (by rwa [List.length_map, List.length_range]), List.getElem_map,
      List.getElem_range]
  · rw [List.getD_eq_default _ _ (by rw [List.length_map, List.length_range]; omega)]
    exact (coeff_eq_zero_of_degree_lt (lt_of_lt_of_le h (by exact_mod_cast not_lt.mp hi))).symm

/-- Values at distinct points determine as many coefficients. -/
theorem existsUnique_coeffs {s : Finset ι} {x : ι → F} (hx : Set.InjOn x s) (y : ι → F) :
    ∃! cs : List F, cs.length = s.card ∧ ∀ i ∈ s, (hornerPoly cs).eval (x i) = y i := by
  obtain ⟨cs, hlen, hcs⟩ := exists_hornerPoly (Lagrange.degree_interpolate_lt y hx)
  refine ⟨cs, ⟨hlen, fun i hi => ?_⟩, ?_⟩
  · rw [hcs]
    exact Lagrange.eval_interpolate_at_node y hx hi
  · rintro cs' ⟨hlen', hvalues⟩
    have hdeg : (hornerPoly cs').degree < s.card := hlen' ▸ degree_hornerPoly_lt cs'
    refine hornerPoly_inj (hlen'.trans hlen.symm) (Eq.trans ?_ hcs.symm)
    exact Lagrange.eq_interpolate_of_eval_eq y hx hdeg hvalues

/-- **Secrecy**: below the threshold — `s` holds one point less than there are coefficients, the
    secret included — the values at `s` are consistent with every secret `c`, through exactly one
    choice of the other coefficients.  No point may be `0`, where the secret itself is read. -/
theorem existsUnique_masking {s : Finset ι} {x : ι → F} (hx : Set.InjOn x s)
    (h0 : ∀ i ∈ s, x i ≠ 0) (c : F) (y : ι → F) :
    ∃! cs : List F, cs.length = s.card ∧ ∀ i ∈ s, (hornerPoly (c :: cs)).eval (x i) = y i := by
  -- taking the secret away and dividing by the point leaves an interpolation problem
  have hvalue : ∀ (cs : List F), ∀ i ∈ s, (hornerPoly (c :: cs)).eval (x i) = y i ↔
      (hornerPoly cs).eval (x i) = (y i - c) / x i := by
    intro cs i hi
    rw [hornerPoly, eval_add, eval_C, eval_mul, eval_X, eq_div_iff (h0 i hi), eq_sub_iff_add_eq,
      add_comm, mul_comm]
  obtain ⟨cs, ⟨hlen, hcs⟩, hunique⟩ := existsUnique_coeffs hx fun i => (y i - c) / x i
  refine ⟨cs, ⟨hlen, fun i hi => (hvalue cs i hi).mpr (hcs i hi)⟩, ?_⟩
  rintro cs' ⟨hlen', hcs'⟩
  exact hunique cs' ⟨hlen', fun i hi => (hvalue cs' i hi).mp (hcs' i hi)⟩

end Lib.Interpolation

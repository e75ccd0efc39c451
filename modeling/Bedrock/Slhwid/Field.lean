/-
  `slhwid/core.py`, field arithmetic: the operations of GF(2^61-1) on Python integers, and the two
  interpolation routines written with them.

  1. **Program** — `addmod`, `submod`, `mulmod`, `invmod` reduce by one conditional subtraction or a
     `%`, so they mean what they should only on reduced operands; `lagrangeAtZero` and `evaluateAt`
     are two nested loops over the coordinates that differ in the factor they multiply up, hence one
     definition `interpolateWith` applied to two pairs of factors.

  2. **Specification** — each operation, cast to `ZMod P`, is the field operation, and its result is
     reduced.  `P` is prime (Lucas–Lehmer), so `ZMod P` is a field and `invmod` inverts everything
     but `0`, where `pow(0, -1, P)` raises.

  3. **Correctness** — `evaluateAt_ok` and `lagrangeAtZero_ok`: on distinct coordinates both loops
     return, below `P`, the Lagrange sum of `Lib.Interpolation`.
-/
import Bedrock.Lib.Interpolation
import Bedrock.Python.Str

open Lib.Fallible Lib.Interpolation Bedrock.Python

namespace Bedrock.Slhwid

/-- The modulus, the Mersenne prime `2^61 - 1`. -/
def P : Nat := (1 <<< 61) - 1

theorem P_eq : P = 2305843009213693951 := by decide

/-- **The modulus is prime**: the Mersenne prime of exponent 61. -/
theorem P_prime : P.Prime := by
  have h : P = mersenne 61 := by decide
  rw [h]
  exact lucas_lehmer_sufficiency 61 (by norm_num) (by norm_num)

instance : Fact P.Prime := ⟨P_prime⟩

theorem P_pos : 0 < P := P_prime.pos

/-! ## The field operations -/

/-- `addmod`: one subtraction reduces the sum of two reduced numbers. -/
def addmod (a b : Nat) : Nat :=
  let s := a + b
  if s ≥ P then s - P else s

/-- `submod`. -/
def submod (a b : Nat) : Nat := if a ≥ b then a - b else a + P - b

/-- `mulmod`. -/
def mulmod (a b : Nat) : Nat := a * b % P

/-- `pow(a, e, P)` by repeated squaring, for an exponent of at most `bits` bits. -/
def powmod : Nat → Nat → Nat → Nat
  | 0, _, _ => 1
  | bits + 1, a, e =>
    let h := powmod bits (mulmod a a) (e / 2)
    if e % 2 = 1 then mulmod a h else h

/-- `pow(a, -1, P)`: the inverse, computed as `a^(P-2)`; `ValueError` when there is none. -/
def invmod (a : Nat) : Except Exc Nat :=
  if a % P = 0 then .error (.valueError "base is not invertible for the given modulus")
  else .ok (powmod 61 a (P - 2))

theorem addmod_lt {a b : Nat} (ha : a < P) (hb : b < P) : addmod a b < P := by
  unfold addmod; dsimp only; split <;> omega

theorem mulmod_lt (a b : Nat) : mulmod a b < P := Nat.mod_lt _ P_pos

@[simp] theorem cast_P : (P : ZMod P) = 0 := ZMod.natCast_self P

@[simp] theorem cast_addmod (a b : Nat) : (addmod a b : ZMod P) = a + b := by
  unfold addmod; dsimp only; split
  · rw [Nat.cast_sub (by assumption)]; simp
  · simp

@[simp] theorem cast_submod {a b : Nat} (hb : b < P) : (submod a b : ZMod P) = a - b := by
  unfold submod; split
  · rw [Nat.cast_sub (by assumption)]
  · rw [Nat.cast_sub (by omega)]; simp

@[simp] theorem cast_mulmod (a b : Nat) : (mulmod a b : ZMod P) = a * b := by
  rw [mulmod, ZMod.natCast_mod]; simp

theorem cast_powmod (bits a e : Nat) (he : e < 2 ^ bits) : (powmod bits a e : ZMod P) = a ^ e := by
  induction bits generalizing a e with
  | zero =>
    obtain rfl : e = 0 := by omega
    simp [powmod]
  | succ bits ih =>
    have hhalf : e / 2 < 2 ^ bits := by rw [Nat.pow_succ] at he; omega
    have hsq : ((mulmod a a : Nat) : ZMod P) ^ (e / 2) = (a : ZMod P) ^ (2 * (e / 2)) := by
      rw [cast_mulmod, pow_mul, pow_two]
    rw [powmod]
    split
    · rename_i hodd
      rw [cast_mulmod, ih _ _ hhalf, hsq, ← pow_succ']
      congr 1; omega
    · rename_i heven
      rw [ih _ _ hhalf, hsq]
      congr 1; omega

/-- Powers are reduced. -/
theorem powmod_lt (bits a e : Nat) : powmod bits a e < P := by
  induction bits generalizing a e with
  | zero => rw [powmod, P_eq]; omega
  | succ bits ih =>
    rw [powmod]
    split
    · exact mulmod_lt _ _
    · exact ih _ _

/-- A reduced number is zero in the field only when it is `0`. -/
theorem cast_eq_zero_iff {a : Nat} (ha : a < P) : (a : ZMod P) = 0 ↔ a = 0 := by
  rw [ZMod.natCast_eq_zero_iff]
  exact ⟨fun h => Nat.eq_zero_of_dvd_of_lt h ha, fun h => h ▸ dvd_zero _⟩

/-- Reduced numbers are equal in the field only when they are equal. -/
theorem cast_inj {a b : Nat} (ha : a < P) (hb : b < P) (h : (a : ZMod P) = b) : a = b := by
  have := (ZMod.natCast_eq_natCast_iff' a b P).mp h
  rwa [Nat.mod_eq_of_lt ha, Nat.mod_eq_of_lt hb] at this

/-- **`pow(a, -1, P)`**: off zero it returns, reduced, the field inverse. -/
theorem invmod_ok {a : Nat} (h : (a : ZMod P) ≠ 0) :
    ∃ v, invmod a = .ok v ∧ v < P ∧ (v : ZMod P) = (a : ZMod P)⁻¹ := by
  have hne : a % P ≠ 0 := fun h0 =>
    h ((ZMod.natCast_eq_zero_iff a P).mpr (Nat.dvd_of_mod_eq_zero h0))
  refine ⟨powmod 61 a (P - 2), if_neg hne, powmod_lt _ _ _, ?_⟩
  rw [cast_powmod _ _ _ (by rw [P_eq]; norm_num)]
  refine eq_inv_of_mul_eq_one_left ?_
  rw [← pow_succ, show P - 2 + 1 = P - 1 by rw [P_eq]]
  exact ZMod.pow_card_sub_one_eq_one h

/-! ## The interpolation loops -/

/-- The inner loop, `for k in range(n)` skipping `k == j`: the products of the two factors. -/
def fraction (num den : Nat → Nat) (n j : Nat) : Nat × Nat :=
  (List.range n).foldl
    (fun p k => if k = j then p else (mulmod p.1 (num k), mulmod p.2 (den k))) (1, 1)

/-- The outer loop: `total` collects `ys[j] * (num / den)` over the points. -/
def interpolateWith (num : Nat → Nat) (den : Nat → Nat → Nat) (ys : List Nat) (n : Nat) :
    Except Exc Nat :=
  (List.range n).foldlM
    (fun total j => do
      let f := fraction num (den j) n j
      let inv ← invmod f.2
      return addmod total (mulmod ys[j]! (mulmod f.1 inv))) 0

/-- `_lagrange_at_zero`. -/
def lagrangeAtZero (xs ys : List Nat) : Except Exc Nat :=
  interpolateWith (fun k => xs[k]!) (fun j k => submod xs[k]! xs[j]!) ys xs.length

/-- `_evaluate_at`. -/
def evaluateAt (xs ys : List Nat) (xq : Nat) : Except Exc Nat :=
  interpolateWith (fun k => submod xq xs[k]!) (fun j k => submod xs[j]! xs[k]!) ys xs.length

/-- Skipping an index in the loop is leaving it out of the product. -/
theorem prod_skip (f : Nat → ZMod P) (n j : Nat) :
    ∏ k ∈ Finset.range n, (if k = j then 1 else f k) = ∏ k ∈ (Finset.range n).erase j, f k := by
  rw [← Finset.prod_erase (a := j) (Finset.range n) (by rw [if_pos rfl])]
  exact Finset.prod_congr rfl fun k hk => if_neg (Finset.ne_of_mem_erase hk)

/-- The inner loop computes the two products. -/
theorem cast_fraction (num den : Nat → Nat) (n j : Nat) :
    ((fraction num den n j).1 : ZMod P) = ∏ k ∈ (Finset.range n).erase j, (num k : ZMod P) ∧
    ((fraction num den n j).2 : ZMod P) = ∏ k ∈ (Finset.range n).erase j, (den k : ZMod P) := by
  rw [← prod_skip, ← prod_skip]
  induction n with
  | zero => simp [fraction]
  | succ n ih =>
    have hstep : fraction num den (n + 1) j =
        if n = j then fraction num den n j
        else (mulmod (fraction num den n j).1 (num n), mulmod (fraction num den n j).2 (den n)) := by
      rw [fraction, List.range_succ, List.foldl_append]
      rfl
    rw [hstep, Finset.prod_range_succ, Finset.prod_range_succ, ← ih.1, ← ih.2]
    by_cases h : n = j
    · simp [h]
    · simp [h]

/-- **The loops' value**: where no denominator factor vanishes, they return a reduced number that
    is the sum of the weighted ordinates. -/
theorem interpolateWith_ok (num : Nat → Nat) (den : Nat → Nat → Nat) (ys : List Nat) {n : Nat}
    (hden : ∀ j < n, ∀ k < n, k ≠ j → (den j k : ZMod P) ≠ 0) :
    ∃ v, interpolateWith num den ys n = .ok v ∧ v < P ∧
      (v : ZMod P) = ∑ j ∈ Finset.range n, (ys[j]! : ZMod P) *
        ∏ k ∈ (Finset.range n).erase j, (num k : ZMod P) / (den j k : ZMod P) := by
  -- the summand of the interpolation formula, in the field
  let term : Nat → ZMod P := fun j => (ys[j]! : ZMod P) *
    ∏ k ∈ (Finset.range n).erase j, (num k : ZMod P) / (den j k : ZMod P)
  obtain ⟨v, hv, hlt, hsum⟩ := foldlM_ok
    (fun total j => do
      let f := fraction num (den j) n j
      let inv ← invmod f.2
      return addmod total (mulmod ys[j]! (mulmod f.1 inv)))
    (fun seen total => total < P ∧ (total : ZMod P) = (seen.map term).sum)
    -- the invariant of the outer loop: the total is reduced, and is the sum over what was done
    (l := List.range n) (s := 0) (fun seen j total hj hinv => by
      obtain ⟨hf₁, hf₂⟩ := cast_fraction num (den j) n j
      have hne : ((fraction num (den j) n j).2 : ZMod P) ≠ 0 := by
        rw [hf₂]
        refine Finset.prod_ne_zero_iff.mpr fun k hk => ?_
        obtain ⟨hkj, hkn⟩ := Finset.mem_erase.mp hk
        exact hden j (List.mem_range.mp hj) k (Finset.mem_range.mp hkn) hkj
      obtain ⟨i, hi, hiP, hicast⟩ := invmod_ok hne
      refine ⟨addmod total (mulmod ys[j]! (mulmod (fraction num (den j) n j).1 i)), ?_, ?_, ?_⟩
      · show (invmod (fraction num (den j) n j).2 >>= _) = _
        rw [hi]; rfl
      · exact addmod_lt hinv.1 (mulmod_lt _ _)
      · rw [cast_addmod, cast_mulmod, cast_mulmod, hinv.2, hicast, hf₁, hf₂, List.map_append,
          List.sum_append, ← Finset.prod_inv_distrib, ← Finset.prod_mul_distrib]
        simp [term, div_eq_mul_inv])
    ⟨P_pos, by simp⟩
  exact ⟨v, hv, hlt, hsum⟩

/-! ## Both routines are the Lagrange sum -/

/-- The coordinates as field elements. -/
abbrev coord (xs : List Nat) (k : Nat) : ZMod P := (xs[k]! : ZMod P)

/-- Distinct reduced coordinates stay distinct in the field. -/
theorem coord_injOn {xs : List Nat} (hlt : ∀ x ∈ xs, x < P) (hnd : xs.Nodup) :
    Set.InjOn (coord xs) (Finset.range xs.length : Finset Nat) := by
  intro i hi j hj h
  have hi' : i < xs.length := Finset.mem_range.mp hi
  have hj' : j < xs.length := Finset.mem_range.mp hj
  simp only [coord] at h
  rw [getElem!_pos xs i hi', getElem!_pos xs j hj'] at h
  exact (List.Nodup.getElem_inj_iff hnd).mp
    (cast_inj (hlt _ (List.getElem_mem hi')) (hlt _ (List.getElem_mem hj')) h)

theorem getElem!_lt {xs : List Nat} (hlt : ∀ x ∈ xs, x < P) (k : Nat) : xs[k]! < P := by
  by_cases hk : k < xs.length
  · rw [getElem!_pos xs k hk]; exact hlt _ (List.getElem_mem hk)
  · rw [getElem!_neg xs k hk]; exact P_pos

/-- Two different coordinates have a nonzero difference. -/
theorem submod_ne_zero {xs : List Nat} (hlt : ∀ x ∈ xs, x < P) (hnd : xs.Nodup) {j k : Nat}
    (hj : j < xs.length) (hk : k < xs.length) (hjk : j ≠ k) :
    ((submod xs[j]! xs[k]! : Nat) : ZMod P) ≠ 0 := by
  rw [cast_submod (getElem!_lt hlt k)]
  refine sub_ne_zero.mpr fun h => hjk ?_
  exact coord_injOn hlt hnd (Finset.mem_range.mpr hj) (Finset.mem_range.mpr hk) h

/-- **`_evaluate_at`** is the Lagrange sum at the query point. -/
theorem evaluateAt_ok {xs : List Nat} (ys : List Nat) (xq : Nat) (hlt : ∀ x ∈ xs, x < P) (hnd : xs.Nodup) :
    ∃ v, evaluateAt xs ys xq = .ok v ∧ v < P ∧
      (v : ZMod P) = lagrangeAt (Finset.range xs.length) (coord xs) (coord ys) xq := by
  obtain ⟨v, hv, hvP, hcast⟩ := interpolateWith_ok (fun k => submod xq xs[k]!)
    (fun j k => submod xs[j]! xs[k]!) ys (n := xs.length)
    (fun j hj k hk hkj => submod_ne_zero hlt hnd hj hk hkj.symm)
  refine ⟨v, hv, hvP, hcast.trans ?_⟩
  refine Finset.sum_congr rfl fun j _ => ?_
  congr 1
  refine Finset.prod_congr rfl fun k _ => ?_
  rw [cast_submod (getElem!_lt hlt k), cast_submod (getElem!_lt hlt k)]

/-- **`_lagrange_at_zero`** is the Lagrange sum at `0`: it writes both differences the other way
    round, and the two signs cancel. -/
theorem lagrangeAtZero_ok {xs : List Nat} (ys : List Nat) (hlt : ∀ x ∈ xs, x < P) (hnd : xs.Nodup) :
    ∃ v, lagrangeAtZero xs ys = .ok v ∧ v < P ∧
      (v : ZMod P) = lagrangeAt (Finset.range xs.length) (coord xs) (coord ys) 0 := by
  obtain ⟨v, hv, hvP, hcast⟩ := interpolateWith_ok (fun k => xs[k]!)
    (fun j k => submod xs[k]! xs[j]!) ys (n := xs.length)
    (fun j hj k hk hkj => submod_ne_zero hlt hnd hk hj hkj)
  refine ⟨v, hv, hvP, hcast.trans ?_⟩
  refine Finset.sum_congr rfl fun j _ => ?_
  congr 1
  refine Finset.prod_congr rfl fun k _ => ?_
  rw [cast_submod (getElem!_lt hlt j), zero_sub, ← neg_sub (coord xs k), neg_div_neg_eq]

example : lagrangeAtZero [1, 2, 3] [10, 13, 18] = .ok 9 := by decide +kernel
example : evaluateAt [1, 2, 3] [10, 13, 18] 5 = .ok 34 := by decide +kernel

end Bedrock.Slhwid

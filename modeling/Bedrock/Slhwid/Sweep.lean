/-
  What the sweep finds.

  1. **Points** — on distinct nonzero coordinates `keyFromPoints` never raises.  Points of the
     sharing polynomials give the key (`keyFromPoints_onCurve`); with ONE false point among them they
     give another key (`keyFromPoints_tampered`).

  2. **The search** — `findRecoveringSubset_ok`: the sweep is sound and COMPLETE.  What it returns is
     a `t`-point set through all mandatory points with the wanted check word, and when it returns
     nothing no such set has it.
-/
import Bedrock.Slhwid.Recover

open Lib.Fallible Lib.Combinations Lib.Interpolation Bedrock.Python Polynomial

namespace Bedrock.Slhwid

/-! ## Points -/

/-- The point lies on the four limb polynomials. -/
def Point.OnCurve (poly : Fin 4 → (ZMod P)[X]) (p : Point) : Prop :=
  ∀ i, (p.share i : ZMod P) = (poly i).eval (p.x : ZMod P)

/-- Coordinates that interpolation at `0` can use: nonzero, reduced and distinct. -/
structure Separated (points : List Point) : Prop where
  /-- No coordinate is zero or unreduced. -/
  range : ∀ p ∈ points, p.x ≠ 0 ∧ p.x < P
  /-- No two are the same. -/
  nodup : (points.map Point.x).Nodup

theorem Separated.sublist {l l' : List Point} (h : Separated l') (hsub : l.Sublist l') :
    Separated l where
  range := fun p hp => h.range p (hsub.subset hp)
  nodup := h.nodup.sublist (hsub.map _)

/-- Their coordinates are reduced. -/
theorem Separated.lt {points : List Point} (h : Separated points) :
    ∀ x ∈ points.map Point.x, x < P := by
  intro x hx
  obtain ⟨p, hp, rfl⟩ := List.mem_map.mp hx
  exact (h.range p hp).2

/-- The coordinates of a list of points, as `lagrangeAt` indexes them. -/
theorem coord_map {points : List Point} (f : Point → Nat) {j : Nat} (hj : j < points.length) :
    coord (points.map f) j = (f points[j] : ZMod P) := by
  have hj' : j < (points.map f).length := by rwa [List.length_map]
  rw [coord, getElem!_pos (points.map f) j hj', List.getElem_map]

theorem Separated.injOn {points : List Point} (h : Separated points) :
    Set.InjOn (coord (points.map Point.x)) (Finset.range points.length : Finset Nat) := by
  have hinj := coord_injOn h.lt h.nodup
  rwa [List.length_map] at hinj

/-- **Separated points interpolate**: the four routines return, reduced, the Lagrange sums at `0`. -/
theorem keyFromPoints_ok {points : List Point} (h : Separated points) :
    ∃ k, keyFromPoints points = .ok k ∧ k.Reduced ∧
      ∀ i, (k i : ZMod P) = lagrangeAt (Finset.range points.length)
        (coord (points.map Point.x)) (coord (points.map fun p => p.share i)) 0 := by
  have hlimb := fun i => lagrangeAtZero_ok (points.map fun p => p.share i) h.lt h.nodup
  choose k hk hlt hsum using hlimb
  refine ⟨k, forLimbs_ok hk, hlt, fun i => ?_⟩
  rw [hsum i, List.length_map]

/-- Enough points of the sharing polynomials give the key. -/
theorem keyFromPoints_onCurve {points : List Point} (h : Separated points)
    {poly : Fin 4 → (ZMod P)[X]} {k : Limbs} (hk : k.Reduced) {t : Nat}
    (hdeg : ∀ i, (poly i).degree < t) (hzero : ∀ i, (poly i).eval 0 = k i)
    (hlen : t ≤ points.length) (hon : ∀ p ∈ points, p.OnCurve poly) :
    keyFromPoints points = .ok k := by
  obtain ⟨k', hk', hred, hsum⟩ := keyFromPoints_ok h
  suffices hkk : k' = k by rw [hk', hkk]
  funext i
  refine cast_inj (hred i) (hk i) ?_
  rw [hsum i, ← hzero i]
  refine lagrangeAt_eq_eval h.injOn ?_ (fun j hj => ?_) 0
  · rw [Finset.card_range]
    exact lt_of_lt_of_le (hdeg i) (by exact_mod_cast hlen)
  · have hj' := Finset.mem_range.mp hj
    rw [coord_map _ hj', coord_map _ hj']
    exact hon _ (List.getElem_mem hj') i

/-- **One false point**: among points of the sharing polynomials it makes the key another one. -/
theorem keyFromPoints_tampered {points : List Point} (h : Separated points)
    {poly : Fin 4 → (ZMod P)[X]} {k : Limbs} {t : Nat}
    (hdeg : ∀ i, (poly i).degree < t) (hzero : ∀ i, (poly i).eval 0 = k i)
    (hlen : t ≤ points.length) {bad : Point} (hbad : bad ∈ points) (hoff : ¬ bad.OnCurve poly)
    (hon : ∀ p ∈ points, p ≠ bad → p.OnCurve poly) {k' : Limbs}
    (hk' : keyFromPoints points = .ok k') : k' ≠ k := by
  obtain ⟨k₁, hk₁, _, hsum⟩ := keyFromPoints_ok h
  obtain rfl : k₁ = k' := Except.ok.inj (hk₁.symm.trans hk')
  -- one limb of the bad point is off its polynomial
  obtain ⟨i, hi⟩ := not_forall.mp hoff
  obtain ⟨j, hj, rfl⟩ := List.getElem_of_mem hbad
  intro hkk
  -- if the keys agreed, that polynomial would go through all points, the bad one included
  refine lagrangeAt_zero_ne (f := poly i) (j := j) h.injOn (fun a ha => ?_) ?_
    (Finset.mem_range.mpr hj) (fun a ha haj => ?_) ?_ ((hsum i).symm.trans ?_)
  · have ha' := Finset.mem_range.mp ha
    obtain ⟨hne, hlt⟩ := h.range _ (List.getElem_mem ha')
    rw [coord_map _ ha']
    exact fun h0 => hne ((cast_eq_zero_iff hlt).mp h0)
  · rw [Finset.card_range]
    exact lt_of_lt_of_le (hdeg i) (by exact_mod_cast hlen)
  · have ha' := Finset.mem_range.mp ha
    rw [coord_map _ ha', coord_map _ ha']
    refine hon _ (List.getElem_mem ha') (fun heq => haj ?_) i
    have hlen : ∀ {i}, i < points.length → i < (points.map Point.x).length := fun hi => by
      rwa [List.length_map]
    have hx : (points.map Point.x).get ⟨a, hlen ha'⟩ = (points.map Point.x).get ⟨j, hlen hj⟩ := by
      rw [List.get_eq_getElem, List.get_eq_getElem]
      rw [List.getElem_map, List.getElem_map, heq]
    exact (List.Nodup.getElem_inj_iff h.nodup).mp hx
  · rw [coord_map _ hj, coord_map _ hj]
    exact hi
  · rw [hkk, hzero i]

/-! ## The search -/

section Hashing

variable [Sha256]

/-- The points recover a key with the check word `cw`. -/
def Recovering (points : List Point) (cw : Bytes) : Prop :=
  ∃ k, keyFromPoints points = .ok k ∧ k.Reduced ∧ checkWordOf k = cw

/-- Points that interpolate to a key recover exactly if its check word is the stored one. -/
theorem recovering_of_key {points : List Point} {k : Limbs} (hkey : keyFromPoints points = .ok k)
    (cw : Bytes) : k.Reduced ∧ checkWordOf k = cw ↔ Recovering points cw := by
  constructor
  · intro h
    exact ⟨k, hkey, h⟩
  · rintro ⟨k', hkey', h⟩
    obtain rfl := Except.ok.inj (hkey.symm.trans hkey')
    exact h

theorem not_recovering_of_error {points : List Point} {e : Exc} (hkey : keyFromPoints points = .error e)
    (cw : Bytes) : ¬ Recovering points cw := by
  rintro ⟨k, hok, -⟩
  rw [hkey] at hok
  cases hok

/-- So it can be computed whether points recover. -/
instance (points : List Point) (cw : Bytes) : Decidable (Recovering points cw) :=
  match hkey : keyFromPoints points with
  | .ok _ => decidable_of_iff _ (recovering_of_key hkey cw)
  | .error _ => .isFalse (not_recovering_of_error hkey cw)

/-- One pass of the sweep over separated points: it evaluates the candidate and keeps the first
    match. -/
theorem tryCombo_none {mandatory optional : List Point} (cw : Bytes) {combo : List Nat}
    (h : Separated (mandatory ++ combo.map fun i => optional[i]!)) :
    ∃ r, tryCombo mandatory optional cw none combo = .ok r ∧
      (r = none ∧ ¬ Recovering (mandatory ++ combo.map fun i => optional[i]!) cw ∨
       r = some (mandatory ++ combo.map (fun i => optional[i]!),
          ((combo.map fun i => optional[i]!).map Point.name).toFinset) ∧
        Recovering (mandatory ++ combo.map fun i => optional[i]!) cw) := by
  obtain ⟨k, hk, hred, _⟩ := keyFromPoints_ok h
  unfold tryCombo
  dsimp only
  rw [if_neg (by simp), hk, ok_bind, checkWord_ok hred, ok_bind]
  by_cases hcw : checkWordOf k = cw
  · exact ⟨_, rfl, Or.inr ⟨if_pos hcw, k, hk, hred, hcw⟩⟩
  · refine ⟨_, rfl, Or.inl ⟨if_neg hcw, ?_⟩⟩
    rintro ⟨k', hk', _, hcw'⟩
    rw [Except.ok.inj (hk.symm.trans hk')] at hcw
    exact hcw hcw'

/-- **The sweep is sound and complete.** -/
theorem findRecoveringSubset_ok {mandatory optional : List Point} (t : Nat) (cw : Bytes)
    (h : Separated (mandatory ++ optional)) :
    ∃ found, findRecoveringSubset mandatory optional t cw = .ok found ∧
      (found = none → ∀ c, c.Sublist optional → c.length = t - mandatory.length →
        ¬ Recovering (mandatory ++ c) cw) ∧
      (∀ points subset, found = some (points, subset) →
        ∃ c, c.Sublist optional ∧ c.length = t - mandatory.length ∧ points = mandatory ++ c ∧
          subset = (c.map Point.name).toFinset ∧ Recovering points cw) := by
  unfold findRecoveringSubset
  dsimp only
  by_cases hneed : t - mandatory.length > optional.length
  · refine ⟨none, if_pos hneed, fun _ c hsub hlen => ?_, fun _ _ hf => by cases hf⟩
    exact absurd hsub.length_le (by omega)
  rw [if_neg hneed]
  -- looking positions up, the sweep runs over the sublists of that length
  have hcombos := combinations_range (t - mandatory.length) optional
  have hchosen : ∀ combo ∈ combinations (t - mandatory.length) (List.range optional.length),
      (combo.map fun i => optional[i]!) ∈ combinations (t - mandatory.length) optional :=
    fun combo hcombo => by rw [← hcombos]; exact List.mem_map_of_mem hcombo
  let Match : List Nat → Prop := fun combo =>
    Recovering (mandatory ++ combo.map fun i => optional[i]!) cw
  let Inv : List (List Nat) → Found → Prop := fun seen found =>
    (found = none → ∀ combo ∈ seen, ¬ Match combo) ∧
    (∀ points subset, found = some (points, subset) →
      ∃ c, c.Sublist optional ∧ c.length = t - mandatory.length ∧ points = mandatory ++ c ∧
        subset = (c.map Point.name).toFinset ∧ Recovering points cw)
  obtain ⟨found, hrun, hnone, hsome⟩ := foldlM_ok (tryCombo mandatory optional cw) Inv
    (l := combinations (t - mandatory.length) (List.range optional.length)) (s := none)
    (fun seen combo found hcombo hinv => by
      obtain ⟨hsub, hlen⟩ := mem_combinations.mp (hchosen combo hcombo)
      cases found with
      | some found =>
        exact ⟨some found, rfl, (fun hf => by cases hf), hinv.2⟩
      | none =>
        have hsep := h.sublist ((List.Sublist.refl mandatory).append hsub)
        obtain ⟨r, hr, ⟨rfl, hno⟩ | ⟨rfl, hyes⟩⟩ := tryCombo_none cw hsep
        · refine ⟨none, hr, fun _ combo' hcombo' => ?_, fun _ _ hf => by cases hf⟩
          rcases List.mem_append.mp hcombo' with hold | hnew
          · exact hinv.1 rfl combo' hold
          · rw [List.mem_singleton.mp hnew]; exact hno
        · refine ⟨_, hr, (fun hf => by cases hf), fun points subset hf => ?_⟩
          cases hf
          exact ⟨_, hsub, hlen, rfl, rfl, hyes⟩)
    ⟨fun _ _ hin => absurd hin (List.not_mem_nil), fun _ _ hf => by cases hf⟩
  refine ⟨found, hrun, fun hf c hsub hlen => ?_, hsome⟩
  have hc : c ∈ combinations (t - mandatory.length) optional := mem_combinations.mpr ⟨hsub, hlen⟩
  rw [← hcombos] at hc
  obtain ⟨combo, hcombo, rfl⟩ := List.mem_map.mp hc
  exact hnone hf combo (by simpa using hcombo)

end Hashing

end Bedrock.Slhwid

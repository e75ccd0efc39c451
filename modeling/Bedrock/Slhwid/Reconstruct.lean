/-
  The two interpolation routines, on any points and on those of `build_shares`.

  1. **Recorded** — the routines with every result of `addmod`, `submod` and `mulmod` written down.
     They compute the same, and all they write down is below `P` (`Reduces`), although `addmod` and
     `submod` subtract only once: their operands are coordinates and results, hence reduced.

  2. **Any points** — through points with distinct coordinates goes exactly one polynomial of degree
     below their number, and `evaluateAt` is its value (`evaluateAt_eval`); `lagrangeAtZero`, which
     writes the differences the other way round, is `evaluateAt` at `0`.

  3. **Shares** — `t` points of `build_shares` give the key back, and every other slot's share.
-/
import Bedrock.Lib.Recorded
import Bedrock.Slhwid.Secrecy
import Bedrock.Slhwid.Sweep

open Lib.Fallible Lib.Search Lib.Recorded Lib.Interpolation Bedrock.Python Polynomial

namespace Bedrock.Slhwid

/-! ## The routines, their arithmetic written down -/

/-- Arithmetic that logs its results. -/
abbrev Arith := EStateM Exc (List Nat)

/-- The computation is `r`, and every result on the way is reduced. -/
def Reduces {α : Type} (x : Arith α) (r : Except Exc α) : Prop :=
  outcome (x []) = r ∧ ∀ v ∈ finalLog (x []), v < P

/-- `fraction`. -/
def recordedFraction (num den : Nat → Arith Nat) (n j : Nat) : Arith (Nat × Nat) :=
  (List.range n).foldlM (fun p k => do
    if k = j then return p
    let a ← num k
    let a ← note (mulmod p.1 a)
    let b ← den k
    let b ← note (mulmod p.2 b)
    return (a, b)) (1, 1)

/-- `interpolateWith`. -/
def recordedInterpolate (num : Nat → Arith Nat) (den : Nat → Nat → Arith Nat) (ys : List Nat)
    (n : Nat) : Arith Nat :=
  (List.range n).foldlM (fun total j => do
    let f ← recordedFraction num (den j) n j
    let inv ← lift (invmod f.2)
    let weight ← note (mulmod f.1 inv)
    let term ← note (mulmod ys[j]! weight)
    note (addmod total term)) 0

/-- `lagrangeAtZero`. -/
def recordedLagrangeAtZero (xs ys : List Nat) : Arith Nat :=
  recordedInterpolate (fun k => pure xs[k]!) (fun j k => note (submod xs[k]! xs[j]!)) ys xs.length

/-- `evaluateAt`. -/
def recordedEvaluateAt (xs ys : List Nat) (xq : Nat) : Arith Nat :=
  recordedInterpolate (fun k => note (submod xq xs[k]!)) (fun j k => note (submod xs[j]! xs[k]!)) ys
    xs.length

/-- `keyFromPoints`. -/
def recordedKeyFromPoints (points : List Point) : Arith Limbs := do
  let xs := points.map Point.x
  let a ← recordedLagrangeAtZero xs (points.map fun p => p.share 0)
  let b ← recordedLagrangeAtZero xs (points.map fun p => p.share 1)
  let c ← recordedLagrangeAtZero xs (points.map fun p => p.share 2)
  let d ← recordedLagrangeAtZero xs (points.map fun p => p.share 3)
  return ![a, b, c, d]

/-- `shareLimb`: the loop of `build_shares` runs through the coefficients from the last one back. -/
def recordedShareLimb (limb : Nat) (coeffs : List Nat) (x : Nat) : Arith Nat := do
  let acc ← coeffs.reverse.foldlM (fun acc c => do
    let product ← note (mulmod acc x)
    note (addmod product c)) 0
  let product ← note (mulmod acc x)
  note (addmod product limb)

theorem note_records {v : Nat} (hv : v < P) : Records (note v : Arith Nat) (· < P) (.ok v) :=
  Records.note hv

theorem submod_lt {a b : Nat} (ha : a < P) (hb : b < P) : submod a b < P := by
  unfold submod
  split <;> omega

/-- The inner loop records what it multiplies up. -/
theorem recordedFraction_records {num den : Nat → Nat} {num' den' : Nat → Arith Nat}
    (hnum : ∀ k, Records (num' k) (· < P) (.ok (num k)))
    (hden : ∀ k, Records (den' k) (· < P) (.ok (den k))) (n j : Nat) :
    Records (recordedFraction num' den' n j) (· < P) (.ok (fraction num den n j)) := by
  refine Records.foldl (fun _ => True) trivial fun p _ k _ => ⟨?_, trivial⟩
  by_cases hk : k = j
  · rw [if_pos hk, if_pos hk]
    exact Records.pure p
  · rw [if_neg hk, if_neg hk]
    refine (hnum k).bind_ok ((note_records (mulmod_lt _ _)).bind_ok ?_)
    exact (hden k).bind_ok ((note_records (mulmod_lt _ _)).bind_ok (Records.pure _))

/-- The outer loop: the total stays reduced. -/
theorem recordedInterpolate_records {num : Nat → Nat} {den : Nat → Nat → Nat}
    {num' : Nat → Arith Nat} {den' : Nat → Nat → Arith Nat}
    (hnum : ∀ k, Records (num' k) (· < P) (.ok (num k)))
    (hden : ∀ j k, Records (den' j k) (· < P) (.ok (den j k))) (ys : List Nat) (n : Nat) :
    Records (recordedInterpolate num' den' ys n) (· < P) (interpolateWith num den ys n) := by
  refine Records.foldlM (· < P) P_pos fun total htotal j _ => ⟨?_, fun total' h => ?_⟩
  · refine (recordedFraction_records hnum (hden j) n j).bind_ok ?_
    refine (Records.lift _).bind fun inv _ => ?_
    refine (note_records (mulmod_lt _ _)).bind_ok ((note_records (mulmod_lt _ _)).bind_ok ?_)
    exact note_records (addmod_lt htotal (mulmod_lt _ _))
  · obtain ⟨inv, _, h⟩ := bind_eq_ok.mp h
    obtain rfl := Except.ok.inj h
    exact addmod_lt htotal (mulmod_lt _ _)

theorem recordedLagrangeAtZero_records {xs : List Nat} (ys : List Nat) (hlt : ∀ x ∈ xs, x < P) :
    Records (recordedLagrangeAtZero xs ys) (· < P) (lagrangeAtZero xs ys) :=
  recordedInterpolate_records (fun _ => Records.pure _)
    (fun j k => note_records (submod_lt (getElem!_lt hlt k) (getElem!_lt hlt j))) ys xs.length

theorem recordedEvaluateAt_records {xs : List Nat} (ys : List Nat) (hlt : ∀ x ∈ xs, x < P) {xq : Nat}
    (hxq : xq < P) : Records (recordedEvaluateAt xs ys xq) (· < P) (evaluateAt xs ys xq) :=
  recordedInterpolate_records (fun k => note_records (submod_lt hxq (getElem!_lt hlt k)))
    (fun j k => note_records (submod_lt (getElem!_lt hlt j) (getElem!_lt hlt k))) ys xs.length

/-- Rebuilding a key limb by limb keeps every intermediate value reduced. -/
theorem recordedKeyFromPoints_records {points : List Point} (hlt : ∀ x ∈ points.map Point.x, x < P) :
    Records (recordedKeyFromPoints points) (· < P) (keyFromPoints points) := by
  have hlimb := fun limb => recordedLagrangeAtZero_records (points.map fun p => p.share limb) hlt
  refine (hlimb 0).bind fun a _ => (hlimb 1).bind fun b _ => (hlimb 2).bind fun c _ => ?_
  exact (hlimb 3).bind fun d _ => Records.pure _

/-- Horner's rule stays reduced on reduced coefficients. -/
theorem recordedShareLimb_records {limb : Nat} (hlimb : limb < P) {coeffs : List Nat}
    (hcoeffs : ∀ c ∈ coeffs, c < P) (x : Nat) :
    Records (recordedShareLimb limb coeffs x) (· < P) (.ok (shareLimb limb coeffs x)) := by
  have hloop : Records (coeffs.reverse.foldlM (fun acc c => do
      let product ← note (mulmod acc x)
      note (addmod product c)) 0 : Arith Nat) (· < P)
      (.ok (coeffs.reverse.foldl (fun acc c => addmod (mulmod acc x) c) 0)) := by
    refine Records.foldl (fun _ => True) trivial fun acc _ c hc => ⟨?_, trivial⟩
    have hsum := addmod_lt (mulmod_lt acc x) (hcoeffs c (List.mem_reverse.mp hc))
    exact (note_records (mulmod_lt _ _)).bind_ok (note_records hsum)
  rw [List.foldl_reverse] at hloop
  exact hloop.bind_ok ((note_records (mulmod_lt _ _)).bind_ok
    (note_records (addmod_lt (mulmod_lt _ _) hlimb)))

/-! ## Any points -/

/-- Points to interpolate: distinct coordinates, and everything reduced. -/
structure Nodes (xs ys : List Nat) : Prop where
  nonempty : xs ≠ []
  /-- No coordinate twice. -/
  nodup : xs.Nodup
  /-- Everything is reduced. -/
  x_lt : ∀ x ∈ xs, x < P
  /-- One value for each coordinate. -/
  length_ys : ys.length = xs.length
  y_lt : ∀ y ∈ ys, y < P

/-- A polynomial of degree below the number of points that goes through them. -/
def Through (xs ys : List Nat) (f : (ZMod P)[X]) : Prop :=
  f.degree < xs.length ∧ ∀ i < xs.length, f.eval (coord xs i) = coord ys i

/-- It is the interpolation polynomial. -/
theorem through_iff {xs ys : List Nat} (hlt : ∀ x ∈ xs, x < P) (hnd : xs.Nodup) {f : (ZMod P)[X]} :
    Through xs ys f ↔ f = Lagrange.interpolate (Finset.range xs.length) (coord xs) (coord ys) := by
  have hiff := Lagrange.eq_interpolate_iff (r := coord ys) (f := f) (coord_injOn hlt hnd)
  simp only [Finset.card_range, Finset.mem_range] at hiff
  exact hiff

theorem existsUnique_through {xs : List Nat} (ys : List Nat) (hlt : ∀ x ∈ xs, x < P)
    (hnd : xs.Nodup) : ∃! f, Through xs ys f :=
  ⟨_, (through_iff hlt hnd).mpr rfl, fun _ hf => (through_iff hlt hnd).mp hf⟩

/-- **`_evaluate_at` is the polynomial's value.** -/
theorem evaluateAt_eval {xs ys : List Nat} (hlt : ∀ x ∈ xs, x < P) (hnd : xs.Nodup)
    {f : (ZMod P)[X]} (hf : Through xs ys f) (xq : Nat) :
    ∃ v, evaluateAt xs ys xq = .ok v ∧ v < P ∧ (v : ZMod P) = f.eval (xq : ZMod P) := by
  obtain ⟨v, hv, hvP, hcast⟩ := evaluateAt_ok ys xq hlt hnd
  refine ⟨v, hv, hvP, ?_⟩
  rw [hcast, lagrangeAt_eq_interpolate, (through_iff hlt hnd).mp hf]

/-- **Both routines agree at `0`.** -/
theorem lagrangeAtZero_eq_evaluateAt {xs : List Nat} (ys : List Nat) (hlt : ∀ x ∈ xs, x < P)
    (hnd : xs.Nodup) : lagrangeAtZero xs ys = evaluateAt xs ys 0 := by
  obtain ⟨v, hv, hvP, hcast⟩ := lagrangeAtZero_ok ys hlt hnd
  obtain ⟨w, hw, hwP, hcast'⟩ := evaluateAt_ok ys 0 hlt hnd
  rw [Nat.cast_zero] at hcast'
  rw [hv, hw, cast_inj hvP hwP (hcast.trans hcast'.symm)]

/-! ## Shares -/

/-- A point that `build_shares` computed: the share under a slot's name, and the coordinate of that
    share. -/
structure IsPoint (slots : List Slot) (xs : List Nat) (shares : Dict Limbs) (p : Point) : Prop where
  coordinate : coordOf (slots.zip xs) p.name = some p.x
  share : shares.lookup p.name = some p.share

/-- Two points of one name are the same point: names determine coordinate and share. -/
theorem IsPoint.eq_of_name {slots : List Slot} {xs : List Nat} {shares : Dict Limbs} {p q : Point}
    (hp : IsPoint slots xs shares p) (hq : IsPoint slots xs shares q) (h : p.name = q.name) :
    p = q := by
  have hx : p.x = q.x := Option.some.inj (hp.coordinate.symm.trans (h ▸ hq.coordinate))
  have hshare : p.share = q.share := Option.some.inj (hp.share.symm.trans (h ▸ hq.share))
  cases p
  cases q
  cases hx
  cases hshare
  cases h
  rfl

section Hashing

variable [Sha256]

/-- A run has gone through the salt loop. -/
theorem BuildsWith.salted {k : Limbs} {slots : List Slot} {t : Nat} {coeffs : Fin 4 → List Nat}
    {shares : Dict Limbs} {salt : Nat} (h : BuildsWith k slots t coeffs shares salt) :
    ∃ xs, saltLoop slots 255 0 = .ok (xs, salt) := by
  obtain ⟨d, d', _, hrun⟩ := h
  obtain ⟨⟨xs, salt'⟩, d₁, hsalt, hrun⟩ := run_bind_eq_ok.mp hrun
  obtain ⟨coeffs', d₂, _, hrun⟩ := run_bind_eq_ok.mp hrun
  cases hrun
  exact ⟨xs, (lift_eq_ok.mp hsalt).1⟩

omit [Sha256] in
/-- The coordinate of a point is one of those the coordinates were drawn from. -/
theorem IsPoint.coordinate_mem {slots : List Slot} {xs : List Nat} {shares : Dict Limbs} {p : Point}
    (hp : IsPoint slots xs shares p) : p.x ∈ xs := by
  obtain ⟨placed, hplaced, _, hx⟩ := coordOf_eq_some hp.coordinate
  rw [← hx]
  exact (List.of_mem_zip hplaced).2

/-- The coordinates of the points are nonzero and reduced, and differ. -/
theorem separated_of_points {slots : List Slot} {xs : List Nat} {salt : Nat}
    (hsalt : saltLoop slots 255 0 = .ok (xs, salt)) {shares : Dict Limbs} {points : List Point}
    (hnd : points.Nodup) (hpoints : ∀ p ∈ points, IsPoint slots xs shares p) : Separated points := by
  obtain ⟨hxs, hlen, hrange⟩ := saltLoop_range hsalt
  have hcoords : (slots.zip xs).map Prod.snd = xs := List.map_snd_zip hlen.ge
  refine ⟨fun p hp => hrange _ (hpoints p hp).coordinate_mem, hnd.map_on fun p hp q hq h => ?_⟩
  exact (hpoints p hp).eq_of_name (hpoints q hq) (coordOf_inj (hcoords.symm ▸ hxs)
      (hpoints p hp).coordinate (h ▸ (hpoints q hq).coordinate))

/-- The slots of a run have points. -/
theorem exists_point {slots : List Slot} {xs : List Nat} {salt : Nat}
    (hsalt : saltLoop slots 255 0 = .ok (xs, salt)) (k : Limbs) (coeffs : Fin 4 → List Nat) {s : Slot}
    (hs : s ∈ slots) : ∃ q, IsPoint slots xs (sharesOn k coeffs (slots.zip xs)) q ∧ q.name = s.name := by
  obtain ⟨_, hlen, _⟩ := saltLoop_range hsalt
  have hname : s.name ∈ (slots.zip xs).map fun p => p.1.name := by
    rw [← List.map_fst_zip hlen.le, List.mem_map] at hs
    obtain ⟨p, hp, rfl⟩ := hs
    exact List.mem_map.mpr ⟨p, hp, rfl⟩
  obtain ⟨x, hx⟩ := exists_coordOf hname
  exact ⟨⟨x, shareAt k coeffs x, s.name⟩, ⟨hx, by rw [lookup_sharesOn, hx]; rfl⟩, rfl⟩

omit [Sha256] in
/-- A share is what the coefficients say at its coordinate. -/
theorem IsPoint.share_eq {slots : List Slot} {xs : List Nat} {k : Limbs} {coeffs : Fin 4 → List Nat}
    {q : Point} (hq : IsPoint slots xs (sharesOn k coeffs (slots.zip xs)) q) :
    q.share = shareAt k coeffs q.x := by
  have hshare := hq.share
  rw [lookup_sharesOn, hq.coordinate] at hshare
  exact (Option.some.inj hshare).symm

omit [Sha256] in
/-- **Enough shares give every other one.** -/
theorem evaluateAt_share {points : List Point} (hsep : Separated points) {k : Limbs} (hk : k.Reduced)
    {coeffs : Fin 4 → List Nat} (hdeg : ∀ i, (limbPoly (k i) (coeffs i)).degree < points.length)
    (hon : ∀ p ∈ points, p.share = shareAt k coeffs p.x) (xq : Nat) (i : Fin 4) :
    evaluateAt (points.map Point.x) (points.map fun p => p.share i) xq = .ok (shareAt k coeffs xq i) := by
  have hthrough : Through (points.map Point.x) (points.map fun p => p.share i)
      (limbPoly (k i) (coeffs i)) := by
    refine ⟨by rw [List.length_map]; exact hdeg i, fun j hj => ?_⟩
    rw [List.length_map] at hj
    rw [coord_map _ hj, coord_map _ hj, hon _ (List.getElem_mem hj)]
    exact (cast_shareLimb _ _ _).symm
  obtain ⟨v, hv, hvP, hcast⟩ := evaluateAt_eval hsep.lt hsep.nodup hthrough xq
  rw [← cast_shareLimb] at hcast
  rw [hv, cast_inj hvP (shareLimb_lt (hk i) _ _) hcast]
  rfl

end Hashing

/-! ## Both together -/

/-- **The interpolation routines are correct.**  Through points with distinct coordinates goes one
    polynomial of degree below their number; `_evaluate_at` returns its value and `_lagrange_at_zero`
    its value at `0`.  On any `t` points or more that `build_shares` computed, `_key_from_points`
    returns the key and `_evaluate_at` the share of every slot.  No step leaves a result unreduced. -/
theorem interpolation_correct :
    (∀ xs ys : List Nat, Nodes xs ys →
      (∃! f, Through xs ys f) ∧
      (∀ f, Through xs ys f → ∀ xq < P, ∃ v, evaluateAt xs ys xq = .ok v ∧ v < P ∧
        (v : ZMod P) = f.eval (xq : ZMod P) ∧ Reduces (recordedEvaluateAt xs ys xq) (.ok v)) ∧
      lagrangeAtZero xs ys = evaluateAt xs ys 0 ∧
      Reduces (recordedLagrangeAtZero xs ys) (lagrangeAtZero xs ys)) ∧
    (∀ (_ : Sha256) (k : Limbs) (slots : List Slot) (t : Nat) (coeffs : Fin 4 → List Nat)
      (shares : Dict Limbs) (salt : Nat), k.Reduced → BuildsWith k slots t coeffs shares salt →
      ∃ xs, saltLoop slots 255 0 = .ok (xs, salt) ∧
        (∀ s ∈ slots, ∃ q, IsPoint slots xs shares q ∧ q.name = s.name) ∧
        (∀ q, IsPoint slots xs shares q → ∀ i,
          Reduces (recordedShareLimb (k i) (coeffs i) q.x) (.ok (q.share i))) ∧
        ∀ points : List Point, points ≠ [] → points.Nodup → t ≤ points.length →
          (∀ p ∈ points, IsPoint slots xs shares p) →
          keyFromPoints points = .ok k ∧ Reduces (recordedKeyFromPoints points) (.ok k) ∧
          ∀ q, IsPoint slots xs shares q → ∀ i,
            evaluateAt (points.map Point.x) (points.map fun p => p.share i) q.x = .ok (q.share i) ∧
            Reduces (recordedEvaluateAt (points.map Point.x) (points.map fun p => p.share i) q.x)
              (.ok (q.share i))) := by
  -- the interpolation by itself, and then as `build_shares` and `_key_from_points` use it
  constructor
  · intro xs ys h
    refine ⟨existsUnique_through ys h.x_lt h.nodup, fun f hf xq hxq => ?_,
      lagrangeAtZero_eq_evaluateAt ys h.x_lt h.nodup, (recordedLagrangeAtZero_records ys h.x_lt).run⟩
    obtain ⟨v, hv, hvP, hcast⟩ := evaluateAt_eval h.x_lt h.nodup hf xq
    exact ⟨v, hv, hvP, hcast, hv ▸ (recordedEvaluateAt_records ys h.x_lt hxq).run⟩
  · intro _ k slots t coeffs shares salt hk hbuilds
    obtain ⟨xs, hsalt⟩ := hbuilds.salted
    obtain ⟨hmatrix, _, rfl⟩ := (buildsWith_iff hsalt).mp hbuilds
    refine ⟨xs, hsalt, fun s hs => exists_point hsalt k coeffs hs, fun q hq i => ?_,
      fun points hne hnd hlen hpoints => ?_⟩
    · rw [hq.share_eq]
      exact (recordedShareLimb_records (hk i) (hmatrix i).2 q.x).run
    have hsep := separated_of_points hsalt hnd hpoints
    have hshare : ∀ p ∈ points, p.share = shareAt k coeffs p.x := fun p hp => (hpoints p hp).share_eq
    -- the sharing polynomials have at most `t` coefficients, and there are `t` points
    have hdeg : ∀ i, (limbPoly (k i) (coeffs i)).degree < points.length := by
      intro i
      have hpos : 0 < points.length := List.length_pos_iff.mpr hne
      refine lt_of_lt_of_le (degree_hornerPoly_lt _) ?_
      rw [List.length_cons, List.length_map, (hmatrix i).1]
      exact_mod_cast (by omega : t - 1 + 1 ≤ points.length)
    -- so the points determine them, and with them the key
    have hkey : keyFromPoints points = .ok k := by
      refine keyFromPoints_onCurve hsep hk hdeg (fun i => eval_hornerPoly_zero _ _) le_rfl
        fun p hp i => ?_
      rw [hshare p hp]
      exact cast_shareLimb _ _ _
    refine ⟨hkey, hkey ▸ (recordedKeyFromPoints_records hsep.lt).run, fun q hq i => ?_⟩
    have hvalue := evaluateAt_share hsep hk hdeg hshare q.x i
    rw [← hq.share_eq] at hvalue
    have hqP := ((saltLoop_range hsalt).2.2 _ hq.coordinate_mem).2
    exact ⟨hvalue, hvalue ▸ (recordedEvaluateAt_records _ hsep.lt hqP).run⟩

/-- The coordinates of the sample slots at salt `0`. -/
def sampleCoordinates : List Nat := [247827032155881570, 1327848725558919267, 897188772786274404]

/-- The points of the sample slots. -/
def samplePoints : List Point :=
  (sampleSlots.zip sampleCoordinates).map fun p =>
    ⟨p.2, shareAt ![1, 2, 3, 4] (fun _ => [5, 6]) p.2, p.1.name⟩

/-- Three points of `2x² + x + 7`, and the three sample slots with threshold three. -/
theorem interpolation_correct_sample :
    ((∃! f, Through [1, 2, 3] [10, 17, 28] f) ∧
      lagrangeAtZero [1, 2, 3] [10, 17, 28] = evaluateAt [1, 2, 3] [10, 17, 28] 0) ∧
    keyFromPoints samplePoints = .ok ![1, 2, 3, 4] := by
  have hnodes : Nodes [1, 2, 3] [10, 17, 28] := by
    refine ⟨by decide, by decide, ?_, rfl, ?_⟩ <;> decide +kernel
  obtain ⟨hunique, _, hagree, _⟩ := interpolation_correct.1 [1, 2, 3] [10, 17, 28] hnodes
  have hsalt : @saltLoop sampleHash sampleSlots 255 0 = .ok (sampleCoordinates, 0) := by
    decide +kernel
  have hmatrix : IsMatrix 2 (fun _ => [5, 6]) := by
    unfold IsMatrix
    decide +kernel
  have hbuilds : @BuildsWith sampleHash ![1, 2, 3, 4] sampleSlots 3 (fun _ => [5, 6])
      (sharesOn ![1, 2, 3, 4] (fun _ => [5, 6]) (sampleSlots.zip sampleCoordinates)) 0 :=
    (@buildsWith_iff sampleHash _ _ _ hsalt _ _ _ _ _).mpr ⟨hmatrix, rfl, rfl⟩
  obtain ⟨xs, hxs, _, _, hpoints⟩ := interpolation_correct.2 sampleHash ![1, 2, 3, 4] sampleSlots 3
    (fun _ => [5, 6]) _ 0 (by decide) hbuilds
  obtain ⟨rfl, _⟩ := Prod.mk.inj (Except.ok.inj (hxs.symm.trans hsalt))
  have hcoordinate : ∀ p ∈ samplePoints, coordOf (sampleSlots.zip sampleCoordinates) p.name = some p.x := by
    have hplaced : ∀ placed ∈ sampleSlots.zip sampleCoordinates,
        coordOf (sampleSlots.zip sampleCoordinates) placed.1.name = some placed.2 := by decide +kernel
    intro p hp
    obtain ⟨placed, hmem, rfl⟩ := List.mem_map.mp hp
    exact hplaced placed hmem
  have hshare : ∀ p ∈ samplePoints, p.share = shareAt ![1, 2, 3, 4] (fun _ => [5, 6]) p.x := by
    intro p hp
    obtain ⟨placed, _, rfl⟩ := List.mem_map.mp hp
    rfl
  refine ⟨⟨hunique, hagree⟩, (hpoints samplePoints (List.cons_ne_nil _ _) ?_ le_rfl fun p hp => ?_).1⟩
  · exact List.Nodup.of_map Point.name (by decide +kernel)
  · exact ⟨hcoordinate p hp, by rw [lookup_sharesOn, hcoordinate p hp, hshare p hp]; rfl⟩

end Bedrock.Slhwid

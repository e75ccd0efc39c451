/-
  `slhwid/core.py`, sharing: `build_shares` splits a four-limb key over the enrolled slots.

  1. **Program** — the salt loop looks for the first salt that separates the slots' coordinates,
     `t - 1` random coefficients are drawn for each limb, and a slot's share is the limb polynomial
     at its coordinate, by Horner's rule.

  2. **Specification** — `Sharing k t salt factors shares` is what a share set IS: four polynomials
     of degree `< t` through the key at `0`, whose values at the slots' (distinct) coordinates are
     the shares.  `buildShares_sharing` shows the program only ever returns such a set.
-/
import Bedrock.Slhwid.Normalize

open Lib.Fallible Lib.LittleEndian Lib.Interpolation Bedrock.Python Polynomial

namespace Bedrock.Slhwid

/-! ## Slots and draws -/

/-- One entry of `slot_list`. -/
structure Slot where
  name : Str
  /-- The slot's value at enrollment. -/
  value : Str
  mandatory : Bool

/-- `slot_list`: the factors in name order. -/
def slotList (factors : Dict Str) (mandatory : Finset Str) : List Slot :=
  (sortedKeys factors).map fun name => ⟨name, factors.get name, name ∈ mandatory⟩

/-- A computation that draws from a byte source: the state is what the source has left. -/
abbrev DrawM := EStateM Exc Bytes

/-- One call `source(n)`. -/
def source (n : Nat) : DrawM Bytes := fun d => .ok (d.take n) (d.drop n)

/-- `Draw.elem`. -/
def drawElem : DrawM Nat := do
  let chunk ← source 8
  lift (raiseIf (chunk.length ≠ 8) (.ssError [.lit "slhwid: randomness exhausted"]))
  return ofLE chunk % P

/-- A drawn element is reduced. -/
theorem drawElem_lt {d d' : Bytes} {v : Nat} (h : drawElem d = .ok v d') : v < P := by
  obtain ⟨_, _, _, h⟩ := run_bind_eq_ok.mp h
  obtain ⟨_, _, _, h⟩ := run_bind_eq_ok.mp h
  cases h
  exact Nat.mod_lt _ P_pos

/-- `n` draws in a row. -/
def drawElems : Nat → DrawM (List Nat)
  | 0 => pure []
  | n + 1 => do
    let c ← drawElem
    let cs ← drawElems n
    return c :: cs

theorem drawElems_spec {n : Nat} {d d' : Bytes} {cs : List Nat} (h : drawElems n d = .ok cs d') :
    cs.length = n ∧ ∀ c ∈ cs, c < P := by
  induction n generalizing d d' cs with
  | zero =>
    cases h
    exact ⟨rfl, fun c hc => absurd hc (List.not_mem_nil)⟩
  | succ n ih =>
    obtain ⟨c, d₁, hc, h⟩ := run_bind_eq_ok.mp h
    obtain ⟨cs', d₂, hcs, h⟩ := run_bind_eq_ok.mp h
    cases h
    obtain ⟨hlen, hlt⟩ := ih hcs
    refine ⟨by rw [List.length_cons, hlen], fun c' hc' => ?_⟩
    rcases List.mem_cons.mp hc' with rfl | hc'
    · exact drawElem_lt hc
    · exact hlt c' hc'

/-- The coefficient matrix: limb by limb, the coefficients of `x, x², …`. -/
def drawCoeffs (n : Nat) : DrawM (Fin 4 → List Nat) := do
  let a ← drawElems n
  let b ← drawElems n
  let c ← drawElems n
  let e ← drawElems n
  return ![a, b, c, e]

theorem drawCoeffs_spec {n : Nat} {d d' : Bytes} {cs : Fin 4 → List Nat}
    (h : drawCoeffs n d = .ok cs d') : ∀ i, (cs i).length = n ∧ ∀ c ∈ cs i, c < P := by
  obtain ⟨_, _, ha, h⟩ := run_bind_eq_ok.mp h
  obtain ⟨_, _, hb, h⟩ := run_bind_eq_ok.mp h
  obtain ⟨_, _, hc, h⟩ := run_bind_eq_ok.mp h
  obtain ⟨_, _, he, h⟩ := run_bind_eq_ok.mp h
  cases h
  intro i
  fin_cases i
  · exact drawElems_spec ha
  · exact drawElems_spec hb
  · exact drawElems_spec hc
  · exact drawElems_spec he

/-! ## One share -/

/-- One limb of one share: Horner's rule from the last coefficient back, the key limb last. -/
def shareLimb (limb : Nat) (coeffs : List Nat) (x : Nat) : Nat :=
  addmod (mulmod (coeffs.foldr (fun c acc => addmod (mulmod acc x) c) 0) x) limb

/-- The share of a key at a coordinate: each limb is the value of its polynomial. -/
def shareAt (k : Limbs) (coeffs : Fin 4 → List Nat) (x : Nat) : Limbs := fun i =>
  shareLimb (k i) (coeffs i) x

/-- The sharing polynomial of one limb. -/
noncomputable def limbPoly (limb : Nat) (coeffs : List Nat) : (ZMod P)[X] :=
  hornerPoly ((limb : ZMod P) :: coeffs.map Nat.cast)

theorem shareLimb_lt {limb : Nat} (h : limb < P) (coeffs : List Nat) (x : Nat) :
    shareLimb limb coeffs x < P := addmod_lt (mulmod_lt _ _) h

/-- A share is the sharing polynomial's value. -/
theorem cast_shareLimb (limb : Nat) (coeffs : List Nat) (x : Nat) :
    (shareLimb limb coeffs x : ZMod P) = (limbPoly limb coeffs).eval (x : ZMod P) := by
  have hhorner : ((coeffs.foldr (fun c acc => addmod (mulmod acc x) c) 0 : Nat) : ZMod P) =
      (coeffs.map (Nat.cast : Nat → ZMod P)).foldr
        (fun c acc => acc * (x : ZMod P) + c) 0 := by
    induction coeffs with
    | nil => simp
    | cons c cs ih =>
      rw [List.foldr_cons, List.map_cons, List.foldr_cons, cast_addmod, cast_mulmod, ih]
  rw [shareLimb, cast_addmod, cast_mulmod, hhorner, limbPoly, eval_hornerPoly, List.foldr_cons]

/-- Inserting along a list of names leaves each name with its value. -/
theorem lookup_foldl_insert {β : Type} (val : Str → β) (n : Str) : ∀ (l : List Str) (d : Dict β),
    (l.foldl (fun d a => d.insert a (val a)) d).lookup n =
      if n ∈ l then some (val n) else d.lookup n := by
  intro l
  induction l with
  | nil => intro d; simp
  | cons a l ih =>
    intro d
    rw [List.foldl_cons, ih]
    by_cases hl : n ∈ l
    · rw [if_pos hl, if_pos (List.mem_cons_of_mem a hl)]
    · rw [if_neg hl]
      by_cases ha : n = a
      · subst ha
        rw [AList.lookup_insert, if_pos (List.mem_cons_self ..)]
      · rw [AList.lookup_insert_ne ha, if_neg (by simp [ha, hl])]

/-! ## The program -/

section Hashing

variable [Sha256]

/-- The salt loop: `tries` salts are left, from `salt` on. -/
def saltLoop (slots : List Slot) : Nat → Nat → Except Exc (List Nat × Nat)
  | 0, _ => .error (.ssError [.lit "slhwid: x-coordinate collision loop"])
  | tries + 1, salt => do
    let xs ← slots.mapM fun s => deriveX s.name s.value salt
    if xs.Nodup then return (xs, salt) else saltLoop slots tries (salt + 1)

/-- `build_shares`. -/
def buildShares (k : Limbs) (slots : List Slot) (t : Nat) : DrawM (Dict Limbs × Nat) := do
  let (xs, salt) ← lift (saltLoop slots 255 0)
  let coeffs ← drawCoeffs (t - 1)
  let shares := (slots.zip xs).foldl
    (fun shares p => shares.insert p.1.name (shareAt k coeffs p.2)) ∅
  return (shares, salt)

/-- A salt that was found is one of those tried, and puts the slots at different coordinates. -/
theorem saltLoop_spec {slots : List Slot} {tries salt : Nat} {xs : List Nat} {s : Nat}
    (h : saltLoop slots tries salt = .ok (xs, s)) :
    s < salt + tries ∧ xs.Nodup ∧ slots.mapM (fun sl => deriveX sl.name sl.value s) = .ok xs := by
  induction tries generalizing salt with
  | zero => cases h
  | succ tries ih =>
    obtain ⟨xs', hxs', h⟩ := bind_eq_ok.mp h
    split at h
    · rename_i hnd
      cases h
      exact ⟨by omega, hnd, hxs'⟩
    · obtain ⟨hlt, hrest⟩ := ih h
      exact ⟨by omega, hrest⟩

/-! ## What a share set is -/

/-- `shares` splits the key `k` with threshold `t` over the slots of `factors`, at `salt`. -/
structure Sharing (k : Limbs) (t salt : Nat) (factors : Dict Str) (shares : Dict Limbs) where
  /-- the limb polynomials -/
  poly : Fin 4 → (ZMod P)[X]
  degree_lt : ∀ i, (poly i).degree < t
  eval_zero : ∀ i, (poly i).eval 0 = k i
  /-- the slots' coordinates -/
  x : Str → Nat
  deriveX_eq : ∀ n ∈ factors, deriveX n (factors.get n) salt = .ok (x n)
  /-- No two slots share a coordinate. -/
  x_inj : ∀ n ∈ factors, ∀ n' ∈ factors, x n = x n' → n = n'
  mem_shares : ∀ n, n ∈ shares ↔ n ∈ factors
  share_lt : ∀ n share, shares.lookup n = some share → share.Reduced
  /-- Every share lies on the polynomials. -/
  on_curve : ∀ n share, shares.lookup n = some share →
    ∀ i, (share i : ZMod P) = (poly i).eval (x n : ZMod P)

/-- **`build_shares` shares**: whatever it returns is a share set of the key, at a salt a single
    byte holds, over exactly the enrolled slots; the polynomials have the drawn coefficients. -/
theorem buildShares_sharing {k : Limbs} (hk : k.Reduced) {factors : Dict Str}
    {mandatory : Finset Str} {t : Nat} (ht : 0 < t) {d d' : Bytes} {shares : Dict Limbs}
    {salt : Nat} (h : buildShares k (slotList factors mandatory) t d = .ok (shares, salt) d') :
    salt < 255 ∧ ∃ coeffs, drawCoeffs (t - 1) d = .ok coeffs d' ∧
      ∃ S : Sharing k t salt factors shares, ∀ i, S.poly i = limbPoly (k i) (coeffs i) := by
  obtain ⟨⟨xs, s⟩, d₁, hsalt, h⟩ := run_bind_eq_ok.mp h
  obtain ⟨coeffs, d₂, hcoeffs, h⟩ := run_bind_eq_ok.mp h
  cases h
  obtain ⟨hloop, rfl⟩ := lift_eq_ok.mp hsalt
  obtain ⟨hlt, hnd, hxs⟩ := saltLoop_spec hloop
  have hcoeffs_lt := drawCoeffs_spec hcoeffs
  -- the coordinate of a slot is a function of its name
  let x : Str → Nat := fun n => (deriveX n (factors.get n) salt).toOption.getD 0
  rw [slotList, List.mapM_map] at hxs
  obtain ⟨hderive, rfl⟩ := mapM_eq_ok (g := x) (fun n _ b hb => by
    have hb' : deriveX n (factors.get n) salt = .ok b := hb
    simp [x, hb', Except.toOption]) hxs
  have hfold : ((slotList factors mandatory).zip ((sortedKeys factors).map x)).foldl
      (fun (shares : Dict Limbs) p => shares.insert p.1.name (shareAt k coeffs p.2)) ∅ =
      (sortedKeys factors).foldl
        (fun (d : Dict Limbs) n => d.insert n (shareAt k coeffs (x n))) ∅ := by
    rw [slotList, List.zip_map', List.foldl_map]
  rw [hfold]
  have hlookup := fun n => lookup_foldl_insert (fun n => shareAt k coeffs (x n)) n
    (sortedKeys factors) ∅
  -- hence a stored share is the share of a factor, at that factor's coordinate
  have hshare : ∀ n share, ((sortedKeys factors).foldl
      (fun (d : Dict Limbs) n => d.insert n (shareAt k coeffs (x n))) ∅).lookup n = some share →
      share = shareAt k coeffs (x n) := by
    intro n share hs
    rw [hlookup n] at hs
    split at hs
    · exact (Option.some.inj hs).symm
    · rw [AList.lookup_empty] at hs; cases hs
  refine ⟨by omega, coeffs, hcoeffs, {
    poly := fun i => limbPoly (k i) (coeffs i)
    degree_lt := fun i => ?_
    eval_zero := fun i => eval_hornerPoly_zero _ _
    x := x
    deriveX_eq := fun n hn => hderive n (mem_sortedKeys.mpr hn)
    x_inj := fun n hn n' hn' hxx =>
      List.inj_on_of_nodup_map hnd (mem_sortedKeys.mpr hn) (mem_sortedKeys.mpr hn') hxx
    mem_shares := fun n => ?_
    share_lt := fun n share hs i => ?_
    on_curve := fun n share hs i => ?_ }, fun _ => rfl⟩
  · have hdeg := degree_hornerPoly_lt ((k i : ZMod P) :: (coeffs i).map Nat.cast)
    rw [List.length_cons, List.length_map, (hcoeffs_lt i).1, Nat.sub_add_cancel ht] at hdeg
    exact hdeg
  · rw [← AList.lookup_isSome, hlookup n, ← mem_sortedKeys]
    split <;> simp_all
  · rw [hshare n share hs]
    exact shareLimb_lt (hk i) _ _
  · rw [hshare n share hs]
    exact cast_shareLimb _ _ _

end Hashing

end Bedrock.Slhwid

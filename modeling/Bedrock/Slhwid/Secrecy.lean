/-
  What fewer shares than the threshold say about the key: nothing.

  1. **Matrices** — the randomness of `build_shares` is the coefficient matrix it draws; `BuildsWith`
     is a run that draws a given one.  The run is determined by it (`buildsWith_iff`).

  2. **Shares by name** — a share is stored under its slot's name, at the coordinate `coordOf` of that
     slot.  At the chosen salt the coordinates of different names differ, and none is `0`.

  3. **Secrecy** — `perfect_secrecy`: the shares of `t - 1` slots under one key come from exactly one
     matrix under any other key.
-/
import Bedrock.Slhwid.Sharing

open Lib.Fallible Lib.LittleEndian Lib.Interpolation Bedrock.Python

namespace Bedrock.Slhwid

/-! ## Coefficient matrices -/

/-- Four rows of `n` coefficients below `P`. -/
def IsMatrix (n : Nat) (coeffs : Fin 4 → List Nat) : Prop :=
  ∀ i, (coeffs i).length = n ∧ ∀ c ∈ coeffs i, c < P

/-- The bytes that `elem` reads as these numbers. -/
def elemBytes (cs : List Nat) : Bytes := cs.flatMap (toLE 8)

/-- A reduced number is drawn from its eight bytes. -/
theorem drawElem_run {c : Nat} (hc : c < P) (rest : Bytes) :
    drawElem (toLE 8 c ++ rest) = .ok c rest := by
  have hlen : (toLE 8 c).length = 8 := length_toLE 8 c
  have htake : (toLE 8 c ++ rest).take 8 = toLE 8 c := List.take_left' hlen
  have hdrop : (toLE 8 c ++ rest).drop 8 = rest := List.drop_left' hlen
  have hvalue : ofLE (toLE 8 c) % P = c := by
    have h64 : c < 256 ^ 8 := by rw [P_eq] at hc; omega
    rw [ofLE_toLE_of_lt h64, Nat.mod_eq_of_lt hc]
  have hsource : source 8 (toLE 8 c ++ rest) = .ok (toLE 8 c) rest := by
    rw [source, htake, hdrop]
  refine (run_bind_ok hsource _).trans ?_
  rw [raiseIf_neg (not_not.mpr hlen), lift_ok_bind, hvalue]
  rfl

theorem drawElems_run {cs : List Nat} (hcs : ∀ c ∈ cs, c < P) (rest : Bytes) :
    drawElems cs.length (elemBytes cs ++ rest) = .ok cs rest := by
  induction cs with
  | nil => rfl
  | cons c cs ih =>
    have hc := hcs c List.mem_cons_self
    have hrest := ih fun c' hc' => hcs c' (List.mem_cons_of_mem c hc')
    rw [elemBytes, List.flatMap_cons, List.append_assoc]
    exact (run_bind_ok (drawElem_run hc _) _).trans (run_bind_ok hrest _)

/-- Every matrix can be drawn. -/
theorem exists_drawCoeffs {n : Nat} {coeffs : Fin 4 → List Nat} (h : IsMatrix n coeffs) :
    ∃ d, drawCoeffs n d = .ok coeffs [] := by
  have hrow : ∀ i rest, drawElems n (elemBytes (coeffs i) ++ rest) = .ok (coeffs i) rest :=
    fun i rest => (h i).1 ▸ drawElems_run (h i).2 rest
  refine ⟨elemBytes (coeffs 0) ++ (elemBytes (coeffs 1) ++ (elemBytes (coeffs 2) ++
    (elemBytes (coeffs 3) ++ []))), ?_⟩
  refine (run_bind_ok (hrow 0 _) _).trans ((run_bind_ok (hrow 1 _) _).trans
    ((run_bind_ok (hrow 2 _) _).trans ((run_bind_ok (hrow 3 _) _).trans ?_)))
  show EStateM.Result.ok _ _ = _
  congr 1
  funext i
  fin_cases i <;> rfl

/-! ## Shares by name -/

/-- What `build_shares` computes from the coordinates and the coefficients. -/
def sharesOn (k : Limbs) (coeffs : Fin 4 → List Nat) (placed : List (Slot × Nat)) : Dict Limbs :=
  placed.foldl (fun shares p => shares.insert p.1.name (shareAt k coeffs p.2)) ∅

/-- The coordinate whose share is stored under a name: that of the last slot with the name. -/
def coordOf (placed : List (Slot × Nat)) (n : Str) : Option Nat :=
  (placed.reverse.find? fun p => p.1.name = n).map Prod.snd

/-- The share of a slot is that of its coordinate. -/
theorem lookup_sharesOn (k : Limbs) (coeffs : Fin 4 → List Nat) (placed : List (Slot × Nat))
    (n : Str) : (sharesOn k coeffs placed).lookup n = (coordOf placed n).map (shareAt k coeffs) := by
  unfold sharesOn coordOf
  induction placed using List.reverseRecOn with
  | nil => rfl
  | append_singleton placed p ih =>
    rw [List.foldl_append, List.foldl_cons, List.foldl_nil, List.reverse_append,
      List.reverse_singleton, List.singleton_append, List.find?_cons]
    by_cases hn : n = p.1.name
    · subst hn
      rw [AList.lookup_insert, decide_eq_true rfl]
      rfl
    · rw [AList.lookup_insert_ne hn, ih, decide_eq_false (fun h => hn h.symm)]

/-- The coordinate of a name is that of one of its slots. -/
theorem coordOf_eq_some {placed : List (Slot × Nat)} {n : Str} {x : Nat}
    (h : coordOf placed n = some x) : ∃ p ∈ placed, p.1.name = n ∧ p.2 = x := by
  obtain ⟨p, hp, rfl⟩ := Option.map_eq_some_iff.mp h
  have hname : p.1.name = n := by simpa using List.find?_some hp
  exact ⟨p, List.mem_reverse.mp (List.mem_of_find?_eq_some hp), hname, rfl⟩

/-- Every placed slot has one. -/
theorem exists_coordOf {placed : List (Slot × Nat)} {n : Str}
    (h : n ∈ placed.map fun p => p.1.name) : ∃ x, coordOf placed n = some x := by
  obtain ⟨p, hp, hname⟩ := List.mem_map.mp h
  cases hfind : placed.reverse.find? fun p => p.1.name = n with
  | some q => exact ⟨q.2, by rw [coordOf, hfind]; rfl⟩
  | none =>
    exact absurd (decide_eq_true hname) (List.find?_eq_none.mp hfind p (List.mem_reverse.mpr hp))

/-- Where the coordinates differ, those of different names do. -/
theorem coordOf_inj {placed : List (Slot × Nat)} (hnd : (placed.map Prod.snd).Nodup) {n n' : Str}
    {x : Nat} (h : coordOf placed n = some x) (h' : coordOf placed n' = some x) : n = n' := by
  obtain ⟨p, hp, rfl, rfl⟩ := coordOf_eq_some h
  obtain ⟨p', hp', rfl, hx⟩ := coordOf_eq_some h'
  rw [List.inj_on_of_nodup_map hnd hp' hp hx]

/-! ## One limb -/

/-- The values of one limb's polynomial at distinct nonzero points determine its coefficients,
    whatever the limb. -/
theorem existsUnique_limb {chosen : Finset Str} {x : Str → Nat}
    (hrange : ∀ n ∈ chosen, x n ≠ 0 ∧ x n < P)
    (hinj : ∀ n ∈ chosen, ∀ n' ∈ chosen, x n = x n' → n = n') {limb : Nat} (hlimb : limb < P)
    {y : Str → Nat} (hy : ∀ n ∈ chosen, y n < P) :
    ∃! cs : List Nat, (cs.length = chosen.card ∧ ∀ c ∈ cs, c < P) ∧
      ∀ n ∈ chosen, shareLimb limb cs (x n) = y n := by
  have hfield : Set.InjOn (fun n => (x n : ZMod P)) chosen := fun n hn n' hn' h =>
    hinj n hn n' hn' (cast_inj (hrange n hn).2 (hrange n' hn').2 h)
  have hzero : ∀ n ∈ chosen, (x n : ZMod P) ≠ 0 := fun n hn h =>
    (hrange n hn).1 ((cast_eq_zero_iff (hrange n hn).2).mp h)
  -- on reduced coefficients the equations are those over the field
  have hvalue : ∀ cs : List Nat, (∀ n ∈ chosen, shareLimb limb cs (x n) = y n) ↔
      ∀ n ∈ chosen, (hornerPoly ((limb : ZMod P) :: cs.map Nat.cast)).eval (x n : ZMod P) = y n := by
    refine fun cs => forall₂_congr fun n hn => ?_
    rw [← limbPoly, ← cast_shareLimb]
    exact ⟨fun h => by rw [h], cast_inj (shareLimb_lt hlimb cs _) (hy n hn)⟩
  obtain ⟨ds, ⟨hlen, hds⟩, hunique⟩ := existsUnique_masking hfield hzero (limb : ZMod P)
    fun n => (y n : ZMod P)
  have hback : (ds.map ZMod.val).map (Nat.cast : Nat → ZMod P) = ds := by
    rw [List.map_map]
    exact List.map_id'' (fun d => ZMod.natCast_zmod_val d) ds
  refine ⟨ds.map ZMod.val, ⟨⟨by rw [List.length_map, hlen], fun c hc => ?_⟩, ?_⟩, ?_⟩
  · obtain ⟨d, _, rfl⟩ := List.mem_map.mp hc
    exact ZMod.val_lt d
  · rw [hvalue, hback]
    exact hds
  · rintro cs ⟨⟨hcslen, hcslt⟩, hcs⟩
    have hcast := hunique (cs.map Nat.cast) ⟨by rw [List.length_map, hcslen], (hvalue cs).mp hcs⟩
    rw [← hcast, List.map_map]
    exact (List.map_congr_left fun c hc => ZMod.val_cast_of_lt (hcslt c hc)).trans
      (List.map_id cs) |>.symm

/-! ## The program -/

section Hashing

variable [Sha256]

/-- `build_shares` with these coefficients: a run that draws them returns the shares and the salt. -/
def BuildsWith (k : Limbs) (slots : List Slot) (t : Nat) (coeffs : Fin 4 → List Nat)
    (shares : Dict Limbs) (salt : Nat) : Prop :=
  ∃ d d', drawCoeffs (t - 1) d = .ok coeffs d' ∧ buildShares k slots t d = .ok (shares, salt) d'

/-- A run is determined by the matrix. -/
theorem buildsWith_iff {slots : List Slot} {xs : List Nat} {salt : Nat}
    (hsalt : saltLoop slots 255 0 = .ok (xs, salt)) {k : Limbs} {t : Nat}
    {coeffs : Fin 4 → List Nat} {shares : Dict Limbs} {salt' : Nat} :
    BuildsWith k slots t coeffs shares salt' ↔
      IsMatrix (t - 1) coeffs ∧ salt' = salt ∧ shares = sharesOn k coeffs (slots.zip xs) := by
  have hrun : ∀ {d d' : Bytes} {coeffs : Fin 4 → List Nat},
      drawCoeffs (t - 1) d = .ok coeffs d' →
      buildShares k slots t d = .ok (sharesOn k coeffs (slots.zip xs), salt) d' := by
    intro d d' coeffs hdraw
    unfold buildShares
    rw [hsalt, lift_ok_bind]
    exact run_bind_ok hdraw _
  constructor
  · rintro ⟨d, d', hdraw, hbuild⟩
    rw [hrun hdraw] at hbuild
    obtain ⟨hpair, _⟩ := EStateM.Result.ok.inj hbuild
    obtain ⟨rfl, rfl⟩ := Prod.mk.inj hpair
    exact ⟨drawCoeffs_spec hdraw, rfl, rfl⟩
  · rintro ⟨hmatrix, rfl, rfl⟩
    obtain ⟨d, hdraw⟩ := exists_drawCoeffs hmatrix
    exact ⟨d, [], hdraw, hrun hdraw⟩

/-- The coordinates of the salt loop are nonzero, reduced and distinct. -/
theorem saltLoop_range {slots : List Slot} {xs : List Nat} {salt : Nat}
    (hsalt : saltLoop slots 255 0 = .ok (xs, salt)) :
    xs.Nodup ∧ slots.length = xs.length ∧ ∀ x ∈ xs, x ≠ 0 ∧ x < P := by
  obtain ⟨_, hnd, hxs⟩ := saltLoop_spec hsalt
  obtain ⟨hderive, rfl⟩ := mapM_eq_ok
    (g := fun s : Slot => (deriveX s.name s.value salt).toOption.getD 0)
    (fun s _ x hx => by rw [hx]; rfl) hxs
  refine ⟨hnd, (List.length_map _).symm, fun x hx => ?_⟩
  obtain ⟨s, hs, rfl⟩ := List.mem_map.mp hx
  exact deriveX_range (hderive s hs)

/-- **Perfect secrecy below the threshold.**  Under a key `k` and a coefficient matrix, take the
    shares of any `t - 1` slots (by name, as they are returned); under any key `k'` exactly one
    matrix gives these slots the same shares. -/
theorem perfect_secrecy {slots : List Slot} {xs : List Nat} {salt : Nat}
    (hsalt : saltLoop slots 255 0 = .ok (xs, salt)) {t : Nat} {chosen : Finset Str}
    (hchosen : ∀ n ∈ chosen, n ∈ slots.map Slot.name) (hcard : chosen.card = t - 1)
    {k k' : Limbs} (hk : k.Reduced) (hk' : k'.Reduced) {coeffs : Fin 4 → List Nat}
    (hcoeffs : IsMatrix (t - 1) coeffs) :
    ∃ shares, BuildsWith k slots t coeffs shares salt ∧
      ∃! coeffs', IsMatrix (t - 1) coeffs' ∧ ∃ shares', BuildsWith k' slots t coeffs' shares' salt ∧
        ∀ n ∈ chosen, shares'.lookup n = shares.lookup n := by
  obtain ⟨hnd, hlen, hrange⟩ := saltLoop_range hsalt
  have hnames : (slots.zip xs).map (fun p => p.1.name) = slots.map Slot.name := by
    conv_rhs => rw [← List.map_fst_zip hlen.le, List.map_map]
    rfl
  have hcoords : (slots.zip xs).map Prod.snd = xs := List.map_snd_zip hlen.ge
  -- the coordinate of each chosen slot: nonzero, reduced, and its own
  have hcoord : ∀ n ∈ chosen, ∃ x, coordOf (slots.zip xs) n = some x := fun n hn =>
    exists_coordOf (hnames ▸ hchosen n hn)
  choose! x hx using hcoord
  have hxrange : ∀ n ∈ chosen, x n ≠ 0 ∧ x n < P := by
    intro n hn
    obtain ⟨p, hp, _, hpx⟩ := coordOf_eq_some (hx n hn)
    exact hrange _ (hpx ▸ hcoords ▸ List.mem_map_of_mem hp)
  have hxinj : ∀ n ∈ chosen, ∀ n' ∈ chosen, x n = x n' → n = n' := fun n hn n' hn' h =>
    coordOf_inj (hcoords.symm ▸ hnd) (hx n hn) (h ▸ hx n' hn')
  -- the rows of the other matrix, limb by limb
  have hlimb := fun i => existsUnique_limb hxrange hxinj (hk' i)
    (y := fun n => shareAt k coeffs (x n) i) fun n _ => shareLimb_lt (hk i) _ _
  choose coeffs' hcoeffs' hunique using hlimb
  rw [hcard] at hcoeffs' hunique
  have hlookup : ∀ (k : Limbs) (coeffs : Fin 4 → List Nat), ∀ n ∈ chosen,
      (sharesOn k coeffs (slots.zip xs)).lookup n = some (shareAt k coeffs (x n)) :=
    fun k coeffs n hn => by rw [lookup_sharesOn, hx n hn]; rfl
  refine ⟨_, (buildsWith_iff hsalt).mpr ⟨hcoeffs, rfl, rfl⟩, coeffs', ?_, ?_⟩
  · have hmatrix : IsMatrix (t - 1) coeffs' := fun i => (hcoeffs' i).1
    refine ⟨hmatrix, _, (buildsWith_iff hsalt).mpr ⟨hmatrix, rfl, rfl⟩, fun n hn => ?_⟩
    rw [hlookup k' coeffs' n hn, hlookup k coeffs n hn, Option.some_inj]
    funext i
    exact (hcoeffs' i).2 n hn
  · rintro coeffs₂ ⟨hmatrix, shares', hbuilds, hsame⟩
    obtain ⟨_, _, rfl⟩ := (buildsWith_iff hsalt).mp hbuilds
    funext i
    refine hunique i (coeffs₂ i) ⟨hmatrix i, fun n hn => ?_⟩
    have hn' := hsame n hn
    rw [hlookup k' coeffs₂ n hn, hlookup k coeffs n hn] at hn'
    exact congrFun (Option.some.inj hn') i

end Hashing

/-- The slots of the sample. -/
def sampleSlots : List Slot :=
  [⟨str "cpu_id", str "a", false⟩, ⟨str "firmware", str "b", false⟩, ⟨str "slstore", str "c", true⟩]

/-- Two of three slots, with threshold three: they are consistent with the key `0`. -/
theorem perfect_secrecy_sample :
    ∃ shares, @BuildsWith sampleHash ![1, 2, 3, 4] sampleSlots 3 (fun _ => [5, 6]) shares 0 ∧
      ∃! coeffs', IsMatrix 2 coeffs' ∧
        ∃ shares', @BuildsWith sampleHash ![0, 0, 0, 0] sampleSlots 3 coeffs' shares' 0 ∧
          ∀ n ∈ ({str "cpu_id", str "firmware"} : Finset Str),
            shares'.lookup n = shares.lookup n := by
  have hsalt : @saltLoop sampleHash sampleSlots 255 0 =
      .ok ([247827032155881570, 1327848725558919267, 897188772786274404], 0) := by decide +kernel
  exact @perfect_secrecy sampleHash sampleSlots _ 0 hsalt 3 {str "cpu_id", str "firmware"}
    (by decide +kernel) (by decide +kernel) ![1, 2, 3, 4] ![0, 0, 0, 0] (by decide) (by decide)
    (fun _ => [5, 6]) (by unfold IsMatrix; decide +kernel)

end Bedrock.Slhwid

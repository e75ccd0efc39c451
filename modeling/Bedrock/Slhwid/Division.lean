/-
  When the recovery divides by zero.

  A coordinate is 61 bits of a hash.  The enrollment re-salts until the enrolled values have different
  ones; the recovery computes them from whatever the machine reports, at the stored salt, and
  interpolates.

  1. **Interpolation** — `pow(den, -1, P)` raises for a zero denominator, and a set of points has one
     exactly if two of its coordinates agree (`hasKey_iff`).

  2. **Sweeps** — a sweep stops evaluating at its first match, so a set with a repeated coordinate
     only hurts when none before it recovers (`sweep_returns_iff`).  The diagnosis is a search whose
     tests are sweeps (`diagnosis_returns_iff`).

  3. **Recovery** — `recoverCore_returns_iff`: for every blob the parser accepts and every map of
     factors, the recovery returns exactly under `DividesSafely`.
-/
import Bedrock.Lib.Search
import Bedrock.Slhwid.Projection
import Bedrock.Slhwid.Report

open Lib.Fallible Lib.Combinations Lib.Interpolation Lib.Search Bedrock.Python

namespace Bedrock.Slhwid

/-! ## Interpolation -/

/-- `pow(a, -1, P)` returns for a unit only. -/
theorem invmod_ne_zero {a v : Nat} (h : invmod a = .ok v) : (a : ZMod P) ≠ 0 := by
  intro hzero
  have hmod : a % P = 0 := Nat.mod_eq_zero_of_dvd ((ZMod.natCast_eq_zero_iff a P).mp hzero)
  rw [invmod, if_pos hmod] at h
  cases h

/-- The loops return over nonzero denominators only. -/
theorem interpolateWith_ne_zero {num : Nat → Nat} {den : Nat → Nat → Nat} {ys : List Nat} {n v : Nat}
    (h : interpolateWith num den ys n = .ok v) :
    ∀ j < n, ∀ k < n, k ≠ j → (den j k : ZMod P) ≠ 0 := by
  have hpass : ∀ j ∈ List.range n, ((fraction num (den j) n j).2 : ZMod P) ≠ 0 := by
    refine foldlM_inv (fun seen _ => ∀ j ∈ seen, ((fraction num (den j) n j).2 : ZMod P) ≠ 0)
      (fun seen j total total' _ hinv hstep i hi => ?_) (fun j hj => absurd hj List.not_mem_nil) h
    obtain ⟨inv, hinvmod, _⟩ := bind_eq_ok.mp hstep
    rcases List.mem_append.mp hi with hi | hi
    · exact hinv i hi
    · obtain rfl := List.mem_singleton.mp hi
      exact invmod_ne_zero hinvmod
  intro j hj k hk hkj
  have hprod := hpass j (List.mem_range.mpr hj)
  rw [(cast_fraction num (den j) n j).2] at hprod
  exact Finset.prod_ne_zero_iff.mp hprod k
    (Finset.mem_erase.mpr ⟨hkj, Finset.mem_range.mpr hk⟩)

/-- `_lagrange_at_zero` returns over distinct coordinates only. -/
theorem lagrangeAtZero_nodup {xs ys : List Nat} (hlt : ∀ x ∈ xs, x < P) {v : Nat}
    (h : lagrangeAtZero xs ys = .ok v) : xs.Nodup := by
  refine List.nodup_iff_injective_get.mpr fun ⟨j, hj⟩ ⟨k, hk⟩ hjk => ?_
  by_contra hne
  have hx : xs[k]! = xs[j]! := by
    rw [getElem!_pos xs k hk, getElem!_pos xs j hj]
    exact hjk.symm
  refine interpolateWith_ne_zero h j hj k hk (fun heq => hne (Fin.ext heq.symm)) ?_
  rw [cast_submod (getElem!_lt hlt j), hx]
  exact sub_self _

/-- No two points have the same coordinate. -/
def Apart (points : List Point) : Prop := (points.map Point.x).Nodup

/-- Whether the coordinates differ is computed. -/
instance (points : List Point) : Decidable (Apart points) :=
  inferInstanceAs (Decidable (List.Nodup _))

/-- The points interpolate to a key. -/
def HasKey (points : List Point) : Prop := ∃ k, keyFromPoints points = .ok k

/-- **A set of points interpolates** exactly if its coordinates differ. -/
theorem hasKey_iff {points : List Point} (hlt : ∀ p ∈ points, p.x < P) :
    HasKey points ↔ Apart points := by
  have hxs : ∀ x ∈ points.map Point.x, x < P := by
    intro x hx
    obtain ⟨p, hp, rfl⟩ := List.mem_map.mp hx
    exact hlt p hp
  constructor
  · rintro ⟨k, hk⟩
    rw [keyFromPoints] at hk
    exact lagrangeAtZero_nodup hxs (forLimbs_eq_ok.mp hk 0)
  · intro hnd
    have hlimb := fun i => lagrangeAtZero_ok (points.map fun p => p.share i) hxs hnd
    choose k hk _ _ using hlimb
    exact ⟨k, forLimbs_ok hk⟩

section Hashing

variable [Sha256]

/-! ## One sweep -/

/-- The sets of points a sweep tries, in its order. -/
def candidates (mandatory optional : List Point) (t : Nat) : List (List Point) :=
  (combinations (t - mandatory.length) optional).map (mandatory ++ ·)

/-- The set of points at the positions `combo`. -/
def candidate (mandatory optional : List Point) (combo : List Nat) : List Point :=
  mandatory ++ combo.map fun i => optional[i]!

omit [Sha256] in
/-- The combinations of positions are the candidate sets. -/
theorem map_candidate (mandatory optional : List Point) (t : Nat) :
    (combinations (t - mandatory.length) (List.range optional.length)).map
      (candidate mandatory optional) = candidates mandatory optional t := by
  rw [candidates, ← combinations_range _ optional, List.map_map]
  rfl

omit [Sha256] in
theorem mem_candidates {mandatory optional points : List Point} {t : Nat} :
    points ∈ candidates mandatory optional t ↔
      ∃ c, c.Sublist optional ∧ c.length = t - mandatory.length ∧ points = mandatory ++ c := by
  rw [candidates, List.mem_map]
  constructor
  · rintro ⟨c, hc, rfl⟩
    obtain ⟨hsub, hlen⟩ := mem_combinations.mp hc
    exact ⟨c, hsub, hlen, rfl⟩
  · rintro ⟨c, hsub, hlen, rfl⟩
    exact ⟨c, mem_combinations.mpr ⟨hsub, hlen⟩, rfl⟩

omit [Sha256] in
/-- The sets are made of the points given. -/
theorem mem_of_mem_candidate {mandatory optional : List Point} {t : Nat} {combo : List Nat}
    (hcombo : combo ∈ combinations (t - mandatory.length) (List.range optional.length)) {p : Point}
    (hp : p ∈ candidate mandatory optional combo) : p ∈ mandatory ++ optional := by
  have hmem : candidate mandatory optional combo ∈ candidates mandatory optional t := by
    rw [← map_candidate]
    exact List.mem_map_of_mem hcombo
  obtain ⟨c, hsub, _, heq⟩ := mem_candidates.mp hmem
  rw [heq] at hp
  exact ((List.Sublist.refl mandatory).append hsub).subset hp

/-- The early `return None` is the loop over no combination. -/
theorem findRecoveringSubset_eq (mandatory optional : List Point) (t : Nat) (cw : Bytes) :
    findRecoveringSubset mandatory optional t cw =
      (combinations (t - mandatory.length) (List.range optional.length)).foldlM
        (tryCombo mandatory optional cw) none :=
  foldlM_combinations List.length_range (tryCombo mandatory optional cw) none

/-- Before a match, a pass evaluates its set. -/
theorem tryCombo_eq (mandatory optional : List Point) (cw : Bytes) (combo : List Nat) :
    tryCombo mandatory optional cw none combo = (do
      let key ← keyFromPoints (candidate mandatory optional combo)
      let word ← checkWord key
      return if word = cw then some (candidate mandatory optional combo,
        ((combo.map fun i => optional[i]!).map Point.name).toFinset) else none) := rfl

/-- The sweep is a search: once it has a match it keeps it. -/
theorem sweep_searches (mandatory optional : List Point) (cw : Bytes) :
    Searches (tryCombo mandatory optional cw) none (fun found => found.isSome = true) where
  start := by simp
  keep := by
    intro found combo hfound
    unfold tryCombo
    dsimp only
    rw [if_pos hfound]
    rfl
  miss := by
    intro combo found _
    cases found with
    | none => exact Or.inr rfl
    | some f => exact Or.inl rfl

/-- A pass returns if its set interpolates. -/
theorem tryCombo_returns {mandatory optional : List Point} {cw : Bytes} {combo : List Nat} :
    Returns (tryCombo mandatory optional cw) none combo ↔
      HasKey (candidate mandatory optional combo) := by
  rw [Returns, tryCombo_eq]
  constructor
  · rintro ⟨found, hrun⟩
    obtain ⟨k, hk, _⟩ := bind_eq_ok.mp hrun
    exact ⟨k, hk⟩
  · rintro ⟨k, hk⟩
    rw [hk, ok_bind, checkWord_ok (keyFromPoints_reduced hk)]
    exact ⟨_, rfl⟩

/-- A pass matches if its set recovers. -/
theorem tryCombo_hits {mandatory optional : List Point} {cw : Bytes} {combo : List Nat} :
    Hits (tryCombo mandatory optional cw) none (fun found => found.isSome = true) combo ↔
      Recovering (candidate mandatory optional combo) cw := by
  rw [Hits, tryCombo_eq]
  constructor
  · rintro ⟨found, hrun, hfound⟩
    obtain ⟨k, hk, hrun⟩ := bind_eq_ok.mp hrun
    have hred := keyFromPoints_reduced hk
    rw [checkWord_ok hred, ok_bind] at hrun
    refine ⟨k, hk, hred, ?_⟩
    by_contra hcw
    rw [if_neg hcw] at hrun
    obtain rfl := Except.ok.inj hrun
    cases hfound
  · rintro ⟨k, hk, hred, hcw⟩
    rw [hk, ok_bind, checkWord_ok hred, ok_bind, if_pos hcw]
    exact ⟨_, rfl, rfl⟩

/-- **A sweep returns** unless it tries a set with a repeated coordinate before its first match. -/
theorem sweep_returns_iff {mandatory optional : List Point} (t : Nat) (cw : Bytes)
    (hlt : ∀ p ∈ mandatory ++ optional, p.x < P) :
    (∃ found, findRecoveringSubset mandatory optional t cw = .ok found) ↔
      Shielded Apart (Recovering · cw) (candidates mandatory optional t) := by
  rw [findRecoveringSubset_eq, (sweep_searches mandatory optional cw).returns_iff, ← map_candidate,
    shielded_map]
  refine Shielded.congr (fun combo hcombo => ?_) fun combo _ => tryCombo_hits
  rw [tryCombo_returns]
  exact hasKey_iff fun p hp => hlt p (mem_of_mem_candidate hcombo hp)

/-- **A sweep that returns has found** something exactly if one of its sets recovers. -/
theorem sweep_found_iff {mandatory optional : List Point} {t : Nat} {cw : Bytes} {found : Found}
    (h : findRecoveringSubset mandatory optional t cw = .ok found) :
    found.isSome = true ↔ ∃ points ∈ candidates mandatory optional t, Recovering points cw := by
  rw [findRecoveringSubset_eq] at h
  rw [((sweep_searches mandatory optional cw).done_iff h).1, ← map_candidate]
  constructor
  · rintro ⟨combo, hcombo, hhit⟩
    exact ⟨_, List.mem_map_of_mem hcombo, tryCombo_hits.mp hhit⟩
  · rintro ⟨points, hpoints, hrec⟩
    obtain ⟨combo, hcombo, rfl⟩ := List.mem_map.mp hpoints
    exact ⟨combo, hcombo, tryCombo_hits.mpr hrec⟩

/-- What it has found is one of its sets. -/
theorem sweep_mem {mandatory optional points : List Point} {t : Nat} {cw : Bytes}
    {subset : Finset Str}
    (h : findRecoveringSubset mandatory optional t cw = .ok (some (points, subset))) :
    points ∈ candidates mandatory optional t := by
  rw [findRecoveringSubset_eq] at h
  rw [← map_candidate]
  -- the invariant of the sweep: what has been found is the candidate of one of the combinations
  refine foldlM_inv (fun _ found => ∀ ps su, found = some (ps, su) → ps ∈
      (combinations (t - mandatory.length) (List.range optional.length)).map
        (candidate mandatory optional))
    (fun _ combo found found' hcombo hinv hstep => ?_) (fun _ _ hf => by cases hf) h points subset rfl
  -- behind a match nothing is tried any more
  cases found with
  | some f =>
    rw [(sweep_searches mandatory optional cw).keep (some f) combo rfl] at hstep
    obtain rfl := Except.ok.inj hstep
    exact hinv
  | none =>
    rw [tryCombo_eq] at hstep
    obtain ⟨k, _, hstep⟩ := bind_eq_ok.mp hstep
    obtain ⟨word, _, hstep⟩ := bind_eq_ok.mp hstep
    obtain rfl := Except.ok.inj hstep
    intro ps su hf
    split at hf
    · cases hf
      exact List.mem_map_of_mem hcombo
    · cases hf

/-! ## The sweeps of a recovery -/

/-- The sets of points a sweep over `slots` tries, the slots at the coordinates `x`. -/
def setsOf (h : Helper) (x : Str → Nat) (G : Dict Str) (slots : List HelperSlot) : List (List Point) :=
  candidates (mandatoryPoints x G slots) (optionalPoints x G slots) h.threshold

/-- Before the first set that recovers, no set has a repeated coordinate. -/
def SafeSweep (h : Helper) (x : Str → Nat) (G : Dict Str) (slots : List HelperSlot) : Prop :=
  Shielded Apart (Recovering · h.checkWord) (setsOf h x G slots)

/-- One of the sets recovers. -/
def FindsKey (h : Helper) (x : Str → Nat) (G : Dict Str) (slots : List HelperSlot) : Prop :=
  ∃ points ∈ setsOf h x G slots, Recovering points h.checkWord

/-- The slots left when the slot `ms` is not looked at. -/
def slotsWithout (h : Helper) (ms : HelperSlot) : List HelperSlot :=
  h.slots.filter fun s => s.name ≠ ms.name

/-- What the search for a culprit needs: before the first mandatory slot without which the machine
    recovers, every mandatory slot's sweep is safe. -/
def SafeDiagnosis (h : Helper) (x : Str → Nat) (G : Dict Str) : Prop :=
  Shielded (fun ms => ms.mandatory = true → SafeSweep h x G (slotsWithout h ms))
    (fun ms => ms.mandatory = true ∧ FindsKey h x G (slotsWithout h ms)) h.slots

omit [Sha256] in
/-- The points of a helper without one slot are the points with another name. -/
theorem points_without (h : Helper) (x : Str → Nat) (G : Dict Str) (ms : HelperSlot) :
    (mandatoryPoints x G h.slots).filter (fun p => p.name ≠ ms.name) =
      mandatoryPoints x G (slotsWithout h ms) ∧
    (optionalPoints x G h.slots).filter (fun p => p.name ≠ ms.name) =
      optionalPoints x G (slotsWithout h ms) := by
  constructor
  · simp only [mandatoryPoints, slotsWithout, List.filter_map, List.filter_filter]
    congr 1
    refine List.filter_congr fun s _ => ?_
    by_cases hname : s.name = ms.name
    · simp [pointOf, hname]
    · simp [pointOf, hname]
  · simp only [optionalPoints, slotsWithout, List.filter_map, List.filter_filter]
    congr 1
    refine List.filter_congr fun s _ => ?_
    by_cases hname : s.name = ms.name
    · simp [pointOf, hname]
    · simp [pointOf, hname]

/-- The points of present slots are field elements. -/
theorem Derives.lt {slots : List HelperSlot} {salt : Nat} {G : Dict Str} {x : Str → Nat}
    (h : Derives slots salt G x) :
    ∀ p ∈ mandatoryPoints x G slots ++ optionalPoints x G slots, p.x < P := by
  intro p hp
  obtain ⟨s, hs, hpres, rfl⟩ := exists_slot (List.Sublist.refl _) hp
  exact (deriveX_range (h s hs hpres)).2

theorem Derives.without {h : Helper} {G : Dict Str} {x : Str → Nat} (hd : Derives h.slots h.salt G x)
    (ms : HelperSlot) : Derives (slotsWithout h ms) h.salt G x :=
  fun s hs hpres => hd s (List.mem_filter.mp hs).1 hpres

/-- One pass of the diagnosis before a culprit is found. -/
theorem diagnoseSlot_eq {h : Helper} (hnd : (h.slots.map HelperSlot.name).Nodup) (x : Str → Nat)
    (G : Dict Str) {ms : HelperSlot} (hm : ms.mandatory = true) :
    diagnoseSlot h (mandatoryPoints x G h.slots ++ optionalPoints x G h.slots) [] ms = (do
      let found ← findRecoveringSubset (mandatoryPoints x G (slotsWithout h ms))
        (optionalPoints x G (slotsWithout h ms)) h.threshold h.checkWord
      return if found.isSome then ms.name else []) := by
  obtain ⟨hmand, hopt⟩ := filter_merged hnd x G ms
  obtain ⟨hmand', hopt'⟩ := points_without h x G ms
  unfold diagnoseSlot
  dsimp only
  rw [if_neg (by simp [hm]), if_neg (by simp), hmand, hopt, hmand', hopt']

/-- The diagnosis is such a search too, over the slots. -/
theorem diagnosis_searches (h : Helper) (merged : List Point) :
    Searches (diagnoseSlot h merged) [] (fun culprit => culprit ≠ []) where
  start := fun hne => hne rfl
  keep := by
    intro culprit ms hculprit
    unfold diagnoseSlot
    dsimp only
    rw [if_pos hculprit]
    split
    · rfl
    · rfl
  miss := fun _ culprit _ => (Classical.em (culprit = [])).symm

/-- The diagnosis of a slot returns if it is no hard lock or its sweep divides safely. -/
theorem diagnoseSlot_returns {h : Helper} (hv : h.Valid) {G : Dict Str} {x : Str → Nat}
    (hd : Derives h.slots h.salt G x) {ms : HelperSlot} :
    Returns (diagnoseSlot h (mandatoryPoints x G h.slots ++ optionalPoints x G h.slots)) [] ms ↔
      (ms.mandatory = true → SafeSweep h x G (slotsWithout h ms)) := by
  by_cases hm : ms.mandatory = true
  · rw [Returns, diagnoseSlot_eq hv.names_nodup x G hm, SafeSweep, setsOf,
      ← sweep_returns_iff h.threshold h.checkWord (hd.without ms).lt]
    constructor
    · rintro ⟨culprit, hrun⟩ _
      obtain ⟨found, hfound, _⟩ := bind_eq_ok.mp hrun
      exact ⟨found, hfound⟩
    · intro hsafe
      obtain ⟨found, hfound⟩ := hsafe hm
      rw [hfound]
      exact ⟨_, rfl⟩
  · refine ⟨fun _ hm' => absurd hm' hm, fun _ => ⟨[], ?_⟩⟩
    exact if_pos hm

theorem diagnoseSlot_hits {h : Helper} (hv : h.Valid) {G : Dict Str} {x : Str → Nat}
    (hd : Derives h.slots h.salt G x) {ms : HelperSlot} (hms : ms ∈ h.slots) :
    Hits (diagnoseSlot h (mandatoryPoints x G h.slots ++ optionalPoints x G h.slots)) []
        (fun culprit => culprit ≠ []) ms ↔
      (ms.mandatory = true → SafeSweep h x G (slotsWithout h ms)) ∧
        ms.mandatory = true ∧ FindsKey h x G (slotsWithout h ms) := by
  rw [← diagnoseSlot_returns hv hd]
  constructor
  · rintro ⟨culprit, hrun, hculprit⟩
    refine ⟨⟨culprit, hrun⟩, ?_⟩
    -- only a hard lock can be named as the culprit
    have hm : ms.mandatory = true := by
      by_contra hm
      have hskip : diagnoseSlot h (mandatoryPoints x G h.slots ++ optionalPoints x G h.slots) [] ms =
          .ok [] := if_pos hm
      exact hculprit (Except.ok.inj (hrun.symm.trans hskip))
    refine ⟨hm, ?_⟩
    rw [diagnoseSlot_eq hv.names_nodup x G hm] at hrun
    obtain ⟨found, hfound, hrun⟩ := bind_eq_ok.mp hrun
    obtain rfl := Except.ok.inj hrun
    -- it is named exactly if the sweep without it finds a key
    refine (sweep_found_iff hfound).mp ?_
    by_contra hnone
    exact hculprit (if_neg hnone)
  · rintro ⟨⟨culprit, hrun⟩, hm, hfinds⟩
    refine ⟨culprit, hrun, ?_⟩
    rw [diagnoseSlot_eq hv.names_nodup x G hm] at hrun
    obtain ⟨found, hfound, hrun⟩ := bind_eq_ok.mp hrun
    obtain rfl := Except.ok.inj hrun
    rw [if_pos ((sweep_found_iff hfound).mpr hfinds)]
    exact hv.name_ne_nil hms

/-- **The diagnosis returns** unless it meets an unsafe sweep before it finds a culprit. -/
theorem diagnosis_returns_iff {h : Helper} (hv : h.Valid) {G : Dict Str} {x : Str → Nat}
    (hd : Derives h.slots h.salt G x) :
    (∃ culprit, h.slots.foldlM
      (diagnoseSlot h (mandatoryPoints x G h.slots ++ optionalPoints x G h.slots)) [] =
        .ok culprit) ↔ SafeDiagnosis h x G := by
  rw [(diagnosis_searches h _).returns_iff, SafeDiagnosis,
    Shielded.congr (fun ms _ => diagnoseSlot_returns hv hd) fun ms hms => diagnoseSlot_hits hv hd hms]
  exact shielded_and

/-! ## The recovery -/

/-- The coordinate of a slot at the stored salt, where it has one. -/
def coordinate (G : Dict Str) (salt : Nat) (name : Str) : Nat :=
  (deriveX name (G.get name) salt).toOption.getD 0

theorem coordinate_eq {G : Dict Str} {salt : Nat} {name : Str} {x : Nat}
    (h : deriveX name (G.get name) salt = .ok x) : coordinate G salt name = x := by
  rw [coordinate, h]
  rfl

/-- **What keeps a recovery from raising.** -/
structure DividesSafely (h : Helper) (G : Dict Str) : Prop where
  /-- The value of every slot can be encoded. -/
  encode : ∀ s ∈ h.slots, CanEncode (G.get s.name)
  /-- The main sweep tries no set with a repeated coordinate before a recovering one. -/
  sweep : SafeSweep h (coordinate G h.salt) G h.slots
  /-- So do the sweeps of the diagnosis, where there is one. -/
  diagnosis : missingNames G h.slots = [] → ¬ FindsKey h (coordinate G h.salt) G h.slots →
    SafeDiagnosis h (coordinate G h.salt) G

/-- A slot whose value can be encoded has a coordinate. -/
theorem derives_of_encode {h : Helper} (hv : h.Valid) {G : Dict Str}
    (hencode : ∀ s ∈ h.slots, CanEncode (G.get s.name)) :
    Derives h.slots h.salt G (coordinate G h.salt) := by
  intro s hs _
  obtain ⟨x, hx⟩ := deriveX_ok hv.salt_lt (allowedNames_ascii (hv.allowed s hs)) (hencode s hs)
  rw [coordinate_eq hx]
  exact hx

/-- The first loop raises at a value that cannot be encoded. -/
theorem encode_of_gather {slots : List HelperSlot} {salt : Nat} {G : Dict Str} {g : Gathered}
    (h : slots.foldlM (gatherSlot G salt) ⟨[], [], [], 0⟩ = .ok g) :
    ∀ s ∈ slots, CanEncode (G.get s.name) := by
  refine foldlM_inv (fun seen _ => ∀ s ∈ seen, CanEncode (G.get s.name))
    (fun seen s g g' _ hinv hstep s' hs' => ?_) (fun s hs => absurd hs List.not_mem_nil) h
  rcases List.mem_append.mp hs' with hs' | hs'
  · exact hinv s' hs'
  obtain rfl := List.mem_singleton.mp hs'
  by_cases hval : G.get s'.name = []
  · rw [hval]
    exact fun c hc => absurd hc List.not_mem_nil
  · unfold gatherSlot at hstep
    dsimp only at hstep
    rw [if_neg hval] at hstep
    obtain ⟨x, hx, _⟩ := bind_eq_ok.mp hstep
    obtain ⟨_, _, hx⟩ := bind_eq_ok.mp hx
    obtain ⟨_, _, hx⟩ := bind_eq_ok.mp hx
    obtain ⟨b, hb, _⟩ := bind_eq_ok.mp hx
    exact encodeUtf8_eq_ok hb

/-- **A recovery returns** exactly where every division is safe. -/
theorem recoverHelper_returns_iff {h : Helper} (hv : h.Valid) (G : Dict Str) :
    (∃ r, recoverHelper h G = .ok r) ↔ DividesSafely h G := by
  let x := coordinate G h.salt
  let mandatory := mandatoryPoints x G h.slots
  let optional := optionalPoints x G h.slots
  constructor
  · rintro ⟨r, hrun⟩
    have hgather := hrun
    unfold recoverHelper at hgather
    obtain ⟨g, hg, _⟩ := bind_eq_ok.mp hgather
    have hencode := encode_of_gather hg
    have hd := derives_of_encode hv hencode
    rw [recoverHelper, gather_ok hd, ok_bind] at hrun
    obtain ⟨found, hfound, hrun⟩ := bind_eq_ok.mp hrun
    have hsweep : SafeSweep h x G h.slots :=
      (sweep_returns_iff h.threshold h.checkWord hd.lt).mp ⟨found, hfound⟩
    refine ⟨hencode, hsweep, fun hmiss hno => ?_⟩
    have hnone : found = none := by
      cases found with
      | none => rfl
      | some f => exact absurd ((sweep_found_iff hfound).mp rfl) hno
    subst hnone
    rw [if_neg (show ¬ (gathered x G h.slots).missing ≠ [] from not_not.mpr hmiss)] at hrun
    obtain ⟨culprit, hculprit, _⟩ := bind_eq_ok.mp hrun
    exact (diagnosis_returns_iff hv hd).mp ⟨culprit, hculprit⟩
  · rintro ⟨hencode, hsweep, hdiag⟩
    have hd := derives_of_encode hv hencode
    obtain ⟨found, hfound⟩ := (sweep_returns_iff h.threshold h.checkWord hd.lt).mpr hsweep
    by_cases hmiss : missingNames G h.slots = []
    · cases found with
      | none =>
        have hno : ¬ FindsKey h x G h.slots := fun hfinds =>
          absurd ((sweep_found_iff hfound).mpr hfinds) (by simp)
        obtain ⟨culprit, hculprit⟩ := (diagnosis_returns_iff hv hd).mpr (hdiag hmiss hno)
        exact ⟨_, recoverHelper_none hd hmiss hfound hculprit⟩
      | some f =>
        obtain ⟨points, subset⟩ := f
        obtain ⟨k, hk, _, _⟩ := findRecoveringSubset_sound hfound
        obtain ⟨c, hsub, _, rfl⟩ := mem_candidates.mp (sweep_mem hfound)
        -- a matching set has different coordinates, so the last loop divides safely too
        have hslot : ∀ p ∈ mandatory ++ c, p.x ≠ 0 ∧ p.x < P := by
          intro p hp
          obtain ⟨s, hs, hpres, rfl⟩ := exists_slot hsub hp
          exact deriveX_range (hd s hs hpres)
        have hsep : Separated (mandatory ++ c) :=
          ⟨hslot, (hasKey_iff fun p hp => (hslot p hp).2).mp ⟨k, hk⟩⟩
        exact ⟨_, recoverHelper_found hd hmiss hfound hsep hk⟩
    · exact ⟨_, recoverHelper_missing hd hmiss hfound⟩

/-- **When the recovery returns.**  For every blob the parser accepts and every map of factor values,
    `recover_core` returns a result if and only if it divides safely. -/
theorem recoverCore_returns_iff {blob : Bytes} {h : Helper} (hparse : parseHelper blob = .ok h)
    (G : Dict Str) : (∃ r, recoverCore blob G = .ok r) ↔ DividesSafely h G := by
  have hcore : recoverCore blob G = recoverHelper h G := by rw [recoverCore, hparse]
  rw [hcore]
  exact recoverHelper_returns_iff (parseHelper_eq_ok hparse).1 G

end Hashing

/-- The helper of the report's example, which needs all three slots. -/
def crowdedHelper : Helper := { tamperedHelper with threshold := 3 }

/-- The sample helper passes the parser. -/
theorem crowdedHelper_valid : crowdedHelper.Valid where
  norm := by decide
  salt_lt := by decide
  allowed := tamperedHelper_valid.allowed
  sorted := tamperedHelper_valid.sorted
  reduced := tamperedHelper_valid.reduced
  threshold_le := by decide +kernel
  mandatory_pos := by decide +kernel
  mandatory_lt := by decide +kernel
  slstore := tamperedHelper_valid.slstore
  length_checkWord := tamperedHelper_valid.length_checkWord

/-- Two slots report values that the sample hash gives one coordinate. -/
def collidingFactors : Dict Str :=
  AList.insert (str "cpu_id") (str "12345678") (AList.insert (str "firmware") (str "12345678")
    (AList.insert (str "slstore") (str "c") ∅))

/-- **A coincidence of coordinates** is not handled: the recovery raises what `pow` raises. -/
theorem colliding_not_recovered :
    @parseHelper sampleHash (@Helper.bytes sampleHash crowdedHelper) = .ok crowdedHelper ∧
    (∀ s ∈ crowdedHelper.slots, CanEncode (collidingFactors.get s.name)) ∧
    @recoverCore sampleHash (@Helper.bytes sampleHash crowdedHelper) collidingFactors =
      .error (.valueError "base is not invertible for the given modulus") := by
  have hparse := @parseHelper_bytes sampleHash _ crowdedHelper_valid
  refine ⟨hparse, ?_, ?_⟩
  · have hall : (crowdedHelper.slots.all fun s => (collidingFactors.get s.name).all fun c =>
        !isSurrogate c) = true := by decide +kernel
    intro s hs c hc
    have hslot := List.all_eq_true.mp (List.all_eq_true.mp hall s hs) c hc
    rwa [Bool.not_eq_true'] at hslot
  · unfold recoverCore
    rw [hparse]
    decide +kernel

/-- Three values with three coordinates. -/
theorem recoverCore_returns_sample :
    (∃ r, @recoverCore sampleHash (@Helper.bytes sampleHash crowdedHelper) reportFactors = .ok r) ∧
    @DividesSafely sampleHash crowdedHelper reportFactors := by
  have hparse := @parseHelper_bytes sampleHash _ crowdedHelper_valid
  have hreturns : ∃ r, @recoverCore sampleHash (@Helper.bytes sampleHash crowdedHelper)
      reportFactors = .ok r := by
    have hcore : @recoverCore sampleHash (@Helper.bytes sampleHash crowdedHelper) reportFactors =
        @recoverHelper sampleHash crowdedHelper reportFactors := by
      unfold recoverCore
      rw [hparse]
    have hok : (@recoverHelper sampleHash crowdedHelper reportFactors).toOption.isSome = true := by
      decide +kernel
    rw [hcore]
    cases hrun : @recoverHelper sampleHash crowdedHelper reportFactors with
    | error e => rw [hrun] at hok; cases hok
    | ok r => exact ⟨r, rfl⟩
  exact ⟨hreturns, (@recoverCore_returns_iff sampleHash _ _ hparse reportFactors).mp hreturns⟩

end Bedrock.Slhwid

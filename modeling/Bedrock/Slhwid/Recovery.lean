/-
  The verdict of `recover_core`, read off the helper and the factors.

  1. **Inputs** — `Derives slots salt G x`: the slots that are present in the factors `G` have
     coordinates, given by `x`.  `Placed` says that no two coincide as well, and then no step of the
     recovery raises.

  2. **Loops** — each of the three loops over the slots is the list expression it computes:
     `gather_ok`, `diagnose_ok`, `classify_ok`.

  3. **Outcomes** — `recoverHelper_missing`, `recoverHelper_found`, `recoverHelper_none`: one for
     each way the function returns.  `recoverHelper_sound` needs no `Placed`: whatever is recovered
     has the stored check word.
-/
import Bedrock.Slhwid.Sweep
import Bedrock.Slhwid.HelperCodec

open Lib.Fallible Lib.Combinations Lib.Interpolation Bedrock.Python Polynomial

namespace Bedrock.Slhwid

/-! ## The points of a launch -/

/-- The slot has a value among the factors. -/
def present (G : Dict Str) (s : HelperSlot) : Bool := decide (G.get s.name ≠ [])

/-- The point of a slot, its coordinate given by name. -/
def pointOf (x : Str → Nat) (s : HelperSlot) : Point := ⟨x s.name, s.share, s.name⟩

/-- The points of the hard locks that are present .. -/
def mandatoryPoints (x : Str → Nat) (G : Dict Str) (slots : List HelperSlot) : List Point :=
  ((slots.filter (present G)).filter fun s => s.mandatory).map (pointOf x)

/-- .. those of the other slots .. -/
def optionalPoints (x : Str → Nat) (G : Dict Str) (slots : List HelperSlot) : List Point :=
  ((slots.filter (present G)).filter fun s => !s.mandatory).map (pointOf x)

/-- .. and the hard locks that are not. -/
def missingNames (G : Dict Str) (slots : List HelperSlot) : List Str :=
  (slots.filter fun s => s.mandatory && !present G s).map HelperSlot.name

/-- What the first loop collects from these slots. -/
def gathered (x : Str → Nat) (G : Dict Str) (slots : List HelperSlot) : Gathered where
  mandatory := mandatoryPoints x G slots
  optional := optionalPoints x G slots
  missing := missingNames G slots
  present := slots.countP (present G)

theorem present_iff {G : Dict Str} {s : HelperSlot} : present G s = true ↔ G.get s.name ≠ [] := by
  rw [present, decide_eq_true_eq]

/-- Nothing is missing when every mandatory slot is present. -/
theorem missingNames_nil {G : Dict Str} {slots : List HelperSlot}
    (h : ∀ s ∈ slots, s.mandatory = true → present G s = true) : missingNames G slots = [] := by
  refine List.map_eq_nil_iff.mpr (List.filter_eq_nil_iff.mpr fun s hs hbad => ?_)
  rw [Bool.and_eq_true, Bool.not_eq_true'] at hbad
  rw [h s hs hbad.1] at hbad
  exact absurd hbad.2 (by decide)

/-- Among slots with distinct names, a slot is known by its name. -/
theorem isMandatory_eq {h : Helper} (hnd : (h.slots.map HelperSlot.name).Nodup) {s : HelperSlot}
    (hs : s ∈ h.slots) : isMandatory h s.name = s.mandatory := by
  rw [isMandatory]
  cases hf : h.slots.find? fun s' => s'.name = s.name with
  | none => exact absurd (decide_eq_true rfl) (List.find?_eq_none.mp hf s hs)
  | some s' =>
    have hname : s'.name = s.name := by simpa using List.find?_some hf
    rw [List.inj_on_of_nodup_map hnd (List.mem_of_find?_eq_some hf) hs hname]

/-- A point of a hard lock is that of a present slot which is one. -/
theorem mem_mandatoryPoints {x : Str → Nat} {G : Dict Str} {slots : List HelperSlot} {p : Point} :
    p ∈ mandatoryPoints x G slots ↔
      ∃ s ∈ slots, present G s = true ∧ s.mandatory = true ∧ pointOf x s = p := by
  simp only [mandatoryPoints, List.mem_map, List.mem_filter]
  constructor
  · rintro ⟨s, ⟨⟨hs, hpres⟩, hm⟩, rfl⟩
    exact ⟨s, hs, hpres, hm, rfl⟩
  · rintro ⟨s, hs, hpres, hm, rfl⟩
    exact ⟨s, ⟨⟨hs, hpres⟩, hm⟩, rfl⟩

theorem mem_optionalPoints {x : Str → Nat} {G : Dict Str} {slots : List HelperSlot} {p : Point} :
    p ∈ optionalPoints x G slots ↔
      ∃ s ∈ slots, present G s = true ∧ s.mandatory = false ∧ pointOf x s = p := by
  simp only [optionalPoints, List.mem_map, List.mem_filter, Bool.not_eq_true']
  constructor
  · rintro ⟨s, ⟨⟨hs, hpres⟩, hm⟩, rfl⟩
    exact ⟨s, hs, hpres, hm, rfl⟩
  · rintro ⟨s, hs, hpres, hm, rfl⟩
    exact ⟨s, ⟨⟨hs, hpres⟩, hm⟩, rfl⟩

/-- A candidate point is that of a present slot. -/
theorem exists_slot {x : Str → Nat} {G : Dict Str} {slots : List HelperSlot} {c : List Point}
    (hsub : c.Sublist (optionalPoints x G slots)) {p : Point}
    (hp : p ∈ mandatoryPoints x G slots ++ c) :
    ∃ s ∈ slots, present G s = true ∧ pointOf x s = p := by
  rcases List.mem_append.mp hp with hm | ho
  · obtain ⟨s, hs, hpres, _, rfl⟩ := mem_mandatoryPoints.mp hm
    exact ⟨s, hs, hpres, rfl⟩
  · obtain ⟨s, hs, hpres, _, rfl⟩ := mem_optionalPoints.mp (hsub.subset ho)
    exact ⟨s, hs, hpres, rfl⟩

/-- The reduced results of a loop stay reduced. -/
theorem lagrangeAtZero_lt {xs ys : List Nat} {v : Nat} (h : lagrangeAtZero xs ys = .ok v) :
    v < P := by
  unfold lagrangeAtZero interpolateWith at h
  refine foldlM_inv (fun _ total => total < P) (fun _ _ total total' _ ht hstep => ?_)
    P_pos h
  obtain ⟨inv, _, hstep⟩ := bind_eq_ok.mp hstep
  obtain rfl := Except.ok.inj hstep
  exact addmod_lt ht (mulmod_lt _ _)

/-- An interpolated key is reduced. -/
theorem keyFromPoints_reduced {points : List Point} {k : Limbs}
    (h : keyFromPoints points = .ok k) : k.Reduced :=
  fun i => by
    unfold keyFromPoints at h
    exact lagrangeAtZero_lt (forLimbs_eq_ok.mp h i)

section Hashing

variable [Sha256]

/-- The slots present in `G` have the coordinates `x`. -/
def Derives (slots : List HelperSlot) (salt : Nat) (G : Dict Str) (x : Str → Nat) : Prop :=
  ∀ s ∈ slots, present G s = true → deriveX s.name (G.get s.name) salt = .ok (x s.name)

/-- The slots present in `G` have the coordinates `x`, all different. -/
structure Placed (slots : List HelperSlot) (salt : Nat) (G : Dict Str) (x : Str → Nat) : Prop where
  /-- One record for each name. -/
  nodup : (slots.map HelperSlot.name).Nodup
  /-- `x` gives the slots' coordinates .. -/
  derive : ∀ s ∈ slots, present G s = true → deriveX s.name (G.get s.name) salt = .ok (x s.name)
  /-- .. which are different. -/
  inj : ∀ s ∈ slots, ∀ s' ∈ slots, present G s = true → present G s' = true →
    x s.name = x s'.name → s.name = s'.name

/-- The slots of `names` that are present in `G` have coordinates, pairwise distinct ones. -/
def DistinctCoordinates (names : List Str) (G : Dict Str) (salt : Nat) : Prop :=
  ∃ xs, (names.filter fun n => G.get n ≠ []).mapM (fun n => deriveX n (G.get n) salt) = .ok xs ∧
    xs.Nodup

/-- Coordinates are computed and compared. -/
instance (names : List Str) (G : Dict Str) (salt : Nat) :
    Decidable (DistinctCoordinates names G salt) :=
  match h : (names.filter fun n => G.get n ≠ []).mapM fun n => deriveX n (G.get n) salt with
  | .ok xs => decidable_of_iff xs.Nodup
      ⟨fun hnd => ⟨xs, h, hnd⟩, fun ⟨_, hxs, hnd⟩ => Except.ok.inj (h.symm.trans hxs) ▸ hnd⟩
  | .error _ => .isFalse fun ⟨_, hxs, _⟩ => nomatch h.symm.trans hxs

/-- Slots with such names are placed. -/
theorem DistinctCoordinates.placed {names : List Str} {G : Dict Str} {salt : Nat}
    (h : DistinctCoordinates names G salt) {slots : List HelperSlot}
    (hnd : (slots.map HelperSlot.name).Nodup) (hnames : ∀ s ∈ slots, s.name ∈ names) :
    ∃ x, Placed slots salt G x := by
  obtain ⟨xs, hxs, hxnd⟩ := h
  let x : Str → Nat := fun n => (deriveX n (G.get n) salt).toOption.getD 0
  obtain ⟨hderive, rfl⟩ := mapM_eq_ok (g := x) (fun n _ b hb => by
    simp [x, hb, Except.toOption]) hxs
  have hin : ∀ s ∈ slots, present G s = true → s.name ∈ names.filter fun n => G.get n ≠ [] :=
    fun s hs hpres => List.mem_filter.mpr ⟨hnames s hs, hpres⟩
  exact ⟨x, hnd, fun s hs hpres => hderive _ (hin s hs hpres),
    fun s hs s' hs' hpres hpres' hx =>
      List.inj_on_of_nodup_map hxnd (hin s hs hpres) (hin s' hs' hpres') hx⟩

/-! ## The gathering loop -/

/-- One pass of the first loop adds the slot to the points or to the missing. -/
theorem gatherSlot_ok {slots : List HelperSlot} {salt : Nat} {G : Dict Str} {x : Str → Nat}
    (h : Derives slots salt G x) (seen : List HelperSlot) {s : HelperSlot} (hs : s ∈ slots) :
    gatherSlot G salt (gathered x G seen) s = .ok (gathered x G (seen ++ [s])) := by
  unfold gatherSlot
  dsimp only
  by_cases hp : present G s = true
  · rw [if_neg (present_iff.mp hp), h s hs hp, ok_bind]
    cases hm : s.mandatory with
    | true => simp [gathered, mandatoryPoints, optionalPoints, missingNames, hp, hm, pointOf]
    | false => simp [gathered, mandatoryPoints, optionalPoints, missingNames, hp, hm, pointOf]
  · rw [if_pos (not_not.mp (fun hne => hp (present_iff.mpr hne)))]
    cases hm : s.mandatory with
    | true => simp [gathered, mandatoryPoints, optionalPoints, missingNames, hp, hm]
    | false => simp [gathered, mandatoryPoints, optionalPoints, missingNames, hp, hm]

theorem gather_ok {slots : List HelperSlot} {salt : Nat} {G : Dict Str} {x : Str → Nat}
    (h : Derives slots salt G x) :
    slots.foldlM (gatherSlot G salt) ⟨[], [], [], 0⟩ = .ok (gathered x G slots) := by
  obtain ⟨g, hg, hinv⟩ := foldlM_ok (gatherSlot G salt) (fun seen g => g = gathered x G seen)
    (fun seen s g hs hinv => ⟨_, by rw [hinv]; exact gatherSlot_ok h seen hs, rfl⟩) rfl
  rw [← hinv]
  exact hg

/-- **Placed slots give separated points.** -/
theorem Placed.separated {slots : List HelperSlot} {salt : Nat} {G : Dict Str} {x : Str → Nat}
    (h : Placed slots salt G x) :
    Separated (mandatoryPoints x G slots ++ optionalPoints x G slots) := by
  have hperm : (mandatoryPoints x G slots ++ optionalPoints x G slots).Perm
      ((slots.filter (present G)).map (pointOf x)) := by
    rw [mandatoryPoints, optionalPoints, ← List.map_append]
    exact (List.filter_append_perm _ _).map _
  refine ⟨fun p hp => ?_, ?_⟩
  · obtain ⟨s, hs, rfl⟩ := List.mem_map.mp (hperm.mem_iff.mp hp)
    obtain ⟨hs, hpres⟩ := List.mem_filter.mp hs
    exact deriveX_range (h.derive s hs hpres)
  · rw [(hperm.map Point.x).nodup_iff, List.map_map]
    refine List.Nodup.map_on (fun s hs s' hs' hx => ?_) ((h.nodup.of_map _).filter _)
    obtain ⟨hs, hpres⟩ := List.mem_filter.mp hs
    obtain ⟨hs', hpres'⟩ := List.mem_filter.mp hs'
    exact List.inj_on_of_nodup_map h.nodup hs hs' (h.inj s hs s' hs' hpres hpres' hx)

/-! ## The diagnosis -/

/-- The sweep without the slot `ms` recovers. -/
def RecoversWithout (h : Helper) (x : Str → Nat) (G : Dict Str) (ms : HelperSlot) : Prop :=
  ∃ found, findRecoveringSubset
    ((mandatoryPoints x G h.slots).filter fun p => p.name ≠ ms.name)
    ((optionalPoints x G h.slots).filter fun p => p.name ≠ ms.name) h.threshold h.checkWord =
      .ok (some found)

omit [Sha256] in
/-- Splitting the merged points by name gives the mandatory and the optional ones back. -/
theorem filter_merged {h : Helper} (hnd : (h.slots.map HelperSlot.name).Nodup) (x : Str → Nat)
    (G : Dict Str) (ms : HelperSlot) :
    (mandatoryPoints x G h.slots ++ optionalPoints x G h.slots).filter
        (fun p => p.name ≠ ms.name && isMandatory h p.name) =
      (mandatoryPoints x G h.slots).filter (fun p => p.name ≠ ms.name) ∧
    (mandatoryPoints x G h.slots ++ optionalPoints x G h.slots).filter
        (fun p => p.name ≠ ms.name && !isMandatory h p.name) =
      (optionalPoints x G h.slots).filter (fun p => p.name ≠ ms.name) := by
  -- the names of the slots are distinct, so a point's name tells whether it is a hard lock
  have hmand : ∀ p ∈ mandatoryPoints x G h.slots, isMandatory h p.name = true := fun p hp => by
    obtain ⟨s, hs, rfl⟩ := List.mem_map.mp hp
    obtain ⟨hs, hm⟩ := List.mem_filter.mp hs
    exact (isMandatory_eq hnd (List.mem_filter.mp hs).1).trans hm
  have hopt : ∀ p ∈ optionalPoints x G h.slots, isMandatory h p.name = false := fun p hp => by
    obtain ⟨s, hs, rfl⟩ := List.mem_map.mp hp
    obtain ⟨hs, hm⟩ := List.mem_filter.mp hs
    exact (isMandatory_eq hnd (List.mem_filter.mp hs).1).trans (by simpa using hm)
  constructor
  · have hall : (mandatoryPoints x G h.slots).filter
        (fun p => p.name ≠ ms.name && isMandatory h p.name) =
        (mandatoryPoints x G h.slots).filter fun p => p.name ≠ ms.name :=
      List.filter_congr fun p hp => by rw [hmand p hp, Bool.and_true]
    have hnone : (optionalPoints x G h.slots).filter
        (fun p => p.name ≠ ms.name && isMandatory h p.name) = [] :=
      List.filter_eq_nil_iff.mpr fun p hp => by rw [hopt p hp]; simp
    rw [List.filter_append, hall, hnone, List.append_nil]
  · have hall : (optionalPoints x G h.slots).filter
        (fun p => p.name ≠ ms.name && !isMandatory h p.name) =
        (optionalPoints x G h.slots).filter fun p => p.name ≠ ms.name :=
      List.filter_congr fun p hp => by rw [hopt p hp, Bool.not_false, Bool.and_true]
    have hnone : (mandatoryPoints x G h.slots).filter
        (fun p => p.name ≠ ms.name && !isMandatory h p.name) = [] :=
      List.filter_eq_nil_iff.mpr fun p hp => by rw [hmand p hp]; simp
    rw [List.filter_append, hall, hnone, List.nil_append]

/-- **The diagnosis** names a mandatory slot without which the machine recovers, the first in stored
    order, or nothing if there is none. -/
theorem diagnose_ok {h : Helper} {G : Dict Str} {x : Str → Nat} (hp : Placed h.slots h.salt G x)
    (hne : ∀ s ∈ h.slots, s.name ≠ []) :
    ∃ culprit, h.slots.foldlM
        (diagnoseSlot h (mandatoryPoints x G h.slots ++ optionalPoints x G h.slots)) [] =
          .ok culprit ∧
      (culprit = [] ∧ (∀ ms ∈ h.slots, ms.mandatory = true → ¬ RecoversWithout h x G ms) ∨
       ∃ ms ∈ h.slots, ms.mandatory = true ∧ culprit = ms.name ∧ RecoversWithout h x G ms) := by
  -- the invariant: no culprit among the slots so far, or one that recovers without
  let Inv : List HelperSlot → Str → Prop := fun seen culprit =>
    (culprit = [] ∧ ∀ ms ∈ seen, ms.mandatory = true → ¬ RecoversWithout h x G ms) ∨
    ∃ ms ∈ h.slots, ms.mandatory = true ∧ culprit = ms.name ∧ RecoversWithout h x G ms
  refine foldlM_ok _ Inv (fun seen ms culprit hms hinv => ?_)
    (Or.inl ⟨rfl, fun ms hms => absurd hms (List.not_mem_nil)⟩)
  unfold diagnoseSlot
  dsimp only
  obtain ⟨hmand2, hopt2⟩ := filter_merged hp.nodup x G ms
  rw [hmand2, hopt2]
  -- as long as there is no culprit, the next hard lock is tried
  rcases hinv with ⟨rfl, hseen⟩ | hfound
  · have hkeep : ¬ (ms.mandatory = true ∧ RecoversWithout h x G ms) → Inv (seen ++ [ms]) [] :=
      fun hno => Or.inl ⟨rfl, fun ms' hms' hm' hr' => by
        rcases List.mem_append.mp hms' with hold | hnew
        · exact hseen ms' hold hm' hr'
        · rw [List.mem_singleton.mp hnew] at hm' hr'
          exact hno ⟨hm', hr'⟩⟩
    by_cases hm : ms.mandatory = true
    · have hsep : Separated
          ((mandatoryPoints x G h.slots).filter (fun p => p.name ≠ ms.name) ++
            (optionalPoints x G h.slots).filter fun p => p.name ≠ ms.name) :=
        hp.separated.sublist (List.filter_sublist.append List.filter_sublist)
      obtain ⟨found, hfound, _⟩ := findRecoveringSubset_ok h.threshold h.checkWord hsep
      rw [if_neg (by simp [hm]), if_neg (by simp), hfound, ok_bind]
      cases found with
      | none =>
        refine ⟨[], rfl, hkeep fun hr => ?_⟩
        obtain ⟨_, f, hf⟩ := hr
        rw [hfound] at hf; cases hf
      | some f => exact ⟨ms.name, rfl, Or.inr ⟨ms, hms, hm, rfl, f, hfound⟩⟩
    · rw [if_pos hm]
      exact ⟨[], rfl, hkeep fun hr => hm hr.1⟩
  · -- a culprit that was found stays
    refine ⟨culprit, ?_, Or.inr hfound⟩
    obtain ⟨ms', hms', _, rfl, _⟩ := hfound
    split
    · rfl
    · rw [if_pos (hne ms' hms')]; rfl

/-! ## Live and dead slots -/

omit [Sha256] in
/-- On separated points the on-curve test returns. -/
theorem onCurve_ok {points : List Point} (h : Separated points) (xq : Nat) (share : Limbs) :
    ∃ alive, onCurve points xq share = .ok alive := by
  have hlimb := fun i => evaluateAt_ok (points.map fun p => p.share i) xq h.lt h.nodup
  choose v hv _ _ using hlimb
  exact ⟨_, allM_ok (g := fun limb => v limb == share limb) fun limb _ => by rw [hv limb]; rfl⟩

omit [Sha256] in
/-- It accepts exactly the shares of the polynomials the points lie on. -/
theorem onCurve_iff {points : List Point} (h : Separated points) {poly : Fin 4 → (ZMod P)[X]}
    (hdeg : ∀ i, (poly i).degree < points.length) (hon : ∀ p ∈ points, p.OnCurve poly) (xq : Nat)
    {share : Limbs} (hred : share.Reduced) :
    onCurve points xq share = .ok true ↔
      ∀ i, (share i : ZMod P) = (poly i).eval (xq : ZMod P) := by
  have hlimb := fun i => evaluateAt_ok (points.map fun p => p.share i) xq h.lt h.nodup
  choose v hv hlt hsum using hlimb
  have hvalue : ∀ i, (v i : ZMod P) = (poly i).eval (xq : ZMod P) := by
    intro i
    rw [hsum i, List.length_map]
    refine lagrangeAt_eq_eval h.injOn (by rw [Finset.card_range]; exact hdeg i) (fun j hj => ?_) _
    have hj' := Finset.mem_range.mp hj
    rw [coord_map _ hj', coord_map _ hj']
    exact hon _ (List.getElem_mem hj') i
  have hall : onCurve points xq share = .ok ([0, 1, 2, 3].all fun limb => v limb == share limb) :=
    allM_ok fun limb _ => by rw [hv limb]; rfl
  rw [hall, Except.ok.injEq, List.all_eq_true]
  constructor
  · intro hv i
    have hmem : i ∈ ([0, 1, 2, 3] : List (Fin 4)) := by revert i; decide
    rw [← hvalue i, beq_iff_eq.mp (hv i hmem)]
  · intro hshare i _
    refine beq_iff_eq.mpr (cast_inj (hlt i) (hred i) ?_)
    rw [hvalue i, hshare i]

/-- What the last loop asks of a slot: found, mandatory, or present and on the curve. -/
def reportedLive (x : Str → Nat) (G : Dict Str) (mandatory points : List Point)
    (subset : Finset Str) (s : HelperSlot) : Bool :=
  decide (s.name ∈ subset ∨ mandatory.any (fun p => p.name = s.name) = true) ||
    (present G s && decide (onCurve points (x s.name) s.share = .ok true))

/-- One pass of the last loop says of a slot whether it is reported live or dead. -/
theorem classifySlot_ok {slots : List HelperSlot} {salt : Nat} {G : Dict Str} {x : Str → Nat}
    (hd : Derives slots salt G x) (mandatory : List Point) {points : List Point} (subset : Finset Str)
    (hsep : Separated points) {s : HelperSlot} (hs : s ∈ slots) (live dead : List Str) :
    classifySlot G salt mandatory points subset (live, dead) s =
      .ok (if reportedLive x G mandatory points subset s then (live ++ [s.name], dead)
        else (live, dead ++ [s.name])) := by
  unfold classifySlot reportedLive
  dsimp only
  by_cases hin : s.name ∈ subset ∨ mandatory.any (fun p => p.name = s.name) = true
  · rw [if_pos hin, decide_eq_true hin, Bool.true_or, if_pos rfl]
    rfl
  · rw [if_neg hin, decide_eq_false hin, Bool.false_or]
    by_cases hpres : present G s = true
    · obtain ⟨alive, halive⟩ := onCurve_ok hsep (x s.name) s.share
      rw [if_neg (present_iff.mp hpres), hd s hs hpres, ok_bind, halive, ok_bind, hpres,
        Bool.true_and]
      cases alive with
      | true => rfl
      | false => rfl
    · rw [if_pos (not_not.mp fun hne => hpres (present_iff.mpr hne)), Bool.eq_false_iff.mpr hpres]
      rfl

/-- **Live and dead**: the last loop returns the partition of the slots by `reportedLive`. -/
theorem classify_ok {slots : List HelperSlot} {salt : Nat} {G : Dict Str} {x : Str → Nat}
    (hd : Derives slots salt G x) (mandatory : List Point) {points : List Point} (subset : Finset Str)
    (hsep : Separated points) :
    slots.foldlM (classifySlot G salt mandatory points subset) ([], []) =
      .ok ((slots.filter (reportedLive x G mandatory points subset)).map HelperSlot.name,
        (slots.filter (!reportedLive x G mandatory points subset ·)).map HelperSlot.name) := by
  let live := reportedLive x G mandatory points subset
  obtain ⟨acc, hrun, rfl⟩ := foldlM_ok (classifySlot G salt mandatory points subset)
    (fun seen acc => acc = ((seen.filter live).map HelperSlot.name,
      (seen.filter (!live ·)).map HelperSlot.name)) (l := slots) (s := ([], []))
    (fun seen s acc hs hinv => by
      subst hinv
      refine ⟨_, classifySlot_ok hd mandatory subset hsep hs _ _, ?_⟩
      rw [List.filter_append, List.filter_append]
      cases hlive : live s with
      | true => simp [live] at hlive ⊢; simp [hlive]
      | false => simp [live] at hlive ⊢; simp [hlive]) rfl
  exact hrun

/-! ## The three outcomes -/

/-- A missing mandatory slot decides the verdict, whatever the sweep found. -/
theorem recoverHelper_missing {h : Helper} {G : Dict Str} {x : Str → Nat}
    (hd : Derives h.slots h.salt G x) (hmiss : missingNames G h.slots ≠ []) {found : Found}
    (hfound : findRecoveringSubset (mandatoryPoints x G h.slots) (optionalPoints x G h.slots)
      h.threshold h.checkWord = .ok found) :
    recoverHelper h G = .ok {
      reason := .mandatory, present := h.slots.countP (present G), needed := h.threshold,
      missing := missingNames G h.slots } := by
  rw [recoverHelper, gather_ok hd, ok_bind]
  show (findRecoveringSubset (mandatoryPoints x G h.slots) (optionalPoints x G h.slots) h.threshold
    h.checkWord >>= _) = _
  rw [hfound, ok_bind]
  exact if_pos hmiss

/-- With every mandatory slot present and no recovering subset, the diagnosis decides. -/
theorem recoverHelper_none {h : Helper} {G : Dict Str} {x : Str → Nat}
    (hd : Derives h.slots h.salt G x) (hmiss : missingNames G h.slots = [])
    (hfound : findRecoveringSubset (mandatoryPoints x G h.slots) (optionalPoints x G h.slots)
      h.threshold h.checkWord = .ok none) {culprit : Str}
    (hculprit : h.slots.foldlM
      (diagnoseSlot h (mandatoryPoints x G h.slots ++ optionalPoints x G h.slots)) [] =
        .ok culprit) :
    recoverHelper h G = .ok (failedResult h (gathered x G h.slots) culprit) := by
  rw [recoverHelper, gather_ok hd, ok_bind]
  show (findRecoveringSubset (mandatoryPoints x G h.slots) (optionalPoints x G h.slots) h.threshold
    h.checkWord >>= _) = _
  rw [hfound, ok_bind, if_neg (show ¬ (gathered x G h.slots).missing ≠ [] from not_not.mpr hmiss)]
  show (h.slots.foldlM (diagnoseSlot h (mandatoryPoints x G h.slots ++ optionalPoints x G h.slots)) []
    >>= _) = _
  rw [hculprit]
  rfl

/-- With every mandatory slot present and a recovering subset, the key is recovered, and every slot
    is reported. -/
theorem recoverHelper_found {h : Helper} {G : Dict Str} {x : Str → Nat}
    (hd : Derives h.slots h.salt G x) (hmiss : missingNames G h.slots = []) {points : List Point}
    {subset : Finset Str}
    (hfound : findRecoveringSubset (mandatoryPoints x G h.slots) (optionalPoints x G h.slots)
      h.threshold h.checkWord = .ok (some (points, subset))) (hsep : Separated points) {k : Limbs}
    (hk : keyFromPoints points = .ok k) :
    let live := reportedLive x G (mandatoryPoints x G h.slots) points subset
    recoverHelper h G = .ok {
      ok := true, key := some k, hwid := hwidStr k
      live := sortStrs ((h.slots.filter live).map HelperSlot.name)
      dead := sortStrs ((h.slots.filter (!live ·)).map HelperSlot.name)
      pending := (h.slots.filter (!live ·)).map HelperSlot.name ≠ [] } := by
  dsimp only
  rw [recoverHelper, gather_ok hd, ok_bind]
  show (findRecoveringSubset (mandatoryPoints x G h.slots) (optionalPoints x G h.slots) h.threshold
    h.checkWord >>= _) = _
  rw [hfound, ok_bind, if_neg (show ¬ (gathered x G h.slots).missing ≠ [] from not_not.mpr hmiss)]
  dsimp only
  rw [hk, ok_bind]
  show (h.slots.foldlM (classifySlot G h.salt (mandatoryPoints x G h.slots) points subset) ([], [])
    >>= _) = _
  rw [classify_ok hd _ subset hsep, ok_bind]
  dsimp only
  rw [hwidOf_ok (keyFromPoints_reduced hk)]
  rfl

/-- **Nothing raises** on placed slots. -/
theorem recoverHelper_total {h : Helper} {G : Dict Str} {x : Str → Nat}
    (hp : Placed h.slots h.salt G x) (hne : ∀ s ∈ h.slots, s.name ≠ []) :
    ∃ r, recoverHelper h G = .ok r := by
  obtain ⟨found, hfound, _, hsome⟩ := findRecoveringSubset_ok h.threshold h.checkWord hp.separated
  by_cases hmiss : missingNames G h.slots = []
  · cases found with
    | none =>
      obtain ⟨culprit, hculprit, _⟩ := diagnose_ok hp hne
      exact ⟨_, recoverHelper_none hp.derive hmiss hfound hculprit⟩
    | some f =>
      obtain ⟨points, subset⟩ := f
      obtain ⟨c, hsub, _, rfl, _, k, hk, _⟩ := hsome points subset rfl
      have hsep := hp.separated.sublist ((List.Sublist.refl _).append hsub)
      exact ⟨_, recoverHelper_found hp.derive hmiss hfound hsep hk⟩
  · exact ⟨_, recoverHelper_missing hp.derive hmiss hfound⟩

/-! ## Soundness, whatever the coordinates -/

/-- **What the sweep finds recovers.** -/
theorem findRecoveringSubset_sound {mandatory optional points : List Point} {t : Nat} {cw : Bytes}
    {subset : Finset Str}
    (h : findRecoveringSubset mandatory optional t cw = .ok (some (points, subset))) :
    Recovering points cw := by
  unfold findRecoveringSubset at h
  dsimp only at h
  split at h
  · cases h
  refine foldlM_inv (fun _ found => ∀ ps su, found = some (ps, su) → Recovering ps cw)
    (fun _ combo found found' _ hinv hstep => ?_) (fun _ _ hf => by cases hf) h points
    subset rfl
  unfold tryCombo at hstep
  dsimp only at hstep
  split at hstep
  · obtain rfl := Except.ok.inj hstep
    exact hinv
  · obtain ⟨k, hk, hstep⟩ := bind_eq_ok.mp hstep
    obtain ⟨word, hword, hstep⟩ := bind_eq_ok.mp hstep
    obtain rfl := Except.ok.inj hstep
    have hred := keyFromPoints_reduced hk
    rw [checkWord_ok hred] at hword
    intro ps su hf
    split at hf
    · rename_i hcw
      cases hf
      exact ⟨k, hk, hred, (Except.ok.inj hword).trans hcw⟩
    · cases hf

/-- **A recovered key has the stored check word**, and its identifier is the one reported. -/
theorem recoverHelper_sound {h : Helper} {G : Dict Str} {r : RecoverResult}
    (hrun : recoverHelper h G = .ok r) (hok : r.ok = true) :
    ∃ k, r.key = some k ∧ k.Reduced ∧ checkWordOf k = h.checkWord ∧ r.hwid = hwidStr k := by
  unfold recoverHelper at hrun
  obtain ⟨g, _, hrun⟩ := bind_eq_ok.mp hrun
  obtain ⟨found, hfound, hrun⟩ := bind_eq_ok.mp hrun
  split at hrun
  · obtain rfl := Except.ok.inj hrun
    cases hok
  · cases found with
    | none =>
      obtain ⟨culprit, _, hrun⟩ := bind_eq_ok.mp hrun
      obtain rfl := Except.ok.inj hrun
      unfold failedResult at hok
      split at hok
      · cases hok
      · cases hok
    | some f =>
      obtain ⟨points, subset⟩ := f
      obtain ⟨k, hk, hred, hcw⟩ := findRecoveringSubset_sound hfound
      obtain ⟨k', hk', hrun⟩ := bind_eq_ok.mp hrun
      obtain rfl : k = k' := Except.ok.inj (hk.symm.trans hk')
      obtain ⟨⟨live, dead⟩, _, hrun⟩ := bind_eq_ok.mp hrun
      obtain ⟨hwid, hhwid, hrun⟩ := bind_eq_ok.mp hrun
      obtain rfl := Except.ok.inj hrun
      rw [hwidOf_ok hred] at hhwid
      exact ⟨k, rfl, hred, hcw, (Except.ok.inj hhwid).symm⟩

/-- **No hard lock is missing** where the recovery succeeds. -/
theorem recoverHelper_present {h : Helper} {G : Dict Str} {r : RecoverResult}
    (hrun : recoverHelper h G = .ok r) (hok : r.ok = true) :
    ∀ s ∈ h.slots, s.mandatory = true → G.get s.name ≠ [] := by
  unfold recoverHelper at hrun
  obtain ⟨g, hg, hrun⟩ := bind_eq_ok.mp hrun
  obtain ⟨found, _, hrun⟩ := bind_eq_ok.mp hrun
  have hmiss : ∀ s ∈ h.slots, s.mandatory = true → G.get s.name = [] → s.name ∈ g.missing := by
    refine foldlM_inv (fun seen g => ∀ s ∈ seen, s.mandatory = true → G.get s.name = [] →
      s.name ∈ g.missing) (fun seen s₁ g₁ g₂ _ hinv hstep => ?_)
      (fun s hs => absurd hs (List.not_mem_nil)) hg
    unfold gatherSlot at hstep
    dsimp only at hstep
    intro s hs hm habsent
    -- the list of missing names only grows
    have hold : s ∈ seen → s.name ∈ g₁.missing := fun hs => hinv s hs hm habsent
    by_cases hval : G.get s₁.name = []
    · rw [if_pos hval] at hstep
      obtain rfl := Except.ok.inj hstep
      rcases List.mem_append.mp hs with hs | hs
      · split
        · exact List.mem_append_left _ (hold hs)
        · exact hold hs
      · obtain rfl := List.mem_singleton.mp hs
        rw [if_pos hm]
        exact List.mem_append_right _ (List.mem_singleton_self _)
    · rw [if_neg hval] at hstep
      obtain ⟨x, _, hstep⟩ := bind_eq_ok.mp hstep
      obtain rfl := Except.ok.inj hstep
      rcases List.mem_append.mp hs with hs | hs
      · split
        · exact hold hs
        · exact hold hs
      · obtain rfl := List.mem_singleton.mp hs
        exact absurd habsent hval
  intro s hs hm habsent
  have hin := hmiss s hs hm habsent
  rw [if_pos (List.ne_nil_of_mem hin)] at hrun
  obtain rfl := Except.ok.inj hrun
  cases hok

end Hashing

end Bedrock.Slhwid

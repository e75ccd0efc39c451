/-
  What `recover_core` reports, for any blob the parser accepts.

  1. **Polynomials** — the points that recover a key determine four polynomials through it
     (`exists_polys`).  They decide for every slot whether it is `Alive`: present, and with a stored
     share that is their value at its current coordinate.

  2. **Two routes to `live`** — a slot is reported live because it is one of the recovering points or
     because it is evaluated on the curve; `reportedLive_iff` shows that both say the same.

  3. **Verdict** — `recovery_exact`: a recovery that succeeds reports exactly the slots that are
     alive, and one that fails had no candidate set.
-/
import Bedrock.Slhwid.Recovery

open Lib.Fallible Lib.Interpolation Bedrock.Python Polynomial

namespace Bedrock.Slhwid

/-! ## The polynomials of a key -/

/-- **Separated points determine polynomials**, and the key they give is the value at `0`. -/
theorem exists_polys {points : List Point} (h : Separated points) {k : Limbs}
    (hk : keyFromPoints points = .ok k) :
    ∃ poly : Fin 4 → (ZMod P)[X], (∀ i, (poly i).degree < points.length) ∧
      (∀ i, (poly i).eval 0 = k i) ∧ ∀ p ∈ points, p.OnCurve poly := by
  obtain ⟨k', hk', _, hsum⟩ := keyFromPoints_ok h
  obtain rfl : k' = k := Except.ok.inj (hk'.symm.trans hk)
  refine ⟨fun i => Lagrange.interpolate (Finset.range points.length) (coord (points.map Point.x))
    (coord (points.map fun p => p.share i)), fun i => ?_, fun i => ?_, fun p hp i => ?_⟩
  · have hdeg := Lagrange.degree_interpolate_lt (coord (points.map fun p => p.share i)) h.injOn
    rwa [Finset.card_range] at hdeg
  · rw [hsum i, lagrangeAt_eq_interpolate]
  · obtain ⟨j, hj, rfl⟩ := List.getElem_of_mem hp
    rw [← coord_map (fun p => p.share i) hj, ← coord_map Point.x hj]
    exact (Lagrange.eval_interpolate_at_node _ h.injOn (Finset.mem_range.mpr hj)).symm

section Hashing

variable [Sha256]

/-! ## Live slots -/

/-- The slot is present, and its stored share is the polynomials' value at its coordinate. -/
def Alive (h : Helper) (G : Dict Str) (poly : Fin 4 → (ZMod P)[X]) (s : HelperSlot) : Prop :=
  present G s = true ∧ ∃ x, deriveX s.name (G.get s.name) h.salt = .ok x ∧
    ∀ i, (s.share i : ZMod P) = (poly i).eval (x : ZMod P)

/-- A slot is alive on these polynomials if it is present and its point lies on them. -/
theorem alive_iff {h : Helper} {G : Dict Str} {x : Str → Nat} (hp : Placed h.slots h.salt G x)
    (poly : Fin 4 → (ZMod P)[X]) {s : HelperSlot} (hs : s ∈ h.slots) :
    Alive h G poly s ↔ present G s = true ∧ (pointOf x s).OnCurve poly := by
  constructor
  · rintro ⟨hpres, y, hy, hcurve⟩
    obtain rfl := Except.ok.inj ((hp.derive s hs hpres).symm.trans hy)
    exact ⟨hpres, hcurve⟩
  · rintro ⟨hpres, hcurve⟩
    exact ⟨hpres, x s.name, hp.derive s hs hpres, hcurve⟩

/-- **Both routes agree**: the slots reported live are those alive on the polynomials of the
    recovering points. -/
theorem reportedLive_iff {h : Helper} (hv : h.Valid) {G : Dict Str} {x : Str → Nat}
    (hp : Placed h.slots h.salt G x) {c : List Point}
    (hsub : c.Sublist (optionalPoints x G h.slots)) {poly : Fin 4 → (ZMod P)[X]}
    (hdeg : ∀ i, (poly i).degree < (mandatoryPoints x G h.slots ++ c).length)
    (hon : ∀ p ∈ mandatoryPoints x G h.slots ++ c, p.OnCurve poly) {s : HelperSlot}
    (hs : s ∈ h.slots) :
    reportedLive x G (mandatoryPoints x G h.slots) (mandatoryPoints x G h.slots ++ c)
      (c.map Point.name).toFinset s = true ↔ Alive h G poly s := by
  have hsep := hp.separated.sublist ((List.Sublist.refl (mandatoryPoints x G h.slots)).append hsub)
  have hcurve := onCurve_iff hsep hdeg hon (x s.name) (hv.reduced s hs)
  -- a recovering point with the name of `s` is the point of `s`
  have hpoint : ∀ p ∈ mandatoryPoints x G h.slots ++ c, p.name = s.name →
      present G s = true ∧ (pointOf x s).OnCurve poly := by
    intro p hpt hname
    obtain ⟨s', hs', hpres, rfl⟩ := exists_slot hsub hpt
    obtain rfl := List.inj_on_of_nodup_map hp.nodup hs' hs hname
    exact ⟨hpres, hon _ hpt⟩
  rw [alive_iff hp poly hs, reportedLive, Bool.or_eq_true, decide_eq_true_eq, Bool.and_eq_true,
    decide_eq_true_eq, hcurve]
  constructor
  · rintro ((hsubset | hmandatory) | ⟨hpres, halive⟩)
    · obtain ⟨p, hpt, hname⟩ := List.mem_map.mp (List.mem_toFinset.mp hsubset)
      exact hpoint p (List.mem_append_right _ hpt) hname
    · obtain ⟨p, hpt, hname⟩ := List.any_eq_true.mp hmandatory
      exact hpoint p (List.mem_append_left _ hpt) (of_decide_eq_true hname)
    · exact ⟨hpres, halive⟩
  · exact fun halive => Or.inr halive

/-! ## What a success reports -/

omit [Sha256] in
/-- `names` is the sorted list of the names of the slots with a property. -/
def SortedNames (names : List Str) (slots : List HelperSlot) (p : HelperSlot → Prop) : Prop :=
  names.Pairwise (· < ·) ∧ ∀ n, n ∈ names ↔ ∃ s ∈ slots, s.name = n ∧ p s

omit [Sha256] in
/-- A sorted filter of the names has exactly the slots it was filtered for. -/
theorem sortedNames_filter {slots : List HelperSlot} (hnd : (slots.map HelperSlot.name).Nodup)
    {live : HelperSlot → Bool} {p : HelperSlot → Prop} (hp : ∀ s ∈ slots, live s = true ↔ p s) :
    SortedNames (sortStrs ((slots.filter live).map HelperSlot.name)) slots p := by
  refine ⟨sortStrs_pairwise_lt (hnd.sublist (List.filter_sublist.map _)), fun n => ?_⟩
  rw [mem_sortStrs, List.mem_map]
  constructor
  · rintro ⟨s, hs, rfl⟩
    obtain ⟨hs, hlive⟩ := List.mem_filter.mp hs
    exact ⟨s, hs, rfl, (hp s hs).mp hlive⟩
  · rintro ⟨s, hs, rfl, hps⟩
    exact ⟨s, List.mem_filter.mpr ⟨hs, (hp s hs).mpr hps⟩, rfl⟩

/-- A success reports the key `k` and exactly the slots alive on polynomials through it. -/
structure ExactReport (h : Helper) (G : Dict Str) (r : RecoverResult) (k : Limbs)
    (poly : Fin 4 → (ZMod P)[X]) : Prop where
  /-- The key is reported .. -/
  key : r.key = some k
  /-- .. it is the one of the check word .. -/
  word : checkWord k = .ok h.checkWord
  /-- .. and the identifier is derived from it. -/
  hwid : hwidOf k = .ok r.hwid
  /-- Every mandatory slot had a value. -/
  mandatory_present : ∀ s ∈ h.slots, s.mandatory = true → G.get s.name ≠ []
  /-- The polynomials are the ones the key was shared by. -/
  degree_lt : ∀ i, (poly i).degree < h.threshold
  eval_zero : ∀ i, (poly i).eval 0 = k i
  /-- Live are exactly the slots on them .. -/
  live : SortedNames r.live h.slots (Alive h G poly)
  mandatory_live : ∀ s ∈ h.slots, s.mandatory = true → s.name ∈ r.live
  /-- Enough slots are live. -/
  threshold_le : h.threshold ≤ r.live.length
  /-- .. and dead the others. -/
  dead : SortedNames r.dead h.slots (fun s => ¬ Alive h G poly s)
  /-- A refresh is due exactly if some slot is dead. -/
  pending : r.pending = true ↔ r.dead ≠ []

omit [Sha256] in
/-- With every mandatory slot present, a candidate set has exactly threshold many points. -/
theorem length_candidate {h : Helper} (hv : h.Valid) {G : Dict Str} {x : Str → Nat} {c : List Point}
    (hlen : c.length = h.threshold - (mandatoryPoints x G h.slots).length) :
    (mandatoryPoints x G h.slots ++ c).length = h.threshold := by
  have hle : (mandatoryPoints x G h.slots).length ≤ h.mandatoryCount := by
    rw [mandatoryPoints, List.length_map, Helper.mandatoryCount, List.countP_eq_length_filter]
    exact ((List.filter_sublist (l := h.slots)).filter _).length_le
  have hlt := hv.mandatory_lt
  rw [List.length_append, hlen]
  omega

omit [Sha256] in
/-- Nothing is missing if every hard lock has a value. -/
theorem missingNames_eq_nil_iff {G : Dict Str} {slots : List HelperSlot} :
    missingNames G slots = [] ↔ ∀ s ∈ slots, s.mandatory = true → G.get s.name ≠ [] := by
  constructor
  · intro hnil s hs hm habsent
    have hmem : s.name ∈ missingNames G slots := by
      refine List.mem_map_of_mem (List.mem_filter.mpr ⟨hs, ?_⟩)
      rw [hm, Bool.true_and, Bool.not_eq_true', present, decide_eq_false_iff_not, not_not]
      exact habsent
    rw [hnil] at hmem
    exact absurd hmem List.not_mem_nil
  · exact fun hall => missingNames_nil fun s hs hm => present_iff.mpr (hall s hs hm)

/-- The points of a candidate set have different names. -/
theorem names_nodup {h : Helper} {G : Dict Str} {x : Str → Nat} (hp : Placed h.slots h.salt G x)
    {c : List Point} (hsub : c.Sublist (optionalPoints x G h.slots)) :
    ((mandatoryPoints x G h.slots ++ c).map Point.name).Nodup := by
  have hsep := hp.separated.sublist ((List.Sublist.refl (mandatoryPoints x G h.slots)).append hsub)
  refine List.Nodup.map_on (fun p hpt p' hpt' hname => ?_) (hsep.nodup.of_map _)
  obtain ⟨s, hs, _, rfl⟩ := exists_slot hsub hpt
  obtain ⟨s', hs', _, rfl⟩ := exists_slot hsub hpt'
  rw [List.inj_on_of_nodup_map hp.nodup hs hs' hname]

omit [Sha256] in
theorem sortStrs_eq_nil {names : List Str} : sortStrs names = [] ↔ names = [] := by
  rw [← List.length_eq_zero_iff, length_sortStrs, List.length_eq_zero_iff]

/-- **A found set gives an exact report.** -/
theorem exactReport_of_found {h : Helper} (hv : h.Valid) {G : Dict Str} {x : Str → Nat}
    (hp : Placed h.slots h.salt G x) (hmiss : missingNames G h.slots = []) {c : List Point}
    (hsub : c.Sublist (optionalPoints x G h.slots))
    (hlen : c.length = h.threshold - (mandatoryPoints x G h.slots).length)
    (hfound : findRecoveringSubset (mandatoryPoints x G h.slots) (optionalPoints x G h.slots)
      h.threshold h.checkWord =
        .ok (some (mandatoryPoints x G h.slots ++ c, (c.map Point.name).toFinset)))
    (hrec : Recovering (mandatoryPoints x G h.slots ++ c) h.checkWord) :
    ∃ r, recoverHelper h G = .ok r ∧ r.ok = true ∧ ∃ k poly, ExactReport h G r k poly := by
  -- the candidate that recovered determines the polynomials, and these the report
  obtain ⟨k, hk, hred, hword⟩ := hrec
  have hsep := hp.separated.sublist ((List.Sublist.refl (mandatoryPoints x G h.slots)).append hsub)
  have hcount := length_candidate (h := h) hv hlen
  obtain ⟨poly, hdeg, hzero, hon⟩ := exists_polys hsep hk
  refine ⟨_, recoverHelper_found hp.derive hmiss hfound hsep hk, rfl, k, poly, ?_⟩
  have hiff := fun s hs => reportedLive_iff hv hp hsub hdeg hon (s := s) hs
  have hlive := sortedNames_filter hp.nodup hiff
  -- every point of the candidate is on the polynomials, so its slot is live
  have hpoints : ∀ p ∈ mandatoryPoints x G h.slots ++ c,
      p.name ∈ sortStrs ((h.slots.filter (reportedLive x G (mandatoryPoints x G h.slots)
        (mandatoryPoints x G h.slots ++ c) (c.map Point.name).toFinset)).map HelperSlot.name) := by
    intro p hpt
    obtain ⟨s, hs, hpres, rfl⟩ := exists_slot hsub hpt
    exact (hlive.2 _).mpr ⟨s, hs, rfl, (alive_iff hp poly hs).mpr ⟨hpres, hon _ hpt⟩⟩
  have hmand := missingNames_eq_nil_iff.mp hmiss
  rw [hcount] at hdeg
  exact {
    key := rfl
    word := by rw [checkWord_ok hred, hword]
    hwid := hwidOf_ok hred
    mandatory_present := hmand
    degree_lt := hdeg
    eval_zero := hzero
    live := hlive
    mandatory_live := fun s hs hm => hpoints _ (List.mem_append_left _
      (mem_mandatoryPoints.mpr ⟨s, hs, present_iff.mpr (hmand s hs hm), hm, rfl⟩))
    -- the candidate alone has `threshold` names, all of them live
    threshold_le := by
      rw [← hcount, ← List.length_map (f := Point.name)]
      refine (List.subperm_of_subset (names_nodup hp hsub) fun n hn => ?_).length_le
      obtain ⟨p, hpt, rfl⟩ := List.mem_map.mp hn
      exact hpoints p hpt
    dead := sortedNames_filter hp.nodup fun s hs => by
      rw [Bool.not_eq_true', Bool.eq_false_iff, Ne, hiff s hs]
    pending := by
      rw [decide_eq_true_eq]
      exact not_congr sortStrs_eq_nil.symm }

/-! ## What a failure excludes -/

/-- The point of a slot under the factors. -/
def pointAt (salt : Nat) (G : Dict Str) (s : HelperSlot) : Except Exc Point := do
  let x ← deriveX s.name (G.get s.name) salt
  return ⟨x, s.share, s.name⟩

/-- The slots' points interpolate to a key with the stored check word. -/
def Interpolates (h : Helper) (G : Dict Str) (C : List HelperSlot) : Prop :=
  ∃ points k, C.mapM (pointAt h.salt G) = .ok points ∧ keyFromPoints points = .ok k ∧
    checkWord k = .ok h.checkWord

/-- A candidate set: threshold many present slots, all mandatory ones among them. -/
structure Candidate (h : Helper) (G : Dict Str) (C : List HelperSlot) : Prop where
  /-- No slot twice. -/
  nodup : C.Nodup
  subset : ∀ s ∈ C, s ∈ h.slots
  /-- Every slot has a value. -/
  present : ∀ s ∈ C, G.get s.name ≠ []
  /-- All mandatory slots are in it. -/
  mandatory : ∀ s ∈ h.slots, s.mandatory = true → s ∈ C
  /-- As many as the threshold. -/
  length_eq : C.length = h.threshold

/-- Whatever the order of a candidate set, the sweep tries it. -/
theorem exists_swept {h : Helper} {G : Dict Str} {x : Str → Nat}
    (hp : Placed h.slots h.salt G x) {C : List HelperSlot} (hC : Candidate h G C)
    (hinter : Interpolates h G C) :
    ∃ c, c.Sublist (optionalPoints x G h.slots) ∧
      c.length = h.threshold - (mandatoryPoints x G h.slots).length ∧
      Recovering (mandatoryPoints x G h.slots ++ c) h.checkWord := by
  obtain ⟨points, k, hpoints, hk, hword⟩ := hinter
  have hred := keyFromPoints_reduced hk
  rw [checkWord_ok hred] at hword
  -- the points of the set, and polynomials through them
  have hpres : ∀ s ∈ C, present G s = true := fun s hs => present_iff.mpr (hC.present s hs)
  obtain ⟨-, rfl⟩ := mapM_eq_ok (g := pointOf x) (fun s hs p hpt => by
    unfold pointAt at hpt
    rw [hp.derive s (hC.subset s hs) (hpres s hs), ok_bind] at hpt
    exact Except.ok.inj hpt) hpoints
  have hsep : Separated (C.map (pointOf x)) := by
    constructor
    · intro p hpt
      obtain ⟨s, hs, rfl⟩ := List.mem_map.mp hpt
      exact deriveX_range (hp.derive s (hC.subset s hs) (hpres s hs))
    · rw [List.map_map]
      refine List.Nodup.map_on (fun s hs s' hs' hx => ?_) hC.nodup
      exact List.inj_on_of_nodup_map hp.nodup (hC.subset s hs) (hC.subset s' hs')
        (hp.inj s (hC.subset s hs) s' (hC.subset s' hs') (hpres s hs) (hpres s' hs') hx)
  obtain ⟨poly, hdeg, hzero, hon⟩ := exists_polys hsep hk
  rw [List.length_map, hC.length_eq] at hdeg
  -- in stored order the set is its mandatory part, which is all of it, and a sublist of the others
  let l := h.slots.filter (present G)
  let c := (l.filter fun s => !s.mandatory).filter (· ∈ C)
  have hsub : (c.map (pointOf x)).Sublist (optionalPoints x G h.slots) :=
    List.filter_sublist.map _
  have hlen : (c.map (pointOf x)).length = h.threshold - (mandatoryPoints x G h.slots).length := by
    have hperm : (l.filter (· ∈ C)).Perm C := by
      refine (List.perm_ext_iff_of_nodup (((hp.nodup.of_map _).filter _).filter _) hC.nodup).mpr
        fun s => ?_
      rw [List.mem_filter, decide_eq_true_eq]
      exact ⟨fun hs => hs.2,
        fun hs => ⟨List.mem_filter.mpr ⟨hC.subset s hs, hpres s hs⟩, hs⟩⟩
    have hmand : (l.filter (· ∈ C)).filter HelperSlot.mandatory = l.filter HelperSlot.mandatory := by
      rw [List.filter_filter]
      refine List.filter_congr fun s hs => ?_
      cases hm : s.mandatory with
      | false => rfl
      | true =>
        rw [decide_eq_true (hC.mandatory s (List.mem_filter.mp hs).1 hm)]
        rfl
    have hsplit := List.length_eq_length_filter_add (l := l.filter (· ∈ C)) HelperSlot.mandatory
    rw [hperm.length_eq, hC.length_eq, hmand] at hsplit
    have hcomm : c = (l.filter (· ∈ C)).filter fun s => !s.mandatory :=
      List.filter_comm (p := (· ∈ C)) (q := fun s => !s.mandatory) l
    rw [List.length_map, mandatoryPoints, List.length_map, hcomm]
    show _ = h.threshold - (l.filter HelperSlot.mandatory).length
    omega
  have hmem : ∀ p ∈ mandatoryPoints x G h.slots ++ c.map (pointOf x), p.OnCurve poly := by
    intro p hpt
    rcases List.mem_append.mp hpt with hm | ho
    · obtain ⟨s, hs, _, hlock, rfl⟩ := mem_mandatoryPoints.mp hm
      exact hon _ (List.mem_map_of_mem (hC.mandatory s hs hlock))
    · obtain ⟨s, hs, rfl⟩ := List.mem_map.mp ho
      exact hon _ (List.mem_map_of_mem (of_decide_eq_true (List.mem_filter.mp hs).2))
  refine ⟨c.map (pointOf x), hsub, hlen, k, ?_, hred, Except.ok.inj hword⟩
  exact keyFromPoints_onCurve
    (hp.separated.sublist ((List.Sublist.refl (mandatoryPoints x G h.slots)).append hsub)) hred hdeg
    hzero (by rw [List.length_append, hlen]; omega) hmem

omit [Sha256] in
/-- A failed recovery is not `ok`. -/
theorem failedResult_ok (h : Helper) (g : Gathered) (culprit : Str) :
    (failedResult h g culprit).ok = false := by
  unfold failedResult
  split
  · rfl
  · rfl

/-- **Recovery is exact.**  For every blob the parser accepts, and factors under which the present
    slots have distinct coordinates: a recovery that succeeds reports the key and exactly the slots
    alive on polynomials through it; one that fails lacks a mandatory slot, or no candidate set
    interpolates to a key with the stored check word. -/
theorem recovery_exact {blob : Bytes} {h : Helper} (hparse : parseHelper blob = .ok h)
    {G : Dict Str} (hdistinct : DistinctCoordinates (h.slots.map HelperSlot.name) G h.salt) :
    ∃ r, recoverCore blob G = .ok r ∧
      (r.ok = true → ∃ k poly, ExactReport h G r k poly) ∧
      (r.ok = false → (∃ s ∈ h.slots, s.mandatory = true ∧ G.get s.name = []) ∨
        ∀ C, Candidate h G C → ¬ Interpolates h G C) := by
  have hv := (parseHelper_eq_ok hparse).1
  obtain ⟨x, hp⟩ := hdistinct.placed hv.names_nodup fun s hs => List.mem_map_of_mem hs
  have hcore : recoverCore blob G = recoverHelper h G := by rw [recoverCore, hparse]
  rw [hcore]
  obtain ⟨found, hfound, hnone, hsome⟩ :=
    findRecoveringSubset_ok h.threshold h.checkWord hp.separated
  -- a missing hard lock is reported before anything that the sweep has found
  by_cases hmiss : missingNames G h.slots = []
  · cases found with
    | none =>
      obtain ⟨culprit, hculprit, _⟩ := diagnose_ok hp fun s hs => hv.name_ne_nil hs
      refine ⟨_, recoverHelper_none hp.derive hmiss hfound hculprit, fun hok => ?_, fun _ => Or.inr ?_⟩
      · rw [failedResult_ok] at hok
        cases hok
      · -- a set of slots that interpolates would have been swept
        intro C hC hinter
        obtain ⟨c, hsub, hlen, hrec⟩ := exists_swept hp hC hinter
        exact hnone rfl c hsub hlen hrec
    | some f =>
      obtain ⟨points, subset⟩ := f
      obtain ⟨c, hsub, hlen, rfl, rfl, hrec⟩ := hsome points subset rfl
      obtain ⟨r, hr, hok, hexact⟩ := exactReport_of_found hv hp hmiss hsub hlen hfound hrec
      exact ⟨r, hr, fun _ => hexact, fun hno => absurd (hok.symm.trans hno) (by decide)⟩
  · refine ⟨_, recoverHelper_missing hp.derive hmiss hfound, fun hok => ?_, fun _ => Or.inl ?_⟩
    · cases hok
    · rw [missingNames_eq_nil_iff] at hmiss
      push Not at hmiss
      exact hmiss

end Hashing

/-- A helper with constant sharing polynomials, and one share changed. -/
def tamperedHelper : Helper where
  normVersion := 2
  salt := 0
  threshold := 2
  slots := [⟨str "cpu_id", false, ![1, 2, 3, 4]⟩, ⟨str "firmware", false, ![1, 2, 3, 5]⟩,
    ⟨str "slstore", true, ![1, 2, 3, 4]⟩]
  checkWord := limbBytes ![1, 2, 3, 4]

/-- The factors of the sample, with one slot changed. -/
def reportFactors : Dict Str :=
  AList.insert (str "cpu_id") (str "a") (AList.insert (str "firmware") (str "b")
    (AList.insert (str "slstore") (str "c") ∅))

/-- The tampered helper passes the parser: shares are not signed. -/
theorem tamperedHelper_valid : tamperedHelper.Valid where
  norm := by decide
  salt_lt := by decide
  allowed := by decide +kernel
  sorted := by decide +kernel
  reduced := by decide +kernel
  threshold_le := by decide +kernel
  mandatory_pos := by decide +kernel
  mandatory_lt := by decide +kernel
  slstore := by decide +kernel
  length_checkWord := by decide +kernel

/-- The changed share is reported. -/
theorem recovery_exact_sample :
    ∃ r, @recoverCore sampleHash (@Helper.bytes sampleHash tamperedHelper) reportFactors = .ok r ∧
      ∃ k poly, @ExactReport sampleHash tamperedHelper reportFactors r k poly := by
  have hparse := @parseHelper_bytes sampleHash _ tamperedHelper_valid
  obtain ⟨r, hr, hexact, -⟩ := @recovery_exact sampleHash (@Helper.bytes sampleHash tamperedHelper)
    tamperedHelper hparse reportFactors (by decide +kernel)
  have hok : (@recoverHelper sampleHash tamperedHelper reportFactors).toOption.map
      RecoverResult.ok = some true := by decide +kernel
  have hcore : @recoverCore sampleHash (@Helper.bytes sampleHash tamperedHelper) reportFactors =
      @recoverHelper sampleHash tamperedHelper reportFactors := by
    unfold recoverCore
    rw [hparse]
  rw [← hcore, hr] at hok
  exact ⟨r, hr, hexact (Option.some.inj hok)⟩

end Bedrock.Slhwid

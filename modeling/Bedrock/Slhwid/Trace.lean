/-
  What the work of a sweep shows.

  `_find_recovering_subset` and the diagnosis of `recover_core` are written as loops without a
  `break`, so that an observer who counts key reconstructions learns nothing about which factors
  survived.  Both loops test `found is None and ..` (`culprit == "" and ..`) and so skip the work once
  they have a match.

  1. **Logs** — `tracedSweep` and `tracedRecover` are the code with its work written down: the
     combinations whose check word was compared, and the slots whose sweep was run.  Without the log
     they compute the same (`outcome_tracedSweep`, `outcome_tracedRecover`).

  2. **Sweep** — `SweepCall.trace_eq_iff`: two calls of one shape show the same work exactly if they
     stop at the same place: in front of the first set with a repeated coordinate, or behind the
     first that recovers (`firstStop`, read off the points and the check word).

  3. **Diagnosis** — `diagnosisTrace_eq_all_iff`: it runs a sweep for every mandatory slot exactly if
     none is missing and none but the last is a culprit.
-/
import Bedrock.Slhwid.Division

open Lib.Fallible Lib.Combinations Lib.Search Bedrock.Python

namespace Bedrock.Slhwid

section Hashing

variable [Sha256]

/-! ## The sweep, its work written down -/

/-- `tryCombo`; it logs the combination when it has compared the check word. -/
def tracedCombo (mandatory optional : List Point) (cw : Bytes) (found : Found) (combo : List Nat) :
    EStateM Exc (List (List Nat)) Found := do
  let chosen := combo.map fun i => optional[i]!
  let points := mandatory ++ chosen
  if found.isSome then return found
  let key ← lift (keyFromPoints points)
  let word ← lift (checkWord key)
  modify (· ++ [combo])
  return if word = cw then some (points, (chosen.map Point.name).toFinset) else none

/-- `findRecoveringSubset`, with a log. -/
def tracedSweep (mandatory optional : List Point) (t : Nat) (cw : Bytes) :
    EStateM Exc (List (List Nat)) Found := do
  let need := t - mandatory.length
  if need > optional.length then return none
  (combinations need (List.range optional.length)).foldlM (tracedCombo mandatory optional cw) none

/-- The traced sweep is one pass over the same sets as the sweep of the source. -/
theorem tracedSweep_eq (mandatory optional : List Point) (t : Nat) (cw : Bytes) :
    tracedSweep mandatory optional t cw =
      (combinations (t - mandatory.length) (List.range optional.length)).foldlM
        (tracedCombo mandatory optional cw) none :=
  foldlM_combinations List.length_range (tracedCombo mandatory optional cw) none

/-- One pass before a match: it computes what `tryCombo` computes, and logs if that returns. -/
theorem tracedCombo_eq (mandatory optional : List Point) (cw : Bytes) (combo : List Nat)
    (log : List (List Nat)) :
    tracedCombo mandatory optional cw none combo log =
      noted [combo] log (tryCombo mandatory optional cw none combo) := by
  rw [tryCombo_eq]
  show (lift (keyFromPoints (candidate mandatory optional combo)) >>= fun key =>
    lift (checkWord key) >>= fun word => (modify (· ++ [combo])) >>= fun _ => _) log = _
  cases keyFromPoints (candidate mandatory optional combo) with
  | error e => rfl
  | ok key =>
    rw [ok_bind, lift_ok_bind]
    cases checkWord key with
    | error e => rfl
    | ok word => rfl

/-- **The log of a sweep**: the combinations tested, up to its first match. -/
theorem tracedSweep_run (mandatory optional : List Point) (t : Nat) (cw : Bytes)
    (log : List (List Nat)) :
    outcome (tracedSweep mandatory optional t cw log) = findRecoveringSubset mandatory optional t cw ∧
    finalLog (tracedSweep mandatory optional t cw log) = log ++
      tested (Returns (tryCombo mandatory optional cw) none)
        (Hits (tryCombo mandatory optional cw) none fun found => found.isSome = true)
        (combinations (t - mandatory.length) (List.range optional.length)) := by
  rw [tracedSweep_eq, findRecoveringSubset_eq]
  have hrun := (sweep_searches mandatory optional cw).run_logged
    (fun found combo log hfound => by
      have hskip : tracedCombo mandatory optional cw found combo = pure found := if_pos hfound
      rw [hskip]
      rfl)
    (fun combo log => tracedCombo_eq mandatory optional cw combo log)
    (combinations (t - mandatory.length) (List.range optional.length)) log
  rwa [List.flatMap_singleton'] at hrun

/-- Writing down what is tried changes no result. -/
theorem outcome_tracedSweep (mandatory optional : List Point) (t : Nat) (cw : Bytes)
    (log : List (List Nat)) :
    outcome (tracedSweep mandatory optional t cw log) =
      findRecoveringSubset mandatory optional t cw :=
  (tracedSweep_run mandatory optional t cw log).1

/-- A call of `_find_recovering_subset`, its points with coordinates as `derive_x` gives them. -/
structure SweepCall where
  /-- The points every set has .. -/
  mandatory : List Point
  /-- .. and those it chooses from. -/
  optional : List Point
  /-- The size of a set. -/
  t : Nat
  /-- The check word of the helper. -/
  cw : Bytes
  /-- What `derive_x` gives. -/
  range : ∀ p ∈ mandatory ++ optional, p.x ≠ 0 ∧ p.x < P

namespace SweepCall

/-- The index combinations for which the key is reconstructed and its check word compared. -/
def trace (c : SweepCall) : List (List Nat) :=
  finalLog (tracedSweep c.mandatory c.optional c.t c.cw [])

/-- The sets of points the sweep goes through, in its order. -/
def sets (c : SweepCall) : List (List Point) := candidates c.mandatory c.optional c.t

/-- The position of the first set with a repeated coordinate; the number of sets if there is none. -/
def firstRepeat (c : SweepCall) : Nat := c.sets.findIdx fun points => !decide (Apart points)

/-- The position of the first set that recovers a key with the check word; the number of sets if there
    is none. -/
def firstMatch (c : SweepCall) : Nat := c.sets.findIdx fun points => decide (Recovering points c.cw)

/-- Where the sweep stops: in front of the first set with a repeated coordinate (whose interpolation
    raises), or behind the first that recovers. -/
def firstStop (c : SweepCall) : Nat := min c.firstRepeat (c.firstMatch + 1)

/-- In every set the coordinates are different. -/
def AllApart (c : SweepCall) : Prop := ∀ points ∈ c.sets, Apart points

/-- No set but the last recovers. -/
def NoEarlyMatch (c : SweepCall) : Prop := c.sets.length ≤ c.firstMatch + 1

/-- The trace is the part of the sets the loop gets to: up to the first one that raises or recovers. -/
theorem trace_eq (c : SweepCall) : c.trace =
    tested (fun combo => Apart (candidate c.mandatory c.optional combo))
      (fun combo => Recovering (candidate c.mandatory c.optional combo) c.cw)
      (combinations (c.t - c.mandatory.length) (List.range c.optional.length)) := by
  rw [trace, (tracedSweep_run c.mandatory c.optional c.t c.cw []).2, List.nil_append]
  refine tested_congr (fun combo hcombo => ?_) fun combo _ => tryCombo_hits
  rw [tryCombo_returns]
  exact hasKey_iff fun p hp => (c.range p (mem_of_mem_candidate hcombo hp)).2

/-- The sweep evaluates as many sets as stand before its stop. -/
theorem length_trace (c : SweepCall) : c.trace.length = c.firstStop := by
  rw [trace_eq, length_tested, firstStop, firstRepeat, firstMatch, sets, ← map_candidate,
    List.findIdx_map, List.findIdx_map]
  rfl

/-- **Two calls of one shape show the same work** exactly if they stop at the same place. -/
theorem trace_eq_iff {c₁ c₂ : SweepCall} (hmand : c₁.mandatory.length = c₂.mandatory.length)
    (hopt : c₁.optional.length = c₂.optional.length) (ht : c₁.t = c₂.t) :
    c₁.trace = c₂.trace ↔ c₁.firstStop = c₂.firstStop := by
  have hcombos : combinations (c₁.t - c₁.mandatory.length) (List.range c₁.optional.length) =
      combinations (c₂.t - c₂.mandatory.length) (List.range c₂.optional.length) := by
    rw [hmand, hopt, ht]
  rw [← length_trace, ← length_trace, trace_eq, trace_eq, hcombos, tested_eq_iff]

omit [Sha256] in
/-- Calls of one shape go through equally many sets. -/
theorem length_sets {c₁ c₂ : SweepCall} (hmand : c₁.mandatory.length = c₂.mandatory.length)
    (hopt : c₁.optional.length = c₂.optional.length) (ht : c₁.t = c₂.t) :
    c₁.sets.length = c₂.sets.length := by
  rw [sets, sets, ← map_candidate, ← map_candidate, List.length_map, List.length_map, hmand, hopt, ht]

/-- With pairwise different coordinates only a recovering set stops the loop. -/
theorem firstStop_of_allApart {c : SweepCall} (h : c.AllApart) :
    c.firstStop = min c.sets.length (c.firstMatch + 1) := by
  rw [firstStop, firstRepeat, List.findIdx_eq_length_of_false]
  intro points hpoints
  rw [decide_eq_true (h points hpoints)]
  rfl

/-- With different coordinates throughout, the first match alone decides. -/
theorem trace_eq_iff_firstMatch {c₁ c₂ : SweepCall}
    (hmand : c₁.mandatory.length = c₂.mandatory.length)
    (hopt : c₁.optional.length = c₂.optional.length) (ht : c₁.t = c₂.t) (h₁ : c₁.AllApart)
    (h₂ : c₂.AllApart) : c₁.trace = c₂.trace ↔
      c₁.firstMatch = c₂.firstMatch ∨ c₁.NoEarlyMatch ∧ c₂.NoEarlyMatch := by
  have hsets := length_sets hmand hopt ht
  have hle : c₁.firstMatch ≤ c₁.sets.length := List.findIdx_le_length
  have hle' : c₂.firstMatch ≤ c₂.sets.length := List.findIdx_le_length
  rw [trace_eq_iff hmand hopt ht, firstStop_of_allApart h₁, firstStop_of_allApart h₂]
  unfold NoEarlyMatch
  omega

end SweepCall

/-! ## The diagnosis, its work written down -/

/-- `diagnoseSlot`; it logs the slot when the sweep without it has been run. -/
def tracedDiagnoseSlot (helper : Helper) (merged : List Point) (culprit : Str) (ms : HelperSlot) :
    EStateM Exc (List Str) Str := do
  if ¬ ms.mandatory then return culprit
  let mand2 := merged.filter fun p => p.name ≠ ms.name && isMandatory helper p.name
  let opt2 := merged.filter fun p => p.name ≠ ms.name && !isMandatory helper p.name
  if culprit ≠ [] then return culprit
  let found ← lift (findRecoveringSubset mand2 opt2 helper.threshold helper.checkWord)
  modify (· ++ [ms.name])
  return if found.isSome then ms.name else culprit

/-- `recoverHelper`, with a log of the diagnosis. -/
def tracedRecover (helper : Helper) (factors : Dict Str) : EStateM Exc (List Str) RecoverResult := do
  let g ← lift (helper.slots.foldlM (gatherSlot factors helper.salt) ⟨[], [], [], 0⟩)
  let found ← lift (findRecoveringSubset g.mandatory g.optional helper.threshold helper.checkWord)
  if g.missing ≠ [] then
    return { reason := .mandatory, present := g.present, needed := helper.threshold,
             missing := g.missing }
  match found with
  | none =>
    let culprit ← helper.slots.foldlM (tracedDiagnoseSlot helper (g.mandatory ++ g.optional)) []
    return failedResult helper g culprit
  | some (points, subset) =>
    let k ← lift (keyFromPoints points)
    let (live, dead) ← lift (helper.slots.foldlM
      (classifySlot factors helper.salt g.mandatory points subset) ([], []))
    let hwid ← lift (hwidOf k)
    return { ok := true, key := some k, hwid := hwid, live := sortStrs live, dead := sortStrs dead,
             pending := dead ≠ [] }

/-- Diagnosing a slot notes the slot if it is hard-locked, and runs as before. -/
theorem tracedDiagnoseSlot_eq (h : Helper) (merged : List Point) (ms : HelperSlot) (log : List Str) :
    tracedDiagnoseSlot h merged [] ms log =
      noted (if ms.mandatory then [ms.name] else []) log (diagnoseSlot h merged [] ms) := by
  by_cases hm : ms.mandatory = true
  · -- for a hard lock the sweep is run, then noted
    let sweep := findRecoveringSubset
      (merged.filter fun p => p.name ≠ ms.name && isMandatory h p.name)
      (merged.filter fun p => p.name ≠ ms.name && !isMandatory h p.name) h.threshold h.checkWord
    have hlogged : tracedDiagnoseSlot h merged [] ms = (do
        let found ← lift sweep
        modify (· ++ [ms.name])
        return if found.isSome then ms.name else []) :=
      (if_neg (not_not.mpr hm)).trans (if_neg (not_not.mpr rfl))
    have hplain : diagnoseSlot h merged [] ms = (do
        let found ← sweep
        return if found.isSome then ms.name else []) :=
      (if_neg (not_not.mpr hm)).trans (if_neg (not_not.mpr rfl))
    rw [hlogged, hplain, if_pos hm]
    cases sweep with
    | error e => rfl
    | ok found => rfl
  · -- for any other slot neither happens
    have hskip : tracedDiagnoseSlot h merged [] ms = pure [] := if_pos hm
    have hskip' : diagnoseSlot h merged [] ms = .ok [] := if_pos hm
    rw [hskip, hskip', if_neg hm]
    show EStateM.Result.ok [] log = EStateM.Result.ok [] (log ++ [])
    rw [List.append_nil]

/-- **The log of a diagnosis**: the mandatory slots tested, up to the first culprit. -/
theorem tracedDiagnose_run (h : Helper) (merged : List Point) (log : List Str) :
    outcome (h.slots.foldlM (tracedDiagnoseSlot h merged) [] log) =
      h.slots.foldlM (diagnoseSlot h merged) [] ∧
    finalLog (h.slots.foldlM (tracedDiagnoseSlot h merged) [] log) = log ++
      (tested (Returns (diagnoseSlot h merged) [])
        (Hits (diagnoseSlot h merged) [] fun culprit => culprit ≠ []) h.slots).flatMap
          fun ms => if ms.mandatory then [ms.name] else [] := by
  refine (diagnosis_searches h merged).run_logged (fun culprit ms log hculprit => ?_)
    (fun ms log => tracedDiagnoseSlot_eq h merged ms log) h.slots log
  have hskip : tracedDiagnoseSlot h merged culprit ms = pure culprit := by
    unfold tracedDiagnoseSlot
    dsimp only
    rw [if_pos hculprit]
    split
    · rfl
    · rfl
  rw [hskip]
  rfl

/-- **Without the log** the recovery is the recovery. -/
theorem outcome_tracedRecover (h : Helper) (G : Dict Str) (log : List Str) :
    outcome (tracedRecover h G log) = recoverHelper h G := by
  unfold tracedRecover recoverHelper
  -- stage by stage; the log is only passed along
  cases h.slots.foldlM (gatherSlot G h.salt) ⟨[], [], [], 0⟩ with
  | error e => rfl
  | ok g =>
    rw [lift_ok_bind, ok_bind]
    cases findRecoveringSubset g.mandatory g.optional h.threshold h.checkWord with
    | error e => rfl
    | ok found =>
      rw [lift_ok_bind, ok_bind]
      by_cases hmiss : g.missing ≠ []
      · rw [if_pos hmiss, if_pos hmiss]
        rfl
      · rw [if_neg hmiss, if_neg hmiss]
        cases found with
        | none =>
          have hrun := (tracedDiagnose_run h (g.mandatory ++ g.optional) log).1
          dsimp only
          rw [← hrun, run_bind]
          cases h.slots.foldlM (tracedDiagnoseSlot h (g.mandatory ++ g.optional)) [] log with
          | error e log' => rfl
          | ok culprit log' => rfl
        | some f =>
          dsimp only
          cases keyFromPoints f.1 with
          | error e => rfl
          | ok k =>
            rw [lift_ok_bind, ok_bind]
            cases h.slots.foldlM (classifySlot G h.salt g.mandatory f.1 f.2) ([], []) with
            | error e => rfl
            | ok sorted =>
              rw [lift_ok_bind, ok_bind]
              cases hwidOf k with
              | error e => rfl
              | ok hwid => rfl

/-- The mandatory slots whose sweep the diagnosis runs. -/
def diagnosisTrace (h : Helper) (G : Dict Str) : List Str := finalLog (tracedRecover h G [])

/-- The main sweep ends without a match. -/
def MainSweepFails (h : Helper) (G : Dict Str) : Prop :=
  ∃ g, h.slots.foldlM (gatherSlot G h.salt) ⟨[], [], [], 0⟩ = .ok g ∧
    findRecoveringSubset g.mandatory g.optional h.threshold h.checkWord = .ok none

/-- The hard-locked slots, in the order the diagnosis tries them. -/
def lockedSlots (h : Helper) : List HelperSlot := h.slots.filter HelperSlot.mandatory

/-- Every sweep of the diagnosis is safe, and none but the last finds a key. -/
def NoEarlyCulprit (h : Helper) (G : Dict Str) : Prop :=
  (∀ ms ∈ lockedSlots h, SafeSweep h (coordinate G h.salt) G (slotsWithout h ms)) ∧
  ∀ ms ∈ (lockedSlots h).dropLast, ¬ FindsKey h (coordinate G h.salt) G (slotsWithout h ms)

omit [Sha256] in
/-- Writing only the mandatory names down is keeping the mandatory slots. -/
theorem flatMap_mandatory (slots : List HelperSlot) :
    (slots.flatMap fun ms => if ms.mandatory then [ms.name] else []) =
      (slots.filter HelperSlot.mandatory).map HelperSlot.name := by
  induction slots with
  | nil => rfl
  | cons ms slots ih =>
    rw [List.flatMap_cons, ih]
    cases hm : ms.mandatory with
    | true => rw [List.filter_cons_of_pos hm]; rfl
    | false => rw [List.filter_cons_of_neg (by simp [hm])]; rfl

/-- The points a recovery gathers. -/
def mergedPoints (h : Helper) (G : Dict Str) : List Point :=
  mandatoryPoints (coordinate G h.salt) G h.slots ++ optionalPoints (coordinate G h.salt) G h.slots

/-- **What the diagnosis shows** when the main sweep fails: nothing if a mandatory slot is missing,
    and otherwise the mandatory slots tested. -/
theorem diagnosisTrace_eq {h : Helper} (hv : h.Valid) {G : Dict Str}
    (hd : Derives h.slots h.salt G (coordinate G h.salt))
    (hfails : MainSweepFails h G) :
    diagnosisTrace h G = if missingNames G h.slots = [] then
      (tested (Returns (diagnoseSlot h (mergedPoints h G)) [])
        (Hits (diagnoseSlot h (mergedPoints h G)) [] fun culprit => culprit ≠ [])
        (lockedSlots h)).map HelperSlot.name
    else [] := by
  -- the two sweeps in front are those of the main loop, and write nothing
  obtain ⟨g, hg, hnone⟩ := hfails
  obtain rfl : gathered (coordinate G h.salt) G h.slots = g :=
    Except.ok.inj ((gather_ok hd).symm.trans hg)
  rw [diagnosisTrace, tracedRecover, gather_ok hd, lift_ok_bind, hnone, lift_ok_bind]
  by_cases hmiss : missingNames G h.slots = []
  · rw [if_neg (show ¬ (gathered _ G h.slots).missing ≠ [] from not_not.mpr hmiss), if_pos hmiss]
    -- slots that are not hard-locked can be left out of the scan: they never stop it
    have hskip : ∀ ms ∈ h.slots, ms.mandatory = false →
        Returns (diagnoseSlot h (mergedPoints h G)) [] ms ∧
          ¬ Hits (diagnoseSlot h (mergedPoints h G)) [] (fun culprit => culprit ≠ []) ms := by
      intro ms hms hm
      refine ⟨(diagnoseSlot_returns hv hd).mpr fun hm' => ?_, fun hhit => ?_⟩
      · exact absurd (hm.symm.trans hm') (by decide)
      · exact absurd (hm.symm.trans ((diagnoseSlot_hits hv hd hms).mp hhit).2.1) (by decide)
    have hlog : ∀ (x : EStateM Exc (List Str) Str) (f : Str → RecoverResult),
        finalLog ((x >>= fun culprit => pure (f culprit)) []) = finalLog (x []) := by
      intro x f
      rw [run_bind]
      cases x [] with
      | ok culprit log => rfl
      | error e log => rfl
    refine (hlog _ _).trans ?_
    refine (tracedDiagnose_run h (mergedPoints h G) []).2.trans ?_
    rw [List.nil_append, flatMap_mandatory, tested_filter hskip]
    rfl
  · rw [if_pos (show (gathered _ G h.slots).missing ≠ [] from hmiss), if_neg hmiss]
    rfl

/-- **The diagnosis runs every sweep** exactly if no mandatory slot is missing and none but the last
    is a culprit. -/
theorem diagnosisTrace_eq_all_iff {h : Helper} (hv : h.Valid) {G : Dict Str}
    (hfails : MainSweepFails h G) :
    diagnosisTrace h G = (lockedSlots h).map HelperSlot.name ↔
      missingNames G h.slots = [] ∧ NoEarlyCulprit h G := by
  have hd : Derives h.slots h.salt G (coordinate G h.salt) := by
    obtain ⟨g, hg, _⟩ := hfails
    exact derives_of_encode hv (encode_of_gather hg)
  have hmem : ∀ ms ∈ lockedSlots h, ms ∈ h.slots ∧ ms.mandatory = true :=
    fun ms hms => List.mem_filter.mp hms
  rw [diagnosisTrace_eq hv hd hfails]
  by_cases hmiss : missingNames G h.slots = []
  · rw [if_pos hmiss, and_iff_right hmiss, NoEarlyCulprit]
    -- among the initial parts of a list, one of the same length is the list itself
    have hall : ∀ l : List HelperSlot, l <+: lockedSlots h →
        (l.map HelperSlot.name = (lockedSlots h).map HelperSlot.name ↔ l = lockedSlots h) := by
      intro l hpre
      refine ⟨fun heq => hpre.eq_of_length ?_, fun heq => by rw [heq]⟩
      rw [← List.length_map HelperSlot.name, heq, List.length_map]
    rw [hall _ (tested_initial _), tested_eq_self_iff]
    have hreturns : (∀ ms ∈ lockedSlots h, Returns (diagnoseSlot h (mergedPoints h G)) [] ms) ↔
        ∀ ms ∈ lockedSlots h, SafeSweep h (coordinate G h.salt) G (slotsWithout h ms) := by
      refine forall₂_congr fun ms hms => ?_
      rw [mergedPoints, diagnoseSlot_returns hv hd]
      exact forall_prop_of_true (hmem ms hms).2
    rw [hreturns]
    refine and_congr_right fun hsafe => forall₂_congr fun ms hms => not_congr ?_
    obtain ⟨hslot, hm⟩ := hmem ms (List.dropLast_subset _ hms)
    rw [mergedPoints, diagnoseSlot_hits hv hd hslot]
    exact ⟨fun hhit => hhit.2.2, fun hfinds =>
      ⟨fun _ => hsafe ms (List.dropLast_subset _ hms), hm, hfinds⟩⟩
  · -- with a missing slot no sweep is run, and there is at least one hard lock
    rw [if_neg hmiss]
    constructor
    · intro hempty
      have hnone : lockedSlots h = [] := List.map_eq_nil_iff.mp hempty.symm
      have hpos := hv.mandatory_pos
      rw [Helper.mandatoryCount, List.countP_eq_length_filter] at hpos
      exact absurd hpos (by rw [lockedSlots] at hnone; rw [hnone]; exact Nat.lt_irrefl 0)
    · rintro ⟨hnone, _⟩
      exact absurd hnone hmiss

/-! ## Two runs -/

omit [Sha256] in
theorem missingNames_congr {G₁ G₂ : Dict Str} {slots : List HelperSlot}
    (h : ∀ s ∈ slots, present G₁ s = present G₂ s) :
    missingNames G₁ slots = missingNames G₂ slots := by
  rw [missingNames, missingNames, List.filter_congr fun s hs => by rw [h s hs]]

/-- **When the work reveals nothing.**  Two calls of the sweep with equally many points and one `t`
    show the same work if and only if they stop at the same place — with different coordinates
    throughout, if their first match is the same or neither has one before its last set; and on two
    factor maps with the same slots present, both without a match, the diagnosis shows one sweep for
    every mandatory slot if and only if none is missing and in neither run one but the last is a
    culprit. -/
theorem same_work_iff :
    (∀ c₁ c₂ : SweepCall, c₁.mandatory.length = c₂.mandatory.length →
      c₁.optional.length = c₂.optional.length → c₁.t = c₂.t →
        (c₁.trace = c₂.trace ↔ c₁.firstStop = c₂.firstStop) ∧
        (c₁.AllApart → c₂.AllApart → (c₁.trace = c₂.trace ↔
          c₁.firstMatch = c₂.firstMatch ∨ c₁.NoEarlyMatch ∧ c₂.NoEarlyMatch))) ∧
    ∀ (blob : Bytes) (h : Helper), parseHelper blob = .ok h → ∀ G₁ G₂ : Dict Str,
      (∀ s ∈ h.slots, present G₁ s = present G₂ s) → MainSweepFails h G₁ → MainSweepFails h G₂ →
        ((diagnosisTrace h G₁ = diagnosisTrace h G₂ ∧
            diagnosisTrace h G₁ = (lockedSlots h).map HelperSlot.name) ↔
          missingNames G₁ h.slots = [] ∧ NoEarlyCulprit h G₁ ∧ NoEarlyCulprit h G₂) := by
  refine ⟨fun c₁ c₂ hmand hopt ht => ⟨SweepCall.trace_eq_iff hmand hopt ht,
    SweepCall.trace_eq_iff_firstMatch hmand hopt ht⟩, ?_⟩
  intro blob h hparse G₁ G₂ hpresent hfails₁ hfails₂
  have hv := (parseHelper_eq_ok hparse).1
  have hall₁ := diagnosisTrace_eq_all_iff hv hfails₁
  have hall₂ := diagnosisTrace_eq_all_iff hv hfails₂
  rw [← missingNames_congr hpresent] at hall₂
  constructor
  · rintro ⟨hsame, hfull⟩
    obtain ⟨hmiss, hfirst⟩ := hall₁.mp hfull
    exact ⟨hmiss, hfirst, (hall₂.mp (hsame.symm.trans hfull)).2⟩
  · rintro ⟨hmiss, hfirst, hsecond⟩
    have hfull := hall₁.mpr ⟨hmiss, hfirst⟩
    exact ⟨hfull.trans (hall₂.mpr ⟨hmiss, hsecond⟩).symm, hfull⟩

end Hashing

/-- A sweep over two optional points, either of which is a set of its own. -/
def sampleCall (cw : Bytes) : SweepCall where
  mandatory := []
  optional := [⟨1, ![1, 2, 3, 4], str "cpu_id"⟩, ⟨2, ![5, 6, 7, 8], str "firmware"⟩]
  t := 1
  cw := cw
  range := by decide +kernel

/-- A sweep of the same shape over other points. -/
def otherCall : SweepCall where
  mandatory := []
  optional := [⟨3, ![9, 9, 9, 9], str "cpu_id"⟩, ⟨7, ![1, 1, 1, 1], str "slstore"⟩]
  t := 1
  cw := limbBytes ![2, 2, 2, 2]
  range := by decide +kernel

/-- **A match shows**: the second set is not evaluated after the first has matched. -/
theorem match_not_same_work :
    @SweepCall.trace sampleHash (sampleCall (limbBytes ![1, 2, 3, 4])) = [[0]] ∧
    @SweepCall.trace sampleHash (sampleCall (limbBytes ![0, 0, 0, 0])) = [[0], [1]] := by
  constructor
  · decide +kernel
  · decide +kernel

/-- A helper with two hard locks, the share of the first of which is not on the constant polynomials of
    the others, and the check word of another key. -/
def lostHelper : Helper where
  normVersion := 2
  salt := 0
  threshold := 3
  slots := [⟨str "cpu_id", true, ![9, 9, 9, 9]⟩, ⟨str "firmware", false, ![1, 2, 3, 4]⟩,
    ⟨str "slstore", true, ![1, 2, 3, 4]⟩, ⟨str "volume_id", false, ![1, 2, 3, 4]⟩]
  checkWord := limbBytes ![0, 0, 0, 0]

/-- The sample helper is one that the parser accepts. -/
theorem lostHelper_valid : lostHelper.Valid where
  norm := by decide
  salt_lt := by decide
  allowed := by decide +kernel
  sorted := by decide +kernel
  reduced := by decide +kernel
  threshold_le := by decide
  mandatory_pos := by decide
  mandatory_lt := by decide
  slstore := ⟨_, List.mem_cons_of_mem _ (List.mem_cons_of_mem _ List.mem_cons_self), rfl, rfl⟩
  length_checkWord := length_limbBytes _

/-- The same slots with the check word of the constants: the machine recovers without its first lock. -/
def culpritHelper : Helper := { lostHelper with checkWord := limbBytes ![1, 2, 3, 4] }

/-- And so is the one with the other check word. -/
theorem culpritHelper_valid : culpritHelper.Valid where
  norm := lostHelper_valid.norm
  salt_lt := lostHelper_valid.salt_lt
  allowed := lostHelper_valid.allowed
  sorted := lostHelper_valid.sorted
  reduced := lostHelper_valid.reduced
  threshold_le := lostHelper_valid.threshold_le
  mandatory_pos := lostHelper_valid.mandatory_pos
  mandatory_lt := lostHelper_valid.mandatory_lt
  slstore := lostHelper_valid.slstore
  length_checkWord := length_limbBytes _

/-- The values of a sample machine, one for each slot of the sample helper. -/
def lockedFactors (cpu firmware slstore volume : String) : Dict Str :=
  AList.insert (str "cpu_id") (str cpu) (AList.insert (str "firmware") (str firmware)
    (AList.insert (str "slstore") (str slstore) (AList.insert (str "volume_id") (str volume) ∅)))

/-- Two machines that share no value. -/
def oneMachine : Dict Str := lockedFactors "a" "b" "c" "d"

/-- The other machine, of the same shape. -/
def anotherMachine : Dict Str := lockedFactors "e" "f" "g" "h"

/-- The main sweep run to its end. -/
theorem mainSweepFails_of {h : Helper} {G : Dict Str} [Sha256]
    (hrun : ((h.slots.foldlM (gatherSlot G h.salt) ⟨[], [], [], 0⟩).bind fun g =>
      (findRecoveringSubset g.mandatory g.optional h.threshold h.checkWord).map
        Option.isNone).toOption = some true) : MainSweepFails h G := by
  cases hg : h.slots.foldlM (gatherSlot G h.salt) ⟨[], [], [], 0⟩ with
  | error e => rw [hg] at hrun; cases hrun
  | ok g =>
    rw [hg] at hrun
    cases hfound : findRecoveringSubset g.mandatory g.optional h.threshold h.checkWord with
    | error e => simp [Except.bind, hfound, Except.map, Except.toOption] at hrun
    | ok found =>
      cases found with
      | none => exact ⟨g, hg, hfound⟩
      | some f => simp [Except.bind, hfound, Except.map, Except.toOption] at hrun

/-- Two sweeps over different points that stop at their end show the same, and a match at the first set
    shows; two machines without a culprit show the same diagnosis of both hard locks, and a first
    lock that is a culprit shows. -/
theorem same_work_sample :
    (@SweepCall.firstStop sampleHash (sampleCall (limbBytes ![0, 0, 0, 0])) = 2 ∧
      @SweepCall.firstStop sampleHash otherCall = 2 ∧
      @SweepCall.trace sampleHash (sampleCall (limbBytes ![0, 0, 0, 0])) =
        @SweepCall.trace sampleHash otherCall) ∧
    (@SweepCall.firstStop sampleHash (sampleCall (limbBytes ![1, 2, 3, 4])) = 1 ∧
      @SweepCall.trace sampleHash (sampleCall (limbBytes ![1, 2, 3, 4])) ≠
        @SweepCall.trace sampleHash otherCall) ∧
    (@diagnosisTrace sampleHash lostHelper oneMachine =
        [str "cpu_id", str "slstore"] ∧
      @diagnosisTrace sampleHash lostHelper anotherMachine =
        [str "cpu_id", str "slstore"] ∧
      @NoEarlyCulprit sampleHash lostHelper oneMachine ∧
      @NoEarlyCulprit sampleHash lostHelper anotherMachine) ∧
    @diagnosisTrace sampleHash culpritHelper oneMachine = [str "cpu_id"] ∧
      ¬ @NoEarlyCulprit sampleHash culpritHelper oneMachine := by
  let _ := sampleHash
  obtain ⟨hsweep, hdiagnosis⟩ := @same_work_iff sampleHash
  have hlost : (sampleCall (limbBytes ![0, 0, 0, 0])).firstStop = 2 := by decide +kernel
  have hother : otherCall.firstStop = 2 := by decide +kernel
  have hmatch : (sampleCall (limbBytes ![1, 2, 3, 4])).firstStop = 1 := by decide +kernel
  have hone : MainSweepFails lostHelper oneMachine := mainSweepFails_of (by decide +kernel)
  have hanother : MainSweepFails lostHelper anotherMachine := mainSweepFails_of (by decide +kernel)
  have hculprit : MainSweepFails culpritHelper oneMachine := mainSweepFails_of (by decide +kernel)
  have htrace : diagnosisTrace lostHelper oneMachine = [str "cpu_id", str "slstore"] := by
    decide +kernel
  have htrace' : diagnosisTrace lostHelper anotherMachine = [str "cpu_id", str "slstore"] := by
    decide +kernel
  have hshort : diagnosisTrace culpritHelper oneMachine = [str "cpu_id"] := by decide +kernel
  have hpresent : ∀ s ∈ lostHelper.slots, present oneMachine s = present anotherMachine s := by
    decide +kernel
  have hlocks : lockedSlots lostHelper = [⟨str "cpu_id", true, ![9, 9, 9, 9]⟩,
    ⟨str "slstore", true, ![1, 2, 3, 4]⟩] := rfl
  obtain ⟨-, hfirst, hsecond⟩ := (hdiagnosis _ _ (parseHelper_bytes lostHelper_valid) oneMachine
    anotherMachine hpresent hone hanother).mp ⟨htrace.trans htrace'.symm, by rw [htrace, hlocks]; rfl⟩
  have hiff : ∀ cw, (sampleCall cw).trace = otherCall.trace ↔
      (sampleCall cw).firstStop = otherCall.firstStop := fun cw =>
    (hsweep (sampleCall cw) otherCall rfl rfl rfl).1
  have hdiffer : (sampleCall (limbBytes ![1, 2, 3, 4])).trace ≠ otherCall.trace := by
    intro heq
    have hstop := (hiff _).mp heq
    rw [hmatch, hother] at hstop
    cases hstop
  have hearly : ¬ NoEarlyCulprit culpritHelper oneMachine := by
    intro hno
    -- with no culprit the diagnosis would have run both sweeps
    have hfull := ((hdiagnosis _ _ (parseHelper_bytes culpritHelper_valid) oneMachine oneMachine
      (fun _ _ => rfl) hculprit hculprit).mpr ⟨by decide +kernel, hno, hno⟩).2
    rw [hshort, lockedSlots] at hfull
    have hlen := congrArg List.length hfull
    rw [List.length_map] at hlen
    revert hlen
    decide +kernel
  have hsame := (hiff _).mpr (hlost.trans hother.symm)
  exact ⟨⟨hlost, hother, hsame⟩, ⟨hmatch, hdiffer⟩, ⟨htrace, htrace', hfirst, hsecond⟩, hshort,
    hearly⟩

end Bedrock.Slhwid
